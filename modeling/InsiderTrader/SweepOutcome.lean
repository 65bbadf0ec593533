import InsiderTrader.SecondSweep

/-!
# What a sweep comes to

A sweep applies the latest event of an order and its cumulative filled quantity
as two steps of the lifecycle. Whether the order comes to what is reported of it
depends on whether the event leaves it in a state that the quantity can be
applied in: an order that is closed first admits no quantity any more.

## Main definitions

- `OrderBook.Reports` — a snapshot that fits the book
- `OrderBook.Admits` — the state of an order admits what is reported of it

## Main results

- `OrderBook.reached_iff_admits` — the orders that come to what is reported
- `OrderBook.snapshot_reconciled_iff` — the snapshots that reconcile a book
-/

namespace InsiderTrader

open MachineInt Fallible

-- One order that is reported

namespace OrderRecord

variable {record : OrderRecord} {order : BrokerOrderSnapshot} {cumulative : Int}

/-- The state that an event closes its order in. -/
def closing : BrokerEvent → Option OrderState
  | .rejected _ _ => some .rejected
  | .cancelled _ => some .cancelled
  | _ => none

/-- What is reported of an order fits its record: the event is about it, the cumulative quantity is
between what is filled and what was ordered, less than that when the event closes the order, and the
broker id is the known one. -/
structure Fitting (record : OrderRecord) (order : BrokerOrderSnapshot) (cumulative : Int) :
    Prop where
  own : order.event.clientOrderId = order.clientOrderId
  counted : order.filledQuantityTicks = some cumulative
  fits : Fits 64 cumulative
  filled_le : record.filledQuantityTicks ≤ cumulative
  le_quantity : cumulative ≤ record.intent.quantityTicks
  closed_lt : (closing order.event).isSome → cumulative < record.intent.quantityTicks
  known : ∀ orderId brokerOrderId, order.event = .acknowledged orderId brokerOrderId →
    acknowledgedBefore record.state = true → record.brokerOrderId = some brokerOrderId

/-- A record has what was reported: the cumulative quantity, and the state that closes it. -/
def Has (record : OrderRecord) (event : BrokerEvent) (cumulative : Int) : Prop :=
  record.filledQuantityTicks = cumulative ∧ ∀ next ∈ closing event, record.state = next

/-- **The state of a record admits** an event and then a cumulative quantity. A fill needs a price.
An acknowledged order admits the quantity where its state does, and one that can be acknowledged
always. A closed order admits none that is new. -/
def Admits (record : OrderRecord) (cumulative : Int) : BrokerEvent → Prop
  | .filled _ _ price => cumulative = record.filledQuantityTicks ∨ 0 < price
  | .acknowledged _ _ => cumulative = record.filledQuantityTicks ∨
    legalTransition record.state .acknowledged = true ∨
      acknowledgedBefore record.state = true ∧
        legalTransition record.state (record.countState cumulative) = true
  | .rejected _ _ => cumulative = record.filledQuantityTicks ∧
    legalTransition record.state .rejected = true
  | .cancelled _ => cumulative = record.filledQuantityTicks ∧
    legalTransition record.state .cancelled = true

/-- A cumulative quantity in range is reached exactly when it is known or its step is legal. -/
theorem applyCumulativeFill_reaches_iff (hle : record.filledQuantityTicks ≤ cumulative)
    (hwithin : cumulative ≤ record.intent.quantityTicks) :
    (applyCumulativeFill cumulative record).2.filledQuantityTicks = cumulative ↔
      cumulative = record.filledQuantityTicks ∨
        legalTransition record.state (record.countState cumulative) = true := by
  by_cases h : record.TakesCount cumulative
  · rw [applyCumulativeFill_of_takesCount h]
    exact ⟨fun _ => .inr h.legal, fun _ => rfl⟩
  · rw [applyCumulativeFill_of_not_takesCount h]
    constructor
    · exact fun heq => .inl heq.symm
    · rintro (heq | hlegal)
      · exact heq.symm
      · by_contra hne
        exact h ⟨by omega, hwithin, hlegal⟩

/-- A closed order takes no cumulative quantity. -/
theorem applyCumulativeFill_of_terminal (h : record.state.terminal = true) (cumulative : Int) :
    (applyCumulativeFill cumulative record).2 = record := by
  refine applyCumulativeFill_of_not_takesCount fun htakes => ?_
  have hopen := open_of_legalTransition htakes.legal
  rw [h] at hopen
  cases hopen

end OrderRecord

namespace OrderBook

variable {book : OrderBook} {order : BrokerOrderSnapshot} {orders : List BrokerOrderSnapshot}
  {record record' : OrderRecord} {cumulative : Int}

/-- An order whose event closes it ends in that state, and then takes no quantity. -/
theorem has_closing_iff {next : OrderState} (hget : book.get order.clientOrderId = some record)
    (hfits : record.Fitting order cumulative) (hopen : record.state.terminal = false)
    (hget' : (book.observe order).2.get order.clientOrderId = some record')
    (hclosing : OrderRecord.closing order.event = some next) :
    record'.Has order.event cumulative ↔
      cumulative = record.filledQuantityTicks ∧ legalTransition record.state next = true := by
  have htarget : OrderRecord.target order.event = some next := by
    cases hevent : order.event <;> rw [hevent] at hclosing <;> cases hclosing <;> rfl
  have hterminal : next.terminal = true := by
    cases hevent : order.event <;> rw [hevent] at hclosing <;> cases hclosing <;> rfl
  have hevent : record.snapshotEvent order = .ok (some order.event) :=
    snapshotEvent_of_target htarget
  have hnamed : book.get order.event.clientOrderId = some record := by rw [hfits.own, hget]
  obtain ⟨brokerOrderId, -, ⟨hlegal, hrun⟩ | ⟨hillegal, hrun, hok⟩⟩ :=
    OrderRecord.applyBrokerEvent_cases htarget record
  · rw [observe_of_ok hget hevent hnamed (by rw [hrun]), hrun, hfits.own,
      counted_of_get (by rw [get_put, if_pos rfl]), hfits.counted, Option.elim_some, get_put,
      if_pos rfl, OrderRecord.applyCumulativeFill_of_terminal hterminal] at hget'
    cases hget'
    constructor
    · rintro ⟨hfilled, -⟩
      exact ⟨hfilled.symm, hlegal⟩
    · rintro ⟨hfilled, -⟩
      refine ⟨hfilled.symm, fun _ hnext => ?_⟩
      cases hclosing.symm.trans hnext
      rfl
  · have hne : record.state ≠ next := by
      rintro rfl
      rw [hterminal] at hopen
      cases hopen
    have hfailed : (OrderRecord.applyBrokerEvent order.event record).1 ≠ .ok () := by
      rw [Ne, hok]
      cases hreported : order.event <;> rw [hreported] at hclosing <;> cases hclosing <;> exact hne
    rw [observe_of_failed hget hevent hnamed hfailed, hrun, hfits.own, get_put, if_pos rfl] at hget'
    cases hget'
    constructor
    · rintro ⟨-, hstate⟩
      exact absurd (hstate next hclosing) hne
    · rintro ⟨-, hlegal⟩
      rw [hillegal] at hlegal
      cases hlegal

/-- An acknowledgement that leads to a state, or repeats what is known, is followed by the cumulative
quantity. -/
theorem has_acknowledged_iff {orderId brokerOrderId : String}
    (hget : book.get order.clientOrderId = some record)
    (hfits : record.Fitting order cumulative)
    (hget' : (book.observe order).2.get order.clientOrderId = some record')
    (hreported : order.event = .acknowledged orderId brokerOrderId) :
    record'.Has order.event cumulative ↔ record.Admits cumulative order.event := by
  have htarget : OrderRecord.target order.event = some .acknowledged := by rw [hreported]; rfl
  have hevent : record.snapshotEvent order = .ok (some order.event) :=
    snapshotEvent_of_target htarget
  have hnamed : book.get order.event.clientOrderId = some record := by rw [hfits.own, hget]
  have hhas : record'.Has order.event cumulative ↔ record'.filledQuantityTicks = cumulative := by
    rw [OrderRecord.Has, hreported]
    exact and_iff_left fun _ hnext => by cases hnext
  have hadmits : record.Admits cumulative order.event ↔ cumulative = record.filledQuantityTicks ∨
      legalTransition record.state .acknowledged = true ∨
        OrderRecord.acknowledgedBefore record.state = true ∧
          legalTransition record.state (record.countState cumulative) = true := by
    rw [hreported]
    rfl
  rw [hhas, hadmits]
  obtain ⟨known, hid, ⟨hlegal, hrun⟩ | ⟨hillegal, hrun, hok⟩⟩ :=
    OrderRecord.applyBrokerEvent_cases htarget record
  · -- both steps of an acknowledged order are legal
    rw [observe_of_ok hget hevent hnamed (by rw [hrun]), hrun, hfits.own,
      counted_of_get (by rw [get_put, if_pos rfl]), hfits.counted, Option.elim_some, get_put,
      if_pos rfl] at hget'
    cases hget'
    refine iff_of_true ?_ (.inr (.inl hlegal))
    show (OrderRecord.applyCumulativeFill cumulative
      { record.setState .acknowledged with
        brokerOrderId := known }).2.filledQuantityTicks = cumulative
    refine (OrderRecord.applyCumulativeFill_reaches_iff ?_ ?_).mpr (.inr ?_)
    · exact hfits.filled_le
    · exact hfits.le_quantity
    · show legalTransition .acknowledged (record.countState cumulative) = true
      unfold OrderRecord.countState
      split <;> rfl
  · by_cases hbefore : OrderRecord.acknowledgedBefore record.state = true
    · have hrepeats : record.Repeats order.event := by
        rw [hreported]
        exact ⟨hbefore, hfits.known _ _ hreported hbefore⟩
      have hkept : (OrderRecord.applyBrokerEvent order.event record).2 = record := by
        rw [hrun, hid hbefore]
      rw [observe_of_ok hget hevent hnamed (hok.mpr hrepeats), hkept, hfits.own,
        counted_of_get (by rw [get_put, if_pos rfl]), hfits.counted, Option.elim_some, get_put,
        if_pos rfl] at hget'
      cases hget'
      rw [OrderRecord.applyCumulativeFill_reaches_iff hfits.filled_le hfits.le_quantity]
      simp [hillegal, hbefore]
    · have hfailed : (OrderRecord.applyBrokerEvent order.event record).1 ≠ .ok () := by
        rw [Ne, hok, hreported]
        exact fun hrepeats => hbefore hrepeats.1
      rw [observe_of_failed hget hevent hnamed hfailed, hrun, hfits.own, get_put, if_pos rfl]
        at hget'
      cases hget'
      constructor
      · exact fun hfilled => .inl hfilled.symm
      · rintro (hfilled | hlegal | ⟨hknown, -⟩)
        · exact hfilled.symm
        · rw [hillegal] at hlegal
          cases hlegal
        · exact absurd hknown hbefore

/-- A fill comes to the cumulative quantity when it has a price, or nothing is new. -/
theorem has_filled_iff {orderId : String} {ticks price : Int}
    (hget : book.get order.clientOrderId = some record)
    (hfits : record.Fitting order cumulative) (hopen : record.state.terminal = false)
    (hget' : (book.observe order).2.get order.clientOrderId = some record')
    (hreported : order.event = .filled orderId ticks price) :
    record'.Has order.event cumulative ↔ record.Admits cumulative order.event := by
  have hhas : record'.Has order.event cumulative ↔ record'.filledQuantityTicks = cumulative := by
    rw [OrderRecord.Has, hreported]
    exact and_iff_left fun _ hnext => by cases hnext
  have hadmits : record.Admits cumulative order.event ↔
      cumulative = record.filledQuantityTicks ∨ 0 < price := by
    rw [hreported]
    rfl
  have hown : orderId = order.clientOrderId := by
    have hown := hfits.own
    rw [hreported] at hown
    exact hown
  subst hown
  have hle := hfits.filled_le
  have hwithin := hfits.le_quantity
  have hunfilled : record.state ≠ .filled := by
    intro hstate
    rw [hstate] at hopen
    cases hopen
  have hcut : record.snapshotEvent order =
      if record.filledQuantityTicks < cumulative then
        .ok (some (.filled order.clientOrderId (cumulative - record.filledQuantityTicks) price))
      else .ok none := by
    rw [OrderRecord.snapshotEvent, hreported, hfits.counted]
    exact if_neg (by omega)
  rw [hhas, hadmits]
  by_cases hnew : record.filledQuantityTicks < cumulative
  · rw [if_pos hnew] at hcut
    have hne : cumulative ≠ record.filledQuantityTicks := by omega
    rw [or_iff_right hne]
    by_cases hprice : 0 < price
    · refine iff_of_true ?_ hprice
      have htotal : record.filledQuantityTicks + (cumulative - record.filledQuantityTicks) =
          cumulative := by omega
      have htakes : record.TakesFill (cumulative - record.filledQuantityTicks) price :=
        ⟨by omega, hprice, hunfilled, htotal.symm ▸ hfits.fits, htotal.symm ▸ hwithin⟩
      have hleads := OrderRecord.leads_applyBrokerEvent (.filled order.clientOrderId
        (cumulative - record.filledQuantityTicks) price) record
      have hfilled : (OrderRecord.applyBrokerEvent (.filled order.clientOrderId
          (cumulative - record.filledQuantityTicks) price) record).2.filledQuantityTicks =
            cumulative := by
        rw [OrderRecord.applyBrokerEvent_of_takesFill htakes]
        split <;> exact htotal
      by_cases hok : (OrderRecord.applyBrokerEvent (.filled order.clientOrderId
          (cumulative - record.filledQuantityTicks) price) record).1 = .ok ()
      · rw [observe_of_ok hget hcut hget hok, counted_of_get (by rw [get_put]; exact if_pos rfl),
          hfits.counted, Option.elim_some, get_put, if_pos rfl] at hget'
        cases hget'
        refine (OrderRecord.applyCumulativeFill_reaches_iff hfilled.le ?_).mpr (.inl hfilled.symm)
        rw [hleads.intent_eq]
        exact hwithin
      · rw [observe_of_failed hget hcut hget hok, get_put] at hget'
        cases (if_pos rfl : _ = some _).symm.trans hget'
        exact hfilled
    · refine iff_of_false ?_ hprice
      have htakes : ¬record.TakesFill (cumulative - record.filledQuantityTicks) price :=
        fun htakes => hprice htakes.price_pos
      have hfailed : (OrderRecord.applyBrokerEvent (.filled order.clientOrderId
          (cumulative - record.filledQuantityTicks) price) record).1 ≠ .ok () := by
        rw [Ne, OrderRecord.applyBrokerEvent_filled_eq_ok_iff _ htakes]
        exact fun hpassed => hunfilled hpassed.1
      rw [observe_of_failed hget hcut hget hfailed,
        (OrderRecord.applyBrokerEvent_of_not_takesFill _ htakes).2, get_put] at hget'
      cases (if_pos rfl : _ = some _).symm.trans hget'
      exact hne.symm
  · rw [if_neg hnew] at hcut
    have hsame : cumulative = record.filledQuantityTicks := by omega
    refine iff_of_true ?_ (.inl hsame)
    rw [observe_of_none hget hcut, counted_of_get hget, hfits.counted, Option.elim_some, get_put,
      if_pos rfl] at hget'
    cases hget'
    exact (OrderRecord.applyCumulativeFill_reaches_iff hle hwithin).mpr (.inl hsame)

/-- **An order that is reported** comes to what is reported exactly when its state admits it. -/
theorem has_iff_admits (hget : book.get order.clientOrderId = some record)
    (hfits : record.Fitting order cumulative) (hopen : record.state.terminal = false)
    (hget' : (book.observe order).2.get order.clientOrderId = some record') :
    record'.Has order.event cumulative ↔ record.Admits cumulative order.event := by
  cases hevent : order.event with
  | acknowledged _ _ => exact hevent ▸ has_acknowledged_iff hget hfits hget' hevent
  | filled _ _ _ => exact hevent ▸ has_filled_iff hget hfits hopen hget' hevent
  | rejected _ _ =>
    have hclosing : OrderRecord.closing order.event = some .rejected := by rw [hevent]; rfl
    rw [← hevent, has_closing_iff hget hfits hopen hget' hclosing, hevent]
    rfl
  | cancelled _ =>
    have hclosing : OrderRecord.closing order.event = some .cancelled := by rw [hevent]; rfl
    rw [← hevent, has_closing_iff hget hfits hopen hget' hclosing, hevent]
    rfl

-- A snapshot that is reported

theorem clientOrderId_of_snapshotEvent {event : BrokerEvent}
    (h : record.snapshotEvent order = .ok (some event)) :
    event.clientOrderId = order.event.clientOrderId := by
  rcases snapshotEvent_eq_some h with rfl | ⟨orderId, _, _, _, hfilled, rfl⟩
  · rfl
  · rw [hfilled]
    rfl

/-- An order whose event is about it leaves the others alone. -/
theorem observe_other {orderId : String} (hown : order.event.clientOrderId = order.clientOrderId)
    (hne : order.clientOrderId ≠ orderId) :
    (book.observe order).2.get orderId = book.get orderId := by
  have hcounted : ∀ mid : OrderBook, ∀ r, mid.get order.clientOrderId = some r →
      (counted order mid).get orderId = mid.get orderId := by
    intro mid r hr
    rw [counted_of_get hr]
    cases order.filledQuantityTicks with
    | none => rfl
    | some cumulative => rw [Option.elim_some, get_put, if_neg hne]
  cases hget : book.get order.clientOrderId with
  | none => rw [observe_of_unknown hget]
  | some record =>
    rcases hevent : record.snapshotEvent order with error | _ | event
    · rw [observe_of_error hget hevent]
    · rw [observe_of_none hget hevent, hcounted book record hget]
    · have hid := (clientOrderId_of_snapshotEvent hevent).trans hown
      have hnamed : book.get event.clientOrderId = some record := by rw [hid, hget]
      by_cases hok : (OrderRecord.applyBrokerEvent event record).1 = .ok ()
      · rw [observe_of_ok hget hevent hnamed hok, hid,
          hcounted _ _ (by rw [get_put]; exact if_pos rfl), get_put, if_neg hne]
      · rw [observe_of_failed hget hevent hnamed hok, hid, get_put, if_neg hne]

/-- A snapshot fits the book: its orders are distinct and known, and what is reported of each fits
its record. -/
structure Reports (book : OrderBook) (orders : List BrokerOrderSnapshot) : Prop where
  distinct : (orders.map (·.clientOrderId)).Nodup
  fitting : ∀ order ∈ orders, ∃ record, book.get order.clientOrderId = some record ∧
    ∃ cumulative, record.Fitting order cumulative

/-- An open order of the book has what is reported of it in another book. -/
def Reached (book later : OrderBook) (order : BrokerOrderSnapshot) : Prop :=
  ∀ record ∈ book.get order.clientOrderId, record.state.terminal = false →
    ∀ cumulative ∈ order.filledQuantityTicks, ∃ record' ∈ later.get order.clientOrderId,
      record'.Has order.event cumulative

/-- An open order of the book admits what is reported of it. -/
def Admits (book : OrderBook) (order : BrokerOrderSnapshot) : Prop :=
  ∀ record ∈ book.get order.clientOrderId, record.state.terminal = false →
    ∀ cumulative ∈ order.filledQuantityTicks, record.Admits cumulative order.event

/-- In a sweep of distinct orders, each is swept as the book has it. -/
theorem observeAll_get (hdistinct : (orders.map (·.clientOrderId)).Nodup)
    (hown : ∀ order ∈ orders, order.event.clientOrderId = order.clientOrderId)
    (horder : order ∈ orders) : ∃ mid : OrderBook,
      mid.get order.clientOrderId = book.get order.clientOrderId ∧
        (observeAll orders book).2.get order.clientOrderId =
          (mid.observe order).2.get order.clientOrderId := by
  induction orders generalizing book with
  | nil => cases horder
  | cons head tail ih =>
    obtain ⟨hhead, htail⟩ := List.forall_mem_cons.mp hown
    rw [List.map_cons, List.nodup_cons] at hdistinct
    rcases List.mem_cons.mp horder with rfl | horder
    · have hrest : ∀ (orders : List BrokerOrderSnapshot) (mid : OrderBook),
          order.clientOrderId ∉ orders.map (·.clientOrderId) →
          (∀ o ∈ orders, o.event.clientOrderId = o.clientOrderId) →
          (observeAll orders mid).2.get order.clientOrderId = mid.get order.clientOrderId := by
        intro orders
        induction orders with
        | nil => exact fun _ _ _ => rfl
        | cons o os ihRest =>
          intro mid hnot howns
          rw [List.map_cons, List.mem_cons, not_or] at hnot
          obtain ⟨ho, hos⟩ := List.forall_mem_cons.mp howns
          exact (ihRest _ hnot.2 hos).trans (observe_other ho (Ne.symm hnot.1))
      exact ⟨book, rfl, hrest tail _ hdistinct.1 htail⟩
    · have hne : head.clientOrderId ≠ order.clientOrderId := fun heq =>
        hdistinct.1 (heq ▸ List.mem_map_of_mem horder)
      obtain ⟨mid, hmid, hlast⟩ := ih hdistinct.2 htail horder
      exact ⟨mid, hmid.trans (observe_other hhead hne), hlast⟩

/-- **The orders of a snapshot that fits the book** come to what is reported exactly when their
states admit it. -/
theorem reached_iff_admits (hreports : book.Reports orders) (horder : order ∈ orders) :
    book.Reached (observeAll orders book).2 order ↔ book.Admits order := by
  obtain ⟨record, hget, cumulative, hfits⟩ := hreports.fitting order horder
  have hown : ∀ order ∈ orders, order.event.clientOrderId = order.clientOrderId := by
    intro order horder
    obtain ⟨_, -, _, hfits⟩ := hreports.fitting order horder
    exact hfits.own
  obtain ⟨mid, hmid, hlast⟩ : ∃ mid : OrderBook,
      mid.get order.clientOrderId = book.get order.clientOrderId ∧
        (observeAll orders book).2.get order.clientOrderId =
          (mid.observe order).2.get order.clientOrderId :=
    observeAll_get hreports.distinct hown horder
  obtain ⟨record', hget', -⟩ := (observe_leads mid order).of_get (hmid.trans hget)
  have hstep := fun hopen => has_iff_admits (hmid.trans hget) hfits hopen hget'
  constructor
  · intro hreached r hr hopen c hc
    cases hget.symm.trans hr
    cases hfits.counted.symm.trans hc
    obtain ⟨last, hlastGet, hhas⟩ := hreached record hget hopen cumulative hfits.counted
    cases hget'.symm.trans (hlast.symm.trans hlastGet)
    exact (hstep hopen).mp hhas
  · intro hadmits r hr hopen c hc
    cases hget.symm.trans hr
    cases hfits.counted.symm.trans hc
    exact ⟨record', hlast.trans hget',
      (hstep hopen).mpr (hadmits record hget hopen cumulative hfits.counted)⟩

/-- **A snapshot reconciles the book**, and does so once, exactly when the states of its orders admit
what is reported of them and no fill is pending after the sweep. -/
theorem snapshot_reconciled_iff (book : OrderBook) (snapshot : BrokerSnapshot) :
    let once := (book.reconcileSnapshot snapshot).2
    ((book.Reports snapshot.orders → ∀ order ∈ snapshot.orders, book.Reached once order) ∧
        (once.reconcileSnapshot snapshot).2.Alike once) ↔
      (book.Reports snapshot.orders → ∀ order ∈ snapshot.orders, book.Admits order) ∧
        ∀ order ∈ snapshot.orders, ¬once.Pending order := by
  refine and_congr ?_ (sweep_again_iff book snapshot.orders)
  exact imp_congr_right fun hreports => forall₂_congr fun order horder =>
    reached_iff_admits hreports horder

/-- A parent order of ten that the broker has acknowledged. -/
def workingTen : OrderRecord where
  intent := ⟨"intent", 1, 7, "client", .buy, 10, .market, none, .day, .acknowledged, 9⟩
  brokerOrderId := some "b-1"
  filledQuantityTicks := 0

/-- The book that knows it. -/
def workingBook : OrderBook := OrderBook.new.put "client" workingTen

/-- The broker cancelled the order after four were filled. -/
def cancelledAtFour : BrokerSnapshot := ⟨[⟨"client", .cancelled "client", some 4⟩], [], ∅⟩

/-- The broker reports a fill of three without a total. -/
def threeUncounted : BrokerSnapshot := ⟨[⟨"client", .filled "client" 3 5, none⟩], [], ∅⟩

/-- A closed order loses the fill that its snapshot reports, and a second sweep takes a fill without
a total once more. -/
theorem sweep_loses_and_repeats :
    (workingBook.Reports cancelledAtFour.orders ∧ ∃ order ∈ cancelledAtFour.orders,
        ¬workingBook.Reached (workingBook.reconcileSnapshot cancelledAtFour).2 order) ∧
      let once := (workingBook.reconcileSnapshot threeUncounted).2
      ¬(once.reconcileSnapshot threeUncounted).2.Alike once := by
  have hget : workingBook.get "client" = some workingTen := by decide
  refine ⟨⟨⟨by decide, ?_⟩, _, List.mem_singleton_self _, fun hreached => ?_⟩, fun halike => ?_⟩
  · refine List.forall_mem_singleton.mpr ⟨workingTen, hget, 4, rfl, rfl, by decide, by decide,
      by decide, fun _ => by decide, ?_⟩
    intro _ _ hevent
    cases hevent
  · obtain ⟨record, hrecord, hfilled, -⟩ := hreached workingTen hget rfl 4 rfl
    have hlost : ((workingBook.reconcileSnapshot cancelledAtFour).2.get "client").map
        (·.filledQuantityTicks) = some 0 := by decide
    rw [Option.mem_def.mp hrecord, Option.map_some, hfilled] at hlost
    cases hlost
  · have htwice := congrArg (Option.map (·.filledQuantityTicks)) (halike "client")
    revert htwice
    decide

end OrderBook

end InsiderTrader
