import InsiderTrader.SweptRecord

/-!
# A second sweep

A sweep applies the latest event of each order and then its cumulative filled
quantity. After one sweep of a snapshot no event but a fill has a step left, so
that a second sweep of it finds everything applied exactly when no fill is taken
again: one that comes without a cumulative quantity, or that the quantity does
not cover.

## Main definitions

- `OrderBook.Pending` — a fill that another sweep takes
- `OrderBook.Spent` — the other events have no step left

## Main results

- `OrderBook.observe_leads` — what one order of a snapshot does
- `OrderBook.spent_observeAll` — what a sweep leaves undone are fills only
- `OrderBook.sweep_again_iff` — the snapshots that a second sweep finds applied
-/

namespace InsiderTrader

open MachineInt Fallible

-- One order of a snapshot

namespace OrderBook

variable {book later latest : OrderBook} {order : BrokerOrderSnapshot}
  {orders : List BrokerOrderSnapshot}

/-- What sweeps can make of a book. -/
def Leads (book later : OrderBook) : Prop :=
  ∀ id, Option.Rel OrderRecord.Leads (book.get id) (later.get id)

/-- The records differ in the ids that the broker gave them. -/
def Kin (book later : OrderBook) : Prop :=
  ∀ id, (later.get id).map OrderRecord.core = (book.get id).map OrderRecord.core

/-- The filled quantity of some order has grown. -/
def Grows (book later : OrderBook) : Prop :=
  ∃ id, ∃ record ∈ book.get id, ∃ record' ∈ later.get id,
    record.filledQuantityTicks < record'.filledQuantityTicks

instance : Std.Refl Leads where
  refl book id := by
    cases book.get id with
    | none => exact .none
    | some record => exact .some (.refl record)

instance : IsTrans OrderBook Leads where
  trans book later latest h h' id := by
    have hid := h id
    have hid' := h' id
    generalize book.get id = first at hid
    generalize later.get id = second at hid hid'
    generalize latest.get id = third at hid'
    cases hid with
    | none => cases hid'; exact .none
    | some hrecord =>
      cases hid' with
      | some hrecord' => exact .some (hrecord.trans hrecord')

theorem Leads.of_get {id : String} {record : OrderRecord} (h : book.Leads later)
    (hget : book.get id = some record) : ∃ record', later.get id = some record' ∧
      record.Leads record' := by
  have hid := h id
  rw [hget] at hid
  generalize later.get id = found at hid
  cases hid with
  | some hrecord => exact ⟨_, rfl, hrecord⟩

theorem Leads.of_get_later {id : String} {record' : OrderRecord} (h : book.Leads later)
    (hget : later.get id = some record') : ∃ record, book.get id = some record ∧
      record.Leads record' := by
  have hid := h id
  rw [hget] at hid
  generalize book.get id = found at hid
  cases hid with
  | some hrecord => exact ⟨_, rfl, hrecord⟩

theorem leads_put {id : String} {record record' : OrderRecord} (hget : book.get id = some record)
    (h : record.Leads record') : book.Leads (book.put id record') := by
  intro other
  rw [get_put]
  split
  · next heq =>
    rw [← heq, hget]
    exact .some h
  · exact Std.Refl.refl (r := Leads) book other

theorem leads_onRecord {unknown : TransitionError} {id : String}
    {p : Fallible OrderRecord TransitionError Unit}
    (hp : ∀ record : OrderRecord, record.Leads (p record).2) :
    Along Leads (onRecord unknown id p) := by
  intro book
  unfold onRecord
  split
  · exact Std.Refl.refl _
  · next record hget => exact leads_put hget (hp record)

/-- **One order of a snapshot** leads onwards, also when it fails. -/
theorem observe_leads (book : OrderBook) (order : BrokerOrderSnapshot) :
    book.Leads (book.observe order).2 := by
  have halong : Along Leads (applySnapshotOrder order) := by
    refine (Along.reads _).bind fun _ => (Along.orFail _ _).bind fun _ =>
      (Along.ofExcept _).bind fun event => Along.bind ?_ fun _ => ?_
    · cases event with
      | none => exact Along.ret ()
      | some event => exact leads_onRecord (OrderRecord.leads_applyBrokerEvent event)
    · cases order.filledQuantityTicks with
      | none => exact Along.ret ()
      | some cumulative =>
        exact leads_onRecord fun record => record.leads_applyCumulativeFill cumulative
  have hrun := halong book
  unfold observe
  split
  · exact Std.Refl.refl _
  · split
    · next h => rwa [h] at hrun
    · next h => rwa [h] at hrun

/-- The cumulative quantity of an order, after its event. -/
def counted (order : BrokerOrderSnapshot) (book : OrderBook) : OrderBook :=
  (order.filledQuantityTicks.elim (pure ()) (applyCumulativeFill order.clientOrderId) book).2

theorem counted_leads (order : BrokerOrderSnapshot) (book : OrderBook) :
    book.Leads (counted order book) := by
  unfold counted
  cases order.filledQuantityTicks with
  | none => exact Std.Refl.refl _
  | some cumulative =>
    exact leads_onRecord (fun record => record.leads_applyCumulativeFill cumulative) book

theorem applyBrokerEvent_of_named {event : BrokerEvent} {named : OrderRecord}
    (hnamed : book.get event.clientOrderId = some named) : applyBrokerEvent event book =
      ((OrderRecord.applyBrokerEvent event named).1,
        book.put event.clientOrderId (OrderRecord.applyBrokerEvent event named).2) :=
  onRecord_of_get hnamed

section Known

variable {record named : OrderRecord} {event : BrokerEvent}
  (hget : book.get order.clientOrderId = some record)
include hget

theorem observe_snd : (book.observe order).2 = (applySnapshotOrder order book).2 := by
  rw [observe, hget]
  rcases applySnapshotOrder order book with ⟨_ | _, _⟩ <;> rfl

/-- An order whose quantity is out of range changes nothing. -/
theorem observe_of_error {error : TransitionError}
    (hevent : record.snapshotEvent order = .error error) : (book.observe order).2 = book := by
  rw [observe_snd hget, applySnapshotOrder, reads_bind]
  dsimp only [id]
  rw [orFail_bind_some hget, hevent]
  rfl

/-- An order without a new event. -/
theorem observe_of_none (hevent : record.snapshotEvent order = .ok none) :
    (book.observe order).2 = counted order book := by
  rw [observe_snd hget, applySnapshotOrder, reads_bind]
  dsimp only [id]
  rw [orFail_bind_some hget, ofExcept_bind_ok hevent]
  rfl

/-- An event of an order that is not known. -/
theorem observe_of_unnamed (hevent : record.snapshotEvent order = .ok (some event))
    (hnamed : book.get event.clientOrderId = none) : (book.observe order).2 = book := by
  rw [observe_snd hget, applySnapshotOrder, reads_bind]
  dsimp only [id]
  rw [orFail_bind_some hget, ofExcept_bind_ok hevent]
  exact congrArg Prod.snd (bind_of_error (onRecord_of_none hnamed))

/-- An event that succeeds is followed by the cumulative quantity. -/
theorem observe_of_ok (hevent : record.snapshotEvent order = .ok (some event))
    (hnamed : book.get event.clientOrderId = some named)
    (hok : (OrderRecord.applyBrokerEvent event named).1 = .ok ()) :
    (book.observe order).2 = counted order
      (book.put event.clientOrderId (OrderRecord.applyBrokerEvent event named).2) := by
  rw [observe_snd hget, applySnapshotOrder, reads_bind]
  dsimp only [id]
  rw [orFail_bind_some hget, ofExcept_bind_ok hevent]
  have hrun := applyBrokerEvent_of_named hnamed
  rw [hok] at hrun
  exact congrArg Prod.snd (bind_of_ok hrun)

/-- An event that fails is the last step. -/
theorem observe_of_failed (hevent : record.snapshotEvent order = .ok (some event))
    (hnamed : book.get event.clientOrderId = some named)
    (hfailed : (OrderRecord.applyBrokerEvent event named).1 ≠ .ok ()) :
    (book.observe order).2 =
      book.put event.clientOrderId (OrderRecord.applyBrokerEvent event named).2 := by
  rw [observe_snd hget, applySnapshotOrder, reads_bind]
  dsimp only [id]
  rw [orFail_bind_some hget, ofExcept_bind_ok hevent]
  have hrun := applyBrokerEvent_of_named hnamed
  cases hresult : (OrderRecord.applyBrokerEvent event named).1 with
  | ok => exact absurd hresult hfailed
  | error error =>
    rw [hresult] at hrun
    exact congrArg Prod.snd (bind_of_error hrun)

theorem counted_of_get : counted order book = order.filledQuantityTicks.elim book fun cumulative =>
    book.put order.clientOrderId (OrderRecord.applyCumulativeFill cumulative record).2 := by
  unfold counted
  cases order.filledQuantityTicks with
  | none => rfl
  | some cumulative => exact congrArg Prod.snd (onRecord_of_get hget)

end Known

-- What is left to do

/-- The event of an order without a quantity of its own has no step left, and its cumulative quantity
is not taken when the event succeeds. -/
def Spent (order : BrokerOrderSnapshot) (book : OrderBook) : Prop :=
  ∀ next, OrderRecord.target order.event = some next →
    ∀ record, book.get order.clientOrderId = some record →
      ∀ named, book.get order.event.clientOrderId = some named →
        legalTransition named.state next = false ∧
          (named.Repeats order.event → ∀ cumulative ∈ order.filledQuantityTicks,
            ¬record.TakesCount cumulative)

/-- **A fill that is taken** when the order is swept: by the order it names, or, where that is filled
and passes over it, by the cumulative quantity. -/
def Pending (book : OrderBook) (order : BrokerOrderSnapshot) : Prop :=
  ∃ record ∈ book.get order.clientOrderId, ∃ orderId ticks price,
    record.snapshotEvent order = .ok (some (.filled orderId ticks price)) ∧
      ∃ named ∈ book.get orderId, named.TakesFill ticks price ∨
        ((named.state = .filled ∧ 0 < ticks ∧ 0 < price) ∧
          ∃ cumulative ∈ order.filledQuantityTicks, record.TakesCount cumulative)

/-- What is spent stays so. -/
theorem Leads.spent (h : book.Leads later) (hspent : Spent order book) :
    Spent order later := by
  intro next htarget record' hrecord' named' hnamed'
  obtain ⟨record, hrecord, hleads⟩ := h.of_get_later hrecord'
  obtain ⟨named, hnamed, hnamedLeads⟩ := h.of_get_later hnamed'
  obtain ⟨hillegal, hcounts⟩ := hspent next htarget record hrecord named hnamed
  refine ⟨(hnamedLeads.state_leads.illegal next (OrderRecord.reported_of_target htarget)
    hillegal).1, fun hrepeats cumulative hcumulative htakes => ?_⟩
  exact hcounts (hnamedLeads.repeats htarget hillegal hrepeats) cumulative hcumulative
    (hleads.takesCount htakes)

/-- An event that is not a fill is applied as it is. -/
theorem snapshotEvent_of_target {next : OrderState} {record : OrderRecord}
    (h : OrderRecord.target order.event = some next) :
    record.snapshotEvent order = .ok (some order.event) := by
  unfold OrderRecord.snapshotEvent
  cases hevent : order.event with
  | filled _ _ _ =>
    rw [hevent] at h
    cases h
  | acknowledged _ _ => rfl
  | rejected _ _ => rfl
  | cancelled _ => rfl

/-- **One order of a snapshot** is spent once it was swept. -/
theorem spent_observe (book : OrderBook) (order : BrokerOrderSnapshot) :
    Spent order (book.observe order).2 := by
  intro next htarget record' hrecord' named' hnamed'
  obtain ⟨record, hrecord, -⟩ := (observe_leads book order).of_get_later hrecord'
  obtain ⟨named, hnamed, -⟩ := (observe_leads book order).of_get_later hnamed'
  have hevent : record.snapshotEvent order = .ok (some order.event) :=
    snapshotEvent_of_target htarget
  by_cases hok : (OrderRecord.applyBrokerEvent order.event named).1 = .ok ()
  · rw [observe_of_ok hrecord hevent hnamed hok] at hrecord' hnamed'
    obtain ⟨mid, hmid, -⟩ := (leads_put hnamed (OrderRecord.leads_applyBrokerEvent order.event
      named)).of_get hrecord
    obtain ⟨_, happlied, hnamedLeads⟩ := (counted_leads order _).of_get_later hnamed'
    rw [get_put, if_pos rfl] at happlied
    cases happlied
    refine ⟨(hnamedLeads.state_leads.illegal next (OrderRecord.reported_of_target htarget)
      (OrderRecord.illegal_applied htarget named)).1, fun _ cumulative hcumulative => ?_⟩
    rw [counted_of_get hmid, Option.mem_def.mp hcumulative, Option.elim_some, get_put,
      if_pos rfl] at hrecord'
    cases hrecord'
    exact OrderRecord.not_takesCount_applied mid cumulative
  · rw [observe_of_failed hrecord hevent hnamed hok, get_put, if_pos rfl] at hnamed'
    cases hnamed'
    exact ⟨OrderRecord.illegal_applied htarget named,
      fun hrepeats => absurd (OrderRecord.ok_of_repeats htarget hrepeats) hok⟩

-- Another sweep

theorem Kin.refl (book : OrderBook) : book.Kin book := fun _ => rfl

theorem Kin.symm (h : book.Kin later) : later.Kin book := fun id => (h id).symm

theorem Kin.trans (h : book.Kin later) (h' : later.Kin latest) : book.Kin latest :=
  fun id => (h' id).trans (h id)

theorem Kin.of_get {id : String} {record : OrderRecord} (h : book.Kin later)
    (hget : book.get id = some record) :
    ∃ record', later.get id = some record' ∧ record'.core = record.core := by
  have hid := h id
  rw [hget, Option.map_some, Option.map_eq_some_iff] at hid
  exact hid

theorem Kin.of_get_later {id : String} {record' : OrderRecord} (h : book.Kin later)
    (hget : later.get id = some record') :
    ∃ record, book.get id = some record ∧ record.core = record'.core := by
  have hid := (h id).symm
  rw [hget, Option.map_some, Option.map_eq_some_iff] at hid
  exact hid

theorem kin_put {id : String} {record record' : OrderRecord} (hget : book.get id = some record)
    (hcore : record'.core = record.core) : book.Kin (book.put id record') := by
  intro other
  rw [get_put]
  split
  · next heq =>
    rw [← heq, hget, Option.map_some, Option.map_some, hcore]
  · rfl

/-- A fill that is pending is pending for every book that differs in broker ids only. -/
theorem Kin.pending (h : book.Kin later) (hpending : later.Pending order) : book.Pending order := by
  obtain ⟨record', hrecord', orderId, ticks, price, hevent, named', hnamed', htakes⟩ := hpending
  obtain ⟨record, hrecord, hcore⟩ := h.of_get_later hrecord'
  obtain ⟨named, hnamed, hnamedCore⟩ := h.of_get_later hnamed'
  refine ⟨record, hrecord, orderId, ticks, price,
    (OrderRecord.snapshotEvent_of_core hcore order).trans hevent, named, hnamed, ?_⟩
  rcases htakes with hfill | ⟨⟨hstate, hpositive⟩, cumulative, hcumulative, hcount⟩
  · exact .inl (OrderRecord.takesFill_of_core hnamedCore.symm hfill)
  · have hintent := (OrderRecord.core_eq_iff.mp hnamedCore).1
    refine .inr ⟨⟨?_, hpositive⟩, cumulative, hcumulative,
      OrderRecord.takesCount_of_core hcore.symm hcount⟩
    rw [OrderRecord.state, hintent]
    exact hstate

/-- A cumulative quantity that is not taken changes nothing. -/
theorem kin_counted {record : OrderRecord} (hget : book.get order.clientOrderId = some record)
    (hcount : ∀ cumulative ∈ order.filledQuantityTicks, ¬record.TakesCount cumulative) :
    book.Kin (counted order book) := by
  rw [counted_of_get hget]
  cases hfilled : order.filledQuantityTicks with
  | none => exact Kin.refl book
  | some cumulative =>
    rw [Option.elim_some, OrderRecord.applyCumulativeFill_of_not_takesCount (hcount _ hfilled)]
    exact kin_put hget rfl

/-- An order without a new event reports what is known to be filled. -/
theorem eq_of_snapshotEvent_none {record : OrderRecord}
    (h : record.snapshotEvent order = .ok none) :
    ∀ cumulative ∈ order.filledQuantityTicks, cumulative = record.filledQuantityTicks := by
  intro cumulative hcumulative
  unfold OrderRecord.snapshotEvent at h
  rw [Option.mem_def.mp hcumulative] at h
  cases hevent : order.event with
  | filled _ _ _ =>
    rw [hevent] at h
    dsimp only at h
    split at h
    · cases h
    · split at h
      · cases h
      · omega
  | acknowledged _ _ => rw [hevent] at h; cases h
  | rejected _ _ => rw [hevent] at h; cases h
  | cancelled _ => rw [hevent] at h; cases h

/-- The event of an order is applied as it is, or is what is left of a fill. -/
theorem snapshotEvent_eq_some {record : OrderRecord} {event : BrokerEvent}
    (h : record.snapshotEvent order = .ok (some event)) :
    event = order.event ∨ ∃ orderId ticks left price,
      order.event = .filled orderId ticks price ∧ event = .filled orderId left price := by
  cases htarget : OrderRecord.target order.event with
  | some next =>
    cases (snapshotEvent_of_target htarget).symm.trans h
    exact .inl rfl
  | none =>
    unfold OrderRecord.snapshotEvent at h
    cases hevent : order.event with
    | filled orderId ticks price =>
      rw [hevent] at h
      cases hfilled : order.filledQuantityTicks with
      | none =>
        rw [hfilled] at h
        cases h
        exact .inl rfl
      | some cumulative =>
        rw [hfilled] at h
        dsimp only at h
        split at h
        · cases h
        · split at h
          · cases h
            exact .inr ⟨orderId, ticks, _, price, rfl, rfl⟩
          · cases h
    | acknowledged _ _ => rw [hevent] at htarget; cases htarget
    | rejected _ _ => rw [hevent] at htarget; cases htarget
    | cancelled _ => rw [hevent] at htarget; cases htarget

/-- What is left of a fill is a fill. -/
theorem filled_of_snapshotEvent {record : OrderRecord} {event : BrokerEvent}
    (htarget : OrderRecord.target order.event = none)
    (h : record.snapshotEvent order = .ok (some event)) :
    ∃ orderId ticks price, event = .filled orderId ticks price := by
  rcases snapshotEvent_eq_some h with rfl | ⟨orderId, _, left, price, -, rfl⟩
  · cases hevent : order.event with
    | filled orderId ticks price => exact ⟨orderId, ticks, price, rfl⟩
    | acknowledged _ _ => rw [hevent] at htarget; cases htarget
    | rejected _ _ => rw [hevent] at htarget; cases htarget
    | cancelled _ => rw [hevent] at htarget; cases htarget
  · exact ⟨orderId, left, price, rfl⟩

/-- **An order that is spent** and has no fill pending changes at most a broker id. -/
theorem kin_observe (hspent : Spent order book) (hpending : ¬book.Pending order) :
    book.Kin (book.observe order).2 := by
  cases hget : book.get order.clientOrderId with
  | none =>
    rw [observe_of_unknown hget]
    exact Kin.refl book
  | some record =>
  rcases hevent : record.snapshotEvent order with error | _ | event
  · rw [observe_of_error hget hevent]
    exact Kin.refl book
  · rw [observe_of_none hget hevent]
    refine kin_counted hget fun cumulative hcumulative htakes => ?_
    have hsame := eq_of_snapshotEvent_none hevent cumulative hcumulative
    have hnew := htakes.new
    omega
  · cases hnamed : book.get event.clientOrderId with
    | none =>
      rw [observe_of_unnamed hget hevent hnamed]
      exact Kin.refl book
    | some named =>
    -- the event leaves the core of its order alone, and admits no quantity when it succeeds
    have hrests : (OrderRecord.applyBrokerEvent event named).2.core = named.core ∧
        ((OrderRecord.applyBrokerEvent event named).1 = .ok () →
          ∀ cumulative ∈ order.filledQuantityTicks, ¬record.TakesCount cumulative) := by
      cases htarget : OrderRecord.target order.event with
      | some next =>
        obtain rfl : order.event = event := by
          have hsame := (snapshotEvent_of_target htarget).symm.trans hevent
          cases hsame
          rfl
        obtain ⟨hillegal, hcounts⟩ := hspent next htarget record hget named hnamed
        exact ⟨OrderRecord.core_of_illegal htarget hillegal,
          fun hok => hcounts ((OrderRecord.ok_iff_repeats htarget hillegal).mp hok)⟩
      | none =>
        obtain ⟨orderId, ticks, price, rfl⟩ := filled_of_snapshotEvent htarget hevent
        have htakes : ¬named.TakesFill ticks price := fun htakes => hpending
          ⟨record, hget, orderId, ticks, price, hevent, named, hnamed, .inl htakes⟩
        rw [(OrderRecord.applyBrokerEvent_of_not_takesFill orderId htakes).2]
        refine ⟨rfl, fun hok cumulative hcumulative hcount => hpending
          ⟨record, hget, orderId, ticks, price, hevent, named, hnamed, .inr ⟨?_, cumulative,
            hcumulative, hcount⟩⟩⟩
        exact (OrderRecord.applyBrokerEvent_filled_eq_ok_iff orderId htakes).mp hok
    have hmid := kin_put hnamed hrests.1
    by_cases hok : (OrderRecord.applyBrokerEvent event named).1 = .ok ()
    · rw [observe_of_ok hget hevent hnamed hok]
      obtain ⟨mid, hmidGet, hcore⟩ := hmid.of_get hget
      exact hmid.trans (kin_counted hmidGet fun cumulative hcumulative htakes =>
        hrests.2 hok cumulative hcumulative (OrderRecord.takesCount_of_core hcore htakes))
    · rw [observe_of_failed hget hevent hnamed hok]
      exact hmid

/-- **A pending fill** is taken. -/
theorem grows_observe (hpending : book.Pending order) : book.Grows (book.observe order).2 := by
  obtain ⟨record, hget, orderId, ticks, price, hevent, named, hnamed, htakes⟩ := hpending
  rcases htakes with hfill | ⟨hpassed, cumulative, hcumulative, hcount⟩
  · have hlt := OrderRecord.filled_lt_of_takesFill orderId hfill
    by_cases hok : (OrderRecord.applyBrokerEvent (.filled orderId ticks price) named).1 = .ok ()
    · have hleads := counted_leads order (book.put orderId
        (OrderRecord.applyBrokerEvent (.filled orderId ticks price) named).2)
      obtain ⟨last, hlast, hnamedLeads⟩ := hleads.of_get (by rw [get_put, if_pos rfl])
      rw [observe_of_ok hget hevent hnamed hok]
      exact ⟨orderId, named, hnamed, last, hlast, hlt.trans_le hnamedLeads.filled_le⟩
    · rw [observe_of_failed hget hevent hnamed hok]
      exact ⟨orderId, named, hnamed, _, by rw [Option.mem_def, get_put]; exact if_pos rfl, hlt⟩
  · have hopen : ¬named.TakesFill ticks price := fun hfill => hfill.unfilled hpassed.1
    have hok := (OrderRecord.applyBrokerEvent_filled_eq_ok_iff orderId hopen).mpr hpassed
    have hkept := (OrderRecord.applyBrokerEvent_of_not_takesFill orderId hopen).2
    have hmid : (book.put orderId named).get order.clientOrderId = some record := by
      rw [get_put]
      split
      · next heq => rw [← hnamed, heq, hget]
      · exact hget
    rw [observe_of_ok hget hevent hnamed hok, hkept]
    show book.Grows (counted order (book.put orderId named))
    rw [counted_of_get hmid, Option.mem_def.mp hcumulative, Option.elim_some]
    refine ⟨order.clientOrderId, record, hget, _, by rw [Option.mem_def, get_put]; exact if_pos rfl,
      ?_⟩
    rw [OrderRecord.applyCumulativeFill_of_takesCount hcount]
    exact hcount.new

theorem observeAll_leads (orders : List BrokerOrderSnapshot) (book : OrderBook) :
    book.Leads (observeAll orders book).2 := by
  induction orders generalizing book with
  | nil => exact Std.Refl.refl _
  | cons order orders ih => exact IsTrans.trans _ _ _ (observe_leads book order) (ih _)

/-- **A sweep** settles every order. -/
theorem spent_observeAll (orders : List BrokerOrderSnapshot) (book : OrderBook) :
    ∀ order ∈ orders, Spent order (observeAll orders book).2 := by
  induction orders generalizing book with
  | nil => exact fun _ horder => absurd horder List.not_mem_nil
  | cons order orders ih =>
    refine List.forall_mem_cons.mpr ⟨?_, ih _⟩
    exact (observeAll_leads orders _).spent (spent_observe book order)

/-- **A sweep over spent orders** changes at most broker ids, or takes a pending fill. -/
theorem observeAll_of_spent (hspent : ∀ order ∈ orders, Spent order book) :
    ((∀ order ∈ orders, ¬book.Pending order) → book.Kin (observeAll orders book).2) ∧
      ((∃ order ∈ orders, book.Pending order) → book.Grows (observeAll orders book).2) := by
  induction orders generalizing book with
  | nil =>
    refine ⟨fun _ => Kin.refl book, fun hsome => ?_⟩
    obtain ⟨_, horder, -⟩ := hsome
    exact absurd horder List.not_mem_nil
  | cons order orders ih =>
    obtain ⟨hhead, htail⟩ := List.forall_mem_cons.mp hspent
    have hleads := observe_leads book order
    obtain ⟨hkin, hgrows⟩ := ih fun order' horder' => hleads.spent (htail order' horder')
    constructor
    · intro hnone
      obtain ⟨hfree, hfrees⟩ := List.forall_mem_cons.mp hnone
      have hstep := kin_observe hhead hfree
      exact hstep.trans (hkin fun order' horder' hpending =>
        hfrees order' horder' (hstep.pending hpending))
    · intro hsome
      by_cases hpending : book.Pending order
      · obtain ⟨id, record, hrecord, mid, hmid, hlt⟩ := grows_observe hpending
        obtain ⟨last, hlast, hlastLeads⟩ := (observeAll_leads orders _).of_get hmid
        exact ⟨id, record, hrecord, last, hlast, hlt.trans_le hlastLeads.filled_le⟩
      · have hstep := kin_observe hhead hpending
        obtain ⟨order', horder', hpending'⟩ := hsome
        have hlater : (book.observe order).2.Pending order' := hstep.symm.pending hpending'
        rcases List.mem_cons.mp horder' with rfl | horder'
        · exact absurd hpending' hpending
        · obtain ⟨id, mid, hmid, last, hlast, hlt⟩ := hgrows ⟨order', horder', hlater⟩
          obtain ⟨record, hrecord, hcore⟩ := hstep.of_get_later hmid
          exact ⟨id, record, hrecord, last, hlast,
            (OrderRecord.core_eq_iff.mp hcore).2.trans_lt hlt⟩

-- Broker ids

/-- The broker id that an event reports for an order. -/
def acknowledgedId (orderId : String) : BrokerEvent → Option String
  | .acknowledged named brokerOrderId => if named = orderId then some brokerOrderId else none
  | _ => none

/-- The broker id that an order of a snapshot reports for an order of the book. -/
def reportedId (book : OrderBook) (orderId : String) (order : BrokerOrderSnapshot) :
    Option String :=
  if (book.get order.clientOrderId).isSome then acknowledgedId orderId order.event else none

section Ids

variable {orderId : String} {record record' : OrderRecord}

/-- A cumulative quantity leaves the broker ids alone. -/
theorem brokerOrderId_counted (hget : book.get orderId = some record)
    (hget' : (counted order book).get orderId = some record') :
    record'.brokerOrderId = record.brokerOrderId := by
  have hcount : ∀ (r : OrderRecord) (cumulative : Int),
      (OrderRecord.applyCumulativeFill cumulative r).2.brokerOrderId = r.brokerOrderId := by
    intro r cumulative
    by_cases h : r.TakesCount cumulative
    · rw [OrderRecord.applyCumulativeFill_of_takesCount h]
      rfl
    · rw [OrderRecord.applyCumulativeFill_of_not_takesCount h]
  cases hknown : book.get order.clientOrderId with
  | none =>
    have hsame : counted order book = book := by
      unfold counted
      cases order.filledQuantityTicks with
      | none => rfl
      | some cumulative => exact congrArg Prod.snd (onRecord_of_none hknown)
    rw [hsame, hget] at hget'
    cases hget'
    rfl
  | some counted =>
    rw [counted_of_get hknown] at hget'
    cases hfilled : order.filledQuantityTicks with
    | none =>
      rw [hfilled, Option.elim_none, hget] at hget'
      cases hget'
      rfl
    | some cumulative =>
      rw [hfilled, Option.elim_some, get_put] at hget'
      split at hget'
      · next heq =>
        rw [← heq, hknown] at hget
        cases hget
        cases hget'
        exact hcount _ _
      · rw [hget] at hget'
        cases hget'
        rfl

theorem acknowledgedId_of_ne {event : BrokerEvent} (h : event.clientOrderId ≠ orderId) :
    acknowledgedId orderId event = none := by
  cases event with
  | acknowledged _ _ => exact if_neg h
  | filled _ _ _ => rfl
  | rejected _ _ => rfl
  | cancelled _ => rfl

/-- An order that is not known to be acknowledged takes the broker id of an acknowledgement. -/
theorem brokerOrderId_applyBrokerEvent {event : BrokerEvent}
    (hevent : event.clientOrderId = orderId)
    (hopen : OrderRecord.acknowledgedBefore record.state = false) :
    (OrderRecord.applyBrokerEvent event record).2.brokerOrderId =
      (acknowledgedId orderId event).or record.brokerOrderId := by
  have htransition : ∀ (r : OrderRecord) next,
      (OrderRecord.transition next r).2.brokerOrderId = r.brokerOrderId := by
    intro r next
    rw [OrderRecord.transition_apply]
    split <;> rfl
  cases event with
  | acknowledged orderId' brokerOrderId =>
    rw [OrderRecord.applyBrokerEvent, reads_bind]
    dsimp only [id]
    have hunknown : ¬OrderRecord.acknowledgedBefore record.state = true := by
      rw [hopen]
      exact Bool.false_ne_true
    rw [if_neg hunknown, modify_bind, htransition]
    have hid : acknowledgedId orderId (.acknowledged orderId' brokerOrderId) =
        some brokerOrderId := if_pos hevent
    rw [hid]
    rfl
  | rejected _ reason =>
    rw [OrderRecord.applyBrokerEvent, reads_bind]
    dsimp only
    split
    · rfl
    · exact htransition _ _
  | cancelled _ =>
    rw [OrderRecord.applyBrokerEvent, reads_bind]
    dsimp only
    split
    · rfl
    · exact htransition _ _
  | filled named ticks price =>
    by_cases htakes : record.TakesFill ticks price
    · rw [OrderRecord.applyBrokerEvent_of_takesFill htakes]
      split <;> rfl
    · rw [(OrderRecord.applyBrokerEvent_of_not_takesFill named htakes).2]
      rfl

/-- An order that is not known to be acknowledged has the broker id that was reported last. -/
theorem brokerOrderId_observe (hget : book.get orderId = some record)
    (hget' : (book.observe order).2.get orderId = some record')
    (hopen : OrderRecord.acknowledgedBefore record.state = false) :
    record'.brokerOrderId = (book.reportedId orderId order).or record.brokerOrderId := by
  cases hknown : book.get order.clientOrderId with
  | none =>
    rw [observe_of_unknown hknown, hget] at hget'
    cases hget'
    rw [reportedId, hknown]
    rfl
  | some known =>
    have hreported : book.reportedId orderId order = acknowledgedId orderId order.event := by
      rw [reportedId, hknown]
      rfl
    have hsilent : OrderRecord.target order.event = none →
        acknowledgedId orderId order.event = none := by
      intro htarget
      cases hevent : order.event with
      | filled _ _ _ => rfl
      | acknowledged _ _ => rw [hevent] at htarget; cases htarget
      | rejected _ _ => rfl
      | cancelled _ => rfl
    have hfill : ∀ outcome, known.snapshotEvent order = outcome →
        (∀ event, outcome ≠ .ok (some event)) → OrderRecord.target order.event = none := by
      rintro _ rfl hnone
      by_contra hsome
      obtain ⟨next, hnext⟩ := Option.ne_none_iff_exists'.mp hsome
      exact hnone _ (snapshotEvent_of_target hnext)
    rw [hreported]
    rcases hevent : known.snapshotEvent order with error | _ | event
    · rw [observe_of_error hknown hevent, hget] at hget'
      cases hget'
      rw [hsilent (hfill _ hevent fun _ h => by cases h), Option.none_or]
    · rw [observe_of_none hknown hevent] at hget'
      rw [hsilent (hfill _ hevent fun _ h => by cases h), Option.none_or,
        brokerOrderId_counted hget hget']
    · have hsame : acknowledgedId orderId order.event = acknowledgedId orderId event := by
        cases htarget : OrderRecord.target order.event with
        | some next =>
          cases (snapshotEvent_of_target htarget).symm.trans hevent
          rfl
        | none =>
          obtain ⟨_, _, _, rfl⟩ := filled_of_snapshotEvent htarget hevent
          exact hsilent htarget
      rw [hsame]
      cases hnamed : book.get event.clientOrderId with
      | none =>
        rw [observe_of_unnamed hknown hevent hnamed, hget] at hget'
        cases hget'
        have hother : event.clientOrderId ≠ orderId := by
          rintro rfl
          rw [hnamed] at hget
          cases hget
        rw [acknowledgedId_of_ne hother, Option.none_or]
      | some named =>
        have hstep : ∃ mid, (book.put event.clientOrderId
            (OrderRecord.applyBrokerEvent event named).2).get orderId = some mid ∧
              mid.brokerOrderId = (acknowledgedId orderId event).or record.brokerOrderId := by
          rw [get_put]
          split
          · next heq =>
            rw [heq, hget] at hnamed
            cases hnamed
            exact ⟨_, rfl, brokerOrderId_applyBrokerEvent heq hopen⟩
          · next hne => exact ⟨record, hget, by rw [acknowledgedId_of_ne hne, Option.none_or]⟩
        obtain ⟨mid, hmid, hid⟩ := hstep
        rw [← hid]
        by_cases hok : (OrderRecord.applyBrokerEvent event named).1 = .ok ()
        · rw [observe_of_ok hknown hevent hnamed hok] at hget'
          exact brokerOrderId_counted hmid hget'
        · rw [observe_of_failed hknown hevent hnamed hok, hmid] at hget'
          cases hget'
          rfl

theorem Leads.reportedId_eq (h : book.Leads later) (orderId : String) (order : BrokerOrderSnapshot) :
    later.reportedId orderId order = book.reportedId orderId order := by
  have hknown := h order.clientOrderId
  unfold reportedId
  generalize book.get order.clientOrderId = first at hknown ⊢
  generalize later.get order.clientOrderId = second at hknown ⊢
  cases hknown with
  | none => rfl
  | some => rfl

/-- The broker id after a sweep is the one that was reported last. -/
theorem brokerOrderId_observeAll (hget : book.get orderId = some record)
    (hget' : (observeAll orders book).2.get orderId = some record')
    (hopen : OrderRecord.acknowledgedBefore record'.state = false) :
    record'.brokerOrderId =
      (orders.reverse.findSome? (book.reportedId orderId)).or record.brokerOrderId := by
  induction orders generalizing book record with
  | nil =>
    cases hget.symm.trans hget'
    rfl
  | cons order orders ih =>
    have hleads := observe_leads book order
    obtain ⟨mid, hmid, hrecordLeads⟩ := hleads.of_get hget
    obtain ⟨_, hlast, hmidLeads⟩ := (observeAll_leads orders _).of_get hmid
    cases hget'.symm.trans hlast
    have hunknown : ∀ r : OrderRecord, r.Leads record' →
        OrderRecord.acknowledgedBefore r.state = false := by
      intro r hr
      refine Bool.eq_false_of_not_eq_true fun hbefore => ?_
      have hlater := hr.state_leads.acknowledgedBefore hbefore
      rw [hopen] at hlater
      cases hlater
    have hhead := brokerOrderId_observe hget hmid (hunknown record (hrecordLeads.trans hmidLeads))
    have htail := ih hmid hget'
    rw [funext (hleads.reportedId_eq orderId), hhead] at htail
    rw [htail, List.reverse_cons, List.findSome?_append, List.findSome?_singleton, Option.or_assoc]

end Ids

/-- **Another sweep** with the same snapshot leaves the book as it is exactly when no fill is pending
after the first one. -/
theorem sweep_again_iff (book : OrderBook) (orders : List BrokerOrderSnapshot) :
    let once := (observeAll orders book).2
    (observeAll orders once).2.Alike once ↔ ∀ order ∈ orders, ¬once.Pending order := by
  intro once
  obtain ⟨hkin, hgrows⟩ := observeAll_of_spent (spent_observeAll orders book)
  constructor
  · intro hsame order horder hpending
    obtain ⟨id, record, hrecord, record', hrecord', hlt⟩ := hgrows ⟨order, horder, hpending⟩
    cases hrecord.symm.trans ((hsame id).symm.trans hrecord')
    exact lt_irrefl _ hlt
  · intro hnone id
    have hkin := hkin hnone
    cases hget : once.get id with
    | none =>
      have hid := hkin id
      rw [hget] at hid
      exact Option.map_eq_none_iff.mp hid
    | some record =>
      obtain ⟨record', hget', hcore⟩ := hkin.of_get hget
      obtain ⟨_, hget'', hleads⟩ := (observeAll_leads orders once).of_get hget
      cases hget'.symm.trans hget''
      obtain ⟨hintent, hfilled⟩ := OrderRecord.core_eq_iff.mp hcore
      have hid : record'.brokerOrderId = record.brokerOrderId := by
        cases hbefore : OrderRecord.acknowledgedBefore record.state with
        | true => exact hleads.brokerOrderId_eq hbefore
        | false =>
          obtain ⟨first, hfirst, -⟩ := (observeAll_leads orders book).of_get_later hget
          have hbefore' : OrderRecord.acknowledgedBefore record'.state = false := by
            rw [OrderRecord.state, hintent]
            exact hbefore
          have honce := brokerOrderId_observeAll hfirst hget hbefore
          have htwice := brokerOrderId_observeAll hget hget' hbefore'
          rw [funext ((observeAll_leads orders book).reportedId_eq id)] at htwice
          rw [htwice, honce]
          cases orders.reverse.findSome? (book.reportedId id) <;> rfl
      rw [hget']
      cases record
      cases record'
      cases hintent
      cases hfilled
      cases hid
      rfl

end OrderBook

end InsiderTrader
