import InsiderTrader.OrderFlow

/-!
# The snapshot sweep of the reconciliation crate

The crate applies a broker snapshot to an order book of its own. For each known
order it applies the latest event and then the cumulative filled quantity. What
it does to a book depends on the records only, so that books with the same
records are treated alike.

## Main definitions

- `OrderBook.applySnapshotOrder` — one order of a snapshot
- `OrderBook.reconcileSnapshot` — a whole snapshot, with its findings
- `OrderBook.Alike` — the same records under the same ids
- `OrderBook.Supplies` — a cumulative quantity that the event does not account for

## Main results

- `OrderBook.applySnapshotOrder_eq_ok` — the two steps of an order that is applied
- `OrderBook.applySnapshotOrder_filled` — what the cumulative quantity adds to the event
-/

namespace InsiderTrader

open MachineInt Fallible

/-- Classification of an order in a sweep. A failure carries the error of the book. -/
inductive SnapshotFinding where
  | applied
  | externalOrder
  | missingAtBroker
  | failed (error : TransitionError)
  deriving DecidableEq

/-- Result of comparing a broker snapshot to local order state. -/
structure SnapshotReport where
  findings : List (String × SnapshotFinding)
  positions : List BrokerPositionSnapshot
  accountValues : Std.TreeMap String Int

/-- The latest event of a snapshot order is a fill of that order. -/
def BrokerOrderSnapshot.ReportsFill (order : BrokerOrderSnapshot) : Prop :=
  match order.event with
  | .filled clientOrderId _ _ => clientOrderId = order.clientOrderId
  | _ => False

/-- The event a snapshot order stands for at its record: a fill is cut down to what is not yet
known, and there is none when nothing is new. -/
def OrderRecord.snapshotEvent (record : OrderRecord) (order : BrokerOrderSnapshot) :
    Except TransitionError (Option BrokerEvent) :=
  match order.event, order.filledQuantityTicks with
  | .filled clientOrderId _ priceTicks, some cumulative =>
    if cumulative < record.filledQuantityTicks ∨ record.intent.quantityTicks < cumulative then
      .error .mismatchedOrder
    else if record.filledQuantityTicks < cumulative then
      .ok (some (.filled clientOrderId (cumulative - record.filledQuantityTicks) priceTicks))
    else .ok none
  | event, _ => .ok (some event)

/-- A filled order takes no further step. -/
theorem legalTransition_filled (next : OrderState) : legalTransition .filled next = false := by
  cases next <;> rfl

/-- A cumulative quantity that a record takes: nothing new, or its filled quantity becomes it. -/
theorem OrderRecord.applyCumulativeFill_eq_ok {cumulative : Int} {record record' : OrderRecord}
    (h : OrderRecord.applyCumulativeFill cumulative record = (.ok (), record')) :
    record.filledQuantityTicks ≤ cumulative ∧ record'.filledQuantityTicks = cumulative ∧
      (cumulative = record.filledQuantityTicks → record' = record) ∧
      (record.state = .filled → cumulative = record.filledQuantityTicks) := by
  unfold OrderRecord.applyCumulativeFill at h
  rw [reads_bind] at h
  dsimp only [id] at h
  split at h
  · cases h
  · next hrange =>
    refine ⟨by omega, ?_⟩
    split at h
    · next hsame =>
      cases h
      exact ⟨hsame.symm, fun _ => rfl, fun _ => hsame⟩
    · next hnew =>
      obtain ⟨_, next, hstep, h⟩ := bind_eq_ok h
      cases h
      refine ⟨rfl, fun hsame => absurd hsame hnew, fun hfilled => ?_⟩
      rw [OrderRecord.transition_apply, if_neg (by rw [hfilled, legalTransition_filled]; simp)]
        at hstep
      cases hstep

namespace OrderBook

/-- Apply one order of a snapshot: its event, then its cumulative filled quantity. -/
def applySnapshotOrder (order : BrokerOrderSnapshot) : Fallible OrderBook TransitionError Unit := do
  let book ← Fallible.reads id
  let record ← Fallible.orFail (book.get order.clientOrderId) .unknownOrder
  let event ← Fallible.ofExcept (record.snapshotEvent order)
  event.elim (pure ()) applyBrokerEvent
  order.filledQuantityTicks.elim (pure ()) (applyCumulativeFill order.clientOrderId)

/-- Classify one order of a snapshot and apply it when it is known. -/
def observe (book : OrderBook) (order : BrokerOrderSnapshot) : SnapshotFinding × OrderBook :=
  if (book.get order.clientOrderId).isNone then (.externalOrder, book)
  else
    match applySnapshotOrder order book with
    | (.ok _, book) => (.applied, book)
    | (.error error, book) => (.failed error, book)

/-- Classify and apply the orders of a snapshot in turn. -/
def observeAll : List BrokerOrderSnapshot → OrderBook → List (String × SnapshotFinding) × OrderBook
  | [], book => ([], book)
  | order :: orders, book =>
    let head := book.observe order
    let rest := observeAll orders head.2
    ((order.clientOrderId, head.1) :: rest.1, rest.2)

/-- Working orders of the book that a snapshot does not report. -/
def missingAtBroker (book : OrderBook) (observed : List String) : List String :=
  book.clientOrderIds.filter fun id =>
    id ∉ observed ∧ (book.get id).any fun record => Runtime.workingState record.state

/-- Apply a broker snapshot without sending or retrying any order. -/
def reconcileSnapshot (snapshot : BrokerSnapshot) (book : OrderBook) :
    SnapshotReport × OrderBook :=
  let swept := observeAll snapshot.orders book
  let missing := swept.2.missingAtBroker (snapshot.orders.map (·.clientOrderId))
  let findings := swept.1 ++ missing.map (·, .missingAtBroker)
  (⟨findings.mergeSort (·.1 ≤ ·.1), snapshot.positions, snapshot.accountValues⟩, swept.2)

/-- No finding of the sweep is a failure. -/
def Sweeps (orders : List BrokerOrderSnapshot) (book : OrderBook) : Prop :=
  ∀ finding ∈ (observeAll orders book).1, ∀ error, finding.2 ≠ .failed error

-- Books with the same records

/-- The same records under the same ids. -/
def Alike (book book' : OrderBook) : Prop := ∀ id, book.get id = book'.get id

/-- The same known orders, in the same states and with the same filled quantities. -/
def Agrees (book book' : OrderBook) : Prop :=
  ∀ id, (book.get id).map (fun record => (record.state, record.filledQuantityTicks)) =
    (book'.get id).map (fun record => (record.state, record.filledQuantityTicks))

/-- Filled quantities are counts. -/
def Counted (book : OrderBook) : Prop :=
  ∀ id, ∀ record ∈ book.get id, 0 ≤ record.filledQuantityTicks

/-- The cumulative quantity of a known order says more than its event: it is not what the order
has filled, and the event is not a fill of the order. -/
def Supplies (book : OrderBook) (order : BrokerOrderSnapshot) : Prop :=
  ∃ record ∈ book.get order.clientOrderId, ∃ cumulative ∈ order.filledQuantityTicks,
    cumulative ≠ record.filledQuantityTicks ∧ ¬order.ReportsFill

variable {book book' : OrderBook} {order : BrokerOrderSnapshot} {record : OrderRecord}

theorem Alike.agrees (h : book.Alike book') : book.Agrees book' := by
  intro id
  rw [h id]

theorem Alike.trans {book'' : OrderBook} (h : book.Alike book') (h' : book'.Alike book'') :
    book.Alike book'' :=
  fun id => (h id).trans (h' id)

theorem Alike.symm (h : book.Alike book') : book'.Alike book := fun id => (h id).symm

/-- A computation that treats books with the same records alike. -/
def Uniform {α : Type} (p : Fallible OrderBook TransitionError α) : Prop :=
  ∀ book book', book.Alike book' → (p book).1 = (p book').1 ∧ (p book).2.Alike (p book').2

theorem onRecord_uniform {unknown : TransitionError} {id : String}
    {p : Fallible OrderRecord TransitionError Unit} : Uniform (onRecord unknown id p) := by
  intro book book' h
  unfold onRecord
  rw [← h id]
  cases hget : book.get id with
  | none => exact ⟨rfl, h⟩
  | some record =>
    refine ⟨rfl, fun id' => ?_⟩
    show (book.put id _).get id' = (book'.put id _).get id'
    rw [get_put, get_put, h id']

theorem Uniform.ret {α : Type} (a : α) : Uniform (pure a) := fun _ _ h => ⟨rfl, h⟩

theorem Uniform.bind {α β : Type} {p : Fallible OrderBook TransitionError α}
    {f : α → Fallible OrderBook TransitionError β} (hp : Uniform p) (hf : ∀ a, Uniform (f a)) :
    Uniform (p >>= f) := by
  intro book book' h
  obtain ⟨hvalue, hbook⟩ := hp book book' h
  rw [bind_apply, bind_apply]
  rcases hrun : p book with ⟨_ | a, next⟩ <;> rcases hrun' : p book' with ⟨_ | a', next'⟩
  all_goals rw [hrun, hrun'] at hvalue hbook
  all_goals cases hvalue
  · exact ⟨rfl, hbook⟩
  · exact hf a next next' hbook

theorem applySnapshotOrder_uniform : Uniform (applySnapshotOrder order) := by
  intro book book' h
  unfold applySnapshotOrder
  rw [reads_bind, reads_bind]
  dsimp only [id]
  rw [h order.clientOrderId]
  refine Uniform.bind (fun _ _ h => ?_) (fun record => Uniform.bind (fun _ _ h => ⟨rfl, h⟩)
    fun event => Uniform.bind ?_ fun _ => ?_) book book' h
  · cases book'.get order.clientOrderId with
    | none => exact ⟨rfl, h⟩
    | some record => exact ⟨rfl, h⟩
  · cases event with
    | none => exact Uniform.ret ()
    | some event => exact onRecord_uniform
  · cases order.filledQuantityTicks with
    | none => exact Uniform.ret ()
    | some cumulative => exact onRecord_uniform

-- One order that is applied

/-- **Inversion of a snapshot order**: the event was applied, and then the cumulative quantity. -/
theorem applySnapshotOrder_eq_ok (h : applySnapshotOrder order book = (.ok (), book')) :
    ∃ record event next, book.get order.clientOrderId = some record ∧
      record.snapshotEvent order = .ok event ∧
      event.elim (pure ()) applyBrokerEvent book = (.ok (), next) ∧
      order.filledQuantityTicks.elim (pure ()) (applyCumulativeFill order.clientOrderId) next =
        (.ok (), book') := by
  unfold applySnapshotOrder at h
  rw [reads_bind] at h
  obtain ⟨record, hget, h⟩ := orFail_bind_eq_ok h
  obtain ⟨event, hevent, h⟩ := ofExcept_bind_eq_ok h
  obtain ⟨_, next, happly, h⟩ := bind_eq_ok h
  exact ⟨record, event, next, hget, hevent, happly, h⟩

theorem observe_of_unknown (h : book.get order.clientOrderId = none) :
    book.observe order = (.externalOrder, book) := by
  rw [observe, h]
  rfl

/-- A known order whose finding is no failure was applied. -/
theorem applySnapshotOrder_of_observe (hget : book.get order.clientOrderId = some record)
    (hfinding : ∀ error, (book.observe order).1 ≠ .failed error) :
    applySnapshotOrder order book = (.ok (), (book.observe order).2) := by
  unfold observe at hfinding ⊢
  rw [hget] at hfinding ⊢
  rcases hrun : applySnapshotOrder order book with ⟨error | _, next⟩
  · rw [hrun] at hfinding
    exact absurd rfl (hfinding error)
  · rfl

/-- The findings of a report without failures are those of its orders. -/
theorem sweeps_of_findings {snapshot : BrokerSnapshot}
    (h : ∀ finding ∈ (book.reconcileSnapshot snapshot).1.findings, ∀ error,
      finding.2 ≠ .failed error) : Sweeps snapshot.orders book :=
  fun finding hfinding => h finding (List.mem_mergeSort.mpr (List.mem_append_left _ hfinding))

theorem Sweeps.cons {orders : List BrokerOrderSnapshot} (h : Sweeps (order :: orders) book) :
    (∀ error, (book.observe order).1 ≠ .failed error) ∧ Sweeps orders (book.observe order).2 :=
  ⟨h (order.clientOrderId, (book.observe order).1) (List.mem_cons_self ..),
    fun finding hfinding => h finding (List.mem_cons_of_mem _ hfinding)⟩

/-- An event at a known order, as a step of its record. -/
theorem applyBrokerEvent_eq_ok {event : BrokerEvent}
    (h : applyBrokerEvent event book = (.ok (), book')) :
    ∃ record, book.get event.clientOrderId = some record ∧
      (OrderRecord.applyBrokerEvent event record).1 = .ok () ∧
      book' = book.put event.clientOrderId (OrderRecord.applyBrokerEvent event record).2 := by
  unfold applyBrokerEvent at h
  cases hget : book.get event.clientOrderId with
  | none => rw [onRecord_of_none hget] at h; cases h
  | some record =>
    rw [onRecord_of_get hget, Prod.mk.injEq] at h
    exact ⟨record, rfl, h.1, h.2.symm⟩

/-- A cumulative quantity that is applied, as a step of its record. -/
theorem applyCumulativeFill_eq_ok {cumulative : Int} {orderId : String}
    (h : applyCumulativeFill orderId cumulative book = (.ok (), book')) :
    ∃ record record', book.get orderId = some record ∧
      OrderRecord.applyCumulativeFill cumulative record = (.ok (), record') ∧
      book' = book.put orderId record' := by
  unfold applyCumulativeFill at h
  cases hget : book.get orderId with
  | none => rw [onRecord_of_none hget] at h; cases h
  | some record =>
    rw [onRecord_of_get hget, Prod.mk.injEq] at h
    exact ⟨record, _, rfl, Prod.ext h.1 rfl, h.2.symm⟩

/-- An event leaves the filled quantity of an order alone unless it is a fill of it. -/
theorem applyBrokerEvent_filledQuantity_of_get {event : BrokerEvent} {orderId : String}
    {mid : OrderRecord} (h : applyBrokerEvent event book = (.ok (), book'))
    (hget : book.get orderId = some record) (hmid : book'.get orderId = some mid)
    (hfill : ∀ ticks price, event ≠ .filled orderId ticks price) :
    mid.filledQuantityTicks = record.filledQuantityTicks := by
  obtain ⟨target, htarget, -, rfl⟩ := applyBrokerEvent_eq_ok h
  rw [get_put] at hmid
  split at hmid
  · next hid =>
    rw [hid, hget] at htarget
    cases htarget
    cases hmid
    refine OrderRecord.applyBrokerEvent_filledQuantity (fun other ticks price he => ?_) record
    subst he
    exact hfill ticks price (congrArg (BrokerEvent.filled · ticks price) hid)
  · rw [hget] at hmid
    cases hmid
    rfl

/-- A fill of an order that succeeds adds its quantity, unless the order is filled. -/
theorem applyBrokerEvent_filled_of_get {orderId : String} {ticks price : Int} {mid : OrderRecord}
    (h : applyBrokerEvent (.filled orderId ticks price) book = (.ok (), book'))
    (hget : book.get orderId = some record) (hmid : book'.get orderId = some mid)
    (hopen : mid.state ≠ .filled ∨ record.state ≠ .filled) :
    mid.filledQuantityTicks = record.filledQuantityTicks + ticks := by
  obtain ⟨target, htarget, hok, rfl⟩ := applyBrokerEvent_eq_ok h
  dsimp only [BrokerEvent.clientOrderId] at htarget hmid
  rw [hget] at htarget
  cases htarget
  rw [get_put, if_pos rfl] at hmid
  cases hmid
  by_cases htakes : record.TakesFill ticks price
  · rw [OrderRecord.applyBrokerEvent_of_takesFill htakes]
    split <;> rfl
  · obtain ⟨hfilled, hkeep⟩ := OrderRecord.applyBrokerEvent_of_not_takesFill orderId htakes
    rw [hkeep] at hopen
    exact absurd (hfilled hok) (hopen.elim id id)

/-- Events keep filled quantities counts. -/
theorem Counted.applyBrokerEvent {event : BrokerEvent} (hcounted : book.Counted)
    (h : OrderBook.applyBrokerEvent event book = (.ok (), book')) : book'.Counted := by
  intro orderId mid hmid
  obtain ⟨target, htarget, hok, rfl⟩ := applyBrokerEvent_eq_ok h
  have hpos := hcounted _ _ htarget
  rw [Option.mem_def, get_put] at hmid
  split at hmid
  · cases hmid
    cases event with
    | filled other ticks price =>
      by_cases htakes : target.TakesFill ticks price
      · have hticks := htakes.quantity_pos
        rw [OrderRecord.applyBrokerEvent_of_takesFill htakes]
        split <;> exact Int.add_nonneg hpos (le_of_lt hticks)
      · rw [(OrderRecord.applyBrokerEvent_of_not_takesFill other htakes).2]
        exact hpos
    | acknowledged _ _ | rejected _ _ | cancelled _ =>
      refine le_of_le_of_eq hpos (OrderRecord.applyBrokerEvent_filledQuantity ?_ target).symm
      exact fun _ _ _ hfill => by cases hfill
  · exact hcounted orderId mid hmid

/-- The filled quantity of an order after the event of its snapshot order: the cumulative
quantity when the event is a fill of it, and what it was otherwise. -/
theorem filledQuantity_of_snapshotEvent {event : Option BrokerEvent} {next : OrderBook}
    {cumulative : Int} {mid : OrderRecord} (hget : book.get order.clientOrderId = some record)
    (hevent : record.snapshotEvent order = .ok event)
    (hnext : event.elim (pure ()) applyBrokerEvent book = (.ok (), next))
    (hmid : next.get order.clientOrderId = some mid)
    (hcumulative : order.filledQuantityTicks = some cumulative) :
    (order.ReportsFill → mid.state ≠ .filled → mid.filledQuantityTicks = cumulative) ∧
      (¬order.ReportsFill → mid.filledQuantityTicks = record.filledQuantityTicks) := by
  unfold OrderRecord.snapshotEvent at hevent
  unfold BrokerOrderSnapshot.ReportsFill
  rw [hcumulative] at hevent
  cases he : order.event with
  | filled orderId ticks price =>
    rw [he] at hevent
    dsimp only at hevent ⊢
    split at hevent
    · cases hevent
    · next hrange =>
      split at hevent
      · next hnew =>
        cases hevent
        change applyBrokerEvent _ book = _ at hnext
        refine ⟨fun hid hopen => ?_, fun hid => ?_⟩
        · subst hid
          rw [applyBrokerEvent_filled_of_get hnext hget hmid (.inl hopen)]
          omega
        · refine applyBrokerEvent_filledQuantity_of_get hnext hget hmid fun _ _ hsame => ?_
          cases hsame
          exact hid rfl
      · next hnew =>
        cases hevent
        cases hnext
        rw [hget] at hmid
        cases hmid
        exact ⟨fun _ _ => by omega, fun _ => rfl⟩
  | acknowledged _ _ | rejected _ _ | cancelled _ =>
    rw [he] at hevent
    cases hevent
    change applyBrokerEvent _ book = _ at hnext
    exact ⟨fun hid => hid.elim, fun _ =>
      applyBrokerEvent_filledQuantity_of_get hnext hget hmid fun _ _ hsame => by cases hsame⟩

/-- **The cumulative quantity**: once the event is applied it changes the book exactly when it
says more than the event. -/
theorem applyCumulativeFill_of_snapshotEvent {event : Option BrokerEvent} {next : OrderBook}
    (hget : book.get order.clientOrderId = some record)
    (hevent : record.snapshotEvent order = .ok event)
    (hnext : event.elim (pure ()) applyBrokerEvent book = (.ok (), next))
    (hlast : order.filledQuantityTicks.elim (pure ())
      (applyCumulativeFill order.clientOrderId) next = (.ok (), book')) :
    (¬book.Supplies order → next.Alike book') ∧ (book.Supplies order → ¬next.Agrees book') := by
  cases hcumulative : order.filledQuantityTicks with
  | none =>
    rw [hcumulative] at hlast
    cases hlast
    refine ⟨fun _ _ => rfl, fun hsupplies => ?_⟩
    obtain ⟨_, _, cumulative, hc, -⟩ := hsupplies
    rw [hcumulative] at hc
    cases hc
  | some cumulative =>
    rw [hcumulative] at hlast
    obtain ⟨mid, last, hmid, hstep, rfl⟩ := applyCumulativeFill_eq_ok hlast
    obtain ⟨hle, hfilled, hsame, hopen⟩ := OrderRecord.applyCumulativeFill_eq_ok hstep
    obtain ⟨hreports, hsilent⟩ :=
      filledQuantity_of_snapshotEvent hget hevent hnext hmid hcumulative
    have hsupplies : book.Supplies order ↔ cumulative ≠ mid.filledQuantityTicks := by
      constructor
      · rintro ⟨record', hrecord', cumulative', hc', hne, hsays⟩
        rw [hcumulative] at hc'
        rw [hget] at hrecord'
        cases hc'
        cases hrecord'
        rw [hsilent hsays]
        exact hne
      · intro hne
        have hsays : ¬order.ReportsFill := fun hsays =>
          hne (hreports hsays fun hstate => hne (hopen hstate)).symm
        exact ⟨record, hget, cumulative, hcumulative, hsilent hsays ▸ hne, hsays⟩
    rw [hsupplies]
    refine ⟨fun hno orderId => ?_, fun hne hagrees => ?_⟩
    · rw [hsame (not_not.mp hno), get_put]
      split
      · next hid => rw [← hid, hmid]
      · rfl
    · have hid := hagrees order.clientOrderId
      rw [hmid, get_put, if_pos rfl] at hid
      simp only [Option.map_some, Option.some.injEq, Prod.mk.injEq] at hid
      exact hne (hfilled.symm.trans hid.2.symm)

end OrderBook

end InsiderTrader
