import InsiderTrader.OrderFlow
import InsiderTrader.Library.Runs

/-!
# Children and the order book

A broker event of a child goes to the order book first and, when the book takes
it, to the plan of the child. The two tell the lifecycle with different states
and different tables: the book takes repeated and late status events that the
child refuses.

## Main definitions

- `ChildOrders` — a plan beside the order book
- `ChildOp` — broker events and the engine's own steps
- `Matches` — the child record stands where the order record stands
- `ChildOp.Followed` — an event the book takes is taken by the child, and the two agree
- `ChildOp.diverges` — the events that part them

## Main results

- `Matches.callback` — what one event does to both records
- `ChildOp.matched_apply` — what one step does to plan and book
- `child_follows_order` — along which runs the child agrees with the book
-/

namespace InsiderTrader

open MachineInt Fallible

-- Two records

/-- The states of a child whose order is in this state. -/
def OrderState.childStates : OrderState → List ChildState
  | .riskApproved | .queued | .sending | .sent => [.sending, .sent, .unknown]
  | .unknown => [.sending, .sent, .unknown, .acknowledged, .partiallyFilled]
  | .acknowledged => [.acknowledged]
  | .partiallyFilled => [.partiallyFilled]
  | .cancelPending => [.acknowledged, .partiallyFilled]
  | .filled => [.filled]
  | .cancelled => [.cancelled]
  | .rejected => [.rejected]
  | .created | .replacePending | .expired => []

/-- The child record stands where the order record stands. -/
structure Matches (o : OrderRecord) (c : ChildRecord) : Prop where
  state : c.state ∈ o.state.childStates
  quantity : o.intent.quantityTicks = c.order.quantityTicks
  filled : o.filledQuantityTicks = c.filledQuantityTicks

/-- Filled quantity and terminal status are the same. -/
structure SameOutcome (o : OrderRecord) (c : ChildRecord) : Prop where
  filledQuantity : c.filledQuantityTicks = o.filledQuantityTicks
  filled : c.state = .filled ↔ o.state = .filled
  cancelled : c.state = .cancelled ↔ o.state = .cancelled
  rejected : c.state = .rejected ↔ o.state = .rejected

/-- The child takes status events in this state. -/
def ChildState.takesStatus (s : ChildState) : Bool :=
  s ∈ [.sending, .sent, .acknowledged, .unknown]

/-- A status event the record takes: it repeats what is known or is a step of the lifecycle. -/
def OrderRecord.takesStatus (o : OrderRecord) : BrokerEvent → Bool
  | .acknowledged _ brokerOrderId =>
    if OrderRecord.acknowledgedBefore o.state then o.brokerOrderId = some brokerOrderId
    else legalTransition o.state .acknowledged
  | .filled _ _ _ => false
  | .rejected _ _ => o.state = .rejected || legalTransition o.state .rejected
  | .cancelled _ => o.state = .cancelled || legalTransition o.state .cancelled

/-- A fill that is written although its step is not legal. -/
def OrderRecord.writesRefused (o : OrderRecord) : BrokerEvent → Bool
  | .filled _ quantityTicks priceTicks =>
    decide (o.TakesFill quantityTicks priceTicks) &&
      !legalTransition o.state (o.fillState quantityTicks)
  | _ => false

theorem Matches.sameOutcome {o : OrderRecord} {c : ChildRecord} (h : Matches o c) :
    SameOutcome o c := by
  obtain ⟨hstate, -, hfilled⟩ := h
  refine ⟨hfilled.symm, ?_, ?_, ?_⟩
  all_goals
    revert hstate
    cases o.state <;> cases c.state <;> decide

section Records

variable {o : OrderRecord} {c : ChildRecord} {event : BrokerEvent}

/-- The order takes the event and so does the child, and they stand at the same place again. -/
def TakenByBoth (event : BrokerEvent) (o : OrderRecord) (c : ChildRecord) : Prop :=
  (OrderRecord.applyBrokerEvent event o).1 = .ok () ∧
    ∃ c', c.applyBrokerEvent event = some c' ∧ c'.order = c.order ∧
      Matches (OrderRecord.applyBrokerEvent event o).2 c'

/-- The order refuses the event, and the two stay where they are. -/
def RefusedByOrder (event : BrokerEvent) (o : OrderRecord) (c : ChildRecord) : Prop :=
  (OrderRecord.applyBrokerEvent event o).1 ≠ .ok () ∧
    Matches (OrderRecord.applyBrokerEvent event o).2 c

/-- The order takes the event and the child refuses it. -/
def RefusedByChild (event : BrokerEvent) (o : OrderRecord) (c : ChildRecord) : Prop :=
  (OrderRecord.applyBrokerEvent event o).1 = .ok () ∧ c.applyBrokerEvent event = none

theorem order_acknowledged_eq (id brokerOrderId : String) (o : OrderRecord) :
    OrderRecord.applyBrokerEvent (.acknowledged id brokerOrderId) o =
      if OrderRecord.acknowledgedBefore o.state then
        (if o.brokerOrderId = some brokerOrderId then .ok () else .error .mismatchedOrder, o)
      else OrderRecord.transition .acknowledged { o with brokerOrderId := some brokerOrderId } := by
  rw [OrderRecord.applyBrokerEvent, reads_bind]
  dsimp only [id_eq]
  split
  · split <;> rfl
  · rw [modify_bind]

theorem order_rejected_eq (id reason : String) (o : OrderRecord) :
    OrderRecord.applyBrokerEvent (.rejected id reason) o =
      if o.state = .rejected then (.ok (), o) else OrderRecord.transition .rejected o := by
  rw [OrderRecord.applyBrokerEvent, reads_bind]
  dsimp only [id_eq]
  split <;> rfl

theorem order_cancelled_eq (id : String) (o : OrderRecord) :
    OrderRecord.applyBrokerEvent (.cancelled id) o =
      if o.state = .cancelled then (.ok (), o) else OrderRecord.transition .cancelled o := by
  rw [OrderRecord.applyBrokerEvent, reads_bind]
  dsimp only [id_eq]
  split <;> rfl

/-- The states in which a status event only repeats what the order knows. -/
def BrokerEvent.repeats : BrokerEvent → OrderState → Bool
  | .acknowledged _ _, s => OrderRecord.acknowledgedBefore s
  | .filled _ _ _, s => s = .filled
  | .rejected _ _, s => s = .rejected
  | .cancelled _, s => s = .cancelled

/-- The states a status event leads to. -/
def BrokerEvent.target : BrokerEvent → OrderState × ChildState
  | .acknowledged _ _ => (.acknowledged, .acknowledged)
  | .filled _ _ _ => (.filled, .filled)
  | .rejected _ _ => (.rejected, .rejected)
  | .cancelled _ => (.cancelled, .cancelled)

/-- The event tells a status and no quantity. -/
def BrokerEvent.IsStatus (event : BrokerEvent) : Prop :=
  ∀ id quantity price, event ≠ .filled id quantity price

theorem order_takes_iff (hstatus : event.IsStatus) (o : OrderRecord) :
    (OrderRecord.applyBrokerEvent event o).1 = .ok () ↔ o.takesStatus event = true := by
  cases event with
  | acknowledged id brokerOrderId =>
    rw [order_acknowledged_eq, OrderRecord.takesStatus]
    split
    · split <;> simp [*]
    · rw [OrderRecord.transition_apply]
      split <;> simp [*]
  | filled id quantity price => exact absurd rfl (hstatus id quantity price)
  | rejected id reason =>
    rw [order_rejected_eq, OrderRecord.takesStatus, OrderRecord.transition_apply]
    split
    · simp [*]
    · split <;> simp [*]
  | cancelled id =>
    rw [order_cancelled_eq, OrderRecord.takesStatus, OrderRecord.transition_apply]
    split
    · simp [*]
    · split <;> simp [*]

theorem order_state_after (hstatus : event.IsStatus) (o : OrderRecord) :
    (OrderRecord.applyBrokerEvent event o).2.state =
      if event.repeats o.state = false ∧ legalTransition o.state event.target.1 = true then
        event.target.1
      else o.state := by
  cases event with
  | acknowledged id brokerOrderId =>
    rw [order_acknowledged_eq, BrokerEvent.repeats, BrokerEvent.target]
    split
    · simp [*]
    · rw [OrderRecord.transition_apply]
      split <;> simp_all [OrderRecord.setState]
  | filled id quantity price => exact absurd rfl (hstatus id quantity price)
  | rejected id reason =>
    rw [order_rejected_eq, OrderRecord.transition_apply, BrokerEvent.repeats,
      BrokerEvent.target]
    split
    · simp [*]
    · split <;> simp_all [OrderRecord.setState]
  | cancelled id =>
    rw [order_cancelled_eq, OrderRecord.transition_apply, BrokerEvent.repeats,
      BrokerEvent.target]
    split
    · simp [*]
    · split <;> simp_all [OrderRecord.setState]

theorem child_takes_status (hstatus : event.IsStatus) (htakes : c.state.takesStatus = true) :
    ∃ c', c.applyBrokerEvent event = some c' ∧ c'.order = c.order ∧
      c'.filledQuantityTicks = c.filledQuantityTicks ∧ c'.state = event.target.2 := by
  have hstates : c.state ∈ [.sending, .sent, .acknowledged, .unknown] := by
    simpa [ChildState.takesStatus] using htakes
  cases event with
  | acknowledged id brokerOrderId =>
    exact ⟨_, if_pos hstates, rfl, rfl, rfl⟩
  | filled id quantity price => exact absurd rfl (hstatus id quantity price)
  | rejected id reason => exact ⟨_, if_pos hstates, rfl, rfl, rfl⟩
  | cancelled id =>
    refine ⟨_, if_pos ?_, rfl, rfl, rfl⟩
    revert hstates
    cases c.state <;> decide

theorem child_refuses_status (hstatus : event.IsStatus) (htakes : c.state.takesStatus = false)
    (hcancel : c.state ≠ .cancelPending) : c.applyBrokerEvent event = none := by
  have hstates : c.state ∉ [.sending, .sent, .acknowledged, .unknown] := by
    simpa [ChildState.takesStatus] using htakes
  cases event with
  | acknowledged id brokerOrderId => exact if_neg hstates
  | filled id quantity price => exact absurd rfl (hstatus id quantity price)
  | rejected id reason => exact if_neg hstates
  | cancelled id =>
    refine if_neg ?_
    revert hstates hcancel
    cases c.state <;> decide

theorem order_status_keeps (hstatus : event.IsStatus) (o : OrderRecord) :
    (OrderRecord.applyBrokerEvent event o).2.intent.quantityTicks = o.intent.quantityTicks ∧
      (OrderRecord.applyBrokerEvent event o).2.filledQuantityTicks = o.filledQuantityTicks := by
  have hintent : _ = _ := OrderRecord.applyBrokerEvent_intent event o
  have hquantity := congrArg OrderIntent.quantityTicks hintent
  exact ⟨hquantity, OrderRecord.applyBrokerEvent_filledQuantity hstatus o⟩

/-- Where both take a status event they come to states that belong together. -/
theorem target_mem_childStates {s : OrderState} {t : ChildState} (hstate : t ∈ s.childStates)
    (hstatus : event.IsStatus) (htakes : t.takesStatus = true)
    (hreaches : event.repeats s = true ∨ legalTransition s event.target.1 = true) :
    event.target.2 ∈
      (if event.repeats s = false ∧ legalTransition s event.target.1 = true then event.target.1
        else s).childStates := by
  cases event with
  | filled id quantity price => exact absurd rfl (hstatus id quantity price)
  | _ =>
    split
    all_goals
      next hif =>
        revert hif hstate htakes hreaches
        dsimp only [BrokerEvent.repeats, BrokerEvent.target]
        cases s <;> cases t <;> decide

theorem reaches_of_takesStatus (h : o.takesStatus event = true) :
    event.repeats o.state = true ∨ legalTransition o.state event.target.1 = true := by
  cases event with
  | acknowledged id brokerOrderId =>
    by_cases hbefore : OrderRecord.acknowledgedBefore o.state = true
    · exact .inl hbefore
    · exact .inr (by simpa [OrderRecord.takesStatus, BrokerEvent.target, hbefore] using h)
  | filled id quantity price => cases h
  | rejected id reason =>
    simpa [OrderRecord.takesStatus, BrokerEvent.repeats, BrokerEvent.target] using h
  | cancelled id =>
    simpa [OrderRecord.takesStatus, BrokerEvent.repeats, BrokerEvent.target] using h

theorem order_state_of_refused (hstatus : event.IsStatus) (h : o.takesStatus event = false) :
    (OrderRecord.applyBrokerEvent event o).2.state = o.state := by
  rw [order_state_after hstatus, if_neg]
  rintro ⟨hrepeats, hlegal⟩
  cases event with
  | acknowledged id brokerOrderId =>
    have hbefore : OrderRecord.acknowledgedBefore o.state = false := hrepeats
    have hlegal : legalTransition o.state .acknowledged = true := hlegal
    simp [OrderRecord.takesStatus, hbefore, hlegal] at h
  | filled id quantity price => exact hstatus id quantity price rfl
  | rejected id reason =>
    have hlegal : legalTransition o.state .rejected = true := hlegal
    simp [OrderRecord.takesStatus, hlegal] at h
  | cancelled id =>
    have hlegal : legalTransition o.state .cancelled = true := hlegal
    simp [OrderRecord.takesStatus, hlegal] at h

theorem Matches.not_cancelPending (h : Matches o c) : c.state ≠ .cancelPending := by
  have hstate := h.state
  revert hstate
  cases o.state <;> cases c.state <;> decide

/-- **A status event**: both take it, the order refuses it, or the child does. -/
theorem Matches.status (h : Matches o c) (hstatus : event.IsStatus) :
    TakenByBoth event o c ∨ RefusedByOrder event o c ∨
      (o.takesStatus event = true ∧ c.state.takesStatus = false ∧ RefusedByChild event o c) := by
  obtain ⟨hstate, hquantity, hfilled⟩ := h
  obtain ⟨hkeepsQuantity, hkeepsFilled⟩ := order_status_keeps hstatus o
  by_cases horder : o.takesStatus event = true
  · by_cases hchild : c.state.takesStatus = true
    · obtain ⟨c', happly, horder', hfilled', hstate'⟩ := child_takes_status hstatus hchild
      refine .inl ⟨(order_takes_iff hstatus o).mpr horder, c', happly, horder', ?_, ?_, ?_⟩
      · rw [order_state_after hstatus, hstate']
        exact target_mem_childStates hstate hstatus hchild (reaches_of_takesStatus horder)
      · rw [hkeepsQuantity, horder', hquantity]
      · rw [hkeepsFilled, hfilled', hfilled]
    · have hcancel := Matches.not_cancelPending ⟨hstate, hquantity, hfilled⟩
      have hrefuses : c.state.takesStatus = false := Bool.eq_false_iff.mpr hchild
      exact .inr (.inr ⟨horder, hrefuses, (order_takes_iff hstatus o).mpr horder,
        child_refuses_status hstatus hrefuses hcancel⟩)
  · refine .inr (.inl ⟨fun hok => horder ((order_takes_iff hstatus o).mp hok), ?_, ?_, ?_⟩)
    · rwa [order_state_of_refused hstatus (Bool.eq_false_iff.mpr horder)]
    · rw [hkeepsQuantity, hquantity]
    · rw [hkeepsFilled, hfilled]

/-- A fill that is a step of the order finds the child open for it. -/
theorem takesFill_of_legal (hstate : c.state ∈ o.state.childStates) {next : OrderState}
    (hlegal : legalTransition o.state next = true)
    (hnext : next = .filled ∨ next = .partiallyFilled) :
    c.state ∈ [.sending, .sent, .acknowledged, .partiallyFilled, .filled, .unknown] ∧
      c.state ≠ .filled := by
  revert hstate hlegal
  rcases hnext with rfl | rfl
  all_goals cases o.state <;> cases c.state <;> decide

/-- The child takes a fill that is a step of the order. -/
theorem child_takes_fill (h : Matches o c) (id : String) {quantity price : Int}
    (htakes : o.TakesFill quantity price)
    (hlegal : legalTransition o.state (o.fillState quantity) = true) :
    ∃ c', c.applyBrokerEvent (.filled id quantity price) = some c' ∧ c'.order = c.order ∧
      c'.filledQuantityTicks = o.filledQuantityTicks + quantity ∧
      c'.state ∈ (o.fillState quantity).childStates := by
  obtain ⟨hstate, hquantity, hfilled⟩ := h
  obtain ⟨hopen, hunfilled⟩ := takesFill_of_legal hstate hlegal (o.fillState_cases quantity)
  obtain ⟨hpos, -, -, hfits, hwithin⟩ := htakes
  have hnarrow : narrow 64 (c.filledQuantityTicks + quantity) =
      some (c.filledQuantityTicks + quantity) :=
    narrow_eq_some.mpr ⟨hfilled ▸ hfits, rfl⟩
  have hle : ¬c.order.quantityTicks < c.filledQuantityTicks + quantity := by omega
  refine ⟨{ c with
    filledQuantityTicks := c.filledQuantityTicks + quantity
    state := if c.filledQuantityTicks + quantity = c.order.quantityTicks then .filled
      else .partiallyFilled }, ?_, rfl, ?_, ?_⟩
  · rw [ChildRecord.applyBrokerEvent, if_pos ⟨hpos, hopen⟩, if_neg hunfilled, hnarrow]
    exact if_neg hle
  · rw [hfilled]
  · rw [OrderRecord.fillState]
    by_cases hall : c.filledQuantityTicks + quantity = c.order.quantityTicks
    · rw [if_pos hall, if_pos (by omega)]
      exact List.mem_singleton_self _
    · rw [if_neg hall, if_neg (by omega)]
      exact List.mem_singleton_self _

/-- **A fill**: both take it, the order refuses it and nothing is written, or its quantity is
written although it is refused. -/
theorem Matches.fill (h : Matches o c) (id : String) (quantity price : Int) :
    TakenByBoth (.filled id quantity price) o c ∨ RefusedByOrder (.filled id quantity price) o c ∨
      o.writesRefused (.filled id quantity price) = true := by
  by_cases htakes : o.TakesFill quantity price
  · by_cases hlegal : legalTransition o.state (o.fillState quantity) = true
    · obtain ⟨c', happly, horder, hfilled, hstate⟩ := child_takes_fill h id htakes hlegal
      have hrun : OrderRecord.applyBrokerEvent (.filled id quantity price) o = _ :=
        OrderRecord.applyBrokerEvent_of_takesFill htakes
      rw [if_pos hlegal] at hrun
      refine .inl ⟨by rw [hrun], c', happly, horder, ?_⟩
      rw [hrun]
      exact ⟨hstate, by rw [horder]; exact h.quantity, hfilled.symm⟩
    · exact .inr (.inr (by simp [OrderRecord.writesRefused, htakes, hlegal]))
  · obtain ⟨hok, hsame⟩ := OrderRecord.applyBrokerEvent_of_not_takesFill id htakes
    by_cases haccepted : (OrderRecord.applyBrokerEvent (.filled id quantity price) o).1 = .ok ()
    · have hchild : c.state = .filled := (h.sameOutcome.filled).mpr (hok haccepted)
      have hpos : 0 < quantity := by
        by_contra hneg
        rw [OrderRecord.applyBrokerEvent, reads_bind] at haccepted
        dsimp only [id_eq] at haccepted
        rw [if_pos (.inl (by omega))] at haccepted
        cases haccepted
      refine .inl ⟨haccepted, c, ?_, rfl, by rwa [hsame]⟩
      rw [ChildRecord.applyBrokerEvent, if_pos ⟨hpos, by rw [hchild]; decide⟩, if_pos hchild]
    · exact .inr (.inl ⟨haccepted, by rwa [hsame]⟩)

theorem isStatus_of_takesStatus (h : o.takesStatus event = true) : event.IsStatus := by
  rintro id quantity price rfl
  cases h

/-- The order refuses a fill that it writes. -/
theorem refused_of_writesRefused (h : o.writesRefused event = true) :
    (OrderRecord.applyBrokerEvent event o).1 ≠ .ok () ∧ o.takesStatus event = false := by
  cases event with
  | filled id quantity price =>
    obtain ⟨htakes, hlegal⟩ := Bool.and_eq_true_iff.mp h
    have hrun : OrderRecord.applyBrokerEvent (.filled id quantity price) o = _ :=
      OrderRecord.applyBrokerEvent_of_takesFill (of_decide_eq_true htakes)
    rw [if_neg (by simpa using hlegal)] at hrun
    rw [hrun]
    exact ⟨by simp, rfl⟩
  | acknowledged => cases h
  | rejected => cases h
  | cancelled => cases h

/-- **One event** at two records that stand together. -/
theorem Matches.callback (h : Matches o c) (event : BrokerEvent) :
    TakenByBoth event o c ∨ RefusedByOrder event o c ∨
      (o.takesStatus event = true ∧ c.state.takesStatus = false ∧ RefusedByChild event o c) ∨
      o.writesRefused event = true := by
  by_cases hstatus : event.IsStatus
  · obtain hboth | horder | hchild := h.status hstatus
    · exact .inl hboth
    · exact .inr (.inl horder)
    · exact .inr (.inr (.inl hchild))
  · obtain ⟨id, quantity, price, rfl⟩ : ∃ id quantity price, event = .filled id quantity price := by
      simpa [BrokerEvent.IsStatus] using hstatus
    obtain hboth | horder | hwrites := h.fill id quantity price
    · exact .inl hboth
    · exact .inr (.inl horder)
    · exact .inr (.inr (.inr hwrites))

end Records

-- The plan

namespace ChildPlan

/-- The child of a client order id. -/
def child (plan : ChildPlan) (clientOrderId : String) : Option ChildRecord :=
  plan.children.find? (·.order.clientOrderId = clientOrderId)

theorem updateList_of_find {id : String} {f : ChildRecord → Option ChildRecord}
    {children : List ChildRecord} {c : ChildRecord}
    (h : children.find? (·.order.clientOrderId = id) = some c) :
    (f c = none → updateList id f children = none) ∧
      ∀ c', f c = some c' → c'.order = c.order → ∃ children',
        updateList id f children = some children' ∧
          ∀ id', children'.find? (·.order.clientOrderId = id') =
            if id = id' then some c' else children.find? (·.order.clientOrderId = id') := by
  induction children with
  | nil => cases h
  | cons r rs ih =>
    rw [updateList]
    by_cases hid : r.order.clientOrderId = id
    · obtain rfl : r = c := by simpa [hid] using h
      refine ⟨fun hf => by simp [hid, hf], fun c' hf horder => ⟨c' :: rs, by simp [hid, hf], ?_⟩⟩
      intro id'
      simp only [List.find?_cons, horder, hid]
      by_cases he : id = id' <;> simp [he]
    · obtain ⟨hnone, hsome⟩ := ih (by simpa [List.find?_cons, hid] using h)
      refine ⟨fun hf => by simp [hid, hnone hf], fun c' hf horder => ?_⟩
      obtain ⟨children', hupdate, hfind⟩ := hsome c' hf horder
      refine ⟨r :: children', by simp [hid, hupdate], fun id' => ?_⟩
      simp only [List.find?_cons, hfind id']
      by_cases he : r.order.clientOrderId = id'
      · have hne : ¬id = id' := fun h => hid (he.trans h.symm)
        simp [he, hne]
      · simp [he]

theorem updateList_of_not_found {id : String} {f : ChildRecord → Option ChildRecord}
    {children : List ChildRecord} (h : children.find? (·.order.clientOrderId = id) = none) :
    updateList id f children = none := by
  induction children with
  | nil => rfl
  | cons r rs ih =>
    have hall := List.find?_eq_none.mp h
    have hid : r.order.clientOrderId ≠ id := by simpa using hall r List.mem_cons_self
    have hrs : rs.find? (·.order.clientOrderId = id) = none :=
      List.find?_eq_none.mpr fun x hx => hall x (List.mem_cons_of_mem r hx)
    rw [updateList, if_neg hid, ih hrs, Option.map_none]

variable {id : String} {f : ChildRecord → Option ChildRecord} {plan : ChildPlan} {c c' : ChildRecord}

theorem update_of_refused (hchild : plan.child id = some c) (hf : f c = none) :
    update id f plan = (.error .invalidChildTransition, plan) := by
  rw [update, (updateList_of_find hchild).1 hf]

/-- A change that a child takes reaches that child and no other. -/
theorem update_of_taken (hchild : plan.child id = some c) (hf : f c = some c')
    (horder : c'.order = c.order) :
    (update id f plan).1 = .ok () ∧
      ∀ id', (update id f plan).2.child id' = if id = id' then some c' else plan.child id' := by
  obtain ⟨children', hupdate, hfind⟩ := (updateList_of_find hchild).2 c' hf horder
  rw [update, hupdate]
  exact ⟨rfl, hfind⟩

/-- No change of one child reaches another. -/
theorem update_child_of_ne {id' : String} (hne : id ≠ id')
    (hf : ∀ c c', f c = some c' → c'.order = c.order) :
    (update id f plan).2.child id' = plan.child id' := by
  cases hchild : plan.child id with
  | none => rw [update, updateList_of_not_found hchild]
  | some c =>
    cases hfc : f c with
    | none => rw [update_of_refused hchild hfc]
    | some c' => rw [(update_of_taken hchild hfc (hf c c' hfc)).2 id', if_neg hne]

end ChildPlan

-- Plan and book

/-- A plan beside the order book. -/
structure ChildOrders where
  orders : OrderBook
  plan : ChildPlan

/-- The engine's own steps of an order. -/
inductive SendStep where
  | queued
  | sending
  | sent
  | cancelPending
  | unknown
  deriving DecidableEq

/-- The state a step of the engine leads to. -/
def SendStep.state : SendStep → OrderState
  | .queued => .queued
  | .sending => .sending
  | .sent => .sent
  | .cancelPending => .cancelPending
  | .unknown => .unknown

/-- What happens to the orders of a plan: broker events, the engine's steps of an order (its
sending, a requested cancellation, an uncertain answer) and the marks of a child. -/
inductive ChildOp where
  | callback (event : BrokerEvent)
  | advance (clientOrderId : String) (step : SendStep)
  | markSent (clientOrderId : String)
  | markUnknown (clientOrderId : String)
  deriving DecidableEq

namespace ChildOp

/-- The book and the plan after an operation. An event comes to the plan when the book takes it. -/
def apply : ChildOp → ChildOrders → ChildOrders
  | .callback event, s =>
    match OrderBook.applyBrokerEvent event s.orders with
    | (.ok _, orders) => ⟨orders, (ChildPlan.applyBrokerEvent event s.plan).2⟩
    | (.error _, orders) => ⟨orders, s.plan⟩
  | .advance clientOrderId step, s =>
    ⟨(OrderBook.transition clientOrderId step.state s.orders).2, s.plan⟩
  | .markSent clientOrderId, s => ⟨s.orders, (ChildPlan.markSent clientOrderId s.plan).2⟩
  | .markUnknown clientOrderId, s => ⟨s.orders, (ChildPlan.markUnknown clientOrderId s.plan).2⟩

/-- An event of a child that the book takes is taken by the plan, and afterwards the two records
have the same outcome. -/
def Followed (id : String) : ChildOp → ChildOrders → Prop
  | .callback event, s =>
    event.clientOrderId = id → (OrderBook.applyBrokerEvent event s.orders).1 = .ok () →
      (ChildPlan.applyBrokerEvent event s.plan).1 = .ok () ∧
        ∃ o c, ((ChildOp.callback event).apply s).orders.get id = some o ∧
          ((ChildOp.callback event).apply s).plan.child id = some c ∧ SameOutcome o c
  | _, _ => True

/-- A status event that the book takes when the child is past taking one. -/
def leavesChild (id : String) : ChildOp → ChildOrders → Bool
  | .callback event, s =>
    event.clientOrderId = id && (s.orders.get id).any (·.takesStatus event) &&
      (s.plan.child id).any (!·.state.takesStatus)
  | _, _ => false

/-- A fill whose quantity the book writes although it refuses the event. -/
def leavesPlan (id : String) : ChildOp → ChildOrders → Bool
  | .callback event, s => event.clientOrderId = id && (s.orders.get id).any (·.writesRefused event)
  | _, _ => false

end ChildOp

/-- The order of a client order id and its child stand together. -/
def ChildOrders.Matched (id : String) (s : ChildOrders) : Prop :=
  ∃ o c, s.orders.get id = some o ∧ s.plan.child id = some c ∧ Matches o c

/-- A child that a claim has taken and whose intent has just come into the book. -/
def ChildOrders.JustSent (parent : OrderIntent) (id : String) (s : ChildOrders) : Prop :=
  ∃ c orders, s.plan.child id = some c ∧ c.state = .sending ∧ c.filledQuantityTicks = 0 ∧
    OrderBook.insert (ChildPlan.childIntent parent c.order) orders = (.ok (), s.orders)

section Steps

variable {id : String} {s : ChildOrders} {event : BrokerEvent} {o : OrderRecord} {c c' : ChildRecord}

theorem applyBrokerEvent_order (h : c.applyBrokerEvent event = some c') : c'.order = c.order := by
  cases event with
  | acknowledged id brokerOrderId =>
    rw [← Option.some.inj (Option.ite_none_right_eq_some.mp h).2]
  | filled id quantity price =>
    obtain ⟨-, h⟩ := Option.ite_none_right_eq_some.mp h
    split at h
    · rw [← Option.some.inj h]
    · obtain ⟨total, -, h⟩ := Option.bind_eq_some_iff.mp h
      rw [← Option.some.inj (Option.ite_none_left_eq_some.mp h).2]
  | rejected id reason =>
    rw [← Option.some.inj (Option.ite_none_right_eq_some.mp h).2]
  | cancelled id =>
    rw [← Option.some.inj (Option.ite_none_right_eq_some.mp h).2]

theorem ChildOrders.JustSent.matched {parent : OrderIntent} (h : s.JustSent parent id) :
    s.Matched id := by
  obtain ⟨c, orders, hchild, hstate, hfilled, hinsert⟩ := h
  obtain ⟨-, -, horders⟩ := OrderBook.insert_eq_ok_iff.mp hinsert
  have hid : c.order.clientOrderId = id := by simpa using List.find?_some hchild
  refine ⟨⟨ChildPlan.childIntent parent c.order, none, 0⟩, c, ?_, hchild, ?_, rfl, hfilled.symm⟩
  · rw [horders, OrderBook.get_put, ChildPlan.childIntent, if_pos hid]
  · rw [hstate]
    exact List.mem_cons_self

/-- An event of another order reaches neither record. -/
theorem callback_of_ne (hne : event.clientOrderId ≠ id) :
    ((ChildOp.callback event).apply s).orders.get id = s.orders.get id ∧
      ((ChildOp.callback event).apply s).plan.child id = s.plan.child id := by
  have horders : (OrderBook.applyBrokerEvent event s.orders).2.get id = s.orders.get id := by
    cases hget : s.orders.get event.clientOrderId with
    | none => rw [OrderBook.applyBrokerEvent, OrderBook.onRecord_of_none hget]
    | some record =>
      rw [OrderBook.applyBrokerEvent, OrderBook.onRecord_of_get hget, OrderBook.get_put, if_neg hne]
  have hplan : (ChildPlan.applyBrokerEvent event s.plan).2.child id = s.plan.child id :=
    ChildPlan.update_child_of_ne hne fun _ _ h => applyBrokerEvent_order h
  rw [ChildOp.apply]
  rcases hrun : OrderBook.applyBrokerEvent event s.orders with ⟨_ | _, orders⟩
  all_goals rw [hrun] at horders
  · exact ⟨horders, rfl⟩
  · exact ⟨horders, hplan⟩

/-- An event at the order it names. -/
theorem book_callback (hget : s.orders.get event.clientOrderId = some o) :
    OrderBook.applyBrokerEvent event s.orders =
      ((OrderRecord.applyBrokerEvent event o).1,
        s.orders.put event.clientOrderId (OrderRecord.applyBrokerEvent event o).2) :=
  OrderBook.onRecord_of_get hget

theorem callback_of_taken (hget : s.orders.get event.clientOrderId = some o)
    (hok : (OrderRecord.applyBrokerEvent event o).1 = .ok ()) :
    (ChildOp.callback event).apply s =
      ⟨s.orders.put event.clientOrderId (OrderRecord.applyBrokerEvent event o).2,
        (ChildPlan.applyBrokerEvent event s.plan).2⟩ := by
  rw [ChildOp.apply, book_callback hget, hok]

theorem callback_of_refused (hget : s.orders.get event.clientOrderId = some o)
    (hne : (OrderRecord.applyBrokerEvent event o).1 ≠ .ok ()) :
    (ChildOp.callback event).apply s =
      ⟨s.orders.put event.clientOrderId (OrderRecord.applyBrokerEvent event o).2, s.plan⟩ := by
  rw [ChildOp.apply, book_callback hget]
  cases hrun : (OrderRecord.applyBrokerEvent event o).1 with
  | ok _ => exact absurd hrun hne
  | error e => rfl

/-- **One broker event of a child**: the agreement is kept unless the event parts the records, and
the event is followed exactly when the child is not left behind. -/
theorem ChildOrders.Matched.callback (h : s.Matched event.clientOrderId) :
    ((ChildOp.callback event).Followed event.clientOrderId s ↔
        (ChildOp.callback event).leavesChild event.clientOrderId s = false) ∧
      ((ChildOp.callback event).leavesChild event.clientOrderId s = false →
        (ChildOp.callback event).leavesPlan event.clientOrderId s = false →
        ((ChildOp.callback event).apply s).Matched event.clientOrderId) := by
  obtain ⟨o, c, hget, hchild, hmatches⟩ := h
  have hleaves : (ChildOp.callback event).leavesChild event.clientOrderId s =
      (o.takesStatus event && !c.state.takesStatus) := by
    simp [ChildOp.leavesChild, hget, hchild]
  have hwrites : (ChildOp.callback event).leavesPlan event.clientOrderId s =
      o.writesRefused event := by
    simp [ChildOp.leavesPlan, hget]
  rw [hleaves, hwrites, ChildOp.Followed, book_callback hget]
  obtain ⟨hok, c', happly, horder, hmatches'⟩ | ⟨hrefused, hmatches'⟩ |
    ⟨htakes, hnot, hok, hnone⟩ | hwritten := hmatches.callback event
  · -- both take it
    have hkeeps : (o.takesStatus event && !c.state.takesStatus) = false := by
      by_contra hleft
      obtain ⟨htakes, hnot⟩ := Bool.and_eq_true_iff.mp (Bool.eq_true_of_not_eq_false hleft)
      have hnone := child_refuses_status (isStatus_of_takesStatus htakes) (by simpa using hnot)
        hmatches.not_cancelPending
      rw [happly] at hnone
      cases hnone
    obtain ⟨hplan, hchild'⟩ := ChildPlan.update_of_taken (f := (·.applyBrokerEvent event))
      hchild happly horder
    have horderAfter : ((ChildOp.callback event).apply s).orders.get event.clientOrderId =
        some (OrderRecord.applyBrokerEvent event o).2 := by
      rw [callback_of_taken hget hok, OrderBook.get_put, if_pos rfl]
    have hchildAfter : ((ChildOp.callback event).apply s).plan.child event.clientOrderId =
        some c' := by
      rw [callback_of_taken hget hok]
      exact (hchild' event.clientOrderId).trans (if_pos rfl)
    exact ⟨iff_of_true (fun _ _ => ⟨hplan, _, _, horderAfter, hchildAfter, hmatches'.sameOutcome⟩)
      hkeeps, fun _ _ => ⟨_, _, horderAfter, hchildAfter, hmatches'⟩⟩
  · -- the book refuses it
    have hstatus : o.takesStatus event = false := by
      by_contra htakes
      have htakes := Bool.eq_true_of_not_eq_false htakes
      exact hrefused ((order_takes_iff (isStatus_of_takesStatus htakes) o).mpr htakes)
    refine ⟨iff_of_true (fun _ hok => absurd hok hrefused) (by rw [hstatus]; rfl), fun _ _ => ?_⟩
    rw [callback_of_refused hget hrefused]
    exact ⟨_, c, by rw [OrderBook.get_put, if_pos rfl], hchild, hmatches'⟩
  · -- the child refuses it
    have hplan : (ChildPlan.applyBrokerEvent event s.plan).1 ≠ .ok () := by
      rw [ChildPlan.applyBrokerEvent, ChildPlan.update_of_refused hchild hnone]
      simp
    rw [htakes, hnot]
    exact ⟨iff_of_false (fun h => hplan (h rfl hok).1) (by decide), fun h => absurd h (by decide)⟩
  · -- the book writes the quantity and refuses it
    obtain ⟨hrefused, hstatus⟩ := refused_of_writesRefused hwritten
    rw [hstatus, hwritten]
    exact ⟨iff_of_true (fun _ hok => absurd hok hrefused) rfl, fun _ h => absurd h (by decide)⟩

/-- A step of the engine keeps the order and its child together. -/
theorem childStates_of_sendStep {step : SendStep} (hstate : c.state ∈ o.state.childStates)
    (hlegal : legalTransition o.state step.state = true) :
    c.state ∈ step.state.childStates := by
  revert hstate hlegal
  cases step <;> cases o.state <;> cases c.state <;> decide

theorem matched_advance (h : s.Matched id) (clientOrderId : String) (step : SendStep) :
    ((ChildOp.advance clientOrderId step).apply s).Matched id := by
  obtain ⟨o, c, hget, hchild, hmatches⟩ := h
  rw [ChildOp.apply, OrderBook.transition]
  cases hrecord : s.orders.get clientOrderId with
  | none =>
    rw [OrderBook.onRecord_of_none hrecord]
    exact ⟨o, c, hget, hchild, hmatches⟩
  | some record =>
    rw [OrderBook.onRecord_of_get hrecord, OrderRecord.transition_apply]
    by_cases hid : clientOrderId = id
    · subst hid
      obtain rfl : record = o := Option.some.inj (hrecord.symm.trans hget)
      by_cases hlegal : legalTransition record.state step.state = true
      · rw [if_pos hlegal]
        exact ⟨record.setState step.state, c, by rw [OrderBook.get_put, if_pos rfl], hchild,
          childStates_of_sendStep hmatches.state hlegal, hmatches.quantity, hmatches.filled⟩
      · rw [if_neg hlegal]
        exact ⟨record, c, by rw [OrderBook.get_put, if_pos rfl], hchild, hmatches⟩
    · exact ⟨o, c, by rw [OrderBook.get_put, if_neg hid, hget], hchild, hmatches⟩

/-- A mark of a child that has gone out keeps it with its order. -/
theorem matched_mark (h : s.Matched id) (clientOrderId : String)
    {f : ChildRecord → Option ChildRecord} (horder : ∀ c c', f c = some c' → c'.order = c.order)
    (hf : ∀ o c c', Matches o c → f c = some c' → Matches o c') :
    ChildOrders.Matched id ⟨s.orders, (ChildPlan.update clientOrderId f s.plan).2⟩ := by
  obtain ⟨o, c, hget, hchild, hmatches⟩ := h
  by_cases hid : clientOrderId = id
  · subst hid
    cases hfc : f c with
    | none =>
      rw [ChildPlan.update_of_refused hchild hfc]
      exact ⟨o, c, hget, hchild, hmatches⟩
    | some c' =>
      have hupdate := (ChildPlan.update_of_taken hchild hfc (horder c c' hfc)).2 clientOrderId
      exact ⟨o, c', hget, hupdate.trans (if_pos rfl), hf o c c' hmatches hfc⟩
  · exact ⟨o, c, hget, (ChildPlan.update_child_of_ne hid horder).trans hchild, hmatches⟩

theorem markSent_eq_some (h : c.markSent = some c') :
    c.state = .sending ∧ c' = { c with state := .sent } := by
  obtain ⟨hstate, h⟩ := Option.ite_none_right_eq_some.mp h
  exact ⟨hstate, (Option.some.inj h).symm⟩

theorem markUnknown_eq_some (h : c.markUnknown = some c') :
    (c.state = .sending ∨ c.state = .sent) ∧ c' = { c with state := .unknown } := by
  obtain ⟨hstate, h⟩ := Option.ite_none_right_eq_some.mp h
  exact ⟨hstate, (Option.some.inj h).symm⟩

/-- Where a child may be sending, it may be sent or unknown, and the other way round. -/
theorem childStates_of_going {s : OrderState} {t u : ChildState} (h : t ∈ s.childStates)
    (ht : t = .sending ∨ t = .sent) (hu : u = .sent ∨ u = .unknown) : u ∈ s.childStates := by
  revert h
  rcases ht with rfl | rfl <;> rcases hu with rfl | rfl <;> cases s <;> decide

/-- **One step** that leaves neither the child nor the plan behind keeps the records together, and
an event is followed. -/
theorem ChildOp.matched_apply (op : ChildOp) (h : s.Matched id)
    (hchild : op.leavesChild id s = false) (hplan : op.leavesPlan id s = false) :
    (op.apply s).Matched id ∧ op.Followed id s := by
  cases op with
  | callback event =>
    by_cases hid : event.clientOrderId = id
    · subst hid
      exact ⟨h.callback.2 hchild hplan, h.callback.1.mpr hchild⟩
    · obtain ⟨horders, hchildren⟩ := callback_of_ne (s := s) hid
      obtain ⟨o, c, hget, hc, hmatches⟩ := h
      exact ⟨⟨o, c, horders.trans hget, hchildren.trans hc, hmatches⟩, fun he => absurd he hid⟩
  | advance clientOrderId step => exact ⟨matched_advance h clientOrderId step, trivial⟩
  | markSent clientOrderId =>
    refine ⟨matched_mark h clientOrderId (fun c c' h => by rw [(markSent_eq_some h).2]) ?_, trivial⟩
    rintro o c c' ⟨hstate, hquantity, hfilled⟩ hmark
    obtain ⟨hsending, rfl⟩ := markSent_eq_some hmark
    exact ⟨childStates_of_going hstate (.inl hsending) (.inl rfl), hquantity, hfilled⟩
  | markUnknown clientOrderId =>
    refine ⟨matched_mark h clientOrderId (fun c c' h => by rw [(markUnknown_eq_some h).2]) ?_,
      trivial⟩
    rintro o c c' ⟨hstate, hquantity, hfilled⟩ hmark
    obtain ⟨hgoing, rfl⟩ := markUnknown_eq_some hmark
    exact ⟨childStates_of_going hstate hgoing (.inr rfl), hquantity, hfilled⟩

/-- **Along a run** of such steps the records stay together and every event is followed. -/
theorem matched_along (h : s.Matched id) {run : List ChildOp}
    (hrun : ∀ call ∈ Runs.calls ChildOp.apply s run,
      call.2.leavesChild id call.1 = false ∧ call.2.leavesPlan id call.1 = false) :
    (Runs.final ChildOp.apply s run).Matched id ∧
      ∀ call ∈ Runs.calls ChildOp.apply s run, call.2.Followed id call.1 := by
  induction run generalizing s with
  | nil => exact ⟨h, fun call hcall => absurd hcall List.not_mem_nil⟩
  | cons op run ih =>
    rw [Runs.calls] at hrun ⊢
    obtain ⟨⟨hchild, hplan⟩, hrest⟩ := List.forall_mem_cons.mp hrun
    obtain ⟨hnext, hfollowed⟩ := op.matched_apply h hchild hplan
    obtain ⟨hfinal, hall⟩ := ih hnext hrest
    exact ⟨hfinal, List.forall_mem_cons.mpr ⟨hfollowed, hall⟩⟩

end Steps

/-- **The child agrees with the order book** along every run in which no status event the book
takes comes to a child that is past it, and the book writes no fill that it refuses. After such a
run the next event is followed exactly when it is no such status event. -/
theorem child_follows_order {parent : OrderIntent} {id : String} {s : ChildOrders}
    (hsent : s.JustSent parent id) {run : List ChildOp}
    (hrun : ∀ call ∈ Runs.calls ChildOp.apply s run,
      call.2.leavesChild id call.1 = false ∧ call.2.leavesPlan id call.1 = false) :
    (∀ call ∈ Runs.calls ChildOp.apply s run, call.2.Followed id call.1) ∧
      ∀ op : ChildOp, op.Followed id (Runs.final ChildOp.apply s run) ↔
        op.leavesChild id (Runs.final ChildOp.apply s run) = false := by
  obtain ⟨hmatched, hall⟩ := matched_along hsent.matched hrun
  refine ⟨hall, fun op => ?_⟩
  cases op with
  | callback event =>
    by_cases hid : event.clientOrderId = id
    · subst hid
      exact hmatched.callback.1
    · exact iff_of_true (fun he => absurd he hid) (by simp [ChildOp.leavesChild, hid])
  | advance | markSent | markUnknown => exact iff_of_true trivial rfl

/-- A parent order of two lots. -/
def twoLots : OrderIntent :=
  ⟨"intent", 1, 7, "client", .buy, 2, .market, none, .day, .riskApproved, 9⟩

/-- Its one child, claimed. -/
def claimedChild : ChildRecord := ⟨⟨"client", 1, "child", 2, 0, .buy, .market, none⟩, .sending, 0, none⟩

/-- The plan of the child, and the book with its intent. -/
def claimedOrders : ChildOrders :=
  ⟨(OrderBook.insert (ChildPlan.childIntent twoLots claimedChild.order) OrderBook.new).2,
    ⟨"client", 0, [claimedChild]⟩⟩

theorem claimedOrders_justSent : claimedOrders.JustSent twoLots "child" :=
  ⟨claimedChild, OrderBook.new, rfl, rfl, rfl, rfl⟩

/-- The child is sent, acknowledged and half filled. -/
def halfFilledRun : List ChildOp :=
  [.advance "child" .queued, .advance "child" .sending, .advance "child" .sent, .markSent "child",
    .callback (.acknowledged "child" "b-1"), .callback (.filled "child" 1 10)]

/-- The acknowledgement comes once more: the book knows it, the child refuses it. -/
theorem child_refuses_repeat : claimedOrders.JustSent twoLots "child" ∧
    ¬(ChildOp.callback (.acknowledged "child" "b-1")).Followed "child"
      (Runs.final ChildOp.apply claimedOrders halfFilledRun) := by
  refine ⟨claimedOrders_justSent, fun h => ?_⟩
  have hplan := (h rfl (by decide)).1
  revert hplan
  decide

/-- Up to there every event is followed. -/
theorem child_follows_order_half :
    (∀ call ∈ Runs.calls ChildOp.apply claimedOrders halfFilledRun,
        call.2.Followed "child" call.1) ∧
      ∀ op : ChildOp,
        op.Followed "child" (Runs.final ChildOp.apply claimedOrders halfFilledRun) ↔
          op.leavesChild "child" (Runs.final ChildOp.apply claimedOrders halfFilledRun) = false :=
  child_follows_order claimedOrders_justSent (by decide)

end InsiderTrader
