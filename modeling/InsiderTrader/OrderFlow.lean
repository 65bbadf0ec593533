import InsiderTrader.Runtime

/-!
# Fills at orders and portfolio

What one fill event does to its record, to the position of its instrument and
to the runtime that holds both. The record is asked last: its filled quantity
is written before the lifecycle step is tried, so a fill can stay in the book
although the event is refused.

## Main definitions

- `OrderRecord.TakesFill` — the fill passes every check before it is written
- `Runtime.SplitsFill` — a fill event that reaches the book but not the portfolio
- `OrderOp` — the order requests and events of a runtime

## Main results

- `OrderRecord.applyBrokerEvent_of_takesFill`, `OrderRecord.applyBrokerEvent_of_not_takesFill`
- `Portfolio.applyFill_quantity` — a fill moves one position by its quantity
- `Runtime.applyBrokerEvent_of_open` — one fill event, step by step
-/

namespace InsiderTrader

open MachineInt Fallible

-- One record

namespace OrderRecord

/-- The quantity filled so far, negative for a sale. -/
def signedFilledTicks (record : OrderRecord) : Int :=
  if record.intent.side = .buy then record.filledQuantityTicks else -record.filledQuantityTicks

/-- The lifecycle state a fill leads to. -/
def fillState (record : OrderRecord) (quantityTicks : Int) : OrderState :=
  if record.intent.quantityTicks ≤ record.filledQuantityTicks + quantityTicks then .filled
  else .partiallyFilled

theorem fillState_cases (record : OrderRecord) (quantity : Int) :
    record.fillState quantity = .filled ∨ record.fillState quantity = .partiallyFilled := by
  unfold fillState
  split
  · exact .inl rfl
  · exact .inr rfl

/-- A fill passes the checks a record makes before it writes the quantity. -/
structure TakesFill (record : OrderRecord) (quantityTicks priceTicks : Int) : Prop where
  quantity_pos : 0 < quantityTicks
  price_pos : 0 < priceTicks
  unfilled : record.state ≠ .filled
  fits : Fits 64 (record.filledQuantityTicks + quantityTicks)
  within : record.filledQuantityTicks + quantityTicks ≤ record.intent.quantityTicks

instance (record : OrderRecord) (quantityTicks priceTicks : Int) :
    Decidable (record.TakesFill quantityTicks priceTicks) :=
  decidable_of_iff (0 < quantityTicks ∧ 0 < priceTicks ∧ record.state ≠ .filled ∧
      Fits 64 (record.filledQuantityTicks + quantityTicks) ∧
      record.filledQuantityTicks + quantityTicks ≤ record.intent.quantityTicks)
    ⟨fun ⟨hq, hp, hs, hf, hw⟩ => ⟨hq, hp, hs, hf, hw⟩,
      fun ⟨hq, hp, hs, hf, hw⟩ => ⟨hq, hp, hs, hf, hw⟩⟩

/-- The record with a fill written. -/
def addFill (record : OrderRecord) (quantityTicks : Int) : OrderRecord :=
  { record with filledQuantityTicks := record.filledQuantityTicks + quantityTicks }

variable {record : OrderRecord} {orderId : String} {quantity price : Int}

theorem transition_apply (next : OrderState) (record : OrderRecord) :
    transition next record =
      if legalTransition record.state next then (.ok (), record.setState next)
      else (.error (.invalidTransition record.state next), record) := by
  rw [transition, reads_bind]
  dsimp only [id]
  split <;> rfl

/-- A fill that passes the checks is written; the event succeeds when the step is legal. -/
theorem applyBrokerEvent_of_takesFill (h : record.TakesFill quantity price) :
    applyBrokerEvent (.filled orderId quantity price) record =
      if legalTransition record.state (record.fillState quantity) then
        (.ok (), (record.addFill quantity).setState (record.fillState quantity))
      else
        (.error (.invalidTransition record.state (record.fillState quantity)),
          record.addFill quantity) := by
  obtain ⟨hquantity, hprice, hopen, hfits, hwithin⟩ := h
  have hnarrow : narrow 64 (record.filledQuantityTicks + quantity) =
      some (record.filledQuantityTicks + quantity) := narrow_eq_some.mpr ⟨hfits, rfl⟩
  simp only [applyBrokerEvent, reads_bind, id, hnarrow]
  rw [if_neg (by omega), if_neg hopen, if_neg (by omega)]
  rw [modify_bind, transition_apply]
  rfl

/-- A fill that fails a check leaves the record as it is, and succeeds only at a filled order. -/
theorem applyBrokerEvent_of_not_takesFill (orderId : String)
    (h : ¬record.TakesFill quantity price) :
    ((applyBrokerEvent (.filled orderId quantity price) record).1 = .ok () →
        record.state = .filled) ∧
      (applyBrokerEvent (.filled orderId quantity price) record).2 = record := by
  simp only [applyBrokerEvent, reads_bind, id]
  split
  · exact ⟨(fun hok => by cases hok), rfl⟩
  · next hpos =>
    split
    · next hfilled => exact ⟨fun _ => hfilled, rfl⟩
    · next hopen =>
      cases hnarrow : narrow 64 (record.filledQuantityTicks + quantity) with
      | none => exact ⟨(fun hok => by cases hok), rfl⟩
      | some next =>
        obtain ⟨hfits, rfl⟩ := narrow_eq_some.mp hnarrow
        dsimp only
        split
        · exact ⟨(fun hok => by cases hok), rfl⟩
        · next hwithin =>
          exact absurd ⟨by omega, by omega, hopen, hfits, by omega⟩ h

/-- No event changes what an order is for. -/
theorem applyBrokerEvent_intent (event : BrokerEvent) :
    Along (Same fun record : OrderRecord => { record.intent with state := .unknown })
      (applyBrokerEvent event) := by
  have htransition : ∀ next, Along
      (Same fun record : OrderRecord => { record.intent with state := .unknown })
      (transition next) := fun next =>
    (Along.reads _).bind fun _ => Along.ite (fun _ => Along.modify fun _ => rfl)
      fun _ => Along.fail _
  refine (Along.reads _).bind fun record => ?_
  cases event with
  | acknowledged =>
    exact Along.ite (fun _ => Along.ite (fun _ => Along.ret _) fun _ => Along.fail _)
      fun _ => Along.bind (Along.modify fun _ => rfl) fun _ => htransition _
  | filled =>
    refine Along.ite (fun _ => Along.fail _) fun _ => Along.ite (fun _ => Along.ret _) fun _ => ?_
    split
    · exact Along.fail _
    · exact Along.ite (fun _ => Along.fail _) fun _ =>
        Along.bind (Along.modify fun _ => rfl) fun _ => htransition _
  | rejected => exact Along.ite (fun _ => Along.ret _) fun _ => htransition _
  | cancelled => exact Along.ite (fun _ => Along.ret _) fun _ => htransition _

/-- Only fills change the filled quantity. -/
theorem applyBrokerEvent_filledQuantity {event : BrokerEvent}
    (h : ∀ id quantity price, event ≠ .filled id quantity price) :
    Along (Same (·.filledQuantityTicks)) (applyBrokerEvent event) := by
  have htransition : ∀ next, Along (Same (·.filledQuantityTicks)) (transition next) := fun next =>
    (Along.reads _).bind fun _ => Along.ite (fun _ => Along.modify fun _ => rfl)
      fun _ => Along.fail _
  refine (Along.reads _).bind fun record => ?_
  cases event with
  | acknowledged =>
    exact Along.ite (fun _ => Along.ite (fun _ => Along.ret _) fun _ => Along.fail _)
      fun _ => Along.bind (Along.modify fun _ => rfl) fun _ => htransition _
  | filled => exact absurd rfl (h _ _ _)
  | rejected => exact Along.ite (fun _ => Along.ret _) fun _ => htransition _
  | cancelled => exact Along.ite (fun _ => Along.ret _) fun _ => htransition _

end OrderRecord

-- The position

namespace Portfolio

/-- The next quantity is the old one and the fill together. -/
theorem fillOutcome_quantity {held cost quantity price next average realized : Int}
    (h : fillOutcome held cost quantity price = .ok (next, average, realized)) :
    next = held + quantity := by
  cases hnext : narrow 64 (held + quantity) with
  | none =>
    unfold fillOutcome at h
    simp only [hnext, bind, Except.bind] at h
    repeat' split at h
    all_goals cases h
  | some sum =>
    obtain ⟨-, rfl⟩ := narrow_eq_some.mp hnext
    unfold fillOutcome at h
    simp only [hnext, bind, Except.bind] at h
    repeat' split at h
    all_goals cases h
    all_goals rfl

@[simp] theorem recordEquityPeak_ledger (p : Portfolio) :
    p.recordEquityPeak.ledger = p.ledger := by
  unfold recordEquityPeak
  split <;> rfl

/-- **Inversion of a fill**: what is stored when accounting accepts it. -/
theorem applyFill_eq_ok {i : InstrumentId} {ticks price fee : Int} {p p' : Portfolio}
    {entry : FillLedgerEntry} (h : applyFill i ticks price fee p = (.ok entry, p')) :
    ∃ average cash realizedPnl fees,
      p' = recordEquityPeak { p.storeFillPosition i (p.quantity i + ticks) average price with
        cashTicks := cash
        realizedPnlTicks := realizedPnl
        feesTicks := fees
        ledger := p.ledger ++ [entry] } := by
  unfold applyFill at h
  rw [reads_bind] at h
  obtain ⟨-, h⟩ := require_bind_eq_ok h
  obtain ⟨⟨next, average, realized⟩, houtcome, h⟩ := ofExcept_bind_eq_ok h
  have hheld : ((p.position i).getD ⟨0, price⟩).quantityTicks = p.quantity i := by
    unfold quantity
    cases p.position i <;> rfl
  have hnext : next = p.quantity i + ticks := hheld ▸ fillOutcome_quantity houtcome
  dsimp only at h
  obtain ⟨notional, -, h⟩ := orFail_bind_eq_ok h
  obtain ⟨cashDelta, -, h⟩ := orFail_bind_eq_ok h
  obtain ⟨nextCash, -, h⟩ := orFail_bind_eq_ok h
  obtain ⟨nextRealized, -, h⟩ := orFail_bind_eq_ok h
  obtain ⟨nextFees, -, h⟩ := orFail_bind_eq_ok h
  obtain ⟨cashDeltaTicks, -, h⟩ := orFail_bind_eq_ok h
  rw [modify_bind] at h
  obtain ⟨cash, -, h⟩ := orFail_bind_eq_ok h
  rw [modify_bind] at h
  obtain ⟨realizedPnl, -, h⟩ := orFail_bind_eq_ok h
  rw [modify_bind] at h
  obtain ⟨fees, -, h⟩ := orFail_bind_eq_ok h
  rw [modify_bind, pure_apply, Prod.mk.injEq, Except.ok.injEq] at h
  obtain ⟨rfl, rfl⟩ := h
  exact ⟨average, cash, realizedPnl, fees, by rw [hnext]; rfl⟩

/-- **A fill moves one position** by its quantity. -/
theorem applyFill_quantity {i : InstrumentId} {ticks price fee : Int} {p p' : Portfolio}
    {entry : FillLedgerEntry} (h : applyFill i ticks price fee p = (.ok entry, p'))
    (j : InstrumentId) : p'.quantity j = p.quantity j + if j = i then ticks else 0 := by
  obtain ⟨average, cash, realizedPnl, fees, rfl⟩ := applyFill_eq_ok h
  simp only [quantity, position, recordEquityPeak_positions, storeFillPosition,
    Std.TreeMap.getElem?_insert]
  by_cases hj : j = i
  · simp [hj]
  · have hcmp : compare i j ≠ .eq := fun heq => hj (Std.LawfulEqCmp.eq_of_compare heq).symm
    simp [hj, hcmp]

/-- A fill is entered in the ledger. -/
theorem applyFill_ledger {i : InstrumentId} {ticks price fee : Int} {p p' : Portfolio}
    {entry : FillLedgerEntry} (h : applyFill i ticks price fee p = (.ok entry, p')) :
    p'.ledger = p.ledger ++ [entry] := by
  obtain ⟨average, cash, realizedPnl, fees, rfl⟩ := applyFill_eq_ok h
  rw [recordEquityPeak_ledger]

end Portfolio

-- The runtime

namespace Runtime

/-- The fill of a record, tried on a copy of the portfolio. -/
def fillTrial (r : Runtime) (record : OrderRecord) (clientOrderId : String)
    (quantityTicks priceTicks : Int) : Except AccountingError FillLedgerEntry × Portfolio :=
  let fill := fillRecord record clientOrderId quantityTicks priceTicks
  Portfolio.applyFill fill.instrumentId fill.signedQuantityTicks priceTicks 0 r.portfolio

/-- A fill event that the book writes and then refuses: accounting and the checks of the record
let it pass, but the state of the order does not admit the step. -/
def SplitsFill (r : Runtime) : BrokerEvent → Prop
  | .filled clientOrderId quantityTicks priceTicks =>
    ∃ record ∈ r.orders.get clientOrderId, record.TakesFill quantityTicks priceTicks ∧
      (r.fillTrial record clientOrderId quantityTicks priceTicks).1.isOk ∧
      legalTransition record.state (record.fillState quantityTicks) = false
  | _ => False

instance (r : Runtime) : (event : BrokerEvent) → Decidable (r.SplitsFill event)
  | .filled clientOrderId quantityTicks priceTicks => inferInstanceAs (Decidable
      (∃ record ∈ r.orders.get clientOrderId, record.TakesFill quantityTicks priceTicks ∧
        (r.fillTrial record clientOrderId quantityTicks priceTicks).1.isOk ∧
        legalTransition record.state (record.fillState quantityTicks) = false))
  | .acknowledged _ _ => inferInstanceAs (Decidable False)
  | .rejected _ _ => inferInstanceAs (Decidable False)
  | .cancelled _ => inferInstanceAs (Decidable False)

variable {r : Runtime} {orderId : String} {record : OrderRecord} {ticks price : Int}

/-- An event at a known order runs the method of its record. -/
theorem onOrders_applyBrokerEvent {e : BrokerEvent}
    (hget : r.orders.get e.clientOrderId = some record) :
    onOrders EngineError.transition (OrderBook.applyBrokerEvent e) r =
      let outcome := OrderRecord.applyBrokerEvent e record
      (outcome.1.mapError .transition,
        { r with orders := r.orders.put e.clientOrderId outcome.2 }) := by
  have hbook : OrderBook.applyBrokerEvent e r.orders =
      ((OrderRecord.applyBrokerEvent e record).1, r.orders.put e.clientOrderId
        (OrderRecord.applyBrokerEvent e record).2) :=
    OrderBook.onRecord_of_get hget
  rw [onOrders, zoom_apply, hbook]

/-- **A fill of an open order**: the copy of the portfolio first, then the record, and the copy
becomes the portfolio only if both succeed. -/
theorem applyBrokerEvent_of_open (hget : r.orders.get orderId = some record)
    (hopen : record.state ≠ .filled) :
    applyBrokerEvent (.filled orderId ticks price) r =
      let trial := r.fillTrial record orderId ticks price
      let outcome := OrderRecord.applyBrokerEvent (.filled orderId ticks price) record
      let orders := r.orders.put orderId outcome.2
      match trial.1, outcome.1 with
      | .error e, _ => (.error (.accounting e), r)
      | .ok _, .error e => (.error (.transition e), { r with orders := orders })
      | .ok _, .ok _ => (.ok (), pushFill { r with orders := orders, portfolio := trial.2 }
          (fillRecord record orderId ticks price)) := by
  have horders := onOrders_applyBrokerEvent (r := r) (e := .filled orderId ticks price) hget
  dsimp only at horders
  unfold applyBrokerEvent applyBrokerEventInner
  rw [reads_bind]
  dsimp only [id]
  rw [hget]
  dsimp only
  rw [if_neg hopen, if_pos rfl]
  change (ofExcept ((r.fillTrial record orderId ticks price).1.mapError
    EngineError.accounting) >>= _) r = _
  cases (r.fillTrial record orderId ticks price).1 with
  | error e => rfl
  | ok entry =>
    change (onOrders EngineError.transition _ >>= _) r = _
    cases hrecord : (OrderRecord.applyBrokerEvent (.filled orderId ticks price) record).1 with
    | error e => rw [bind_of_error (by rw [horders, hrecord]; rfl)]; rfl
    | ok u => rw [bind_of_ok (by rw [horders, hrecord]; rfl)]; rfl

/-- A fill of an order that is filled already is left to the book. -/
theorem applyBrokerEvent_of_repeated (hget : r.orders.get orderId = some record)
    (hfilled : record.state = .filled) :
    applyBrokerEvent (.filled orderId ticks price) r =
      onOrders EngineError.transition (OrderBook.applyBrokerEvent (.filled orderId ticks price)) r := by
  unfold applyBrokerEvent applyBrokerEventInner
  rw [reads_bind]
  dsimp only [id]
  rw [hget]
  dsimp only
  rw [if_pos hfilled]

/-- It changes nothing. -/
theorem applyBrokerEvent_of_filled (hget : r.orders.get orderId = some record)
    (hfilled : record.state = .filled) :
    (applyBrokerEvent (.filled orderId ticks price) r).2 =
      { r with orders := r.orders.put orderId record } := by
  have hkeep := OrderRecord.applyBrokerEvent_of_not_takesFill orderId
    (fun h : record.TakesFill ticks price => h.unfilled hfilled)
  have horders := onOrders_applyBrokerEvent (r := r) (e := .filled orderId ticks price) hget
  dsimp only at horders
  rw [applyBrokerEvent_of_repeated hget hfilled, horders, hkeep.2]
  rfl

/-- A fill of an unknown order is refused. -/
theorem applyBrokerEvent_of_unknown (hget : r.orders.get orderId = none) :
    applyBrokerEvent (.filled orderId ticks price) r =
      (.error (.transition .unknownOrder), r) := by
  unfold applyBrokerEvent applyBrokerEventInner
  rw [reads_bind]
  dsimp only [id]
  rw [hget]
  rfl

/-- Planning neither orders nor trades. -/
theorem prepareProposal_keeps {env : Env} {proposal : Proposal} {now : MonoTime}
    {traceId : TraceId} : Along (Same fun r : Runtime => (r.orders, r.portfolio))
      (prepareProposal env proposal now traceId) := by
  refine (Along.ofExcept _).bind fun _ => (Along.reads _).bind fun _ =>
    (Along.ofExcept _).bind fun _ => (Along.reads _).bind fun _ => Along.bind ?_ fun _ =>
    Along.ofExcept _
  unfold contextualRiskInputs
  dsimp only
  refine Along.ite (fun _ => Along.ret _) fun _ => ?_
  have hrate : Along (Same fun r : Runtime => (r.orders, r.portfolio)) (messageRate now) :=
    Along.bind (Along.modify fun _ => rfl) fun _ => Along.reads _
  exact (Along.ofExcept _).bind fun _ => (Along.ofExcept _).bind fun _ =>
    (Along.reads _).bind fun _ => (Along.require _ _).bind fun _ => (Along.require _ _).bind fun _ =>
    hrate.bind fun _ => Along.ret _

end Runtime

-- Runs

/-- An order request or event of a runtime. -/
inductive OrderOp where
  | submitIntent (intent : OrderIntent)
  | submitProposal (proposal : Proposal) (now : MonoTime) (traceId : TraceId)
  | cancelOrder (clientOrderId : String)
  | replaceOrder (clientOrderId : String) (quantityTicks : Int) (limitPriceTicks : Option Int)
  | applyBrokerEvent (event : BrokerEvent)

/-- One call of an operation. -/
def OrderOp.run (env : Env) : OrderOp → Fallible Runtime EngineError Unit
  | .submitIntent intent => Runtime.submitIntent env intent
  | .submitProposal proposal now traceId =>
    Fallible.discard (Runtime.submitProposal env proposal now traceId)
  | .cancelOrder clientOrderId => Runtime.cancelOrder env clientOrderId
  | .replaceOrder clientOrderId quantity limit =>
    Runtime.replaceOrder env clientOrderId quantity limit
  | .applyBrokerEvent event => Runtime.applyBrokerEvent event

/-- The runtime after a call, whether it returned a value or an error. -/
def OrderOp.after (env : Env) (op : OrderOp) (r : Runtime) : Runtime := (op.run env r).2

/-- The calls of a run, each with the runtime it is made on. -/
def orderCallsFrom : Runtime → List (Env × OrderOp) → List (Runtime × OrderOp)
  | _, [] => []
  | r, (env, op) :: rest => (r, op) :: orderCallsFrom (op.after env r) rest

/-- The runtimes a run goes through, from its start to its end. -/
def runtimesFrom : Runtime → List (Env × OrderOp) → List Runtime
  | r, [] => [r]
  | r, (env, op) :: rest => r :: runtimesFrom (op.after env r) rest

end InsiderTrader
