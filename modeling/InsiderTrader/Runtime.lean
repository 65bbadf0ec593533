import InsiderTrader.Journal

/-!
# The runtime

The authoritative in-memory projections, the planning of risk-gated intents and
the order requests that reach the broker. Everything that leaves the process is
recorded, in order, in `trace`: journal records and broker calls.

## Main definitions

- `Runtime` — portfolio, risk, orders, timings, child plans and the live guard
- `Env` — what an operation meets outside the process
- `Runtime.submitOrder`, `cancelOrder`, `replaceOrder` — broker requests
- `Runtime.prepareProposal`, `prepareManualTargetWithOrder` — planned intents
- `Runtime.applyBrokerEventInner` — one broker event at orders and portfolio
-/

namespace InsiderTrader

open MachineInt

/-- One thing that left the process. -/
inductive Effect where
  | append (record : JournalRecord)
  | call (call : BrokerCall)

/-- The broker calls of a trace, oldest first. -/
def brokerCalls (trace : List Effect) : List BrokerCall :=
  trace.filterMap fun
    | .call c => some c
    | .append _ => none

/-- The journal records of a trace, oldest first. -/
def journalOf (trace : List Effect) : List JournalRecord :=
  trace.filterMap fun
    | .append r => some r
    | .call _ => none

/-- What an operation meets outside the process: the broker, the floating point unit, the
successive readings of the monotonic clock, and the outcome of each append to the journal
and to the read model. -/
structure Env where
  gateway : BrokerGateway
  float : FloatArith
  clock : ℕ → MonoTime
  journal : List Effect → JournalRecord → Option JournalError
  readModel : List Effect → JournalRecord → Bool

/-- The journal and the read model take a record after a trace. -/
def Env.takes (env : Env) (trace : List Effect) (record : JournalRecord) : Bool :=
  (env.journal trace record).isNone ∧ env.readModel (trace ++ [.append record]) record

/-- Every append succeeds. -/
def Env.Reliable (env : Env) : Prop := ∀ trace record, env.takes trace record

/-- One authoritative fill of the fill history. -/
structure FillRecord where
  clientOrderId : String
  instrumentId : InstrumentId
  signedQuantityTicks : Int
  priceTicks : Int
  deriving DecidableEq

/-- A quote-derived reference for execution quality. -/
structure ExecutionMarketReference where
  midTicks : Int
  spreadTicks : Int
  deriving DecidableEq

/-- Shared runtime state. -/
structure Runtime where
  accountId : AccountId
  portfolio : Portfolio
  risk : RiskEngine
  scopedRiskPolicy : Option ScopedRiskPolicy
  orders : OrderBook
  fills : List FillRecord
  timings : Std.TreeMap String ExecutionTiming
  childPlans : Std.TreeMap String ChildPlanRecord
  messageTimestampsNs : List MonoTime
  liveGuard : LiveGuard
  trace : List Effect

namespace Runtime

/-- A runtime with its starting portfolio and risk policy; live trading is off. -/
def new (accountId : AccountId) (portfolio : Portfolio) (risk : RiskEngine) : Runtime where
  accountId := accountId
  portfolio := portfolio
  risk := risk
  scopedRiskPolicy := none
  orders := .new
  fills := []
  timings := ∅
  childPlans := ∅
  messageTimestampsNs := []
  liveGuard := .paper ⟨[], 0⟩
  trace := []

/-- Run a computation on the order book. -/
def onOrders {ε α : Type} (wrap : ε → EngineError) (p : Fallible OrderBook ε α) :
    Fallible Runtime EngineError α :=
  Fallible.zoom (·.orders) ({ · with orders := · }) wrap p

/-- Record a broker call and take its answer. -/
def callBroker {α : Type} (c : BrokerCall) (answer : List BrokerCall → Except String α) :
    Fallible Runtime EngineError (Except String α) := do
  let calls ← Fallible.reads fun r => brokerCalls r.trace
  Fallible.modify fun r => { r with trace := r.trace ++ [.call c] }
  pure (answer calls)

-- Requests to the broker

/-- Insert an intent and send it. A refused send leaves the order unknown. -/
def submitOrder (env : Env) (intent : OrderIntent) : Fallible Runtime EngineError Unit := do
  let id := intent.clientOrderId
  let wrap (e : TransitionError) := EngineError.submit (.transition e)
  onOrders wrap (OrderBook.insert intent)
  onOrders wrap (OrderBook.transition id .queued)
  onOrders wrap (OrderBook.transition id .sending)
  let answer ← callBroker (.send intent) (env.gateway.send · intent)
  match answer with
  | .error message =>
    onOrders wrap (OrderBook.markUnknown id)
    Fallible.fail (.submit (.gateway message))
  | .ok _ => onOrders wrap (OrderBook.transition id .sent)

/-- Mark an order cancel-pending and ask the broker to cancel it. -/
def cancelOrder (env : Env) (clientOrderId : String) : Fallible Runtime EngineError Unit := do
  let wrap (e : TransitionError) := EngineError.cancel (.transition e)
  Fallible.require env.gateway.capabilities.cancelReplace (.cancel .unsupported)
  onOrders wrap (OrderBook.transition clientOrderId .cancelPending)
  let answer ← callBroker (.cancel clientOrderId) (env.gateway.cancel · clientOrderId)
  match answer with
  | .error message =>
    onOrders wrap (OrderBook.transition clientOrderId .unknown)
    Fallible.fail (.cancel (.gateway message))
  | .ok _ => pure ()

/-- Record a replacement and ask the broker for it. -/
def replaceOrder (env : Env) (clientOrderId : String) (quantityTicks : Int)
    (limitPriceTicks : Option Int) : Fallible Runtime EngineError Unit := do
  Fallible.require env.gateway.capabilities.cancelReplace (.replace .unsupported)
  onOrders .replace (OrderBook.prepareReplace clientOrderId quantityTicks limitPriceTicks)
  let answer ← callBroker (.replace clientOrderId quantityTicks limitPriceTicks)
    (env.gateway.replace · clientOrderId quantityTicks limitPriceTicks)
  match answer with
  | .error message =>
    onOrders (fun e => .replace (.transition e)) (OrderBook.transition clientOrderId .unknown)
    Fallible.fail (.replace (.gateway message))
  | .ok _ => pure ()

/-- Ask the broker about one order. -/
def queryReconcile (env : Env) (clientOrderId : String) :
    Fallible Runtime EngineError (Except String (Option BrokerEvent)) :=
  callBroker (.reconcile clientOrderId) (env.gateway.reconcile · clientOrderId)

/-- Ask the broker for its account snapshot. -/
def brokerSnapshot (env : Env) : Fallible Runtime EngineError BrokerSnapshot := do
  let answer ← callBroker .snapshot env.gateway.snapshot
  Fallible.ofExcept (answer.mapError .reconcile)

/-- The live guard's check of an intent. -/
def authorizeIntent (r : Runtime) (intent : OrderIntent) : Except EngineError Unit :=
  let trustedPrice := intent.limitPriceTicks.or (r.portfolio.markPrice intent.instrumentId)
  let notional := trustedPrice.bind fun price =>
    if price < 0 ∨ intent.quantityTicks < 0 then none
    else some (intent.quantityTicks.toNat * price.toNat)
  (r.liveGuard.authorize (displayIdentity "account" r.accountId) notional).mapError .liveGuard

/-- Send a planned and journaled intent. -/
def submitIntent (env : Env) (intent : OrderIntent) : Fallible Runtime EngineError Unit := do
  let r ← Fallible.reads id
  Fallible.ofExcept (r.authorizeIntent intent)
  submitOrder env intent

-- Planning

/-- The risk engine with the limits in force for a strategy and an instrument. -/
def effectiveRisk (r : Runtime) (strategyId : Option String) (instrumentId : InstrumentId)
    (now : MonoTime) : RiskEngine :=
  match r.scopedRiskPolicy with
  | none => r.risk
  | some policy => r.risk.withLimits (policy.limitsAt
      ⟨displayIdentity "account" r.accountId, strategyId, none, instrumentId⟩ now)

/-- Local states of an order that is working or uncertain. -/
def workingState : OrderState → Bool
  | .queued | .sending | .sent | .acknowledged | .partiallyFilled | .cancelPending
  | .replacePending | .unknown => true
  | _ => false

/-- Record a planning boundary; the number of boundaries in the last second. -/
def messageRate (now : MonoTime) : Fallible Runtime EngineError ℕ := do
  Fallible.modify fun r =>
    let recent := r.messageTimestampsNs.dropWhile (· < now - 1000000000)
    let bounded := if 1000000 ≤ recent.length then recent.drop 1 else recent
    { r with messageTimestampsNs := bounded ++ [now] }
  Fallible.reads (·.messageTimestampsNs.length)

/-- Gross notional at the trusted marks. -/
def markedGross (p : Portfolio) : Option Int :=
  p.positions.toList.foldlM (fun total e => do
    let mark ← p.markPrice e.1
    let notional ← narrow 128 (e.2.quantityTicks.natAbs * mark.natAbs)
    narrow 128 (total + notional)) 0

/-- The denial of an order whose risk cannot be observed. -/
def staleData : EngineError := .plan (.riskDenied .staleData)

/-- Gross notional over equity. -/
def observedLeverage (float : FloatArith) (portfolio : Portfolio) (g : Guardrails) :
    Except EngineError F64 :=
  match markedGross portfolio, portfolio.equityTicks.filter (0 < ·) with
  | some gross, some equity => .ok (float.ratio gross equity)
  | _, _ => if g.maxLeverage.isSome then .error staleData else .ok float.zero

/-- Drawdown from the equity peak. -/
def observedDrawdown (portfolio : Portfolio) (g : Guardrails) : Except EngineError Int :=
  match portfolio.drawdownBps with
  | some value => .ok value
  | none => if g.maxDrawdownBps.isSome then .error staleData else .ok 0

/-- Local working and uncertain orders. -/
def outstandingOrders (r : Runtime) : ℕ :=
  (r.orders.records.filter fun record => workingState record.state).length

/-- Observations for the guardrails; none when no guardrail is set. What an enabled guardrail
needs and cannot be observed fails closed. -/
def contextualRiskInputs (env : Env) (portfolio : Portfolio) (risk : RiskEngine)
    (target : Target) (now : MonoTime) (priceDeviationBps : Option Int) :
    Fallible Runtime EngineError (Option RiskInputs) :=
  let g := risk.guardrails
  if g = {} then pure none
  else do
    let leverage ← Fallible.ofExcept (observedLeverage env.float portfolio g)
    let drawdownBps ← Fallible.ofExcept (observedDrawdown portfolio g)
    let outstanding ← Fallible.reads outstandingOrders
    Fallible.require (¬(g.maxPriceDeviationBps.isSome ∧ priceDeviationBps.isNone)) staleData
    Fallible.require
      (¬(g.maxPredictedVolatilityBps.isSome ∨ g.maxParticipationBps.isSome)) staleData
    let rate ← messageRate now
    pure (some {
      leverage := leverage
      drawdownBps := drawdownBps
      predictedVolatilityBps := 0
      participationBps := 0
      outstandingOrders := outstanding
      messageRate := rate
      priceDeviationBps := priceDeviationBps.getD 0
      pricesFresh := (portfolio.markPrice target.instrumentId).any (0 < ·)
      clockHealthy := true
      brokerSessionHealthy := env.gateway.health = .healthy
      duplicateIntent := false })

/-- Plan a target under the limits in force. -/
def planTarget (env : Env) (strategyId : Option String) (target : Target) (now : MonoTime)
    (traceId : TraceId) (priceDeviationBps : Option Int) :
    Fallible Runtime EngineError OrderIntent := do
  let r ← Fallible.reads id
  let risk := r.effectiveRisk strategyId target.instrumentId now
  let inputs ← contextualRiskInputs env r.portfolio risk target now priceDeviationBps
  Fallible.ofExcept ((planTargetWithGuardrails env.float r.accountId traceId r.portfolio target
    risk env.gateway.capabilities inputs).mapError .plan)

/-- Plan the intent of a proposal. -/
def prepareProposal (env : Env) (proposal : Proposal) (now : MonoTime) (traceId : TraceId) :
    Fallible Runtime EngineError OrderIntent := do
  Fallible.ofExcept ((proposal.validate env.float now).mapError .proposal)
  let r ← Fallible.reads id
  let target ← Fallible.ofExcept
    ((r.portfolio.targetFromProposal env.float proposal).mapError .target)
  planTarget env (some proposal.strategyId) target now traceId none

/-- Deviation of a limit from the trusted mark in basis points. -/
def limitDeviationBps (p : Portfolio) (instrumentId : InstrumentId) (limit : Option Int) :
    Option Int := do
  let limit ← limit
  let mark ← p.markPrice instrumentId
  if mark ≤ 0 ∨ limit ≤ 0 then none
  else narrow 64 ((limit - mark).natAbs * 10000 / mark)

/-- Plan a manual target with an explicit order type and limit. -/
def prepareManualTargetWithOrder (env : Env) (instrumentId : InstrumentId)
    (targetQuantityTicks : Int) (proposalId : ProposalId) (now : MonoTime) (traceId : TraceId)
    (orderType : OrderType) (limitPriceTicks : Option Int) :
    Fallible Runtime EngineError OrderIntent := do
  Fallible.require (¬(orderType = .market ∧ limitPriceTicks.isSome
    ∨ orderType = .limit ∧ limitPriceTicks.all (· ≤ 0))) .invalidRequest
  let r ← Fallible.reads id
  let intent ← planTarget env none ⟨instrumentId, targetQuantityTicks, proposalId⟩ now traceId
    (limitDeviationBps r.portfolio instrumentId limitPriceTicks)
  pure { intent with orderType := orderType, limitPriceTicks := limitPriceTicks }

/-- Plan a proposal and send it, without a journal. -/
def submitProposal (env : Env) (proposal : Proposal) (now : MonoTime) (traceId : TraceId) :
    Fallible Runtime EngineError String := do
  let intent ← prepareProposal env proposal now traceId
  submitIntent env intent
  pure intent.clientOrderId

-- Timings

/-- Record the decision boundary of an intent. -/
def recordDecision (intent : OrderIntent) (decisionMonoNs : MonoTime)
    (market : Option ExecutionMarketReference) : Fallible Runtime EngineError ExecutionTiming := do
  let r ← Fallible.reads id
  Fallible.require (¬market.any fun m => m.midTicks ≤ 0 ∨ m.spreadTicks < 0) .invalidRequest
  let arrival := intent.limitPriceTicks.or (r.portfolio.markPrice intent.instrumentId)
  Fallible.require (¬arrival.any (· ≤ 0)) .invalidRequest
  let timing : ExecutionTiming := {
    clientOrderId := intent.clientOrderId
    decisionMonoNs := decisionMonoNs
    arrivalPriceTicks := arrival
    sendMonoNs := none
    ackMonoNs := none
    firstFillMonoNs := none
    decisionMidTicks := market.map (·.midTicks)
    arrivalSpreadTicks := market.map (·.spreadTicks)
    sendMidTicks := none
    ackMidTicks := none
    postFillMidTicks := none }
  Fallible.modify fun r => { r with timings := r.timings.insert intent.clientOrderId timing }
  pure timing

/-- A timing chain recovery accepts. -/
def timingValid (t : ExecutionTiming) : Bool :=
  let sent := t.sendMonoNs.getD t.decisionMonoNs
  ¬Text.isBlank t.clientOrderId
    ∧ t.arrivalPriceTicks.all (0 < ·)
    ∧ t.arrivalSpreadTicks.all (0 ≤ ·)
    ∧ [t.decisionMidTicks, t.sendMidTicks, t.ackMidTicks, t.postFillMidTicks].all (·.all (0 < ·))
    ∧ t.sendMonoNs.all (t.decisionMonoNs ≤ ·)
    ∧ t.ackMonoNs.all (sent ≤ ·)
    ∧ t.firstFillMonoNs.all (t.ackMonoNs.getD sent ≤ ·)

/-- Restore a journaled timing. -/
def restoreTiming (timing : ExecutionTiming) : Fallible Runtime EngineError Unit := do
  Fallible.require (timingValid timing) .invalidRequest
  Fallible.modify fun r => { r with timings := r.timings.insert timing.clientOrderId timing }

/-- Record the send attempt; it may not precede the decision. -/
def recordSend (clientOrderId : String) (sendMonoNs : MonoTime)
    (market : Option ExecutionMarketReference) : Fallible Runtime EngineError ExecutionTiming := do
  let r ← Fallible.reads id
  let timing ← Fallible.orFail (r.timings[clientOrderId]?) .invalidRequest
  Fallible.require (timing.decisionMonoNs ≤ sendMonoNs) .invalidRequest
  let timing := { timing with
    sendMonoNs := some sendMonoNs
    sendMidTicks := market.map (·.midTicks) }
  Fallible.modify fun r => { r with timings := r.timings.insert clientOrderId timing }
  pure timing

/-- What a broker event adds to a timing. -/
def stampTiming (event : BrokerEvent) (now : MonoTime) (market : Option ExecutionMarketReference)
    (t : ExecutionTiming) : ExecutionTiming :=
  match event with
  | .acknowledged _ _ => { t with
      ackMonoNs := t.ackMonoNs.or (some now), ackMidTicks := market.map (·.midTicks) }
  | .filled _ _ _ => { t with
      firstFillMonoNs := t.firstFillMonoNs.or (some now)
      postFillMidTicks := market.map (·.midTicks) }
  | .rejected _ _ | .cancelled _ => t

/-- Record when a broker event arrived; it may not precede the send. -/
def recordBrokerTiming (event : BrokerEvent) (now : MonoTime)
    (market : Option ExecutionMarketReference) :
    Fallible Runtime EngineError (Option ExecutionTiming) := do
  let r ← Fallible.reads id
  match r.timings[event.clientOrderId]? with
  | none => pure none
  | some timing =>
    Fallible.require (timing.sendMonoNs.getD timing.decisionMonoNs ≤ now) .invalidRequest
    let timing := stampTiming event now market timing
    Fallible.modify fun r => { r with timings := r.timings.insert event.clientOrderId timing }
    pure (some timing)

-- Child plans

/-- Restore a journaled intent. -/
def restoreIntent (intent : OrderIntent) : Fallible Runtime EngineError Unit :=
  onOrders .transition (OrderBook.insert intent)

/-- Store a parent plan under its parent's client order id. -/
def putChildPlan (r : Runtime) (record : ChildPlanRecord) : Runtime :=
  { r with childPlans := r.childPlans.insert record.plan.parentClientOrderId record }

/-- Create and store the plan of a parent intent. -/
def createChildPlan (parent : OrderIntent) (schedule : Schedule) (createdMonoNs : MonoTime) :
    Fallible Runtime EngineError ChildPlanRecord := do
  let plan ← Fallible.ofExcept ((ChildPlan.new parent schedule createdMonoNs).mapError .plan)
  Fallible.modify (·.putChildPlan ⟨parent, plan⟩)
  pure ⟨parent, plan⟩

/-- Restore a journaled plan. -/
def restoreChildPlan (record : ChildPlanRecord) : Fallible Runtime EngineError Unit := do
  Fallible.require (record.parent.clientOrderId = record.plan.parentClientOrderId) .invalidRequest
  Fallible.modify (·.putChildPlan record)

/-- A claimed child: its plan as claimed, its intent and its order. -/
structure ClaimedChild where
  record : ChildPlanRecord
  intent : OrderIntent
  child : ChildOrder
  deriving DecidableEq

/-- Claim the due children of some plans, in turn. -/
def claimPlans (now : MonoTime) : List (String × ChildPlanRecord) →
    Fallible Runtime EngineError (List ClaimedChild)
  | [] => pure []
  | (key, record) :: rest => do
    let outcome := ChildPlan.claimDue now record.plan
    let claimed := { record with plan := outcome.2 }
    Fallible.modify fun r => { r with childPlans := r.childPlans.insert key claimed }
    let children ← Fallible.ofExcept (outcome.1.mapError .plan)
    let others ← claimPlans now rest
    pure (children.map (fun child =>
      ⟨claimed, ChildPlan.childIntent record.parent child, child⟩) ++ others)

/-- Claim every due child of every stored plan. -/
def claimDueChildren (now : MonoTime) : Fallible Runtime EngineError (List ClaimedChild) := do
  let plans ← Fallible.reads (·.childPlans.toList)
  claimPlans now plans

/-- The first stored plan with a child of this client order id. -/
def planOfChild (r : Runtime) (clientOrderId : String) : Option (String × ChildPlanRecord) :=
  r.childPlans.toList.find? (·.2.plan.owns clientOrderId)

/-- Run a plan's method on the plan that owns a child. -/
def onChildPlan (clientOrderId : String) (p : Fallible ChildPlan PlanError Unit) :
    Fallible Runtime EngineError (Option ChildPlanRecord) := do
  let r ← Fallible.reads id
  match r.planOfChild clientOrderId with
  | none => pure none
  | some (key, record) =>
    let outcome := p record.plan
    let record := { record with plan := outcome.2 }
    Fallible.modify fun r => { r with childPlans := r.childPlans.insert key record }
    Fallible.ofExcept (outcome.1.mapError .plan)
    pure (some record)

/-- Mark a claimed child sent. -/
def markChildSent (clientOrderId : String) : Fallible Runtime EngineError ChildPlanRecord := do
  let record ← onChildPlan clientOrderId (ChildPlan.markSent clientOrderId)
  Fallible.orFail record .invalidRequest

/-- Mark a child unknown after an ambiguous transport result. -/
def markChildUnknown (clientOrderId : String) : Fallible Runtime EngineError ChildPlanRecord := do
  let record ← onChildPlan clientOrderId (ChildPlan.markUnknown clientOrderId)
  Fallible.orFail record .invalidRequest

/-- Apply a broker callback to the child it names; other orders are left to the book. -/
def applyChildEvent (event : BrokerEvent) :
    Fallible Runtime EngineError (Option ChildPlanRecord) :=
  onChildPlan event.clientOrderId (ChildPlan.applyBrokerEvent event)

-- Orders and events

/-- Orders in the local state unknown, in the order of their ids. -/
def unknownOrderIds (r : Runtime) : List String :=
  r.orders.clientOrderIds.filter fun id => (r.orders.get id).any (·.state = .unknown)

/-- Local working and uncertain orders, in the order of their ids. -/
def workingOrderIds (r : Runtime) : List String :=
  r.orders.clientOrderIds.filter fun id => (r.orders.get id).any fun record =>
    workingState record.state

/-- Whether an order is in the local projection. -/
def hasOrder (r : Runtime) (clientOrderId : String) : Bool := (r.orders.get clientOrderId).isSome

/-- Cumulative fill quantity applied locally; zero for an unknown order. -/
def filledQuantity (r : Runtime) (clientOrderId : String) : Int :=
  (r.orders.get clientOrderId).elim 0 (·.filledQuantityTicks)

/-- The side of a known order. -/
def orderSide (r : Runtime) (clientOrderId : String) : Option Side :=
  (r.orders.get clientOrderId).map (·.intent.side)

/-- The instrument of a known order. -/
def orderInstrument (r : Runtime) (clientOrderId : String) : Option InstrumentId :=
  (r.orders.get clientOrderId).map (·.intent.instrumentId)

/-- The client order id of a proposal. -/
def clientOrderIdForProposal (r : Runtime) (proposalId : ProposalId) : String :=
  "client-intent-" ++ displayIdentity "account" r.accountId ++ "-" ++
    displayIdentity "proposal" proposalId

/-- A fill as the portfolio sees it. -/
def fillRecord (record : OrderRecord) (clientOrderId : String) (quantityTicks priceTicks : Int) :
    FillRecord :=
  let signed := if record.intent.side = .buy then quantityTicks else saturatingNeg 64 quantityTicks
  ⟨clientOrderId, record.intent.instrumentId, signed, priceTicks⟩

/-- Append to the bounded fill history. -/
def pushFill (r : Runtime) (fill : FillRecord) : Runtime :=
  let kept := if 10000 ≤ r.fills.length then r.fills.drop 1 else r.fills
  { r with fills := kept ++ [fill] }

/-- Apply a broker event to the order book, and a fill to the history and, on request, to the
portfolio. The portfolio is tried on a copy first; a filled order takes no further fill. -/
def applyBrokerEventInner (event : BrokerEvent) (updatePortfolio : Bool) :
    Fallible Runtime EngineError Unit := do
  let r ← Fallible.reads id
  let applyToOrders := onOrders .transition (OrderBook.applyBrokerEvent event)
  match event with
  | .filled clientOrderId quantityTicks priceTicks =>
    match r.orders.get clientOrderId with
    | none => Fallible.fail (.transition .unknownOrder)
    | some record =>
      if record.state = .filled then applyToOrders
      else
        let fill := fillRecord record clientOrderId quantityTicks priceTicks
        if updatePortfolio then
          let trial :=
            Portfolio.applyFill fill.instrumentId fill.signedQuantityTicks priceTicks 0 r.portfolio
          let _ ← Fallible.ofExcept (trial.1.mapError .accounting)
          applyToOrders
          Fallible.modify fun r => { r with portfolio := trial.2 }
          Fallible.modify (·.pushFill fill)
        else
          applyToOrders
          Fallible.modify (·.pushFill fill)
  | _ => applyToOrders

/-- Apply a broker event that moves the portfolio. -/
def applyBrokerEvent (event : BrokerEvent) : Fallible Runtime EngineError Unit :=
  applyBrokerEventInner event true

/-- Apply a broker event that leaves the portfolio to the account snapshot. -/
def applyReconciledBrokerEvent (event : BrokerEvent) : Fallible Runtime EngineError Unit :=
  applyBrokerEventInner event false

/-- Run a computation on the portfolio. -/
def onPortfolio {α : Type} (p : Fallible Portfolio AccountingError α) :
    Fallible Runtime EngineError α :=
  Fallible.zoom (·.portfolio) ({ · with portfolio := · }) .accounting p

/-- Adopt broker positions and cash. -/
def applyReconciledPortfolio (positions : List (InstrumentId × Int)) (cashTicks : Option Int) :
    Fallible Runtime EngineError Unit :=
  Fallible.modify fun r => { r with portfolio := r.portfolio.reconcilePositions positions cashTicks }

/-- Adopt a broker snapshot. -/
def applyBrokerSnapshot (snapshot : BrokerSnapshot) : Fallible Runtime EngineError Unit := do
  let cash ← Fallible.ofExcept (snapshotCash snapshot)
  applyReconciledPortfolio (snapshotPositions snapshot) cash

/-- Restore a journaled high-water mark. -/
def restorePeakEquityTicks (peak : Option Int) : Fallible Runtime EngineError Unit :=
  Fallible.modify fun r => { r with portfolio := r.portfolio.restorePeakEquityTicks peak }

/-- Update the trusted mark of an instrument. -/
def updateMarkPrice (instrumentId : InstrumentId) (priceTicks : Int) :
    Fallible Runtime EngineError Unit :=
  onPortfolio (Portfolio.setMarkPrice instrumentId priceTicks)

/-- Apply a corporate action to the portfolio. -/
def applyCorporateAction (instrumentId : InstrumentId) (kind : CorporateActionKind) :
    Fallible Runtime EngineError Unit := do
  let _ ← onPortfolio (Portfolio.applyCorporateAction instrumentId kind)

-- Risk and live state

/-- Change the risk state. -/
def transitionRiskState (next : RiskState) (authorization : String) :
    Fallible Runtime EngineError Unit := do
  let r ← Fallible.reads id
  Fallible.ofExcept ((r.risk.validateTransition next authorization).mapError .riskState)
  Fallible.modify fun r => { r with risk := { r.risk with state := next } }

/-- Replace the guardrails. -/
def setGuardrails (guardrails : Guardrails) : Fallible Runtime EngineError Unit :=
  Fallible.modify fun r => { r with risk := { r.risk with guardrails := guardrails } }

/-- Replace the scoped policy. -/
def setScopedRiskPolicy (policy : Option ScopedRiskPolicy) : Fallible Runtime EngineError Unit :=
  Fallible.modify fun r => { r with scopedRiskPolicy := policy }

/-- Replace the live limits, while still on paper. -/
def configureLiveLimits (limits : LiveLimits) : Fallible Runtime EngineError Unit := do
  let r ← Fallible.reads id
  Fallible.require (r.liveGuard.environment = .paper) (.liveGuard .notLive)
  Fallible.modify fun r => { r with liveGuard := .paper limits }

/-- Kill live submission. -/
def killLive : Fallible Runtime EngineError Unit :=
  Fallible.modify fun r => { r with liveGuard := r.liveGuard.killSwitch }

/-- Run a computation on the live guard. -/
def onLiveGuard {α : Type} (p : Fallible LiveGuard LiveGuardError α) :
    Fallible Runtime EngineError α :=
  Fallible.zoom (·.liveGuard) ({ · with liveGuard := · }) .liveGuard p

end Runtime

end InsiderTrader
