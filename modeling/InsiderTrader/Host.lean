import InsiderTrader.ReadModel
import InsiderTrader.Runtime

/-!
# The service host

The state of the engine around the runtime, and the steps every operation is
made of: readings of the clock, appends to the journal and its read model,
facts of the context graph, market references and fill attribution.

## Main definitions

- `Host` — the engine's state
- `Host.appendEvent` — one journal append
- `Host.indexPortfolio` — positions as facts of the context graph
- `Host.submitIntentWithTiming` — the timed and journaled way to the broker
- `Host.attributeStrategyFill` — fills by strategy
-/

namespace InsiderTrader

open MachineInt

/-- Host lifecycle. -/
inductive Lifecycle where
  | reconciling
  | running
  | draining
  | stopped
  deriving DecidableEq

/-- One position as the context graph keeps it. The other facts the graph takes from
trading never conflict: each is determined by its identity. -/
structure PositionFact where
  instrumentId : InstrumentId
  knownMs : ℕ
  quantityTicks : Int
  markPriceTicks : Int
  deriving DecidableEq

/-- A journaled broker event that recovery could not apply. -/
structure RecoveryAnomaly where
  sequence : ℕ
  error : TransitionError
  deriving DecidableEq

/-- The engine's state. -/
structure Host where
  runtime : Runtime
  lifecycle : Lifecycle
  autonomyPlans : PlanStore
  marketData : MarketDataHub
  contextGraph : List PositionFact
  recoveryAnomalies : List RecoveryAnomaly
  strategyCoordinator : Coordinator
  autonomyMode : AutonomyMode
  strategyExecutionSummaries : Std.TreeMap String StrategyExecutionSummary
  readModel : ProjectionStore
  clockReads : ℕ

/-- Add one fill to a summary. The counters before an overflowing one stay written. -/
def StrategyExecutionSummary.addFill (signedQuantity priceTicks : Int) :
    Fallible StrategyExecutionSummary EngineError Unit := do
  let s ← Fallible.reads id
  Fallible.require (s.fillCount < u64Max) .invalidRequest
  Fallible.modify ({ · with fillCount := s.fillCount + 1 })
  let filled ← Fallible.orFail (narrow 128 (s.filledQuantityTicks + signedQuantity)) .invalidRequest
  Fallible.modify ({ · with filledQuantityTicks := filled })
  let product ← Fallible.orFail (narrow 128 (signedQuantity * priceTicks)) .invalidRequest
  let notional ← Fallible.orFail (narrow 128 (s.notionalTicks + product)) .invalidRequest
  Fallible.modify ({ · with notionalTicks := notional })

namespace Host

/-- Everything that left the process, oldest first. -/
abbrev trace (h : Host) : List Effect := h.runtime.trace

/-- Run a computation on the runtime. -/
def onRuntime {α : Type} (p : Fallible Runtime EngineError α) : Fallible Host EngineError α :=
  Fallible.zoom (·.runtime) ({ · with runtime := · }) id p

/-- The next reading of the monotonic clock. -/
def monotonicNow (env : Env) : Fallible Host EngineError MonoTime := do
  let h ← Fallible.reads id
  Fallible.modify ({ · with clockReads := h.clockReads + 1 })
  pure (env.clock h.clockReads)

/-- Record an effect. -/
def emit (effect : Effect) (h : Host) : Host :=
  { h with runtime := { h.runtime with trace := h.runtime.trace ++ [effect] } }

/-- Append a record to the journal. -/
def appendJournal (env : Env) (record : JournalRecord) : Fallible Host EngineError Unit := do
  let h ← Fallible.reads id
  match env.journal h.trace record with
  | some error => Fallible.fail (.journal error)
  | none => Fallible.modify (emit (.append record))

/-- The sequence of the next journal record; a preview is made at this version. -/
def journalCursor (h : Host) : ℕ := (journalOf h.trace).length

/-- Add a record to the read model. -/
def project (record : ProjectionRecord) (h : Host) : Host :=
  { h with readModel := h.readModel.push record }

/-- Append a record to the journal, then to the read model. -/
def appendEvent (env : Env) (record : JournalRecord) : Fallible Host EngineError Unit := do
  let sequence ← Fallible.reads journalCursor
  appendJournal env record
  let h ← Fallible.reads id
  Fallible.require (env.readModel h.trace record) .readModel
  Fallible.modify (project ⟨sequence, record⟩)

/-- Stop unless the host is running. -/
def requireRunning : Fallible Host EngineError Unit := do
  let h ← Fallible.reads id
  Fallible.require (h.lifecycle = .running) .notRunning

-- Context graph

/-- A time as the graph keeps it; it saturates at the signed 64-bit maximum. -/
def knownMs (n : ℕ) : ℕ := min n (2 ^ 63 - 1)

/-- Insert one fact. Another fact of the instrument at the same known time conflicts. -/
def upsertPositionFact (fact : PositionFact) : Fallible (List PositionFact) GraphError Unit := do
  let facts ← Fallible.reads id
  Fallible.require
    (¬facts.any fun f => f.instrumentId = fact.instrumentId ∧ f.knownMs = fact.knownMs ∧ f ≠ fact)
    .conflictingNode
  Fallible.modify fun facts => fact :: facts

/-- Insert every position of the portfolio. -/
def indexPortfolio (known : ℕ) : Fallible Host EngineError Unit := do
  let h ← Fallible.reads id
  Fallible.zoom (·.contextGraph) ({ · with contextGraph := · }) .graph
    (Fallible.forEach (fun e => upsertPositionFact
      ⟨e.1, knownMs known, e.2.quantityTicks, e.2.markPriceTicks⟩) h.runtime.portfolio.positions.toList)

/-- Index an order; its intent id is the artifact of the fact. -/
def indexOrder (intent : OrderIntent) : Fallible Host EngineError Unit :=
  Fallible.require (¬Text.isBlank intent.intentId) (.graph .invalidProvenance)

/-- Index a fill; its order id is the artifact of the fact. -/
def indexFill : BrokerEvent → Fallible Host EngineError Unit
  | .filled clientOrderId _ _ =>
    Fallible.require (¬Text.isBlank clientOrderId) (.graph .invalidProvenance)
  | _ => pure ()

/-- Index a fill at a clock reading of its own. -/
def indexFillNow (env : Env) (event : BrokerEvent) : Fallible Host EngineError Unit :=
  match event with
  | .filled _ _ _ => do
    let _ ← monotonicNow env
    indexFill event
  | _ => pure ()

-- Submission

/-- Bid and ask of a stream: its quote, else the top of its book. -/
def bidAsk (s : InstrumentStreams) : Option (Int × Int) :=
  (s.quote.map fun q => (q.bidTicks, q.askTicks)).or
    (s.book.top.map fun top => (top.1, top.2.2.1))

/-- The quote-derived reference of an instrument. -/
def marketReference (h : Host) (instrumentId : InstrumentId) :
    Option ExecutionMarketReference := do
  let s ← h.marketData.snapshot instrumentId
  let (bid, ask) ← bidAsk s
  if bid ≤ 0 ∨ ask < bid then none
  else
    let sum ← narrow 64 (bid + ask)
    let spread ← narrow 64 (ask - bid)
    if 0 < sum.tdiv 2 then some ⟨sum.tdiv 2, spread⟩ else none

/-- The reference of the instrument an event's order is in. -/
def eventMarketReference (h : Host) (event : BrokerEvent) : Option ExecutionMarketReference :=
  (h.runtime.orderInstrument event.clientOrderId).bind h.marketReference

/-- A target that brings a position closer to zero without crossing it. -/
def reducesPosition (target current : Int) : Bool :=
  current ≠ 0 ∧ (target = 0 ∨ (target.sign = current.sign ∧ target.natAbs < current.natAbs))

/-- New exposure needs a fresh quote, or a mark where there is no stream. -/
def ensureMarketHealthForTarget (h : Host) (instrumentId : InstrumentId) (target current : Int) :
    Except EngineError Unit :=
  let stale := EngineError.plan (.riskDenied .staleData)
  if reducesPosition target current then .ok ()
  else
    match h.marketData.snapshot instrumentId with
    | none => if (h.runtime.portfolio.markPrice instrumentId).isSome then .ok () else .error stale
    | some s => if s.quote.isNone ∨ s.quoteHealth.quality ≠ .good then .error stale else .ok ()

/-- Stamp and journal the decision and the send of an intent, then send it. -/
def submitIntentWithTiming (env : Env) (intent : OrderIntent) (decisionMono : MonoTime) :
    Fallible Host EngineError Unit := do
  let h ← Fallible.reads id
  let market := h.marketReference intent.instrumentId
  let decision ← onRuntime (Runtime.recordDecision intent decisionMono market)
  appendEvent env (.executionTiming decision)
  let now ← monotonicNow env
  let send ← onRuntime (Runtime.recordSend intent.clientOrderId now market)
  appendEvent env (.executionTiming send)
  onRuntime (Runtime.submitIntent env intent)

/-- Journal an authorized intent under its trace and send it. -/
def submitPlanned (env : Env) (intent : OrderIntent) (traceId : TraceId)
    (proposalId : ProposalId) (now : MonoTime) : Fallible Host EngineError Unit := do
  let h ← Fallible.reads id
  Fallible.ofExcept (h.runtime.authorizeIntent intent)
  appendEvent env (.traceLink traceId "proposal" (toString proposalId))
  appendEvent env (encodeOrderIntent intent)
  indexOrder intent
  submitIntentWithTiming env intent now

-- Broker events

/-- Record and journal when a broker event arrived. -/
def recordTiming (env : Env) (event : BrokerEvent) : Fallible Host EngineError Unit := do
  let now ← monotonicNow env
  let h ← Fallible.reads id
  let timing ← onRuntime (Runtime.recordBrokerTiming event now (h.eventMarketReference event))
  match timing with
  | none => pure ()
  | some timing => appendEvent env (.executionTiming timing)

/-- Apply a broker event to the child it names and journal the plan. -/
def recordChildEvent (env : Env) (event : BrokerEvent) : Fallible Host EngineError Unit := do
  let record ← onRuntime (Runtime.applyChildEvent event)
  match record with
  | none => pure ()
  | some record => appendEvent env (encodeChildPlan record)

/-- Whether a fill event moved the filled quantity of its order. -/
def fillAdvanced (h : Host) (event : BrokerEvent) (priorFill : Int) : Bool :=
  match event with
  | .filled clientOrderId _ _ => priorFill < h.runtime.filledQuantity clientOrderId
  | _ => false

/-- The strategy whose proposal an order came from. -/
def strategyOfOrder (h : Host) (clientOrderId : String) : Option String := do
  let proposalId ← proposalIdFromClientOrderId clientOrderId
  let record ← h.strategyCoordinator.record proposalId
  some record.proposal.strategyId

/-- The signed quantity of a fill on a side. -/
def signedFill (side : Side) (quantityTicks : Int) : Int :=
  if side = .buy then quantityTicks else saturatingNeg 64 quantityTicks

/-- Add a fill to the summary of a strategy; the new summary. -/
def addStrategyFill (strategyId : String) (signedQuantity priceTicks : Int) :
    Fallible Host EngineError StrategyExecutionSummary := fun h =>
  let summary := (h.strategyExecutionSummaries[strategyId]?).getD ⟨strategyId, 0, 0, 0⟩
  let (outcome, summary) := StrategyExecutionSummary.addFill signedQuantity priceTicks summary
  (outcome.map fun _ => summary, { h with
    strategyExecutionSummaries := h.strategyExecutionSummaries.insert strategyId summary })

/-- Attribute a fill to the strategy of its order. -/
def attributeStrategyFill (event : BrokerEvent) :
    Fallible Host EngineError (Option StrategyExecutionSummary) := do
  let h ← Fallible.reads id
  match event with
  | .filled clientOrderId quantityTicks priceTicks =>
    match h.strategyOfOrder clientOrderId with
    | none => pure none
    | some strategyId =>
      let side ← Fallible.orFail (h.runtime.orderSide clientOrderId) (.transition .unknownOrder)
      let summary ← addStrategyFill strategyId (signedFill side quantityTicks) priceTicks
      pure (some summary)
  | _ => pure none

/-- Attribute a fill that advanced its order and journal the summary. -/
def recordAttribution (env : Env) (event : BrokerEvent) (priorFill : Int) :
    Fallible Host EngineError Unit := do
  let h ← Fallible.reads id
  if h.fillAdvanced event priorFill then
    let summary ← attributeStrategyFill event
    match summary with
    | none => pure ()
    | some summary => appendEvent env (.strategyExecution summary)
  else pure ()

end Host

end InsiderTrader
