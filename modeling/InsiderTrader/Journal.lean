import InsiderTrader.ChildPlan
import InsiderTrader.Autonomy
import InsiderTrader.MarketData
import InsiderTrader.Resolution
import InsiderTrader.Llm

/-!
# Journal records

What the engine writes to its journal, at the level of the encoded fields, and
what the recovery decoder accepts. An encoder drops what it does not write (an
intent's lifecycle state, the limit price of a market order); the decoder
checks what it reads.

## Main definitions

- `EngineError` — failures of engine operations
- `JournalRecord` — the fields of a journaled record
- `RecoveredEvent` — an event recovery replays
- `decodeJournalPayload` — the recovery decoder
-/

namespace InsiderTrader

/-- Failure of the journal, as far as recovery and appends meet it. -/
inductive JournalError where
  | io
  | corrupt
  | payloadTooLarge
  deriving DecidableEq

/-- Failure of the autonomy control: a plan store failure or a fixed text. -/
inductive AutonomyFailure where
  | store (error : PlanStoreError)
  | text (message : String)
  deriving DecidableEq

/-- Failure of the market hub, or the text of an engine check. -/
inductive MarketDataFailure where
  | hub (error : HubError)
  | text (message : String)
  deriving DecidableEq

/-- Failure of the context graph. -/
inductive GraphError where
  | invalidIdentity
  | missingNode
  | conflictingNode
  | invalidInterval
  | invalidProvenance
  deriving DecidableEq

/-- Failure of an engine operation. Where the engine formats a nested failure as text, the
failure itself is kept. -/
inductive EngineError where
  | proposal (error : ProposalError)
  | target (error : TargetError)
  | plan (error : PlanError)
  | submit (error : SubmitError)
  | transition (error : TransitionError)
  | notRunning
  | journal (error : JournalError)
  | accounting (error : AccountingError)
  | cancel (error : CancelError)
  | replace (error : ReplaceError)
  | riskState (error : StateTransitionError)
  | reconcile (message : String)
  | stalePreview
  | previewExpired
  | confirmationRequired
  | invalidRequest
  | liveGuard (error : LiveGuardError)
  | strategy (error : ProposalSubmitError)
  | strategyText (message : String)
  | llm (error : LlmError)
  | autonomy (failure : AutonomyFailure)
  | readModel
  | riskPolicy (error : PolicyError)
  | marketData (failure : MarketDataFailure)
  | graph (error : GraphError)
  deriving DecidableEq

-- Engine records

/-- Durable timing context of one order. -/
structure ExecutionTiming where
  clientOrderId : String
  decisionMonoNs : ℕ
  arrivalPriceTicks : Option Int
  sendMonoNs : Option ℕ
  ackMonoNs : Option ℕ
  firstFillMonoNs : Option ℕ
  decisionMidTicks : Option Int
  arrivalSpreadTicks : Option Int
  sendMidTicks : Option Int
  ackMidTicks : Option Int
  postFillMidTicks : Option Int
  deriving DecidableEq

/-- A parent intent with its child state machine. -/
structure ChildPlanRecord where
  parent : OrderIntent
  plan : ChildPlan
  deriving DecidableEq

/-- Fills attributed to one strategy. -/
structure StrategyExecutionSummary where
  strategyId : String
  fillCount : ℕ
  filledQuantityTicks : Int
  notionalTicks : Int
  deriving DecidableEq

/-- The fields of a journaled order intent. -/
structure IntentRecord where
  accountId : AccountId
  instrumentId : InstrumentId
  side : Side
  quantityTicks : Int
  orderType : OrderType
  limitTicks : Int
  timeInForce : TimeInForce
  traceId : TraceId
  intentId : String
  clientOrderId : String
  deriving DecidableEq

/-- The fields of a journaled record. Records of the registries that trading does not read
(alerts, news, models, experiments, prompts, backtests, lifecycles) are `other`. -/
inductive JournalRecord where
  | traceLink (traceId : TraceId) (kind objectId : String)
  | orderIntent (intent : IntentRecord)
  | brokerEvent (event : BrokerEvent)
  | riskState (state : RiskState) (authorization : String)
  | liveLimits (limits : LiveLimits)
  | liveKill
  | portfolioSnapshot (positions : List (InstrumentId × Int)) (cashTicks : Option Int)
  | portfolioPeak (peak : Option Int)
  | corporateAction (instrumentId : InstrumentId) (kind : CorporateActionKind)
  | scopedRiskPolicy (policy : Option ScopedRiskPolicy)
  | planEvent (event : PlanEvent)
  | strategyProposal (proposal : Proposal)
  | strategyResolution (policy : StrategyPolicy) (now : MonoTime)
    (budgets : Std.TreeMap String Int)
  | strategyExecution (summary : StrategyExecutionSummary)
  | autonomyMode (mode : AutonomyMode)
  | cancelRequest (clientOrderId : String)
  | replaceRequest (clientOrderId : String) (quantityTicks : Int) (limitTicks : Option Int)
  | executionTiming (timing : ExecutionTiming)
  | childPlan (parent : IntentRecord) (createdMonoNs : MonoTime) (children : List ChildRecord)
  | marketEvent (event : MarketEvent) (receiveWall : WallTime)
  | marketBar (bar : Bar) (sequence : ℕ)
  | other (kind : String)

/-- Encode an intent; its lifecycle state is not written. -/
def encodeIntent (intent : OrderIntent) : IntentRecord where
  accountId := intent.accountId
  instrumentId := intent.instrumentId
  side := intent.side
  quantityTicks := intent.quantityTicks
  orderType := intent.orderType
  limitTicks := intent.limitPriceTicks.getD 0
  timeInForce := intent.timeInForce
  traceId := intent.traceId
  intentId := intent.intentId
  clientOrderId := intent.clientOrderId

/-- Encode an intent as a record of its own. -/
def encodeOrderIntent (intent : OrderIntent) : JournalRecord := .orderIntent (encodeIntent intent)

/-- Encode a parent plan. -/
def encodeChildPlan (record : ChildPlanRecord) : JournalRecord :=
  .childPlan (encodeIntent record.parent) record.plan.createdMonoNs record.plan.children

/-- The cash a snapshot reports, in 64 bits. -/
def snapshotCash (snapshot : BrokerSnapshot) : Except EngineError (Option Int) :=
  match snapshot.accountValues[accountValueCashTicks]? with
  | none => .ok none
  | some value =>
    match MachineInt.narrow 64 value with
    | none => .error (.accounting .overflow)
    | some cash => .ok (some cash)

/-- The positions of a snapshot. -/
def snapshotPositions (snapshot : BrokerSnapshot) : List (InstrumentId × Int) :=
  snapshot.positions.map fun p => (p.instrumentId, p.quantityTicks)

/-- Encode the part of a broker snapshot the portfolio adopts. -/
def encodePortfolioSnapshot (snapshot : BrokerSnapshot) : Except EngineError JournalRecord :=
  (snapshotCash snapshot).map (.portfolioSnapshot (snapshotPositions snapshot))

/-- Encode a scoped policy; its sizes are bounded. -/
def encodeScopedRiskPolicy (policy : Option ScopedRiskPolicy) : Except EngineError JournalRecord :=
  match policy with
  | none => .ok (.scopedRiskPolicy none)
  | some p =>
    if 256 < p.system.length ∨ 1024 < p.accounts.size ∨ 1024 < p.strategies.size
        ∨ 16 < p.assets.size ∨ 16384 < p.instruments.size
        ∨ (p.accounts.values ++ p.strategies.values ++ p.assets.values ++
            p.instruments.values).any (256 < ·.length) then
      .error .invalidRequest
    else .ok (.scopedRiskPolicy (some p))

/-- Encode a resolution without budgets. -/
def encodeStrategyResolution (policy : StrategyPolicy) (now : MonoTime) : JournalRecord :=
  .strategyResolution policy now ∅

/-- Encode a resolution; only the first 256 budgets are written. -/
def encodeStrategyResolutionWithBudgets (policy : StrategyPolicy) (now : MonoTime)
    (budgets : Std.TreeMap String Int) : JournalRecord :=
  .strategyResolution policy now (.ofList (budgets.toList.take 256))

-- The decoder

/-- An event recovery replays. -/
inductive RecoveredEvent where
  | market (event : MarketEvent) (receiveWall : WallTime)
  | marketBar (bar : Bar) (sequence : ℕ)
  | intent (intent : OrderIntent)
  | childPlan (record : ChildPlanRecord)
  | executionTiming (timing : ExecutionTiming)
  | broker (event : BrokerEvent)
  | risk (state : RiskState) (authorization : String)
  | liveLimits (limits : LiveLimits)
  | liveKilled
  | portfolioSnapshot (positions : List (InstrumentId × Int)) (cashTicks : Option Int)
  | portfolioPeak (peak : Option Int)
  | corporateAction (instrumentId : InstrumentId) (kind : CorporateActionKind)
  | scopedRiskPolicy (policy : Option ScopedRiskPolicy)
  | autonomy (event : PlanEvent)
  | strategyProposal (proposal : Proposal)
  | strategyResolution (policy : StrategyPolicy) (now : MonoTime)
    (budgets : Std.TreeMap String Int)
  | strategyExecution (summary : StrategyExecutionSummary)
  | autonomyMode (mode : AutonomyMode)

/-- A text short enough to be read back. -/
def readable (s : String) : Bool := s.utf8ByteSize ≤ 1048576

/-- Accept a record when a check holds. -/
def accept (c : Bool) (event : RecoveredEvent) : Except EngineError (Option RecoveredEvent) :=
  if c then .ok (some event) else .error (.journal .corrupt)

/-- Decode an intent: always risk-approved, with a limit price on limit orders only. -/
def decodeIntent (r : IntentRecord) : Option OrderIntent :=
  if r.accountId = 0 ∨ r.instrumentId = 0 ∨ r.traceId = 0 ∨ ¬readable r.intentId
      ∨ ¬readable r.clientOrderId ∨ r.quantityTicks ≤ 0 then none
  else some {
    intentId := r.intentId
    accountId := r.accountId
    instrumentId := r.instrumentId
    clientOrderId := r.clientOrderId
    side := r.side
    quantityTicks := r.quantityTicks
    orderType := r.orderType
    limitPriceTicks := if r.orderType = .limit then some r.limitTicks else none
    timeInForce := r.timeInForce
    state := .riskApproved
    traceId := r.traceId }

/-- The encoded size of an intent in bytes. -/
def intentBytes (r : IntentRecord) : ℕ :=
  94 + r.intentId.utf8ByteSize + r.clientOrderId.utf8ByteSize

/-- The encoded size of a plan event in bytes. -/
def planEventBytes : PlanEvent → ℕ
  | .transition planId _ => 23 + planId.utf8ByteSize
  | .submitted plan => 42 + plan.planId.utf8ByteSize + (plan.actions.map fun a =>
      13 + a.proposalId.elim 0 (4 + ·.utf8ByteSize) +
        (a.reasonCodes.map (4 + ·.utf8ByteSize)).sum).sum

/-- A plan action the plan decoder reads. -/
def actionReadable (a : AutonomousAction) : Bool :=
  a.proposalId.all readable ∧ a.reasonCodes.length ≤ 256 ∧ a.reasonCodes.all readable

/-- A plan event the plan decoder reads; a submitted plan is validated at its generation
time. -/
def planEventReadable (float : FloatArith) : PlanEvent → Bool
  | .transition planId _ => readable planId
  | .submitted plan => readable plan.planId ∧ plan.actions.length ≤ 4096
      ∧ plan.actions.all actionReadable ∧ (plan.validate float plan.generatedAt).isOk

/-- A child the plan decoder reads. -/
def childReadable (c : ChildRecord) : Bool :=
  ¬Text.isBlank c.order.parentClientOrderId ∧ readable c.order.parentClientOrderId
    ∧ ¬Text.isBlank c.order.clientOrderId ∧ readable c.order.clientOrderId
    ∧ 0 < c.order.quantityTicks ∧ 0 ≤ c.filledQuantityTicks
    ∧ c.filledQuantityTicks ≤ c.order.quantityTicks ∧ c.brokerOrderId.all readable

/-- A child as it is read back: an empty broker id reads as none. -/
def decodeChild (c : ChildRecord) : ChildRecord :=
  { c with brokerOrderId := if c.brokerOrderId = some "" then none else c.brokerOrderId }

/-- A broker event whose texts can be read back. -/
def eventReadable : BrokerEvent → Bool
  | .acknowledged id brokerId => readable id ∧ readable brokerId
  | .filled id _ _ => readable id
  | .rejected id reason => readable id ∧ readable reason
  | .cancelled id => readable id

/-- Positions of distinct instruments, none of them flat. -/
def positionsReadable (positions : List (InstrumentId × Int)) : Bool :=
  positions.length ≤ 16384 ∧ positions.all (fun p => p.1 ≠ 0 ∧ p.2 ≠ 0)
    ∧ (positions.map (·.1)).Nodup

/-- A policy whose identities the decoder accepts. -/
def policyReadable (p : ScopedRiskPolicy) : Bool :=
  p.system.length ≤ 256 ∧ p.accounts.size ≤ 1024 ∧ p.strategies.size ≤ 1024
    ∧ p.assets.size ≤ 6 ∧ p.instruments.size ≤ 16384
    ∧ (p.accounts.keys ++ p.strategies.keys).all (fun id => ¬Text.isBlank id ∧ readable id)
    ∧ p.instruments.keys.all (· ≠ 0)

/-- An option settlement names its underlying. -/
def underlyingNamed : CorporateActionKind → Bool
  | .optionExercise underlying _ _ _ | .optionAssignment underlying _ _ _ => underlying ≠ 0
  | _ => true

/-- The recovery decoder. Requests to cancel or replace are audit records: the broker is
asked during reconciliation instead, so they decode to nothing. -/
def decodeJournalPayload (float : FloatArith) (record : JournalRecord) :
    Except EngineError (Option RecoveredEvent) :=
  match record with
  | .traceLink _ _ _ => .ok none
  | .orderIntent intent =>
    match decodeIntent intent with
    | none => .error (.journal .corrupt)
    | some intent => .ok (some (.intent intent))
  | .brokerEvent event => accept (eventReadable event) (.broker event)
  | .riskState state authorization => accept (readable authorization) (.risk state authorization)
  | .liveLimits limits =>
    accept (limits.allowedAccounts ≠ [] ∧ limits.allowedAccounts.length ≤ 128
      ∧ limits.allowedAccounts.all (fun a => ¬Text.isBlank a ∧ readable a)
      ∧ limits.allowedAccounts.Nodup ∧ limits.maxNotionalTicks ≠ 0) (.liveLimits limits)
  | .liveKill => .ok (some .liveKilled)
  | .portfolioSnapshot positions cash =>
    accept (positionsReadable positions) (.portfolioSnapshot positions cash)
  | .portfolioPeak peak => .ok (some (.portfolioPeak peak))
  | .corporateAction instrumentId kind =>
    accept (instrumentId ≠ 0 ∧ underlyingNamed kind) (.corporateAction instrumentId kind)
  | .scopedRiskPolicy policy => accept (policy.all policyReadable) (.scopedRiskPolicy policy)
  | .planEvent event =>
    if planEventBytes event ≤ 4 * 1024 * 1024 ∧ planEventReadable float event then
      .ok (some (.autonomy event))
    else .error (.autonomy (.text "malformed plan event"))
  | .strategyProposal p =>
    accept (p.proposalId ≠ 0 ∧ p.instrumentId ≠ 0 ∧ readable p.strategyId
      ∧ p.evidence.length ≤ 256 ∧ p.evidence.all readable) (.strategyProposal p)
  | .strategyResolution policy now budgets =>
    accept (budgets.size ≤ 256 ∧ budgets.keys.all readable ∧ budgets.values.all (0 < ·))
      (.strategyResolution policy now budgets)
  | .strategyExecution s => accept (s.strategyId ≠ "" ∧ readable s.strategyId) (.strategyExecution s)
  | .autonomyMode mode => .ok (some (.autonomyMode mode))
  | .cancelRequest id =>
    if Text.isBlank id ∨ ¬readable id then .error (.journal .corrupt) else .ok none
  | .replaceRequest id quantityTicks limitTicks =>
    if id = "" ∨ ¬readable id ∨ quantityTicks ≤ 0 ∨ limitTicks.any (· ≤ 0) then
      .error (.journal .corrupt)
    else .ok none
  | .executionTiming t =>
    accept (¬Text.isBlank t.clientOrderId ∧ readable t.clientOrderId) (.executionTiming t)
  | .childPlan parent createdMonoNs children =>
    match decodeIntent parent with
    | none => .error (.journal .corrupt)
    | some intent =>
      accept (intentBytes parent ≤ 1048576 ∧ children ≠ [] ∧ children.length ≤ 16384
        ∧ children.all childReadable)
        (.childPlan ⟨intent, intent.clientOrderId, createdMonoNs, children.map decodeChild⟩)
  | .marketEvent event receiveWall =>
    accept (event.instrumentId ≠ 0) (.market event receiveWall)
  | .marketBar bar sequence => accept (bar.instrumentId ≠ 0) (.marketBar bar sequence)
  | .other _ => .ok none

theorem decodeIntent_clientOrderId {r : IntentRecord} {intent : OrderIntent}
    (h : decodeIntent r = some intent) : intent.clientOrderId = r.clientOrderId := by
  unfold decodeIntent at h
  split at h
  · cases h
  · cases h
    rfl

theorem decodeJournalPayload_orderIntent {float : FloatArith} {r : IntentRecord}
    {event : Option RecoveredEvent} :
    decodeJournalPayload float (.orderIntent r) = .ok event ↔
      ∃ intent, decodeIntent r = some intent ∧ event = some (.intent intent) := by
  change (match decodeIntent r with
    | none => Except.error (EngineError.journal .corrupt)
    | some intent => .ok (some (RecoveredEvent.intent intent))) = .ok event ↔ _
  cases decodeIntent r with
  | none => simp
  | some intent => simp [eq_comm]

end InsiderTrader
