import InsiderTrader.Alerts
import InsiderTrader.Evaluation
import InsiderTrader.Reconciliation

/-!
# The service around the host

The parts of the engine that serve its control plane: the alert router, the
supervisor, the LLM provider, and the registries that are only looked up.

## Main definitions

- `Desk` — the host with the state of its control plane
- `World` — what a control-plane command meets outside
- `Desk.llmAutonomousAction` — an action of the LLM, with its alert
- `Desk.supervisorSnapshot` — component health after a refresh
- `Host.traceEvents` — the journal evidence of a trace
-/

namespace InsiderTrader

/-- Health of a supervised component. -/
inductive SupervisorHealth where
  | unknown
  | healthy
  | degraded
  | unavailable
  deriving DecidableEq

/-- Component health, and the health dependents are gated by. -/
structure Supervisor where
  components : Std.TreeMap String SupervisorHealth
  dependencyHealth : Std.TreeMap String SupervisorHealth

/-- Publish the health of a component; an unknown component is refused. -/
def Supervisor.setHealth (s : Supervisor) (name : String) (health : SupervisorHealth) :
    Bool × Supervisor :=
  if s.components.contains name then
    (true, ⟨s.components.insert name health, s.dependencyHealth.insert name health⟩)
  else (false, s)

/-- A bounded summary of one resolution. -/
structure StrategyResolutionSummary where
  policy : StrategyPolicy
  nowMonoNs : MonoTime
  acceptedCount : ℕ
  conflictCount : ℕ
  expiredCount : ℕ
  attributionCount : ℕ
  deriving DecidableEq

/-- The summary of a resolution. -/
def resolutionSummary (policy : StrategyPolicy) (now : MonoTime) (result : ResultSet) :
    StrategyResolutionSummary :=
  ⟨policy, now, result.accepted.length, result.conflicts.length, result.expired.length,
    result.attributions.length⟩

/-- Resolution summaries kept. -/
def maxResolutionHistory : ℕ := 4096

/-- A question to the registries. -/
inductive Lookup where
  | resolveSymbol (symbol : String) (day : ℕ) (assets : List AssetClass)
  | newsPage (scope symbol : String) (after : Option String)
  | newsDetail (itemId : String)
  | newsProviderStatuses
  | searchContext (text : String) (embedding : Option (List F64)) (root : Option String)
      (maxDepth limit : ℕ)
  | experimentRuns
  | modelRegistrySnapshot
  | strategyRegistry
  | metricRegistry
  | config
  deriving DecidableEq

/-- The environment of a control-plane command. The registries `ρ` (catalog, news, context
documents, experiments, models, strategies, metrics and configuration) are looked up, and the
worker hosts among them report how many workers they have and how many are quarantined. -/
structure World (ρ : Type) extends Env where
  lookup : ρ → Lookup → Except EngineError String
  metricHealth : ρ → ℕ × ℕ
  strategyHealth : ρ → ℕ × ℕ

/-- The host with the state of its control plane. -/
structure Desk (ρ : Type) where
  host : Host
  alerts : AlertRouter
  supervisor : Supervisor
  llmProvider : Option LlmProvider
  resolutionHistory : List StrategyResolutionSummary
  registries : ρ

-- Views of the host

/-- Journal evidence of a trace. -/
structure TraceEvent where
  sequence : ℕ
  kind : String
  payload : JournalRecord

namespace Host

/-- A bounded suffix of the journal, numbered. -/
def journalEventsAfter (cursor maxRecords : ℕ) (h : Host) :
    Except EngineError (List (ℕ × JournalRecord)) :=
  if maxRecords = 0 ∨ 4096 < maxRecords then .error .invalidRequest
  else .ok ((((journalOf h.trace).mapIdx Prod.mk).drop cursor).take maxRecords)

/-- The trace link a record is, when it is one. -/
def decodeTraceLink : JournalRecord → Except EngineError (Option (TraceId × String × String))
  | .traceLink traceId kind objectId =>
    if traceId = 0 ∨ ¬readable kind ∨ ¬readable objectId ∨ Text.isBlank kind
        ∨ Text.isBlank objectId then .error (.journal .corrupt)
    else .ok (some (traceId, kind, objectId))
  | _ => .ok none

/-- What a trace is linked to: its proposals and its orders. -/
def traceLinks (float : FloatArith) (traceId : TraceId) (records : List JournalRecord) :
    Except EngineError (List String × List String) :=
  records.foldlM (fun linked record => do
    let link ← decodeTraceLink record
    let linked := match link with
      | some (linkedTrace, kind, objectId) =>
        if linkedTrace = traceId ∧ kind = "proposal" then (objectId :: linked.1, linked.2)
        else linked
      | none => linked
    let event ← decodeJournalPayload float record
    match event with
    | some (.intent intent) =>
      if intent.traceId = traceId then .ok (linked.1, intent.clientOrderId :: linked.2)
      else .ok linked
    | _ => .ok linked) ([], [])

/-- The kind of evidence a record is for a trace with its proposals and orders. -/
def traceKind (float : FloatArith) (traceId : TraceId) (linked : List String × List String)
    (record : JournalRecord) : Except EngineError (Option String) := do
  let link ← decodeTraceLink record
  match link with
  | some (linkedTrace, _, _) => .ok (if linkedTrace = traceId then some "trace_link" else none)
  | none =>
    let event ← decodeJournalPayload float record
    .ok (match event with
      | some (.intent intent) => if intent.traceId = traceId then some "order_intent" else none
      | some (.strategyProposal p) =>
        if toString p.proposalId ∈ linked.1 then some "strategy_proposal" else none
      | some (.broker event) =>
        if event.clientOrderId ∈ linked.2 then some "broker_event" else none
      | _ => none)

/-- The journal evidence of a trace. -/
def traceEvents (float : FloatArith) (traceId : TraceId) (h : Host) :
    Except EngineError (List TraceEvent) := do
  let records := journalOf h.trace
  let linked ← traceLinks float traceId records
  let kinds ← records.mapM (traceKind float traceId linked)
  .ok ((kinds.zip records).mapIdx (fun sequence e =>
    e.1.map fun kind => ⟨sequence, kind, e.2⟩)).reduceOption

/-- How many records the read model has, and its newest sequence. -/
def readModelManifest (h : Host) : ℕ × ℕ :=
  (h.readModel.records.length, (h.readModel.records.getLast?).elim 0 (·.sequence))

end Host

-- Operations of the desk

namespace Desk

variable {ρ : Type}

/-- Run an operation of the host. -/
def onHost {α : Type} (p : Fallible Host EngineError α) : Fallible (Desk ρ) EngineError α :=
  Fallible.zoom (·.host) ({ · with host := · }) id p

/-- Publish the health of a component. -/
def setSupervisorHealth (name : String) (health : SupervisorHealth) :
    Fallible (Desk ρ) EngineError Unit := do
  let d ← Fallible.reads id
  let outcome := d.supervisor.setHealth name health
  Fallible.modify ({ · with supervisor := outcome.2 })
  Fallible.require outcome.1 .invalidRequest

/-- The health of a group with a total and a failing part. -/
def aggregate (counts : ℕ × ℕ) : SupervisorHealth :=
  if counts.1 = 0 then .unknown
  else if counts.2 = counts.1 then .unavailable
  else if 0 < counts.2 then .degraded
  else .healthy

/-- The broker's health as the supervisor has it. -/
def brokerHealth : BrokerHealth → SupervisorHealth
  | .unknown => .unknown
  | .healthy => .healthy
  | .degraded => .degraded
  | .unavailable => .unavailable

/-- Refresh the health of the workers, feeds and broker. -/
def refreshWorkerSupervisorHealth (world : World ρ) : Fallible (Desk ρ) EngineError Unit := do
  let d ← Fallible.reads id
  setSupervisorHealth "market-data" (aggregate d.host.marketData.healthCounts)
  setSupervisorHealth "metrics" (aggregate (world.metricHealth d.registries))
  setSupervisorHealth "strategies" (aggregate (world.strategyHealth d.registries))
  setSupervisorHealth "execution" (brokerHealth world.gateway.health)

/-- Component health after a refresh. -/
def supervisorSnapshot (world : World ρ) :
    Fallible (Desk ρ) EngineError (List (String × SupervisorHealth)) := do
  refreshWorkerSupervisorHealth world
  Fallible.reads (·.supervisor.components.toList)

/-- Record how the LLM provider answered; an untracked component is ignored. -/
def noteLlmHealth (healthy : Bool) : Fallible (Desk ρ) EngineError Unit :=
  Fallible.modify fun d => { d with
    supervisor := (d.supervisor.setHealth "llm" (if healthy then .healthy else .degraded)).2 }

/-- Ask the installed provider. -/
def askLlm {α : Type} (ask : LlmProvider → Except LlmError α) :
    Fallible (Desk ρ) EngineError α := do
  let d ← Fallible.reads id
  let provider ← Fallible.orFail d.llmProvider .invalidRequest
  noteLlmHealth (ask provider).isOk
  Fallible.ofExcept ((ask provider).mapError .llm)

/-- One completion. -/
def llmComplete (request : LlmRequest) : Fallible (Desk ρ) EngineError LlmResponse :=
  askLlm (·.complete request)

/-- One streamed completion. -/
def llmStream (request : LlmRequest) : Fallible (Desk ρ) EngineError (List StreamItem) :=
  askLlm (·.stream request)

/-- An action an operator is alerted to: a pause, a reduction, or a reason that speaks of
alerts, liquidity or margin. -/
def alarming (action : AutonomousAction) : Bool :=
  action.actionType = .pauseStrategy ∨ action.actionType = .reduceAutonomy
    ∨ action.reasonCodes.any fun code =>
        ["ALERT", "LIQUID", "MARGIN"].any fun word =>
          Text.contains word.toList (code.toList.map Char.toUpper)

/-- The alert of an action at a clock reading. -/
def llmAlert (request : LlmRequest) (action : AutonomousAction) (now : MonoTime) : Alert where
  alertId := "llm-alert-" ++ request.traceId
  dedupeKey := "llm-alert:" ++ action.actionType.name
  source := "llm-autonomy"
  occurredMs := (now / 1000000 : ℕ)
  severity := .critical
  message := "AI control alert [" ++ action.actionType.name ++ "]: " ++
    ", ".intercalate action.reasonCodes
  sensitive := false

/-- Journal and route the alert of an action, as far as each succeeds. -/
def publishLlmAlert (env : Env) (request : LlmRequest) (action : AutonomousAction) :
    Fallible (Desk ρ) EngineError Unit := do
  let now ← onHost (Host.monotonicNow env)
  let alert := llmAlert request action now
  let _ ← Fallible.attempt (δ := EngineError) (onHost (Host.appendEvent env (.other "alert")))
  Fallible.modify fun d => { d with
    alerts := (AlertRouter.route alert .inApp alert.occurredMs d.alerts).2 }

/-- Complete, parse and validate one autonomous action. -/
def llmAutonomousAction (env : Env) (request : LlmRequest) :
    Fallible (Desk ρ) EngineError AutonomousAction := do
  let response ← llmComplete request
  Fallible.require (response.traceId = request.traceId)
    (.llm (.schemaViolation "autonomous response trace mismatch"))
  let action ← Fallible.ofExcept ((parseAutonomousAction env.float response.content).mapError .llm)
  Fallible.ofExcept ((action.validate env.float).mapError fun text => .llm (.invalidAction text))
  Fallible.when (alarming action) (publishLlmAlert env request action)
  pure action

/-- Resolve the pending proposals under budgets and keep a summary. -/
def resolveStrategyProposalsWithBudgets (env : Env) (policy : StrategyPolicy) (now : MonoTime)
    (budgets : Std.TreeMap String Int) : Fallible (Desk ρ) EngineError BudgetedResultSet := do
  let budgeted ← onHost (Host.resolveStrategyProposalsWithBudgets env policy now budgets)
  Fallible.modify fun d => { d with resolutionHistory :=
    (if maxResolutionHistory ≤ d.resolutionHistory.length then d.resolutionHistory.drop 1
      else d.resolutionHistory) ++ [resolutionSummary policy now budgeted.result] }
  pure budgeted

end Desk

end InsiderTrader
