import InsiderTrader.Dispatch
import InsiderTrader.Operation
import InsiderTrader.Service

/-!
# The command service

The router of authenticated control-plane commands: what each kind of command
needs, which kinds are bound to the current version, and what the host is asked
for. Payloads are kept as the fields their decoders read; the encoders of the
responses are pure and left out.

The kinds that change registries, backtests, backups, the risk policy, the risk
state or the configuration have no payload here.

## Main definitions

- `CommandKind` — the kinds, with `capability` and `observational`
- `Payload` — the fields of a payload
- `handle` — what a command does
- `EngineCommandService.dispatch` — a command through the dispatcher
- `Sample.world`, `Sample.desk` — where examples of commands start from
-/

namespace InsiderTrader

/-- The canonical command kinds. -/
inductive CommandKind where
  | snapshot | preview | submit | cancel | replace | resolveSymbol | events
  | liveConfigure | liveArm | liveConfirm | liveKill
  | autonomySubmit | autonomyTransition
  | readModelBackup | readModelRestore | readModelStatus
  | traceEvents | traceExport | newsPage | newsDetail
  | llmComplete | contextSearch | llmAction | llmStream
  | strategyEvaluate | proposalPreview | proposalSubmit | scheduledProposalSubmit
  | autonomyMode | alertsGet | alertAck
  | backtestRun | backtestList | strategyBacktestRun
  | experimentList | modelList | experimentMutate | modelMutate
  | strategyResolutionList | strategyExecutionList | strategyRegistryList
  | journalBackup | journalRestore | riskStateTransition
  | metricRegistryList | strategyLifecycleTransition | metricLifecycleTransition
  | strategyResolutionBudgeted | newsProviderStatus
  | riskPolicySet | supervisorStatus | riskPolicyStatus | brokerStatus
  | configStatus | configReload
  deriving DecidableEq

namespace CommandKind

/-- The capability a kind needs. -/
def capability : CommandKind → String
  | snapshot | events | readModelStatus | traceEvents | traceExport | newsPage
  | newsProviderStatus | supervisorStatus | riskPolicyStatus | brokerStatus | newsDetail
  | strategyResolutionList | strategyExecutionList | strategyRegistryList
  | metricRegistryList | contextSearch | configStatus => "runtime.read"
  | configReload => "config.write"
  | strategyResolutionBudgeted => "strategy.resolve.write"
  | strategyLifecycleTransition => "strategy.lifecycle.write"
  | metricLifecycleTransition => "metric.lifecycle.write"
  | llmComplete | llmAction | llmStream => "llm.analyze"
  | strategyEvaluate => "strategy.evaluate"
  | proposalPreview | preview => "order.preview"
  | proposalSubmit | scheduledProposalSubmit | submit => "order.submit"
  | backtestRun | backtestList | strategyBacktestRun | experimentList | modelList
  | experimentMutate | modelMutate => "research.backtest"
  | autonomyMode => "autonomy.mode.write"
  | cancel | replace => "order.manage"
  | resolveSymbol => "instrument.read"
  | liveConfigure => "live.configure"
  | liveArm | liveConfirm => "live.enable"
  | liveKill => "live.kill"
  | autonomySubmit | autonomyTransition => "autonomy.plan.write"
  | alertsGet => "alerts.read"
  | alertAck => "alerts.ack"
  | readModelBackup | readModelRestore => "read_model.backup.write"
  | journalBackup | journalRestore => "journal.backup.write"
  | riskStateTransition => "risk.state.write"
  | riskPolicySet => "risk.policy.write"

/-- The kinds that are bound to the current version at dispatch. -/
def observational : CommandKind → Bool
  | snapshot | events | resolveSymbol | readModelStatus | traceEvents | traceExport
  | newsPage | newsDetail | llmComplete | llmAction | llmStream | strategyEvaluate
  | proposalPreview | contextSearch | experimentList | modelList
  | strategyResolutionList | strategyExecutionList | strategyRegistryList
  | metricRegistryList | configStatus | newsProviderStatus | supervisorStatus
  | riskPolicyStatus | brokerStatus | alertsGet => true
  | _ => false

end CommandKind

/-- The fields of a preview payload. -/
structure PreviewRequest where
  instrumentId : InstrumentId
  targetQuantityTicks : Int
  proposalId : ProposalId
  orderType : OrderType
  hasLimit : Bool
  limitPriceTicks : Int
  now : MonoTime
  traceId : TraceId
  ttlNs : ℕ
  deriving DecidableEq

/-- The fields of a submit payload. -/
structure SubmitRequest where
  confirmation : String
  now : MonoTime
  previewId : String
  expectedStateVersion : ℕ
  expiresMonoNs : ℕ
  targetQuantityTicks : Int
  proposalId : ProposalId
  intent : IntentRecord
  warnings : List String
  deriving DecidableEq

/-- The fields of a payload. A payload its decoder refuses is `malformed`. -/
inductive Payload where
  | malformed (kind : CommandKind) (message : String)
  | snapshot
  | preview (request : PreviewRequest)
  | submit (request : SubmitRequest)
  | cancel (clientOrderId : String)
  | replace (clientOrderId : String) (quantityTicks : Int) (limitPriceTicks : Option Int)
  | resolveSymbol (symbol : String) (day : ℕ) (assets : List AssetClass)
  | events (cursor limit : ℕ)
  | liveConfigure (limits : LiveLimits)
  | liveArm (account : String) (now : MonoTime) (phrase : String)
  | liveConfirm (account token : String) (now : MonoTime) (phrase : String)
  | liveKill
  | autonomySubmit (plan : Plan)
  | autonomyTransition (planId : String) (state : PlanState) (clientNow : MonoTime)
  | readModelStatus
  | traceEvents (traceId : TraceId)
  | traceExport (traceId : TraceId)
  | newsPage (scope symbol : String) (after : Option String)
  | newsDetail (itemId : String)
  | llmComplete (request : LlmRequest)
  | contextSearch (text : String) (embedding : Option (List F64)) (root : Option String)
      (maxDepth limit : ℕ)
  | llmAction (request : LlmRequest)
  | llmStream (request : LlmRequest)
  | strategyEvaluate (config : ThresholdConfig) (metric : MetricOutput) (clientNow : MonoTime)
  | proposalPreview (proposalId : ProposalId) (scale : F64) (clientNow : MonoTime)
      (traceId : TraceId) (ttlNs : ℕ)
  | proposalSubmit (proposalId : ProposalId) (scale : F64) (confirmation : String)
      (traceId : TraceId)
  | scheduledProposalSubmit (proposalId : ProposalId) (schedule : Schedule)
      (confirmation : String) (traceId : TraceId)
  | autonomyMode (mode : AutonomyMode)
  | alertsGet
  | experimentList
  | modelList
  | strategyResolutionList
  | strategyExecutionList
  | strategyRegistryList
  | metricRegistryList
  | strategyResolutionBudgeted (policy : StrategyPolicy) (now : MonoTime)
      (budgets : List (String × Int))
  | newsProviderStatus
  | supervisorStatus
  | riskPolicyStatus
  | brokerStatus
  | configStatus
  deriving DecidableEq

/-- The kind of a payload. -/
def Payload.kind : Payload → CommandKind
  | malformed kind _ => kind
  | snapshot => .snapshot
  | preview _ => .preview
  | submit _ => .submit
  | cancel _ => .cancel
  | replace _ _ _ => .replace
  | resolveSymbol _ _ _ => .resolveSymbol
  | events _ _ => .events
  | liveConfigure _ => .liveConfigure
  | liveArm _ _ _ => .liveArm
  | liveConfirm _ _ _ _ => .liveConfirm
  | liveKill => .liveKill
  | autonomySubmit _ => .autonomySubmit
  | autonomyTransition _ _ _ => .autonomyTransition
  | readModelStatus => .readModelStatus
  | traceEvents _ => .traceEvents
  | traceExport _ => .traceExport
  | newsPage _ _ _ => .newsPage
  | newsDetail _ => .newsDetail
  | llmComplete _ => .llmComplete
  | contextSearch _ _ _ _ _ => .contextSearch
  | llmAction _ => .llmAction
  | llmStream _ => .llmStream
  | strategyEvaluate _ _ _ => .strategyEvaluate
  | proposalPreview _ _ _ _ _ => .proposalPreview
  | proposalSubmit _ _ _ _ => .proposalSubmit
  | scheduledProposalSubmit _ _ _ _ => .scheduledProposalSubmit
  | autonomyMode _ => .autonomyMode
  | alertsGet => .alertsGet
  | experimentList => .experimentList
  | modelList => .modelList
  | strategyResolutionList => .strategyResolutionList
  | strategyExecutionList => .strategyExecutionList
  | strategyRegistryList => .strategyRegistryList
  | metricRegistryList => .metricRegistryList
  | strategyResolutionBudgeted _ _ _ => .strategyResolutionBudgeted
  | newsProviderStatus => .newsProviderStatus
  | supervisorStatus => .supervisorStatus
  | riskPolicyStatus => .riskPolicyStatus
  | brokerStatus => .brokerStatus
  | configStatus => .configStatus

/-- What a handled command answers with. -/
inductive Reply where
  | done
  | snapshot (host : Host)
  | events (records : List (ℕ × JournalRecord))
  | preview (preview : ManualOrderPreview)
  | orderId (clientOrderId : String)
  | answer (text : String)
  | environment (environment : TradingEnvironment) (token : Option String)
  | readModel (recordCount newestSequence : ℕ)
  | trace (events : List TraceEvent)
  | completion (response : LlmResponse)
  | stream (traceId : String) (items : List StreamItem)
  | action (traceId : String) (action : AutonomousAction)
  | proposal (proposal : Proposal)
  | alerts (pending : List Alert)
  | resolutions (history : List StrategyResolutionSummary)
  | executions (summaries : List StrategyExecutionSummary)
  | resolved (result : BudgetedResultSet)
  | components (health : List (String × SupervisorHealth))
  | riskPolicy (policy : Option ScopedRiskPolicy)
  | broker (health : BrokerHealth) (orders positions accountValues : ℕ)

/-- Why a handler refused a command: a text, or the failure a text was formatted from. -/
inductive HandlerError where
  | text (message : String)
  | engine (context : String) (error : EngineError)
  deriving DecidableEq

-- Decoding

/-- Check the fields of a preview. -/
def decodePreviewRequest (r : PreviewRequest) : Except String (Option Int) :=
  if r.instrumentId = 0 then .error "invalid instrument"
  else if r.proposalId = 0 then .error "invalid proposal"
  else if r.traceId = 0 then .error "invalid trace"
  else if r.ttlNs = 0 then .error "invalid preview request bounds"
  else .ok (if r.hasLimit then some r.limitPriceTicks else none)

/-- The preview a submission is of. -/
def decodeSubmitRequest (r : SubmitRequest) : Except String ManualOrderPreview :=
  if r.proposalId = 0 then .error "invalid proposal"
  else
    match decodeIntent r.intent with
    | none => .error "invalid intent payload"
    | some intent =>
      if 128 < r.warnings.length then .error "too many warnings"
      else if Text.isBlank r.previewId ∨ Text.isBlank r.confirmation then
        .error "invalid submit request bounds"
      else .ok {
        previewId := r.previewId
        expectedStateVersion := r.expectedStateVersion
        expiresMonoNs := r.expiresMonoNs
        intent := intent
        targetQuantityTicks := r.targetQuantityTicks
        proposalId := r.proposalId
        estimatedNotionalTicks := none }

/-- Read budgets: positive, one a strategy. -/
def readBudgets : Std.TreeMap String Int → List (String × Int) →
    Except String (Std.TreeMap String Int)
  | budgets, [] => .ok budgets
  | budgets, (strategyId, quantityTicks) :: rest =>
    if quantityTicks ≤ 0 then .error "strategy budget must be positive"
    else if budgets.contains strategyId then .error "duplicate strategy budget"
    else readBudgets (budgets.insert strategyId quantityTicks) rest

/-- The budgets of a resolution, at most 256. -/
def decodeBudgets (budgets : List (String × Int)) : Except String (Std.TreeMap String Int) :=
  if 256 < budgets.length then .error "too many strategy budgets" else readBudgets ∅ budgets

-- Handlers

namespace EngineCommandService

variable {ρ : Type}

/-- Run an operation of the desk, with its failure under a context. -/
def run {α : Type} (context : String) (p : Fallible (Desk ρ) EngineError α) :
    Fallible (Desk ρ) HandlerError α :=
  Fallible.zoom id (fun _ d => d) (.engine context) p

/-- Run an operation of the host, with its failure under a context. -/
def runHost {α : Type} (context : String) (p : Fallible Host EngineError α) :
    Fallible (Desk ρ) HandlerError α :=
  run context (Desk.onHost p)

/-- What a decoder read. -/
def decoded {α : Type} (r : Except String α) : Fallible (Desk ρ) HandlerError α :=
  Fallible.ofExcept (r.mapError .text)

/-- Respond at the version the command left. -/
def respond (reply : Reply) : Fallible (Desk ρ) HandlerError (CommandResponse Reply) :=
  Fallible.reads fun d => ⟨d.host.journalCursor, reply⟩

/-- Look something up in the registries. -/
def consult (world : World ρ) (context : String) (question : Lookup) :
    Fallible (Desk ρ) HandlerError (CommandResponse Reply) := do
  let d ← Fallible.reads id
  let answer ← run context (Fallible.ofExcept (world.lookup d.registries question))
  respond (.answer answer)

/-- The environment of live trading, with the token of a challenge. -/
def respondEnvironment (token : Option String) :
    Fallible (Desk ρ) HandlerError (CommandResponse Reply) := do
  let d ← Fallible.reads id
  respond (.environment d.host.runtime.liveGuard.environment token)

/-- The journal evidence of a trace. -/
def respondTrace (world : World ρ) (context : String) (traceId : TraceId) :
    Fallible (Desk ρ) HandlerError (CommandResponse Reply) := do
  Fallible.require (traceId ≠ 0) (.text "invalid trace ID")
  let d ← Fallible.reads id
  let events ← run context (Fallible.ofExcept (d.host.traceEvents world.float traceId))
  respond (.trace events)

/-- Calculate a preview at the client's time. -/
def handlePreview (world : World ρ) (r : PreviewRequest) :
    Fallible (Desk ρ) HandlerError (CommandResponse Reply) := do
  let limit ← decoded (decodePreviewRequest r)
  let preview ← runHost "preview" (Host.previewManualTargetWithOrder world.toEnv r.instrumentId
    r.targetQuantityTicks r.proposalId r.now r.traceId r.ttlNs r.orderType limit)
  pure ⟨preview.expectedStateVersion, .preview preview⟩

/-- Submit a preview at the client's time. -/
def handleSubmit (world : World ρ) (r : SubmitRequest) :
    Fallible (Desk ρ) HandlerError (CommandResponse Reply) := do
  let preview ← decoded (decodeSubmitRequest r)
  let orderId ← runHost "submit"
    (Host.submitManualPreview world.toEnv preview r.now r.confirmation)
  respond (.orderId orderId)

/-- Arm live trading at the client's time. -/
def handleLiveArm (account : String) (now : MonoTime) (phrase : String) :
    Fallible (Desk ρ) HandlerError (CommandResponse Reply) := do
  Fallible.require (¬[account, phrase].any Text.isBlank) (.text "invalid live arm request")
  let token ← runHost "live arm" (Host.armLive account now phrase)
  respondEnvironment (some token)

/-- Confirm live trading at the client's time. -/
def handleLiveConfirm (account token : String) (now : MonoTime) (phrase : String) :
    Fallible (Desk ρ) HandlerError (CommandResponse Reply) := do
  Fallible.require (¬[account, token, phrase].any Text.isBlank)
    (.text "invalid live confirm request")
  runHost "live confirm" (Host.confirmLive account token now phrase)
  respondEnvironment none

/-- Resolve the pending proposals at the client's time. -/
def handleResolution (world : World ρ) (policy : StrategyPolicy) (now : MonoTime)
    (budgets : List (String × Int)) : Fallible (Desk ρ) HandlerError (CommandResponse Reply) := do
  let budgets ← decoded (decodeBudgets budgets)
  let result ← run "budgeted strategy resolution"
    (Desk.resolveStrategyProposalsWithBudgets world.toEnv policy now budgets)
  respond (.resolved result)

/-- Evaluate a strategy. The times of the client are replaced by the engine's. -/
def handleStrategyEvaluate (world : World ρ) (config : ThresholdConfig) (metric : MetricOutput) :
    Fallible (Desk ρ) HandlerError (CommandResponse Reply) := do
  let now ← runHost "clock" (Host.monotonicNow world.toEnv)
  let proposal ← runHost "strategy evaluation" (Host.evaluateThresholdStrategy world.toEnv config
    { metric with generatedMono := now } now)
  respond (.proposal proposal)

/-- Preview a proposal. The time of the client is replaced by the engine's. -/
def handleProposalPreview (world : World ρ) (proposalId : ProposalId) (scale : F64)
    (traceId : TraceId) (ttlNs : ℕ) : Fallible (Desk ρ) HandlerError (CommandResponse Reply) := do
  let now ← runHost "clock" (Host.monotonicNow world.toEnv)
  let preview ← runHost "proposal preview"
    (Host.previewStrategyProposal world.toEnv proposalId scale now traceId ttlNs)
  respond (.preview preview)

/-- Admit a plan. A plan without a generation time gets the engine's, and its expiry counts from
there. -/
def handleAutonomySubmit (world : World ρ) (plan : Plan) :
    Fallible (Desk ρ) HandlerError (CommandResponse Reply) := do
  let now ← runHost "clock" (Host.monotonicNow world.toEnv)
  let stamped := plan.generatedAt = 0
  Fallible.require (¬(stamped ∧ u64Max < now + plan.expiresAt))
    (.text "autonomy plan expiry overflow")
  let plan := if stamped then
      { plan with generatedAt := now, expiresAt := now + plan.expiresAt }
    else plan
  runHost "autonomy submit" (Host.submitAutonomyPlan world.toEnv plan now)
  respond .done

/-- Submit an admitted proposal. -/
def handleProposalSubmit (world : World ρ) (proposalId : ProposalId) (scale : F64)
    (confirmation : String) (traceId : TraceId) :
    Fallible (Desk ρ) HandlerError (CommandResponse Reply) := do
  Fallible.require (confirmation = "CONFIRM") (.text "proposal confirmation is required")
  let now ← runHost "clock" (Host.monotonicNow world.toEnv)
  let orderId ← runHost "proposal submit"
    (Host.submitScaledProposal world.toEnv proposalId scale now traceId)
  respond (.orderId orderId)

/-- Submit an admitted proposal on a schedule. -/
def handleScheduledProposal (world : World ρ) (proposalId : ProposalId) (schedule : Schedule)
    (confirmation : String) (traceId : TraceId) :
    Fallible (Desk ρ) HandlerError (CommandResponse Reply) := do
  Fallible.require (confirmation = "CONFIRM") (.text "scheduled proposal confirmation is required")
  let d ← Fallible.reads id
  let record ← Fallible.orFail (d.host.strategyCoordinator.record proposalId)
    (.text "unknown proposal")
  let now ← runHost "clock" (Host.monotonicNow world.toEnv)
  let parentId ← runHost "scheduled proposal submit"
    (Host.submitScheduledProposal world.toEnv record.proposal schedule now traceId)
  respond (.orderId parentId)

/-- What a command does. -/
def handle (world : World ρ) : Payload → Fallible (Desk ρ) HandlerError (CommandResponse Reply)
  | .malformed _ message => Fallible.fail (.text message)
  | .snapshot => do
    let d ← Fallible.reads id
    respond (.snapshot d.host)
  | .preview request => handlePreview world request
  | .submit request => handleSubmit world request
  | .cancel clientOrderId => do
    runHost "cancel" (Host.cancelOrder world.toEnv clientOrderId)
    respond .done
  | .replace clientOrderId quantityTicks limitPriceTicks => do
    runHost "replace" (Host.replaceOrder world.toEnv clientOrderId quantityTicks limitPriceTicks)
    respond .done
  | .resolveSymbol symbol day assets => consult world "resolve" (.resolveSymbol symbol day assets)
  | .events cursor limit => do
    Fallible.require (limit ≠ 0 ∧ limit ≤ 4096) (.text "events limit out of bounds")
    let d ← Fallible.reads id
    let records ← run "events" (Fallible.ofExcept (d.host.journalEventsAfter cursor limit))
    respond (.events records)
  | .liveConfigure limits => do
    runHost "live configure" (Host.configureLiveLimits world.toEnv limits)
    respondEnvironment none
  | .liveArm account now phrase => handleLiveArm account now phrase
  | .liveConfirm account token now phrase => handleLiveConfirm account token now phrase
  | .liveKill => do
    runHost "live kill" (Host.killLive world.toEnv)
    respondEnvironment none
  | .autonomySubmit plan => handleAutonomySubmit world plan
  | .autonomyTransition planId state _ => do
    let now ← runHost "clock" (Host.monotonicNow world.toEnv)
    runHost "autonomy transition" (Host.transitionAutonomyPlan world.toEnv planId state now)
    respond .done
  | .readModelStatus => do
    let d ← Fallible.reads id
    respond (.readModel d.host.readModelManifest.1 d.host.readModelManifest.2)
  | .traceEvents traceId => respondTrace world "trace events" traceId
  | .traceExport traceId => respondTrace world "trace export" traceId
  | .newsPage scope symbol after => consult world "news page" (.newsPage scope symbol after)
  | .newsDetail itemId => consult world "news detail" (.newsDetail itemId)
  | .llmComplete request => do
    let response ← run "llm complete" (Desk.llmComplete request)
    respond (.completion response)
  | .contextSearch text embedding root maxDepth limit =>
    consult world "context search" (.searchContext text embedding root maxDepth limit)
  | .llmAction request => do
    let action ← run "llm autonomous action" (Desk.llmAutonomousAction world.toEnv request)
    respond (.action request.traceId action)
  | .llmStream request => do
    let items ← run "llm stream" (Desk.llmStream request)
    respond (.stream request.traceId items)
  | .strategyEvaluate config metric _ => handleStrategyEvaluate world config metric
  | .proposalPreview proposalId scale _ traceId ttlNs =>
    handleProposalPreview world proposalId scale traceId ttlNs
  | .proposalSubmit proposalId scale confirmation traceId =>
    handleProposalSubmit world proposalId scale confirmation traceId
  | .scheduledProposalSubmit proposalId schedule confirmation traceId =>
    handleScheduledProposal world proposalId schedule confirmation traceId
  | .autonomyMode mode => do
    runHost "set autonomy mode" (Host.setAutonomyMode world.toEnv mode)
    respond .done
  | .alertsGet => do
    let d ← Fallible.reads id
    respond (.alerts ((d.alerts.pending.values.filter (·.2 = .inApp)).map (·.1)))
  | .experimentList => consult world "experiments" .experimentRuns
  | .modelList => consult world "models" .modelRegistrySnapshot
  | .strategyResolutionList => do
    let d ← Fallible.reads id
    respond (.resolutions d.resolutionHistory)
  | .strategyExecutionList => do
    let d ← Fallible.reads id
    respond (.executions d.host.strategyExecutionSummaries.values)
  | .strategyRegistryList => consult world "strategies" .strategyRegistry
  | .metricRegistryList => consult world "metrics" .metricRegistry
  | .strategyResolutionBudgeted policy now budgets => handleResolution world policy now budgets
  | .newsProviderStatus => consult world "news provider status" .newsProviderStatuses
  | .supervisorStatus => do
    let components ← run "supervisor status" (Desk.supervisorSnapshot world)
    respond (.components components)
  | .riskPolicyStatus => do
    let d ← Fallible.reads id
    respond (.riskPolicy d.host.runtime.scopedRiskPolicy)
  | .brokerStatus => do
    let status ← runHost "broker status" (Host.brokerStatusSnapshot world.toEnv)
    respond (.broker status.1 status.2.1 status.2.2.1 status.2.2.2)
  | .configStatus => consult world "config" .config

-- Dispatch

/-- The state of the service: its dispatcher and the desk. -/
abbrev State (ρ : Type) := CommandDispatcher Payload Reply × Desk ρ

/-- The command as it is dispatched: observational kinds are bound to the current version. -/
def bind (currentVersion : ℕ) (command : CommandEnvelope Payload) : CommandEnvelope Payload :=
  if command.payload.kind.observational then
    { command with expectedStateVersion := currentVersion }
  else command

/-- Dispatch a command after capability, version and idempotency checks. -/
def dispatch (world : World ρ) (command : CommandEnvelope Payload) :
    Fallible (State ρ) (DispatchError HandlerError) (CommandResponse Reply) := do
  Fallible.require (command.payloadLen ≤ maxCommandBytes)
    (.handler (.text "command payload exceeds bound"))
  let currentVersion ← Fallible.reads fun s => s.2.host.journalCursor
  CommandDispatcher.dispatch (bind currentVersion command) command.payload.kind.capability
    currentVersion fun command => handle world command.payload

end EngineCommandService

-- A sample desk

namespace Sample

/-- The world of the sample session; nothing is registered and no worker runs. -/
def world : World Unit where
  toEnv := env empty
  lookup _ _ := .ok ""
  metricHealth _ := (0, 0)
  strategyHealth _ := (0, 0)

/-- The desk of a host without alerts. -/
def desk (host : Host) (provider : Option LlmProvider) : Desk Unit where
  host := host
  alerts := ⟨60000, 4096, ∅, ∅, ∅, ∅⟩
  supervisor := ⟨∅, ∅⟩
  llmProvider := provider
  resolutionHistory := []
  registries := ()

end Sample

end InsiderTrader
