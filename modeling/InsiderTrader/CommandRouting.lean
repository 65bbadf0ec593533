import InsiderTrader.Command
import InsiderTrader.ControlRequests
import InsiderTrader.PlanEvents
import InsiderTrader.WireSnapshot
import Mathlib.Data.List.Find

/-!
# The routing of command payloads

The first byte of a payload is the code of its kind, or the payload begins with
the mark of a format. The service finds the kind of a payload, checks the
capability of that kind, and leaves the payload to the arm of that kind. The
marks of the two lifecycle transitions are not in the table of marks.

## Main definitions

- `CommandKind.code`, `capabilityFor`, `commandKind` — from a payload to its kind and capability
- `CommandKind.takes` — the first test of the decoder of a kind
- `Built` — the payloads of the builders, with the kinds they are for
- `Dispatchable` — a payload that comes to the arm that reads it

## Main results

- `commandKind_append` — the mark of a payload decides, whatever follows it
- `built_dispatchable_iff` — exactly the lifecycle transitions do not come to their arms
-/

namespace InsiderTrader

open Wire

-- Kinds

namespace CommandKind

/-- The first byte of the payloads of a kind. -/
def code : CommandKind → UInt8
  | snapshot => 1
  | preview => 2
  | submit => 3
  | cancel => 17
  | replace => 18
  | resolveSymbol => 4
  | events => 5
  | liveConfigure => 6
  | liveArm => 7
  | liveConfirm => 8
  | liveKill => 9
  | autonomySubmit => 10
  | autonomyTransition => 11
  | readModelBackup => 12
  | readModelRestore => 13
  | readModelStatus => 14
  | traceEvents => 15
  | traceExport => 44
  | newsPage => 16
  | newsDetail => 19
  | llmComplete => 20
  | contextSearch => 21
  | llmAction => 22
  | llmStream => 42
  | strategyEvaluate => 23
  | proposalPreview => 24
  | proposalSubmit => 25
  | scheduledProposalSubmit => 29
  | autonomyMode => 26
  | alertsGet => 27
  | alertAck => 28
  | backtestRun => 30
  | backtestList => 31
  | strategyBacktestRun => 32
  | experimentList => 33
  | modelList => 34
  | experimentMutate => 35
  | modelMutate => 36
  | strategyResolutionList => 37
  | strategyExecutionList => 38
  | strategyRegistryList => 43
  | journalBackup => 39
  | journalRestore => 40
  | riskStateTransition => 41
  | metricRegistryList => 45
  | strategyLifecycleTransition => 46
  | metricLifecycleTransition => 47
  | strategyResolutionBudgeted => 48
  | newsProviderStatus => 49
  | riskPolicySet => 50
  | supervisorStatus => 51
  | riskPolicyStatus => 52
  | brokerStatus => 53
  | configStatus => 54
  | configReload => 55

/-- The kind of a first byte. -/
def ofCode (code : UInt8) : Option CommandKind :=
  match code.toNat with
  | 1 => some snapshot
  | 2 => some preview
  | 3 => some submit
  | 4 => some resolveSymbol
  | 5 => some events
  | 6 => some liveConfigure
  | 7 => some liveArm
  | 8 => some liveConfirm
  | 9 => some liveKill
  | 10 => some autonomySubmit
  | 11 => some autonomyTransition
  | 12 => some readModelBackup
  | 13 => some readModelRestore
  | 14 => some readModelStatus
  | 15 => some traceEvents
  | 16 => some newsPage
  | 17 => some cancel
  | 18 => some replace
  | 19 => some newsDetail
  | 20 => some llmComplete
  | 21 => some contextSearch
  | 22 => some llmAction
  | 23 => some strategyEvaluate
  | 24 => some proposalPreview
  | 25 => some proposalSubmit
  | 26 => some autonomyMode
  | 27 => some alertsGet
  | 28 => some alertAck
  | 29 => some scheduledProposalSubmit
  | 30 => some backtestRun
  | 31 => some backtestList
  | 32 => some strategyBacktestRun
  | 33 => some experimentList
  | 34 => some modelList
  | 35 => some experimentMutate
  | 36 => some modelMutate
  | 37 => some strategyResolutionList
  | 38 => some strategyExecutionList
  | 39 => some journalBackup
  | 40 => some journalRestore
  | 41 => some riskStateTransition
  | 42 => some llmStream
  | 43 => some strategyRegistryList
  | 44 => some traceExport
  | 45 => some metricRegistryList
  | 46 => some strategyLifecycleTransition
  | 47 => some metricLifecycleTransition
  | 48 => some strategyResolutionBudgeted
  | 49 => some newsProviderStatus
  | 50 => some riskPolicySet
  | 51 => some supervisorStatus
  | 52 => some riskPolicyStatus
  | 53 => some brokerStatus
  | 54 => some configStatus
  | 55 => some configReload
  | _ => none

theorem ofCode_code (kind : CommandKind) : ofCode kind.code = some kind := by
  cases kind <;> rfl

end CommandKind

/-- The capability of a first byte. -/
def capabilityFor (code : UInt8) : Option String :=
  (CommandKind.ofCode code).map CommandKind.capability

namespace Control

-- Marks

def previewMagic : List UInt8 := mark "IT_CMD_PREVIEW_V1"

def submitMagic : List UInt8 := mark "IT_CMD_SUBMIT_V1"

def resolveMagic : List UInt8 := mark "IT_CMD_RESOLVE_V1"

def liveArmMagic : List UInt8 := mark "IT_CMD_LIVE_ARM_V1"

def liveConfirmMagic : List UInt8 := mark "IT_CMD_LIVE_CONFIRM_V1"

def cancelMagic : List UInt8 := mark "IT_CMD_CANCEL_V1"

def replaceMagic : List UInt8 := mark "IT_CMD_REPLACE_V1"

def contextSearchMagic : List UInt8 := mark "IT_CMD_CONTEXT_SEARCH_V1"

def contextSearchVectorMagic : List UInt8 := mark "IT_CMD_CONTEXT_SEARCH_V2"

def strategyEvaluateMagic : List UInt8 := mark "IT_CMD_STRATEGY_EVALUATE_V1"

def proposalPreviewMagic : List UInt8 := mark "IT_CMD_PROPOSAL_PREVIEW_V1"

def proposalSubmitMagic : List UInt8 := mark "IT_CMD_PROPOSAL_SUBMIT_V1"

def autonomyModeMagic : List UInt8 := mark "IT_CMD_AUTONOMY_MODE_V1"

def alertAckMagic : List UInt8 := mark "IT_CMD_ALERT_ACK_V1"

def strategyLifecycleTransitionMagic : List UInt8 := mark "IT_CMD_STRATEGY_LIFECYCLE_TRANSITION_V1"

def metricLifecycleTransitionMagic : List UInt8 := mark "IT_CMD_METRIC_LIFECYCLE_TRANSITION_V1"

def strategyResolutionBudgetedMagic : List UInt8 := mark "IT_CMD_STRATEGY_RESOLUTION_BUDGETED_V1"

def newsProviderStatusMagic : List UInt8 := mark "IT_CMD_NEWS_PROVIDER_STATUS_V1"

def supervisorStatusMagic : List UInt8 := mark "IT_CMD_SUPERVISOR_STATUS_V1"

def riskPolicyStatusMagic : List UInt8 := mark "IT_CMD_RISK_POLICY_STATUS_V1"

def brokerStatusMagic : List UInt8 := mark "IT_CMD_BROKER_STATUS_V1"

end Control

open Control

/-- The marks that are looked up, with their kinds, in the order of the search. -/
def commandMagics : List (List UInt8 × CommandKind) :=
  [(previewMagic, .preview), (submitMagic, .submit), (resolveMagic, .resolveSymbol),
    (liveConfigureMagic, .liveConfigure), (liveArmMagic, .liveArm),
    (liveConfirmMagic, .liveConfirm), (cancelMagic, .cancel), (replaceMagic, .replace),
    (llmCompleteMagic, .llmComplete), (contextSearchMagic, .contextSearch),
    (contextSearchVectorMagic, .contextSearch), (llmActionMagic, .llmAction),
    (llmStreamMagic, .llmStream), (strategyEvaluateMagic, .strategyEvaluate),
    (proposalPreviewMagic, .proposalPreview), (proposalSubmitMagic, .proposalSubmit),
    (scheduledProposalMagic, .scheduledProposalSubmit), (autonomyModeMagic, .autonomyMode),
    (alertAckMagic, .alertAck), (backtestRunMagic, .backtestRun),
    (strategyBacktestRunMagic, .strategyBacktestRun),
    (strategyResolutionBudgetedMagic, .strategyResolutionBudgeted),
    (newsProviderStatusMagic, .newsProviderStatus), (supervisorStatusMagic, .supervisorStatus),
    (riskPolicyStatusMagic, .riskPolicyStatus), (brokerStatusMagic, .brokerStatus),
    (configReloadMagic, .configReload), (riskPolicySetMagic, .riskPolicySet),
    (experimentMutateMagic, .experimentMutate), (modelMutateMagic, .modelMutate)]

/-- The kind of a payload, as a first byte. -/
def commandKind (payload : List UInt8) : Option UInt8 :=
  if payload.length = 1 ∨ payload.head?.any fun code => (capabilityFor code).isSome then
    payload.head?
  else (commandMagics.find? fun e => e.1.isPrefixOf payload).map (·.2.code)

-- Decoders

namespace CommandKind

/-- The payload is the code of the kind. -/
def isOnly (kind : CommandKind) (payload : List UInt8) : Bool := payload = [kind.code]

/-- The payload begins with the code of the kind. -/
def leads (kind : CommandKind) (payload : List UInt8) : Bool := payload.head? = some kind.code

/-- What the arm of a kind tests before it reads the fields of a payload. -/
def takes (kind : CommandKind) (payload : List UInt8) : Bool :=
  match kind with
  | configStatus | liveKill | readModelStatus | backtestList | experimentList | modelList
  | strategyResolutionList | strategyExecutionList | strategyRegistryList
  | metricRegistryList => kind.isOnly payload
  | snapshot => payload.length = 1
  | alertsGet => true
  | supervisorStatus => payload = supervisorStatusMagic ∨ kind.isOnly payload
  | riskPolicyStatus => payload = riskPolicyStatusMagic ∨ kind.isOnly payload
  | brokerStatus => payload = brokerStatusMagic ∨ kind.isOnly payload
  | newsProviderStatus => payload = newsProviderStatusMagic ∨ kind.isOnly payload
  | events => payload.length = 13 ∧ kind.leads payload
  | traceEvents | traceExport =>
    payload.length = 17 ∧ (traceEvents.leads payload ∨ traceExport.leads payload)
  | autonomySubmit => 1 < payload.length ∧ kind.leads payload
  | autonomyTransition => 10 ≤ payload.length ∧ kind.leads payload
  | readModelBackup | readModelRestore | journalBackup | journalRestore | riskStateTransition
  | newsPage | newsDetail => kind.leads payload
  | preview => previewMagic.isPrefixOf payload
  | submit => submitMagic.isPrefixOf payload
  | cancel => cancelMagic.isPrefixOf payload
  | replace => replaceMagic.isPrefixOf payload
  | resolveSymbol => resolveMagic.isPrefixOf payload
  | liveConfigure => liveConfigureMagic.isPrefixOf payload
  | liveArm => liveArmMagic.isPrefixOf payload
  | liveConfirm => liveConfirmMagic.isPrefixOf payload
  | llmComplete => llmCompleteMagic.isPrefixOf payload
  | llmAction => llmActionMagic.isPrefixOf payload
  | llmStream => llmStreamMagic.isPrefixOf payload
  | contextSearch =>
    contextSearchMagic.isPrefixOf payload || contextSearchVectorMagic.isPrefixOf payload
  | strategyEvaluate => strategyEvaluateMagic.isPrefixOf payload
  | proposalPreview => proposalPreviewMagic.isPrefixOf payload
  | proposalSubmit => proposalSubmitMagic.isPrefixOf payload
  | scheduledProposalSubmit => scheduledProposalMagic.isPrefixOf payload
  | autonomyMode =>
    payload.length = autonomyModeMagic.length + 1 ∧ autonomyModeMagic.isPrefixOf payload
  | alertAck => alertAckMagic.isPrefixOf payload
  | backtestRun => backtestRunMagic.isPrefixOf payload
  | strategyBacktestRun => strategyBacktestRunMagic.isPrefixOf payload
  | experimentMutate => experimentMutateMagic.isPrefixOf payload
  | modelMutate => modelMutateMagic.isPrefixOf payload
  | strategyLifecycleTransition => strategyLifecycleTransitionMagic.isPrefixOf payload
  | metricLifecycleTransition => metricLifecycleTransitionMagic.isPrefixOf payload
  | strategyResolutionBudgeted => strategyResolutionBudgetedMagic.isPrefixOf payload
  | riskPolicySet => riskPolicySetMagic.isPrefixOf payload
  | configReload => configReloadMagic.isPrefixOf payload

end CommandKind

-- Builders

namespace Control

open Terminal (pushString)

/-- The lifecycle of a strategy or a metric. -/
inductive ComponentLifecycle where
  | research
  | validated
  | shadow
  | canary
  | production
  | paused
  | retired
  deriving DecidableEq

def lifecycleCode : ComponentLifecycle → UInt8
  | .research => 1
  | .validated => 2
  | .shadow => 3
  | .canary => 4
  | .production => 5
  | .paused => 6
  | .retired => 7

/-- The payload of a request without fields. -/
def codePayload (kind : CommandKind) : List UInt8 := [kind.code]

def snapshotCommandPayload : List UInt8 := codePayload .snapshot

def alertsGetCommandPayload : List UInt8 := codePayload .alertsGet

def strategyRegistryListCommandPayload : List UInt8 := codePayload .strategyRegistryList

def backtestListCommandPayload : List UInt8 := codePayload .backtestList

def experimentListCommandPayload : List UInt8 := codePayload .experimentList

def modelListCommandPayload : List UInt8 := codePayload .modelList

def strategyResolutionListCommandPayload : List UInt8 := codePayload .strategyResolutionList

def strategyExecutionListCommandPayload : List UInt8 := codePayload .strategyExecutionList

def metricRegistryListCommandPayload : List UInt8 := codePayload .metricRegistryList

def readModelStatusCommandPayload : List UInt8 := codePayload .readModelStatus

def newsProviderStatusCommandPayload : List UInt8 := codePayload .newsProviderStatus

def supervisorStatusCommandPayload : List UInt8 := codePayload .supervisorStatus

def riskPolicyStatusCommandPayload : List UInt8 := codePayload .riskPolicyStatus

def brokerStatusCommandPayload : List UInt8 := codePayload .brokerStatus

def liveKillCommandPayload : List UInt8 := codePayload .liveKill

def configStatusCommandPayload : List UInt8 := codePayload .configStatus

def alertAckCommandPayload (alertId : String) : List UInt8 := alertAckMagic ++ pushString alertId

def eventsCommandPayload (cursor limit : ℕ) : List UInt8 :=
  CommandKind.events.code :: [u64 cursor, u32 limit].flatten

/-- An optional limit price after the mark of its presence. -/
def limitBytes (limitPriceTicks : Option Int) : List UInt8 :=
  [[if limitPriceTicks.isSome then 1 else 0], i64 (limitPriceTicks.getD 0)].flatten

def previewCommandPayloadWithOrder (instrumentId : InstrumentId) (targetQuantityTicks : Int)
    (proposalId : ProposalId) (now : MonoTime) (traceId : TraceId) (ttlNs : ℕ)
    (orderType : OrderType) (limitPriceTicks : Option Int) : List UInt8 :=
  previewMagic ++
    [u128 instrumentId, i64 targetQuantityTicks, u128 proposalId,
      [Terminal.orderTypeCode orderType], limitBytes limitPriceTicks, u64 now, u128 traceId,
      u64 ttlNs].flatten

def previewCommandPayload (instrumentId : InstrumentId) (targetQuantityTicks : Int)
    (proposalId : ProposalId) (now : MonoTime) (traceId : TraceId) (ttlNs : ℕ) : List UInt8 :=
  previewCommandPayloadWithOrder instrumentId targetQuantityTicks proposalId now traceId ttlNs
    .market none

def proposalPreviewCommandPayload (proposalId : ProposalId) (scale : F64) (now : MonoTime)
    (traceId : TraceId) (ttlNs : ℕ) : List UInt8 :=
  proposalPreviewMagic ++
    [u128 proposalId, f64 scale, u64 now, u128 traceId, u64 ttlNs].flatten

def proposalSubmitCommandPayload (proposalId : ProposalId) (scale : F64) (confirmation : String)
    (traceId : TraceId) : List UInt8 :=
  proposalSubmitMagic ++
    [u128 proposalId, f64 scale, pushString confirmation, u128 traceId].flatten

def strategyLifecycleTransitionCommandPayload (strategyId : String)
    (lifecycle : ComponentLifecycle) (confirmation evidenceRef : String) : List UInt8 :=
  strategyLifecycleTransitionMagic ++
    [pushString strategyId, [lifecycleCode lifecycle], pushString confirmation,
      pushString evidenceRef].flatten

def metricLifecycleTransitionCommandPayload (metricId : String)
    (lifecycle : ComponentLifecycle) (confirmation evidenceRef : String) : List UInt8 :=
  metricLifecycleTransitionMagic ++
    [pushString metricId, [lifecycleCode lifecycle], pushString confirmation,
      pushString evidenceRef].flatten

def autonomyModeCommandPayload (mode : AutonomyMode) : List UInt8 :=
  autonomyModeMagic ++ [Terminal.autonomyModeCode mode]

/-- The preview comes with its warnings, and its intent as it is journaled. -/
def submitCommandPayload (preview : ManualOrderPreview) (intent : Terminal.OrderIntent)
    (warnings : List String) (now : MonoTime) (confirmation : String) : List UInt8 :=
  submitMagic ++
    [pushString confirmation, u64 now, pushString preview.previewId,
      u64 preview.expectedStateVersion, u64 preview.expiresMonoNs,
      i64 preview.targetQuantityTicks, u128 preview.proposalId,
      cappedBytes 4 (Terminal.encodeOrderIntent intent).length,
      Terminal.encodeOrderIntent intent, listBytes 2 pushString warnings].flatten

def cancelCommandPayload (clientOrderId : String) : List UInt8 :=
  cancelMagic ++ pushString clientOrderId

def replaceCommandPayload (clientOrderId : String) (quantityTicks : Int)
    (limitPriceTicks : Option Int) : List UInt8 :=
  replaceMagic ++
    [pushString clientOrderId, i64 quantityTicks, limitBytes limitPriceTicks].flatten

def strategyPolicyCode : StrategyPolicy → UInt8
  | .isolatedBooks => 1
  | .priority => 2
  | .weightedNet => 3

/-- The budgets in the order of their strategies, the first 256 of them. -/
def strategyResolutionBudgetedCommandPayload (policy : StrategyPolicy) (now : MonoTime)
    (budgets : Std.TreeMap String Int) : List UInt8 :=
  strategyResolutionBudgetedMagic ++
    [[strategyPolicyCode policy], u64 now, u16 (min budgets.size 256),
      (budgets.toList.take 256).flatMap fun budget =>
        [pushString budget.1, i64 budget.2].flatten].flatten

/-- The values of a query vector are given by their bits. -/
def contextSearchCommandPayloadWithEmbedding (text : String) (graphRoot : Option String)
    (maxDepth limit : ℕ) (embedding : Option (List ℕ)) : List UInt8 :=
  (if embedding.isSome then contextSearchVectorMagic else contextSearchMagic) ++
    [pushString text, pushString (graphRoot.getD ""), cappedBytes 2 maxDepth,
      cappedBytes 2 limit, (embedding.map (listBytes 2 u32)).getD []].flatten

def contextSearchCommandPayload (text : String) (graphRoot : Option String)
    (maxDepth limit : ℕ) : List UInt8 :=
  contextSearchCommandPayloadWithEmbedding text graphRoot maxDepth limit none

def strategyEvaluateCommandPayload (strategyId metricId : String) (metric : MetricOutput)
    (entryThreshold exitThreshold : F64) (quantityTicks : Int) (horizonNs strategyTtlNs : ℕ)
    (now : MonoTime) : List UInt8 :=
  strategyEvaluateMagic ++
    [pushString strategyId, pushString metricId, u128 metric.instrumentId,
      u64 metric.generatedMono, u64 metric.ttlNs, f64 metric.score, f64 metric.confidence,
      f64 metric.uncertainty, f64 entryThreshold, f64 exitThreshold, i64 quantityTicks,
      u64 horizonNs, u64 strategyTtlNs, u64 now].flatten

def autonomySubmitCommandPayload (plan : Plan) : List UInt8 :=
  CommandKind.autonomySubmit.code :: PlanEvents.encodePlanEvent (.submitted plan)

def autonomyTransitionCommandPayload (planId : String) (state : PlanState) (now : MonoTime) :
    List UInt8 :=
  CommandKind.autonomyTransition.code ::
    [[Terminal.planStateCode state], u64 now, pushString planId].flatten

/-- A backup to a destination. -/
def pathCommandPayload (kind : CommandKind) (destination : String) : List UInt8 :=
  kind.code :: pushString destination

/-- A restoration of a source at a destination. -/
def restoreCommandPayload (kind : CommandKind) (source destination : String) : List UInt8 :=
  kind.code :: [pushString source, pushString destination].flatten

def readModelBackupCommandPayload : String → List UInt8 := pathCommandPayload .readModelBackup

def readModelRestoreCommandPayload : String → String → List UInt8 :=
  restoreCommandPayload .readModelRestore

def journalBackupCommandPayload : String → List UInt8 := pathCommandPayload .journalBackup

def journalRestoreCommandPayload : String → String → List UInt8 :=
  restoreCommandPayload .journalRestore

def riskStateTransitionCommandPayload (state : RiskState) (authorization : String) : List UInt8 :=
  CommandKind.riskStateTransition.code ::
    [[Terminal.riskStateCode state], pushString authorization].flatten

def traceEventsCommandPayload (traceId : TraceId) : List UInt8 :=
  CommandKind.traceEvents.code :: u128 traceId

def traceExportCommandPayload (traceId : TraceId) : List UInt8 :=
  CommandKind.traceExport.code :: u128 traceId

def newsPageCommandPayload (scope symbol : String) (afterCursor : Option String) : List UInt8 :=
  CommandKind.newsPage.code ::
    [pushString scope, pushString symbol, pushString (afterCursor.getD "")].flatten

def newsDetailCommandPayload (itemId : String) : List UInt8 :=
  CommandKind.newsDetail.code :: pushString itemId

def liveArmCommandPayload (account : String) (now : MonoTime) (phrase : String) : List UInt8 :=
  liveArmMagic ++ [pushString account, u64 now, pushString phrase].flatten

def liveConfirmCommandPayload (account token : String) (now : MonoTime) (phrase : String) :
    List UInt8 :=
  liveConfirmMagic ++
    [pushString account, pushString token, u64 now, pushString phrase].flatten

def resolveSymbolCommandPayload (symbol : String) (day supportedAssetMask : ℕ) : List UInt8 :=
  resolveMagic ++ [pushString symbol, u32 day, u16 supportedAssetMask].flatten

/-- The payloads of the requests without fields. -/
def codePayloads : List (CommandKind × List UInt8) :=
  [(CommandKind.snapshot, snapshotCommandPayload), (.alertsGet, alertsGetCommandPayload),
    (.strategyRegistryList, strategyRegistryListCommandPayload),
    (.backtestList, backtestListCommandPayload), (.experimentList, experimentListCommandPayload),
    (.modelList, modelListCommandPayload),
    (.strategyResolutionList, strategyResolutionListCommandPayload),
    (.strategyExecutionList, strategyExecutionListCommandPayload),
    (.metricRegistryList, metricRegistryListCommandPayload),
    (.readModelStatus, readModelStatusCommandPayload),
    (.newsProviderStatus, newsProviderStatusCommandPayload),
    (.supervisorStatus, supervisorStatusCommandPayload),
    (.riskPolicyStatus, riskPolicyStatusCommandPayload),
    (.brokerStatus, brokerStatusCommandPayload), (.liveKill, liveKillCommandPayload),
    (.configStatus, configStatusCommandPayload)]

end Control

/-- The payloads that the builders make, with the kinds they are made for. -/
inductive Built : CommandKind → List UInt8 → Prop where
  | code {kind : CommandKind} {payload : List UInt8} (h : (kind, payload) ∈ codePayloads) :
      Built kind payload
  | alertAck (alertId : String) : Built .alertAck (alertAckCommandPayload alertId)
  | events (cursor limit : ℕ) : Built .events (eventsCommandPayload cursor limit)
  | previewWithOrder (instrumentId : InstrumentId) (targetQuantityTicks : Int)
      (proposalId : ProposalId) (now : MonoTime) (traceId : TraceId) (ttlNs : ℕ)
      (orderType : OrderType) (limitPriceTicks : Option Int) :
      Built .preview (previewCommandPayloadWithOrder instrumentId targetQuantityTicks proposalId
        now traceId ttlNs orderType limitPriceTicks)
  | preview (instrumentId : InstrumentId) (targetQuantityTicks : Int) (proposalId : ProposalId)
      (now : MonoTime) (traceId : TraceId) (ttlNs : ℕ) :
      Built .preview (previewCommandPayload instrumentId targetQuantityTicks proposalId now
        traceId ttlNs)
  | proposalPreview (proposalId : ProposalId) (scale : F64) (now : MonoTime) (traceId : TraceId)
      (ttlNs : ℕ) : Built .proposalPreview
        (proposalPreviewCommandPayload proposalId scale now traceId ttlNs)
  | proposalSubmit (proposalId : ProposalId) (scale : F64) (confirmation : String)
      (traceId : TraceId) : Built .proposalSubmit
        (proposalSubmitCommandPayload proposalId scale confirmation traceId)
  | scheduledProposal (proposalId : ProposalId) (schedule : Schedule) (confirmation : String)
      (traceId : TraceId) : Built .scheduledProposalSubmit
        (scheduledProposalCommandPayload proposalId schedule confirmation traceId)
  | backtestRun (request : BacktestRunRequest) :
      Built .backtestRun (backtestRunCommandPayload request)
  | strategyBacktest (request : StrategyBacktestRunRequest) :
      Built .strategyBacktestRun (strategyBacktestCommandPayload request)
  | strategyLifecycleTransition (strategyId : String) (lifecycle : ComponentLifecycle)
      (confirmation evidenceRef : String) : Built .strategyLifecycleTransition
        (strategyLifecycleTransitionCommandPayload strategyId lifecycle confirmation evidenceRef)
  | metricLifecycleTransition (metricId : String) (lifecycle : ComponentLifecycle)
      (confirmation evidenceRef : String) : Built .metricLifecycleTransition
        (metricLifecycleTransitionCommandPayload metricId lifecycle confirmation evidenceRef)
  | experimentMutation (mutation : ExperimentMutation) :
      Built .experimentMutate (experimentMutationCommandPayload mutation)
  | modelMutation (mutation : ModelMutation) :
      Built .modelMutate (modelMutationCommandPayload mutation)
  | autonomyMode (mode : AutonomyMode) : Built .autonomyMode (autonomyModeCommandPayload mode)
  | submit (preview : ManualOrderPreview) (intent : Terminal.OrderIntent)
      (warnings : List String) (now : MonoTime) (confirmation : String) :
      Built .submit (submitCommandPayload preview intent warnings now confirmation)
  | cancel (clientOrderId : String) : Built .cancel (cancelCommandPayload clientOrderId)
  | replace (clientOrderId : String) (quantityTicks : Int) (limitPriceTicks : Option Int) :
      Built .replace (replaceCommandPayload clientOrderId quantityTicks limitPriceTicks)
  | llmComplete (request : LlmRequest) : Built .llmComplete (llmCompleteCommandPayload request)
  | llmAction (request : LlmRequest) : Built .llmAction (llmActionCommandPayload request)
  | llmStream (request : LlmRequest) : Built .llmStream (llmStreamCommandPayload request)
  | strategyResolutionBudgeted (policy : StrategyPolicy) (now : MonoTime)
      (budgets : Std.TreeMap String Int) : Built .strategyResolutionBudgeted
        (strategyResolutionBudgetedCommandPayload policy now budgets)
  | contextSearch (text : String) (graphRoot : Option String) (maxDepth limit : ℕ) :
      Built .contextSearch (contextSearchCommandPayload text graphRoot maxDepth limit)
  | contextSearchWithEmbedding (text : String) (graphRoot : Option String) (maxDepth limit : ℕ)
      (embedding : Option (List ℕ)) : Built .contextSearch
        (contextSearchCommandPayloadWithEmbedding text graphRoot maxDepth limit embedding)
  | strategyEvaluate (strategyId metricId : String) (metric : MetricOutput)
      (entryThreshold exitThreshold : F64) (quantityTicks : Int) (horizonNs strategyTtlNs : ℕ)
      (now : MonoTime) : Built .strategyEvaluate
        (strategyEvaluateCommandPayload strategyId metricId metric entryThreshold exitThreshold
          quantityTicks horizonNs strategyTtlNs now)
  | autonomySubmit (plan : Plan) : Built .autonomySubmit (autonomySubmitCommandPayload plan)
  | autonomyTransition (planId : String) (state : PlanState) (now : MonoTime) :
      Built .autonomyTransition (autonomyTransitionCommandPayload planId state now)
  | readModelBackup (destination : String) :
      Built .readModelBackup (readModelBackupCommandPayload destination)
  | readModelRestore (source destination : String) :
      Built .readModelRestore (readModelRestoreCommandPayload source destination)
  | journalBackup (destination : String) :
      Built .journalBackup (journalBackupCommandPayload destination)
  | journalRestore (source destination : String) :
      Built .journalRestore (journalRestoreCommandPayload source destination)
  | riskStateTransition (state : RiskState) (authorization : String) :
      Built .riskStateTransition (riskStateTransitionCommandPayload state authorization)
  | scopedRiskPolicy (policy : Option ScopedRiskPolicy) (payload : List UInt8)
      (h : scopedRiskPolicyCommandPayload policy = .ok payload) : Built .riskPolicySet payload
  | traceEvents (traceId : TraceId) : Built .traceEvents (traceEventsCommandPayload traceId)
  | traceExport (traceId : TraceId) : Built .traceExport (traceExportCommandPayload traceId)
  | newsPage (scope symbol : String) (afterCursor : Option String) :
      Built .newsPage (newsPageCommandPayload scope symbol afterCursor)
  | newsDetail (itemId : String) : Built .newsDetail (newsDetailCommandPayload itemId)
  | liveConfigure (accounts : List String) (maxNotionalTicks : ℕ) :
      Built .liveConfigure (liveConfigureCommandPayload accounts maxNotionalTicks)
  | liveArm (account : String) (now : MonoTime) (phrase : String) :
      Built .liveArm (liveArmCommandPayload account now phrase)
  | liveConfirm (account token : String) (now : MonoTime) (phrase : String) :
      Built .liveConfirm (liveConfirmCommandPayload account token now phrase)
  | resolveSymbol (symbol : String) (day supportedAssetMask : ℕ) :
      Built .resolveSymbol (resolveSymbolCommandPayload symbol day supportedAssetMask)
  | configReload (expectedVersion : ℕ) (cfgText : String) :
      Built .configReload (configReloadCommandPayload expectedVersion cfgText)

/-- The payload is found to be of the kind, the capability of the kind is checked, and the arm of
the kind takes the payload. -/
structure Dispatchable (kind : CommandKind) (payload : List UInt8) : Prop where
  found : commandKind payload = some kind.code
  checked : capabilityFor kind.code = some kind.capability
  taken : kind.takes payload = true

-- Routing

theorem capabilityFor_code (kind : CommandKind) :
    capabilityFor kind.code = some kind.capability := by
  rw [capabilityFor, CommandKind.ofCode_code, Option.map_some]

/-- The code of a kind decides, whatever follows it. -/
theorem commandKind_cons (kind : CommandKind) (body : List UInt8) :
    commandKind (kind.code :: body) = some kind.code := by
  rw [commandKind, if_pos]
  · rfl
  · right
    rw [List.head?_cons, Option.any_some, capabilityFor_code]
    rfl

/-- What begins a mark and what follows it begins the mark, unless the mark begins it. -/
theorem isPrefixOf_append {magic other : List UInt8} (h : magic.isPrefixOf other → other = magic)
    (body : List UInt8) : other.isPrefixOf (magic ++ body) = other.isPrefixOf magic := by
  rw [Bool.eq_iff_iff, List.isPrefixOf_iff_prefix, List.isPrefixOf_iff_prefix]
  constructor
  · intro hother
    obtain hpre | hpre := List.prefix_or_prefix_of_prefix hother (List.prefix_append magic body)
    · exact hpre
    · obtain rfl := h (List.isPrefixOf_iff_prefix.mpr hpre)
      exact List.prefix_refl _
  · intro hother
    exact hother.trans (List.prefix_append magic body)

/-- A mark begins with the letter I, is longer than a code, and begins no mark of the table but
itself. -/
structure Separate (magic : List UInt8) : Prop where
  letter : magic.head? = some 73
  longer : 1 < magic.length
  alone : ∀ e ∈ commandMagics, magic.isPrefixOf e.1 → e.1 = magic

/-- **The mark of a payload decides**, whatever follows it. -/
theorem commandKind_append {magic : List UInt8} (h : Separate magic) (body : List UInt8) :
    commandKind (magic ++ body) =
      (commandMagics.find? fun e => e.1.isPrefixOf magic).map (·.2.code) := by
  obtain ⟨first, rest, rfl⟩ : ∃ first rest, magic = first :: rest :=
    List.exists_cons_of_length_pos (by have := h.longer; omega)
  have hletter : first = 73 := Option.some.inj h.letter
  have hlonger := h.longer
  rw [commandKind, if_neg]
  · congr 1
    refine List.find?_congr fun e he => ?_
    exact isPrefixOf_append (h.alone e he) body
  · rintro (hone | hcode)
    · rw [List.length_append] at hone
      omega
    · rw [hletter] at hcode
      change (capabilityFor 73).isSome = true at hcode
      exact absurd hcode (by decide)

theorem separate_of_mem {e : List UInt8 × CommandKind} (he : e ∈ commandMagics) :
    Separate e.1 ∧ (commandMagics.find? fun f => f.1.isPrefixOf e.1) = some e := by
  have hall : ∀ e ∈ commandMagics, (e.1.head? = some 73 ∧ 1 < e.1.length ∧
      ∀ f ∈ commandMagics, e.1.isPrefixOf f.1 → f.1 = e.1) ∧
      (commandMagics.find? fun f => f.1.isPrefixOf e.1) = some e := by decide +kernel
  obtain ⟨⟨letter, longer, alone⟩, hfind⟩ := hall e he
  exact ⟨⟨letter, longer, alone⟩, hfind⟩

/-- A mark of the table leads to its kind. -/
theorem commandKind_of_mem {magic : List UInt8} {kind : CommandKind}
    (he : (magic, kind) ∈ commandMagics) (body : List UInt8) :
    commandKind (magic ++ body) = some kind.code := by
  obtain ⟨hseparate, hfind⟩ := separate_of_mem he
  rw [commandKind_append hseparate, hfind]
  rfl

/-- The marks of the lifecycle transitions lead to no kind. -/
theorem commandKind_lifecycle {magic : List UInt8}
    (h : magic = strategyLifecycleTransitionMagic ∨ magic = metricLifecycleTransitionMagic)
    (body : List UInt8) : commandKind (magic ++ body) = none := by
  have hall : ∀ m ∈ [strategyLifecycleTransitionMagic, metricLifecycleTransitionMagic],
      (m.head? = some 73 ∧ 1 < m.length ∧
        ∀ f ∈ commandMagics, m.isPrefixOf f.1 → f.1 = m) ∧
      (commandMagics.find? fun f => f.1.isPrefixOf m) = none := by decide
  obtain ⟨⟨letter, longer, alone⟩, hfind⟩ := hall magic (by simpa using h)
  rw [commandKind_append ⟨letter, longer, alone⟩, hfind]
  rfl

-- What the builders make

theorem isPrefixOf_self_append (magic body : List UInt8) :
    magic.isPrefixOf (magic ++ body) = true :=
  List.isPrefixOf_iff_prefix.mpr (List.prefix_append magic body)

theorem scopedRiskPolicyCommandPayload_marked {policy : Option ScopedRiskPolicy}
    {payload : List UInt8} (h : scopedRiskPolicyCommandPayload policy = .ok payload) :
    ∃ body, payload = riskPolicySetMagic ++ body := by
  cases policy with
  | none =>
    cases h
    exact ⟨_, rfl⟩
  | some policy =>
    obtain ⟨system, -, h⟩ := bind_eq_ok.mp h
    split at h
    · cases h
    · obtain ⟨accounts, -, h⟩ := bind_eq_ok.mp h
      obtain ⟨strategies, -, h⟩ := bind_eq_ok.mp h
      obtain ⟨assets, -, h⟩ := bind_eq_ok.mp h
      obtain ⟨instruments, -, h⟩ := bind_eq_ok.mp h
      cases h
      exact ⟨_, rfl⟩

theorem contextSearchCommandPayload_marked (text : String) (graphRoot : Option String)
    (maxDepth limit : ℕ) (embedding : Option (List ℕ)) :
    ∃ magic body, (magic = contextSearchMagic ∨ magic = contextSearchVectorMagic) ∧
      contextSearchCommandPayloadWithEmbedding text graphRoot maxDepth limit embedding =
        magic ++ body := by
  cases embedding with
  | none => exact ⟨_, _, .inl rfl, rfl⟩
  | some values => exact ⟨_, _, .inr rfl, rfl⟩

theorem takes_contextSearch {magic : List UInt8} (body : List UInt8)
    (h : magic = contextSearchMagic ∨ magic = contextSearchVectorMagic) :
    CommandKind.contextSearch.takes (magic ++ body) = true := by
  rw [CommandKind.takes, Bool.or_eq_true]
  obtain rfl | rfl := h
  · exact .inl (isPrefixOf_self_append _ _)
  · exact .inr (isPrefixOf_self_append _ _)

theorem commandKind_contextSearch {magic : List UInt8} (body : List UInt8)
    (h : magic = contextSearchMagic ∨ magic = contextSearchVectorMagic) :
    commandKind (magic ++ body) = some CommandKind.contextSearch.code := by
  obtain rfl | rfl := h
  · exact commandKind_of_mem (by decide) body
  · exact commandKind_of_mem (by decide) body

/-- **Every builder** writes a payload that the decoder of its kind takes. -/
theorem built_taken {kind : CommandKind} {payload : List UInt8} (h : Built kind payload) :
    kind.takes payload = true := by
  cases h
  case code h =>
    have hall : ∀ e ∈ codePayloads, e.1.takes e.2 = true := by decide
    exact hall _ h
  case events cursor limit =>
    simp [CommandKind.takes, CommandKind.leads, eventsCommandPayload, u64, u32,
      LittleEndian.bytes_length]
  case autonomyMode mode =>
    simp [CommandKind.takes, autonomyModeCommandPayload]
  case contextSearch text graphRoot maxDepth limit =>
    obtain ⟨magic, body, hmagic, hpayload⟩ :=
      contextSearchCommandPayload_marked text graphRoot maxDepth limit none
    rw [contextSearchCommandPayload, hpayload]
    exact takes_contextSearch body hmagic
  case contextSearchWithEmbedding text graphRoot maxDepth limit embedding =>
    obtain ⟨magic, body, hmagic, hpayload⟩ :=
      contextSearchCommandPayload_marked text graphRoot maxDepth limit embedding
    rw [hpayload]
    exact takes_contextSearch body hmagic
  case autonomySubmit plan =>
    have hlength : 0 < (PlanEvents.encodePlanEvent (.submitted plan)).length := by
      rw [PlanEvents.encodePlanEvent, List.flatten_cons, List.length_append]
      exact Nat.add_pos_left (by decide) _
    simp [CommandKind.takes, CommandKind.leads, autonomySubmitCommandPayload, hlength]
  case autonomyTransition planId state now =>
    simp [CommandKind.takes, CommandKind.leads, autonomyTransitionCommandPayload, u64,
      LittleEndian.bytes_length]
  case scopedRiskPolicy policy h =>
    obtain ⟨body, rfl⟩ := scopedRiskPolicyCommandPayload_marked h
    exact isPrefixOf_self_append _ _
  case traceEvents traceId | traceExport traceId =>
    simp [CommandKind.takes, CommandKind.leads, traceEventsCommandPayload,
      traceExportCommandPayload, Control.u128, LittleEndian.bytes_length]
  case readModelBackup | readModelRestore | journalBackup | journalRestore
    | riskStateTransition | newsPage | newsDetail => rfl
  all_goals exact isPrefixOf_self_append _ _

/-- **Every builder** but those of the lifecycle transitions writes a payload whose kind is
found. -/
theorem built_found {kind : CommandKind} {payload : List UInt8} (h : Built kind payload)
    (hnot : kind ≠ .strategyLifecycleTransition ∧ kind ≠ .metricLifecycleTransition) :
    commandKind payload = some kind.code := by
  cases h
  case code h =>
    have hall : ∀ e ∈ codePayloads, commandKind e.2 = some e.1.code := by decide
    exact hall _ h
  case strategyLifecycleTransition => exact absurd rfl hnot.1
  case metricLifecycleTransition => exact absurd rfl hnot.2
  case contextSearch text graphRoot maxDepth limit =>
    obtain ⟨magic, body, hmagic, hpayload⟩ :=
      contextSearchCommandPayload_marked text graphRoot maxDepth limit none
    rw [contextSearchCommandPayload, hpayload]
    exact commandKind_contextSearch body hmagic
  case contextSearchWithEmbedding text graphRoot maxDepth limit embedding =>
    obtain ⟨magic, body, hmagic, hpayload⟩ :=
      contextSearchCommandPayload_marked text graphRoot maxDepth limit embedding
    rw [hpayload]
    exact commandKind_contextSearch body hmagic
  case scopedRiskPolicy policy h =>
    obtain ⟨body, rfl⟩ := scopedRiskPolicyCommandPayload_marked h
    exact commandKind_of_mem (by decide) body
  case events | autonomySubmit | autonomyTransition | readModelBackup | readModelRestore
    | journalBackup | journalRestore | riskStateTransition | traceEvents | traceExport
    | newsPage | newsDetail => exact commandKind_cons _ _
  all_goals exact commandKind_of_mem (by decide) _

theorem codePayloads_kind : ∀ e ∈ codePayloads,
    e.1 ≠ .strategyLifecycleTransition ∧ e.1 ≠ .metricLifecycleTransition := by
  decide

/-- **Exactly when a built payload comes to its arm**: it is not a lifecycle transition. -/
theorem built_dispatchable_iff {kind : CommandKind} {payload : List UInt8}
    (h : Built kind payload) :
    Dispatchable kind payload ↔
      kind ≠ .strategyLifecycleTransition ∧ kind ≠ .metricLifecycleTransition := by
  constructor
  · intro hdispatchable
    have hfound := hdispatchable.found
    constructor
    · rintro rfl
      cases h
      case code h => exact absurd rfl (codePayloads_kind _ h).1
      rw [strategyLifecycleTransitionCommandPayload, commandKind_lifecycle (.inl rfl)] at hfound
      cases hfound
    · rintro rfl
      cases h
      case code h => exact absurd rfl (codePayloads_kind _ h).2
      rw [metricLifecycleTransitionCommandPayload, commandKind_lifecycle (.inr rfl)] at hfound
      cases hfound
  · intro hnot
    exact ⟨built_found h hnot, capabilityFor_code kind, built_taken h⟩

/-- A cancellation comes to its arm. -/
theorem built_dispatchable_cancel : Dispatchable .cancel (cancelCommandPayload "client-1") :=
  (built_dispatchable_iff (.cancel "client-1")).mpr ⟨by decide, by decide⟩

/-- **A payload without a kind**: the pause of a strategy is built, and no kind is found. -/
theorem built_unroutable :
    ¬∀ (kind : CommandKind) (payload : List UInt8), Built kind payload →
      Dispatchable kind payload := by
  intro hall
  have hfound := (hall _ _ (.strategyLifecycleTransition "trend" .paused "CONFIRM"
    "ticket-7")).found
  rw [strategyLifecycleTransitionCommandPayload, commandKind_lifecycle (.inl rfl)] at hfound
  cases hfound

end InsiderTrader
