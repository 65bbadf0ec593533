import InsiderTrader.Backtest
import InsiderTrader.ChildPlan
import InsiderTrader.ControlFields
import InsiderTrader.Evaluation
import InsiderTrader.ExperimentBundles
import InsiderTrader.Llm
import InsiderTrader.Risk

/-!
# Requests and their payloads

The requests that a client builds for the engine, and the payloads that their
builders write: schedules, backtests, changes of the experiment and the model
registries, risk policies, live limits, questions to the analyst and
configurations.

## Main definitions

- `BacktestRunRequest`, `StrategyBacktestRunRequest` — replays of a tape
- `ExperimentMutation`, `ModelMutation` — changes of the registries
- `Control.scheduledProposalCommandPayload` and the other builders
-/

namespace InsiderTrader

-- Requests

/-- A replay of fills and marks. -/
structure BacktestRunRequest where
  runId : String
  strategyId : String
  datasetHash : String
  configHash : String
  initialCashTicks : Int
  events : List BacktestEvent
  deriving DecidableEq

/-- One point of a tape, with the metrics a strategy sees at it. -/
structure StrategyBacktestEvent where
  sequence : ℕ
  nowMonoNs : ℕ
  instrumentId : InstrumentId
  priceTicks : Int
  feeTicks : Int
  metrics : List MetricOutput
  deriving DecidableEq

/-- A replay of a strategy over a tape. -/
structure StrategyBacktestRunRequest where
  runId : String
  strategyId : String
  datasetHash : String
  configHash : String
  initialCashTicks : Int
  events : List StrategyBacktestEvent
  deriving DecidableEq

/-- What the decisions and the data of a run came from. -/
structure ExperimentProvenance where
  strategyId : Option String
  strategyVersion : Option String
  newsDatasetHash : Option String
  newsClusteringVersion : Option String
  graphSnapshotVersion : Option String
  llmProvider : Option String
  llmModel : Option String
  promptVersion : Option String
  toolSchemaVersion : Option String
  llmCacheIds : List String
  autonomyConfigHash : Option String
  deriving DecidableEq

namespace ExperimentProvenance

/-- The optional texts. -/
def fields (p : ExperimentProvenance) : List (Option String) :=
  [p.strategyId, p.strategyVersion, p.newsDatasetHash, p.newsClusteringVersion,
    p.graphSnapshotVersion, p.llmProvider, p.llmModel, p.promptVersion, p.toolSchemaVersion,
    p.autonomyConfigHash]

/-- A text that is not blank, within 512 bytes. -/
def validText (text : String) : Bool := !Text.isBlank text && text.utf8ByteSize ≤ 512

/-- The texts are valid, and the cache identities are in order, without repetition. -/
def validForReplay (p : ExperimentProvenance) : Bool :=
  p.fields.all (·.all validText) && p.llmCacheIds.length ≤ 256 && p.llmCacheIds.all validText &&
    decide (p.llmCacheIds.IsChain (· < ·))

end ExperimentProvenance

/-- A change of the experiment registry. -/
inductive ExperimentMutation where
  | create (runId codeHash configHash datasetHash : String)
  | createWithProvenance (runId codeHash configHash datasetHash : String)
      (provenance : ExperimentProvenance)
  | start (runId : String)
  | succeed (runId : String) (metrics : Std.ExtTreeMap String F64)
  | fail (runId : String)
  | addArtifact (runId : String) (artifact : ExperimentArtifact)

/-- Lifecycle state of a model. -/
inductive ModelStatus where
  | research
  | validated
  | shadow
  | canary
  | production
  | retired
  deriving DecidableEq

/-- A model version. -/
structure ModelRecord where
  modelId : String
  version : String
  artifactHash : String
  inputSchemaHash : String
  outputSchemaHash : String
  inputWidth : ℕ
  status : ModelStatus
  deriving DecidableEq

/-- What a model artifact came from. -/
structure ArtifactManifest where
  codeHash : String
  trainingDataHash : String
  configHash : String
  featureHash : String
  calibrationHash : String
  artifactHash : String
  deriving DecidableEq

/-- A change of the model registry. -/
inductive ModelMutation where
  | register (record : ModelRecord) (manifest : ArtifactManifest)
  | validate (modelId version evidenceId : String)
  | shadow (modelId version : String)
  | canary (modelId version evidenceId : String)
  | promote (modelId version : String)
  deriving DecidableEq

-- Builders

namespace Control

open Wire

open Terminal (pushString)

def scheduledProposalMagic : List UInt8 := mark "IT_CMD_SCHEDULED_PROPOSAL_V1"

def backtestRunMagic : List UInt8 := mark "IT_CMD_BACKTEST_RUN_V1"

def strategyBacktestRunMagic : List UInt8 := mark "IT_CMD_STRATEGY_BACKTEST_RUN_V1"

def experimentMutateMagic : List UInt8 := mark "IT_CMD_EXPERIMENT_MUTATE_V1"

def modelMutateMagic : List UInt8 := mark "IT_CMD_MODEL_MUTATE_V1"

def riskPolicySetMagic : List UInt8 := mark "IT_CMD_RISK_POLICY_SET_V1"

def liveConfigureMagic : List UInt8 := mark "IT_CMD_LIVE_CONFIGURE_V1"

def llmCompleteMagic : List UInt8 := mark "IT_CMD_LLM_COMPLETE_V1"

def llmActionMagic : List UInt8 := mark "IT_CMD_LLM_ACTION_V1"

def llmStreamMagic : List UInt8 := mark "IT_CMD_LLM_STREAM_V1"

def configReloadMagic : List UInt8 := mark "IT_CMD_CONFIG_RELOAD_V1"

/-- A schedule after the code of its kind. -/
def scheduleBytes : Schedule → List UInt8
  | .immediate => [0]
  | .twap slices intervalNs => [[1], cappedBytes 4 slices, u64 intervalNs].flatten
  | .vwap weights => [[2], listBytes 4 u32 weights].flatten
  | .pov participationBps intervalNs marketVolumeTicks =>
    [[3], u32 participationBps, u64 intervalNs, listBytes 4 i64 marketVolumeTicks].flatten
  | .implementationShortfall slices intervalNs urgencyBps =>
    [[4], cappedBytes 4 slices, u64 intervalNs, u32 urgencyBps].flatten
  | .adaptive slices intervalNs urgencyBps spreadTicks maxSpreadTicks volatilityBps
      maxVolatilityBps marketVolumeTicks =>
    [[5], cappedBytes 4 slices, u64 intervalNs, u32 urgencyBps, i64 spreadTicks,
      i64 maxSpreadTicks, u32 volatilityBps, u32 maxVolatilityBps,
      listBytes 4 i64 marketVolumeTicks].flatten

def scheduledProposalCommandPayload (proposalId : ProposalId) (schedule : Schedule)
    (confirmation : String) (traceId : TraceId) : List UInt8 :=
  scheduledProposalMagic ++
    [u128 proposalId, scheduleBytes schedule, pushString confirmation, u128 traceId].flatten

def backtestEventBytes : BacktestEvent → List UInt8
  | .fill sequence quantityTicks priceTicks feeTicks =>
    [[1], u64 sequence, i64 quantityTicks, i64 priceTicks, i128 feeTicks].flatten
  | .mark sequence priceTicks => [[2], u64 sequence, i64 priceTicks].flatten

def backtestRunCommandPayload (request : BacktestRunRequest) : List UInt8 :=
  backtestRunMagic ++
    [pushString request.runId, pushString request.strategyId, pushString request.datasetHash,
      pushString request.configHash, i128 request.initialCashTicks,
      listBytes 4 backtestEventBytes request.events].flatten

/-- A metric without the instrument it is about. -/
def metricBytes (metric : MetricOutput) : List UInt8 :=
  [pushString metric.metricId, u64 metric.generatedMono, u64 metric.ttlNs, f64 metric.score,
    f64 metric.confidence, f64 metric.uncertainty].flatten

def strategyBacktestEventBytes (event : StrategyBacktestEvent) : List UInt8 :=
  [u64 event.sequence, u64 event.nowMonoNs, u128 event.instrumentId, i64 event.priceTicks,
    i128 event.feeTicks, listBytes 2 metricBytes event.metrics].flatten

def strategyBacktestCommandPayload (request : StrategyBacktestRunRequest) : List UInt8 :=
  strategyBacktestRunMagic ++
    [pushString request.runId, pushString request.strategyId, pushString request.datasetHash,
      pushString request.configHash, i128 request.initialCashTicks,
      listBytes 4 strategyBacktestEventBytes request.events].flatten

/-- An optional text after the mark of its presence. -/
def optionalBytes : Option String → List UInt8
  | none => [0]
  | some value => [[1], pushString value].flatten

def encodeExperimentProvenance (provenance : ExperimentProvenance) : List UInt8 :=
  [optionalBytes provenance.strategyId, optionalBytes provenance.strategyVersion,
    optionalBytes provenance.newsDatasetHash, optionalBytes provenance.newsClusteringVersion,
    optionalBytes provenance.graphSnapshotVersion, optionalBytes provenance.llmProvider,
    optionalBytes provenance.llmModel, optionalBytes provenance.promptVersion,
    optionalBytes provenance.toolSchemaVersion, optionalBytes provenance.autonomyConfigHash,
    listBytes 4 pushString provenance.llmCacheIds].flatten

def experimentMetricBytes (metric : String × F64) : List UInt8 :=
  [pushString metric.1, f64 metric.2].flatten

/-- A change of the experiment registry after the code of its kind. -/
def experimentMutationBytes : ExperimentMutation → List UInt8
  | .create runId codeHash configHash datasetHash =>
    [[1], pushString runId, pushString codeHash, pushString configHash,
      pushString datasetHash].flatten
  | .createWithProvenance runId codeHash configHash datasetHash provenance =>
    [[6], pushString runId, pushString codeHash, pushString configHash, pushString datasetHash,
      encodeExperimentProvenance provenance].flatten
  | .start runId => [[2], pushString runId].flatten
  | .succeed runId metrics =>
    [[3], pushString runId, listBytes 4 experimentMetricBytes metrics.toList].flatten
  | .fail runId => [[4], pushString runId].flatten
  | .addArtifact runId artifact =>
    [[5], pushString runId, pushString artifact.kind, pushString artifact.hash,
      pushString artifact.path].flatten

def experimentMutationCommandPayload (mutation : ExperimentMutation) : List UInt8 :=
  experimentMutateMagic ++ experimentMutationBytes mutation

/-- A change of the model registry after the code of its kind. The status of a record is not
written. -/
def modelMutationBytes : ModelMutation → List UInt8
  | .register record manifest =>
    [[1], pushString record.modelId, pushString record.version, pushString record.artifactHash,
      pushString record.inputSchemaHash, pushString record.outputSchemaHash,
      cappedBytes 8 record.inputWidth, pushString manifest.codeHash,
      pushString manifest.trainingDataHash, pushString manifest.configHash,
      pushString manifest.featureHash, pushString manifest.calibrationHash,
      pushString manifest.artifactHash].flatten
  | .validate modelId version evidenceId =>
    [[2], pushString modelId, pushString version, pushString evidenceId].flatten
  | .shadow modelId version => [[3], pushString modelId, pushString version].flatten
  | .canary modelId version evidenceId =>
    [[4], pushString modelId, pushString version, pushString evidenceId].flatten
  | .promote modelId version => [[5], pushString modelId, pushString version].flatten

def modelMutationCommandPayload (mutation : ModelMutation) : List UInt8 :=
  modelMutateMagic ++ modelMutationBytes mutation

def timedLimitsBytes (revision : TimedLimits) : List UInt8 :=
  [u64 revision.effectiveMonoNs, i64 revision.limits.maxPositionTicks,
    i64 revision.limits.maxOrderTicks, i128 revision.limits.maxGrossNotionalTicks].flatten

/-- The hard limits of a revision are positive. -/
def positiveLimits (limits : Limits) : Bool :=
  0 < limits.maxPositionTicks ∧ 0 < limits.maxOrderTicks ∧ 0 < limits.maxGrossNotionalTicks

def appendCommandRevisions (revisions : List TimedLimits) : Except String (List UInt8) :=
  if 256 < revisions.length then .error "risk policy revision count exceeds bound"
  else if revisions.all (positiveLimits ·.limits) then .ok (listBytes 2 timedLimitsBytes revisions)
  else .error "risk policy limits must be positive"

/-- The revisions of a scope after its identity. -/
def scopeBytes {κ : Type} (identityBytes : κ → List UInt8) (scope : κ × List TimedLimits) :
    Except String (List UInt8) := do
  let revisions ← appendCommandRevisions scope.2
  pure (identityBytes scope.1 ++ revisions)

/-- The code of an asset class. -/
def assetClassCode : AssetClass → UInt8
  | .equity => 1
  | .etf => 2
  | .option => 3
  | .future => 4
  | .fx => 5
  | .crypto => 6

/-- The scopes of a kind after their count. -/
def scopesBytes {κ : Type} (width : ℕ) (identityBytes : κ → List UInt8)
    (scopes : List (κ × List TimedLimits)) : Except String (List UInt8) := do
  let entries ← scopes.mapM (scopeBytes identityBytes)
  pure (cappedBytes width scopes.length ++ entries.flatten)

/-- The payload of a policy, or of its removal. -/
def scopedRiskPolicyCommandPayload : Option ScopedRiskPolicy → Except String (List UInt8)
  | none => .ok (riskPolicySetMagic ++ [0])
  | some policy => do
    let system ← appendCommandRevisions policy.system
    if 1024 < policy.accounts.size ∨ 1024 < policy.strategies.size ∨ 16 < policy.assets.size ∨
        16384 < policy.instruments.size then
      .error "scoped risk policy exceeds bounds"
    else do
      let accounts ← scopesBytes 2 pushString policy.accounts.toList
      let strategies ← scopesBytes 2 pushString policy.strategies.toList
      let assets ← scopesBytes 1 (fun asset => [assetClassCode asset]) policy.assets.toList
      let instruments ← scopesBytes 2 u128 policy.instruments.toList
      pure (riskPolicySetMagic ++ [[1], system, accounts, strategies, assets, instruments].flatten)

/-- The accounts in order; of more than 128, the first ones. -/
def liveConfigureCommandPayload (accounts : List String) (maxNotionalTicks : ℕ) : List UInt8 :=
  let sorted := accounts.mergeSort
  liveConfigureMagic ++
    [cappedBytes 2 sorted.length, (sorted.take 128).flatMap pushString,
      u64 maxNotionalTicks].flatten

def endpointCode : Endpoint → UInt8
  | .responses => 1
  | .chatCompletions => 2

def llmCommandPayload (magic : List UInt8) (request : LlmRequest) : List UInt8 :=
  magic ++
    [pushString request.traceId, pushString request.promptVersion, pushString request.model,
      pushString request.task, pushString request.contextHash, pushString request.input,
      u32 request.maxOutputTokens, [endpointCode request.endpoint]].flatten

def llmCompleteCommandPayload : LlmRequest → List UInt8 := llmCommandPayload llmCompleteMagic

def llmActionCommandPayload : LlmRequest → List UInt8 := llmCommandPayload llmActionMagic

def llmStreamCommandPayload : LlmRequest → List UInt8 := llmCommandPayload llmStreamMagic

def configReloadCommandPayload (expectedVersion : ℕ) (cfgText : String) : List UInt8 :=
  configReloadMagic ++ [u64 expectedVersion, pushString cfgText].flatten

end Control

end InsiderTrader
