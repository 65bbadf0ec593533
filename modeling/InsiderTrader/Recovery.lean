import InsiderTrader.Reconciliation

/-!
# Recovery

The replay of a journal into a fresh host. Every record is decoded and applied
in order; all failures but a refused broker event abort the start.

## Main definitions

- `Settings` — what a host is opened with besides its journal
- `Host.replay` — one recovered event
- `Host.openJournal` — the host after its journal
-/

namespace InsiderTrader

/-- What a host is opened with: its account, the starting portfolio and risk engine, and the
configured guardrails. -/
structure Settings where
  accountId : AccountId
  portfolio : Portfolio
  risk : RiskEngine
  guardrails : Guardrails

/-- Recovery anomalies kept. -/
def maxRecoveryAnomalies : ℕ := 1024

namespace Host

/-- The risk engine of the settings; configured guardrails start a running engine. -/
def startingRisk (settings : Settings) : RiskEngine :=
  if settings.guardrails = {} then settings.risk
  else ⟨settings.risk.limits, settings.guardrails, .running⟩

/-- The host before replay. -/
def start (settings : Settings) : Host where
  runtime := Runtime.new settings.accountId settings.portfolio (startingRisk settings)
  lifecycle := .reconciling
  autonomyPlans := .new
  marketData := .new
  contextGraph := []
  recoveryAnomalies := []
  strategyCoordinator := .new
  autonomyMode := .manual
  strategyExecutionSummaries := ∅
  readModel := .new
  clockReads := 0

/-- Keep a refused broker event, dropping the oldest when there are too many. -/
def pushAnomaly (anomaly : RecoveryAnomaly) (h : Host) : Host :=
  let kept := if maxRecoveryAnomalies ≤ h.recoveryAnomalies.length then h.recoveryAnomalies.drop 1
    else h.recoveryAnomalies
  { h with recoveryAnomalies := kept ++ [anomaly] }

/-- Register the instrument of a recovered market record. -/
def ensureRegistered (instrumentId : InstrumentId) (message : String) :
    Fallible Host EngineError Unit := do
  let h ← Fallible.reads id
  if h.marketData.contains instrumentId then pure ()
  else
    Fallible.require (h.marketData.register instrumentId).1 (.marketData (.text message))
    Fallible.modify ({ · with marketData := (h.marketData.register instrumentId).2 })

/-- Attribute a recovered fill. An order without a side is passed over. -/
def recoverAttribution (event : BrokerEvent) (priorFill : Int) :
    Fallible Host EngineError Unit := do
  let h ← Fallible.reads id
  if h.fillAdvanced event priorFill then
    match event with
    | .filled clientOrderId quantityTicks priceTicks =>
      match h.strategyOfOrder clientOrderId, h.runtime.orderSide clientOrderId with
      | some strategyId, some side =>
        Fallible.discard (addStrategyFill strategyId (signedFill side quantityTicks) priceTicks)
      | _, _ => pure ()
    | _ => pure ()
  else pure ()

/-- A refused lifecycle step is kept as an anomaly, any other failure stops. -/
def keepAnomaly (sequence : ℕ) : Except EngineError Unit → Fallible Host EngineError Unit
  | .ok _ => pure ()
  | .error (.transition error) => Fallible.modify (pushAnomaly ⟨sequence, error⟩)
  | .error error => Fallible.fail error

/-- Replay a broker event. A refused lifecycle step becomes an anomaly. -/
def replayBrokerEvent (sequence : ℕ) (event : BrokerEvent) : Fallible Host EngineError Unit := do
  indexFill event
  let h ← Fallible.reads id
  let priorFill := h.runtime.filledQuantity event.clientOrderId
  let outcome ← Fallible.attempt (onRuntime (Runtime.applyBrokerEvent event))
  keepAnomaly sequence outcome
  recoverAttribution event priorFill
  Fallible.discard (onRuntime (Runtime.applyChildEvent event))

/-- Replay one recovered event of a sequence number. -/
def replay (float : FloatArith) (sequence : ℕ) : RecoveredEvent → Fallible Host EngineError Unit
  | .market event receiveWall => do
    ensureRegistered event.instrumentId "market journal instrument capacity exceeded"
    let outcome ← onMarketData (MarketDataHub.ingest event receiveWall)
    match outcome, marketEventMark event with
    | .accepted _, some (instrumentId, priceTicks) =>
      onRuntime (Runtime.updateMarkPrice instrumentId priceTicks)
    | _, _ => pure ()
  | .marketBar bar barSequence => do
    ensureRegistered bar.instrumentId "market bar journal instrument capacity exceeded"
    Fallible.discard (onMarketData (MarketDataHub.ingestBar bar barSequence))
  | .intent intent => do
    indexOrder intent
    onRuntime (Runtime.restoreIntent intent)
  | .childPlan record => onRuntime (Runtime.restoreChildPlan record)
  | .executionTiming timing => onRuntime (Runtime.restoreTiming timing)
  | .broker event => replayBrokerEvent sequence event
  | .risk state authorization => onRuntime (Runtime.transitionRiskState state authorization)
  | .liveLimits limits => onRuntime (Runtime.configureLiveLimits limits)
  | .liveKilled => onRuntime Runtime.killLive
  | .portfolioSnapshot positions cashTicks => do
    onRuntime (Runtime.applyReconciledPortfolio positions cashTicks)
    indexPortfolio sequence
  | .portfolioPeak peak => onRuntime (Runtime.restorePeakEquityTicks peak)
  | .corporateAction instrumentId kind => onRuntime (Runtime.applyCorporateAction instrumentId kind)
  | .scopedRiskPolicy policy =>
    match policy with
    | none => onRuntime (Runtime.setScopedRiskPolicy none)
    | some snapshot => do
      let policy ← Fallible.ofExcept ((ScopedRiskPolicy.fromSnapshot snapshot).mapError .riskPolicy)
      onRuntime (Runtime.setScopedRiskPolicy (some policy))
  | .autonomy event =>
    Fallible.zoom (·.autonomyPlans) ({ · with autonomyPlans := · }) (fun e => .autonomy (.store e))
      (PlanStore.restoreEvent float event)
  | .strategyProposal proposal =>
    Fallible.zoom (·.strategyCoordinator) ({ · with strategyCoordinator := · }) .strategy
      (Coordinator.submitChecked float proposal proposal.generatedMono)
  | .strategyResolution policy now budgets => Fallible.modify fun h => { h with
      strategyCoordinator :=
        if budgets.isEmpty then (Coordinator.resolveAt float policy now h.strategyCoordinator).2
        else (Coordinator.resolveAtWithBudgets float policy now budgets h.strategyCoordinator).2 }
  | .strategyExecution summary => Fallible.modify fun h => { h with
      strategyExecutionSummaries := h.strategyExecutionSummaries.insert summary.strategyId summary }
  | .autonomyMode mode => Fallible.modify ({ · with autonomyMode := mode })

/-- Decode and replay one journal record. -/
def replayRecord (float : FloatArith) (sequence : ℕ) (record : JournalRecord) :
    Fallible Host EngineError Unit := do
  let event ← Fallible.ofExcept (decodeJournalPayload float record)
  match event with
  | none => pure ()
  | some event => replay float sequence event

/-- Replay a journal from a sequence number on. -/
def replayFrom (float : FloatArith) : ℕ → List JournalRecord → Fallible Host EngineError Unit
  | _, [] => pure ()
  | sequence, record :: records => do
    replayRecord float sequence record
    replayFrom float (sequence + 1) records

/-- A host whose journal so far is `journal`, with the read model rebuilt from it. -/
def withJournal (journal : List JournalRecord) (h : Host) : Host :=
  { h with
    runtime := { h.runtime with trace := journal.map .append }
    readModel := .rebuild journal }

/-- Open a host on a journal. -/
def openJournal (float : FloatArith) (settings : Settings) (journal : List JournalRecord) :
    Except EngineError Host :=
  let replayed := replayFrom float 0 journal (start settings)
  replayed.1.map fun _ => replayed.2.withJournal journal

theorem openJournal_nil (float : FloatArith) (settings : Settings) :
    openJournal float settings [] = .ok (start settings) := rfl

end Host

end InsiderTrader
