import InsiderTrader.Host

/-!
# Operations of the host: orders, market data and controls

The public operations that reach the broker, feed the portfolio or change what
is allowed, in the order in which the engine defines them.

## Main definitions

- `Host.submitProposal`, `Host.submitManualPreview` — one planned order each
- `Host.submitScheduledProposal`, `Host.driveScheduledChildren` — parent plans
- `Host.cancelOrder`, `Host.replaceOrder` — requests about a working order
- `Host.applyBrokerEvent` — one event of the broker's stream
- `Host.transitionRiskState` — the risk state, with cancellation on a halt
-/

namespace InsiderTrader

open MachineInt

/-- Read-only preview of a manual command. -/
structure ManualOrderPreview where
  previewId : String
  expectedStateVersion : ℕ
  expiresMonoNs : ℕ
  intent : OrderIntent
  targetQuantityTicks : Int
  proposalId : ProposalId
  estimatedNotionalTicks : Option Int
  deriving DecidableEq

/-- Intents that ask for the same order; trace and lifecycle state may differ. -/
def sameOrderIdentity (left right : OrderIntent) : Bool :=
  left.intentId = right.intentId ∧ left.accountId = right.accountId
    ∧ left.instrumentId = right.instrumentId ∧ left.clientOrderId = right.clientOrderId
    ∧ left.side = right.side ∧ left.quantityTicks = right.quantityTicks
    ∧ left.orderType = right.orderType ∧ left.limitPriceTicks = right.limitPriceTicks
    ∧ left.timeInForce = right.timeInForce

/-- The mark an event carries: a quote's midpoint, a trade's price. -/
def marketEventMark : MarketEvent → Option (InstrumentId × Int)
  | .quote q => (narrow 64 (q.bidTicks + q.askTicks)).map fun sum => (q.instrumentId, sum.tdiv 2)
  | .trade t => some (t.instrumentId, t.priceTicks)
  | .book _ => none

namespace Host

/-- Run a computation on the market hub. -/
def onMarketData {α : Type} (p : Fallible MarketDataHub HubError α) :
    Fallible Host EngineError α :=
  Fallible.zoom (·.marketData) ({ · with marketData := · }) (fun e => .marketData (.hub e)) p

-- Market data

/-- Register an instrument. -/
def registerMarketInstrument (instrumentId : InstrumentId) : Fallible Host EngineError Unit :=
  Fallible.modify fun h => { h with marketData := (h.marketData.register instrumentId).2 }

/-- Ingest one event. What is accepted is journaled, then moves the mark; a new equity peak is
journaled before the mark that causes it. -/
def ingestMarketEvent (env : Env) (event : MarketEvent) (receiveWall : WallTime) :
    Fallible Host EngineError Unit := do
  let overflows := match event with
    | .quote q => (narrow 64 (q.bidTicks + q.askTicks)).isNone
    | _ => false
  Fallible.require (overflows = false) (.marketData (.text "quote midpoint overflow"))
  let outcome ← onMarketData (MarketDataHub.ingest event receiveWall)
  match outcome with
  | .duplicate => pure ()
  | .accepted _ =>
    appendEvent env (.marketEvent event receiveWall)
    match marketEventMark event with
    | none => pure ()
    | some (instrumentId, priceTicks) =>
      let h ← Fallible.reads id
      let projection := Portfolio.setMarkPrice instrumentId priceTicks h.runtime.portfolio
      Fallible.ofExcept (projection.1.mapError .accounting)
      Fallible.when (projection.2.peakEquityTicks ≠ h.runtime.portfolio.peakEquityTicks)
        (appendEvent env (.portfolioPeak projection.2.peakEquityTicks))
      onRuntime (Runtime.updateMarkPrice instrumentId priceTicks)

/-- Ingest one historical bar; it moves no mark. -/
def ingestMarketBar (env : Env) (bar : Bar) (sequence : ℕ) : Fallible Host EngineError Unit := do
  let update ← onMarketData (MarketDataHub.ingestBar bar sequence)
  match update with
  | .new _ | .correction _ => appendEvent env (.marketBar bar sequence)
  | _ => pure ()

/-- Install a depth snapshot after a gap; nothing is journaled. -/
def recoverMarketBook (instrumentId : InstrumentId) (sequence : ℕ)
    (bids asks : List (Int × Int)) : Fallible Host EngineError Unit :=
  onMarketData (MarketDataHub.recoverBook instrumentId sequence bids asks)

/-- Restart a quote or trade stream; nothing is journaled. -/
def recoverMarketStream (instrumentId : InstrumentId) (kind : StreamKind) (sequence : ℕ)
    (received : MonoTime) : Fallible Host EngineError Unit :=
  onMarketData (MarketDataHub.recoverStream instrumentId kind sequence received)

/-- Mark feeds stale after their deadline. -/
def markMarketDataStale (now : MonoTime) (maxAgeNs : ℕ) : Fallible Host EngineError Unit :=
  Fallible.modify fun h => { h with marketData := h.marketData.markStale now maxAgeNs }

-- Proposals and previews

/-- Admit a proposal to the coordinator; the record is journaled before it is published. -/
def submitStrategyProposal (env : Env) (proposal : Proposal) (now : MonoTime) :
    Fallible Host EngineError Unit := do
  let h ← Fallible.reads id
  let admission := Coordinator.submitChecked env.float proposal now h.strategyCoordinator
  Fallible.ofExcept (admission.1.mapError .strategy)
  appendEvent env (.strategyProposal proposal)
  Fallible.modify ({ · with strategyCoordinator := admission.2 })

/-- Resolve the pending proposals; the boundary is journaled before the outcome is published. -/
def resolveStrategyProposals (env : Env) (policy : StrategyPolicy) (now : MonoTime) :
    Fallible Host EngineError ResultSet := do
  let h ← Fallible.reads id
  let resolved := Coordinator.resolveAt env.float policy now h.strategyCoordinator
  appendEvent env (encodeStrategyResolution policy now)
  Fallible.modify ({ · with strategyCoordinator := resolved.2 })
  pure resolved.1

/-- Resolve the pending proposals under quantity budgets. -/
def resolveStrategyProposalsWithBudgets (env : Env) (policy : StrategyPolicy) (now : MonoTime)
    (budgets : Std.TreeMap String Int) : Fallible Host EngineError BudgetedResultSet := do
  Fallible.require (budgets.values.all (0 < ·)) (.strategyText "invalid strategy budget")
  let h ← Fallible.reads id
  let resolved := Coordinator.resolveAtWithBudgets env.float policy now budgets
    h.strategyCoordinator
  appendEvent env (encodeStrategyResolutionWithBudgets policy now budgets)
  Fallible.modify ({ · with strategyCoordinator := resolved.2 })
  pure resolved.1

/-- The preview of a planned intent at the current journal version. -/
def previewOf (intent : OrderIntent) (targetQuantityTicks : Int) (proposalId : ProposalId)
    (now : MonoTime) (ttlNs : ℕ) (h : Host) : ManualOrderPreview :=
  let portfolio := h.runtime.portfolio
  let price := (portfolio.markPrice intent.instrumentId).or
    ((portfolio.position intent.instrumentId).map (·.markPriceTicks))
  { previewId := "preview-" ++ toString h.journalCursor ++ "-" ++ intent.clientOrderId
    expectedStateVersion := h.journalCursor
    expiresMonoNs := min (now + ttlNs) u64Max
    intent := intent
    targetQuantityTicks := targetQuantityTicks
    proposalId := proposalId
    estimatedNotionalTicks := price.bind fun p => narrow 128 (intent.quantityTicks * p) }

/-- Preview a manual target. -/
def previewManualTargetWithOrder (env : Env) (instrumentId : InstrumentId)
    (targetQuantityTicks : Int) (proposalId : ProposalId) (now : MonoTime) (traceId : TraceId)
    (ttlNs : ℕ) (orderType : OrderType) (limitPriceTicks : Option Int) :
    Fallible Host EngineError ManualOrderPreview := do
  let h ← Fallible.reads id
  Fallible.require (h.lifecycle = .running ∧ ttlNs ≠ 0) .notRunning
  Fallible.ofExcept (h.ensureMarketHealthForTarget instrumentId targetQuantityTicks
    (h.runtime.portfolio.quantity instrumentId))
  let intent ← onRuntime (Runtime.prepareManualTargetWithOrder env instrumentId
    targetQuantityTicks proposalId now traceId orderType limitPriceTicks)
  Fallible.reads (previewOf intent targetQuantityTicks proposalId now ttlNs)

/-- Scale a proposal's action. -/
def scaledProposal (env : Env) (proposal : Proposal) (scale : F64) :
    Fallible Host EngineError Proposal := do
  let action ← Fallible.orFail (scaleAction env.float scale proposal.action) .invalidRequest
  pure { proposal with action := action }

/-- Preview an admitted proposal at a scale. -/
def previewStrategyProposal (env : Env) (proposalId : ProposalId) (scale : F64) (now : MonoTime)
    (traceId : TraceId) (ttlNs : ℕ) : Fallible Host EngineError ManualOrderPreview := do
  Fallible.require (env.float.inPositiveUnit scale ∧ ttlNs ≠ 0) .invalidRequest
  let h ← Fallible.reads id
  let record ← Fallible.orFail (h.strategyCoordinator.record proposalId) .invalidRequest
  let scaled ← scaledProposal env record.proposal scale
  let target ← Fallible.ofExcept
    ((h.runtime.portfolio.targetFromProposal env.float scaled).mapError .target)
  Fallible.ofExcept (h.ensureMarketHealthForTarget target.instrumentId target.quantityTicks
    (h.runtime.portfolio.quantity target.instrumentId))
  let intent ← onRuntime (Runtime.prepareProposal env scaled now traceId)
  Fallible.reads (previewOf intent intent.quantityTicks proposalId now ttlNs)

-- Submission

/-- Revalidate a preview and submit it. -/
def submitManualPreview (env : Env) (preview : ManualOrderPreview) (now : MonoTime)
    (confirmation : String) : Fallible Host EngineError String := do
  requireRunning
  Fallible.require (confirmation = "CONFIRM") .confirmationRequired
  Fallible.require (now ≤ preview.expiresMonoNs) .previewExpired
  let h ← Fallible.reads id
  Fallible.require (h.journalCursor = preview.expectedStateVersion) .stalePreview
  let refreshed ← onRuntime (Runtime.prepareManualTargetWithOrder env preview.intent.instrumentId
    preview.targetQuantityTicks preview.proposalId now preview.intent.traceId
    preview.intent.orderType preview.intent.limitPriceTicks)
  Fallible.require (sameOrderIdentity refreshed preview.intent) .stalePreview
  submitPlanned env refreshed refreshed.traceId preview.proposalId now
  pure refreshed.clientOrderId

/-- Check the market of a proposal and plan its intent. -/
def planProposal (env : Env) (proposal : Proposal) (now : MonoTime) (traceId : TraceId) :
    Fallible Host EngineError OrderIntent := do
  requireRunning
  let h ← Fallible.reads id
  let target ← Fallible.ofExcept
    ((h.runtime.portfolio.targetFromProposal env.float proposal).mapError .target)
  Fallible.ofExcept (h.ensureMarketHealthForTarget target.instrumentId target.quantityTicks
    (h.runtime.portfolio.quantity target.instrumentId))
  onRuntime (Runtime.prepareProposal env proposal now traceId)

/-- Submit a proposal while the host is running. -/
def submitProposal (env : Env) (proposal : Proposal) (now : MonoTime) (traceId : TraceId) :
    Fallible Host EngineError String := do
  let intent ← planProposal env proposal now traceId
  submitPlanned env intent traceId proposal.proposalId now
  pure intent.clientOrderId

/-- Journal a claimed child and restore its intent into the book. -/
def restoreClaim (env : Env) (claim : Runtime.ClaimedChild) :
    Fallible Host EngineError Unit := do
  appendEvent env (encodeChildPlan claim.record)
  appendEvent env (encodeOrderIntent claim.intent)
  indexOrder claim.intent
  onRuntime (Runtime.restoreIntent claim.intent)

/-- Send a restored child; the outcome marks the child and its plan is journaled. -/
def settleClaim (env : Env) (now : MonoTime) (claim : Runtime.ClaimedChild) :
    Fallible Host EngineError Unit := do
  let result ← Fallible.attempt (submitIntentWithTiming env claim.intent now)
  match result with
  | .ok _ =>
    let updated ← onRuntime (Runtime.markChildSent claim.intent.clientOrderId)
    appendEvent env (encodeChildPlan updated)
  | .error error =>
    let updated ← onRuntime (Runtime.markChildUnknown claim.intent.clientOrderId)
    appendEvent env (encodeChildPlan updated)
    Fallible.fail error

/-- Journal, restore and send one claimed child. -/
def driveChild (env : Env) (now : MonoTime) (claim : Runtime.ClaimedChild) :
    Fallible Host EngineError Unit := do
  restoreClaim env claim
  settleClaim env now claim

/-- Claim and send all due children of all parent plans. -/
def driveScheduledChildren (env : Env) (now : MonoTime) : Fallible Host EngineError ℕ := do
  let claims ← onRuntime (Runtime.claimDueChildren now)
  Fallible.forEach (driveChild env now) claims
  pure claims.length

/-- Create a parent plan and start the children due at once. -/
def submitScheduledProposal (env : Env) (proposal : Proposal) (schedule : Schedule)
    (now : MonoTime) (traceId : TraceId) : Fallible Host EngineError String := do
  let parent ← planProposal env proposal now traceId
  let h ← Fallible.reads id
  Fallible.ofExcept (h.runtime.authorizeIntent parent)
  let record ← onRuntime (Runtime.createChildPlan parent schedule now)
  appendEvent env (.traceLink traceId "proposal" (toString proposal.proposalId))
  appendEvent env (encodeChildPlan record)
  let _ ← driveScheduledChildren env now
  pure record.plan.parentClientOrderId

/-- Submit an admitted proposal at a scale. -/
def submitScaledProposal (env : Env) (proposalId : ProposalId) (scale : F64) (now : MonoTime)
    (traceId : TraceId) : Fallible Host EngineError String := do
  Fallible.require (env.float.inPositiveUnit scale) .invalidRequest
  let h ← Fallible.reads id
  let record ← Fallible.orFail (h.strategyCoordinator.record proposalId) .invalidRequest
  let scaled ← scaledProposal env record.proposal scale
  submitProposal env scaled now traceId

/-- Submit the proposal of an approved action. -/
def submitApprovedAction (env : Env) (approved : ApprovedAction) (proposal : Proposal)
    (now : MonoTime) (traceId : TraceId) : Fallible Host EngineError String := do
  requireRunning
  let proposalId ← Fallible.orFail approved.action.proposalId .invalidRequest
  Fallible.require (proposalId = displayIdentity "proposal" proposal.proposalId
    ∧ (approved.action.actionType = .executeProposal
      ∨ approved.action.actionType = .executeProposalScaled)) .invalidRequest
  Fallible.require (env.float.inPositiveUnit approved.scale) .invalidRequest
  let scaled ← scaledProposal env proposal approved.scale
  submitProposal env scaled now traceId

-- Broker events and live controls

/-- Persist and apply one broker event. -/
def applyBrokerEvent (env : Env) (event : BrokerEvent) : Fallible Host EngineError Unit := do
  appendEvent env (.brokerEvent event)
  recordTiming env event
  let h ← Fallible.reads id
  let priorFill := h.runtime.filledQuantity event.clientOrderId
  onRuntime (Runtime.applyBrokerEvent event)
  indexFillNow env event
  let now ← monotonicNow env
  indexPortfolio now
  recordAttribution env event priorFill
  recordChildEvent env event

/-- Replace the live limits; the record is journaled before the guard is asked. -/
def configureLiveLimits (env : Env) (limits : LiveLimits) : Fallible Host EngineError Unit := do
  appendEvent env (.liveLimits limits)
  onRuntime (Runtime.configureLiveLimits limits)

/-- First step of live enablement. -/
def armLive (account : String) (now : MonoTime) (phrase : String) :
    Fallible Host EngineError String :=
  onRuntime (Runtime.onLiveGuard (LiveGuard.armLive account now phrase))

/-- Second step of live enablement. -/
def confirmLive (account token : String) (now : MonoTime) (phrase : String) :
    Fallible Host EngineError Unit :=
  onRuntime (Runtime.onLiveGuard (LiveGuard.confirmLive account token now phrase))

/-- Disable live submission. -/
def killLive (env : Env) : Fallible Host EngineError Unit := do
  appendEvent env .liveKill
  onRuntime Runtime.killLive

/-- Ask for the cancellation of a working order. -/
def cancelOrder (env : Env) (clientOrderId : String) : Fallible Host EngineError Unit := do
  requireRunning
  appendJournal env (.cancelRequest clientOrderId)
  onRuntime (Runtime.cancelOrder env clientOrderId)

/-- Ask for the replacement of a working order. -/
def replaceOrder (env : Env) (clientOrderId : String) (quantityTicks : Int)
    (limitPriceTicks : Option Int) : Fallible Host EngineError Unit := do
  requireRunning
  appendEvent env (.replaceRequest clientOrderId quantityTicks limitPriceTicks)
  onRuntime (Runtime.replaceOrder env clientOrderId quantityTicks limitPriceTicks)

/-- Publish a trusted mark; nothing is journaled. -/
def updateMarkPrice (instrumentId : InstrumentId) (priceTicks : Int) :
    Fallible Host EngineError Unit := do
  let h ← Fallible.reads id
  Fallible.require (h.lifecycle ≠ .stopped) .notRunning
  onRuntime (Runtime.updateMarkPrice instrumentId priceTicks)

/-- Install a scoped policy. -/
def setScopedRiskPolicy (env : Env) (policy : Option ScopedRiskPolicy) :
    Fallible Host EngineError Unit := do
  let record ← Fallible.ofExcept (encodeScopedRiskPolicy policy)
  appendEvent env record
  onRuntime (Runtime.setScopedRiskPolicy policy)

/-- Try a corporate action on a copy, journal it and apply it. -/
def applyCorporateAction (env : Env) (instrumentId : InstrumentId) (kind : CorporateActionKind) :
    Fallible Host EngineError Unit := do
  let h ← Fallible.reads id
  Fallible.require (h.lifecycle ≠ .stopped) .notRunning
  let _ ← Fallible.ofExcept
    ((Portfolio.applyCorporateAction instrumentId kind h.runtime.portfolio).1.mapError .accounting)
  appendEvent env (.corporateAction instrumentId kind)
  onRuntime (Runtime.applyCorporateAction instrumentId kind)

/-- Try to cancel each order; failures are only counted. -/
def cancelOrders (env : Env) (ids : List String) : Fallible Host EngineError Unit :=
  Fallible.forEach (fun id => do
    let _ ← Fallible.attempt (δ := EngineError) (cancelOrder env id)
    pure ()) ids

/-- Journal an alert, as far as that succeeds. -/
def publishAlert (env : Env) : Fallible Host EngineError Unit := do
  let _ ← monotonicNow env
  let _ ← Fallible.attempt (δ := EngineError) (appendEvent env (.other "alert"))

/-- Change the risk state. A halt cancels the working orders; the alert is best effort. -/
def transitionRiskState (env : Env) (next : RiskState) (authorization : String) :
    Fallible Host EngineError Unit := do
  let h ← Fallible.reads id
  Fallible.ofExcept ((h.runtime.risk.validateTransition next authorization).mapError .riskState)
  appendJournal env (.riskState next authorization)
  onRuntime (Runtime.transitionRiskState next authorization)
  let h ← Fallible.reads id
  Fallible.when (next = .halted) (cancelOrders env h.runtime.workingOrderIds)
  Fallible.when (next ≠ .running) (publishAlert env)

/-- Replace the guardrails by those of a new configuration. -/
def reloadConfig (guardrails : Guardrails) : Fallible Host EngineError Unit :=
  onRuntime (Runtime.setGuardrails guardrails)

end Host

end InsiderTrader
