import InsiderTrader.Submission

/-!
# Operations of the host: plans and reconciliation

The lifecycle of autonomous plans and their execution, the reconciliation
sweep that gates the host, and shutdown.

## Main definitions

- `Host.executeAutonomyPlan` — the proposals of a plan, submitted in turn
- `Host.transitionAutonomyPlan`, `Host.recoverExecutingAutonomyPlans`
- `Host.reconcileUnknownOrders` — a broker query for each unknown order
- `Host.reconcileSweep`, `Host.reconcileTrigger` — the sweep, and the plans it resumes
-/

namespace InsiderTrader

/-- The trace seed of a plan: a hash of its identity, never zero. -/
def stableAutonomyTraceSeed (planId : String) : ℕ :=
  max (planId.toUTF8.data.toList.foldl
    (fun hash byte => (hash ^^^ byte.toNat) * 0x100000001b3 % 2 ^ 128) 0xcbf29ce484222325) 1

/-- Summary of a reconciliation sweep. A failure carries the order it is about, or the
text the sweep gives it. -/
structure ReconcileSummary where
  queried : ℕ
  resolved : ℕ
  stillUnknown : ℕ
  failed : List (String × EngineError)
  externalOrders : ℕ
  missingAtBroker : ℕ
  snapshotPositions : ℕ
  snapshotAccountValues : ℕ
  deriving DecidableEq

/-- A sweep that leaves nothing open. -/
def ReconcileSummary.clean (s : ReconcileSummary) : Bool :=
  s.failed.isEmpty ∧ s.stillUnknown = 0 ∧ s.externalOrders = 0 ∧ s.missingAtBroker = 0

namespace Host

-- Autonomous plans

/-- Persist the events of a changed plan store, then publish it. -/
def publishPlans (env : Env) (candidate : PlanStore) : Fallible Host EngineError Unit := do
  Fallible.forEach (fun event => appendEvent env (.planEvent event)) candidate.drainEvents.1
  Fallible.modify ({ · with autonomyPlans := candidate.drainEvents.2 })

/-- Submit a validated plan. -/
def submitAutonomyPlan (env : Env) (plan : Plan) (now : MonoTime) :
    Fallible Host EngineError Unit := do
  let h ← Fallible.reads id
  let submission := PlanStore.submit env.float plan now h.autonomyPlans
  Fallible.ofExcept (submission.1.mapError fun e => .autonomy (.store e))
  publishPlans env submission.2

/-- Persist one lifecycle step of a plan and publish it, whatever its outcome. -/
def recordPlanTransition (env : Env) (planId : String) (next : PlanState) (now : MonoTime) :
    Fallible Host EngineError Unit := do
  let h ← Fallible.reads id
  Fallible.require (¬((next = .approved ∨ next = .executing) ∧ h.autonomyMode = .manual))
    (.autonomy (.text "manual mode cannot approve or execute autonomous plans"))
  let step := PlanStore.transition planId next now h.autonomyPlans
  publishPlans env step.2
  Fallible.ofExcept (step.1.mapError fun e => .autonomy (.store e))

/-- The trace of a plan's action. -/
def actionTrace (planId : String) (index : ℕ) : TraceId :=
  max (min (stableAutonomyTraceSeed planId + index) (2 ^ 128 - 1)) 1

/-- Submit the proposal one action names, unless its order is there already. -/
def executeAction (env : Env) (planId : String) (now : MonoTime) (index : ℕ)
    (action : AutonomousAction) : Fallible Host EngineError Unit := do
  match action.proposalId with
  | none =>
    Fallible.require (action.actionType ≠ .executeProposal
      ∧ action.actionType ≠ .executeProposalScaled)
      (.autonomy (.text "execute action is missing proposal ID"))
  | some text =>
    let proposalId ← Fallible.orFail ((parseProposalId text).or (parseDecimalProposalId text))
      (.autonomy (.text "autonomous proposal ID is invalid"))
    let trace := actionTrace planId index
    let h ← Fallible.reads id
    let submitted := h.runtime.hasOrder (h.runtime.clientOrderIdForProposal proposalId)
    match action.actionType with
    | .executeProposal =>
      if submitted then pure ()
      else
        let record ← Fallible.orFail (h.strategyCoordinator.record proposalId)
          (.autonomy (.text "autonomous proposal unavailable"))
        Fallible.discard (submitProposal env record.proposal now trace)
    | .executeProposalScaled =>
      if submitted then pure ()
      else
        let scale ← Fallible.orFail action.scale
          (.autonomy (.text "scaled action is missing scale"))
        Fallible.discard (submitScaledProposal env proposalId scale now trace)
    | _ => pure ()

/-- Execute the actions of a plan in turn. -/
def executeAutonomyPlan (env : Env) (planId : String) (now : MonoTime) :
    Fallible Host EngineError Unit := do
  let h ← Fallible.reads id
  let record ← Fallible.orFail (h.autonomyPlans.get planId)
    (.autonomy (.text "autonomous plan disappeared"))
  Fallible.forEach (fun e => executeAction env planId now e.2 e.1) record.plan.actions.zipIdx

/-- Execute a plan and record how it ended; the record of a failure is best effort. -/
def runPlan (env : Env) (planId : String) (now : MonoTime) : Fallible Host EngineError Unit := do
  let execution ← Fallible.attempt (executeAutonomyPlan env planId now)
  match execution with
  | .ok _ => recordPlanTransition env planId .completed now
  | .error error =>
    let _ ← Fallible.attempt (δ := EngineError) (recordPlanTransition env planId .failed now)
    Fallible.fail error

/-- Record a lifecycle step of a plan; a plan that starts executing is executed and ends
completed or failed. -/
def transitionAutonomyPlan (env : Env) (planId : String) (next : PlanState) (now : MonoTime) :
    Fallible Host EngineError Unit := do
  recordPlanTransition env planId next now
  Fallible.when (next = .executing) (runPlan env planId now)

/-- Resume one plan that was executing when the process stopped. -/
def recoverPlan (env : Env) (now : MonoTime) (planId : String) :
    Fallible Host EngineError Unit := do
  let h ← Fallible.reads id
  match h.autonomyPlans.get planId with
  | none => pure ()
  | some record =>
    if record.plan.expiresAt ≤ now then
      Fallible.discard (Fallible.attempt (recordPlanTransition env planId .expired now))
    else runPlan env planId now

/-- Resume the executing plans, unless the mode is manual. -/
def recoverExecutingAutonomyPlans (env : Env) (now : MonoTime) :
    Fallible Host EngineError Unit := do
  let h ← Fallible.reads id
  if h.autonomyMode = .manual then pure ()
  else Fallible.forEach (recoverPlan env now) h.autonomyPlans.executingPlanIds

/-- Resume the executing plans now. -/
def resumePlans (env : Env) : Fallible Host EngineError Unit := do
  let now ← monotonicNow env
  recoverExecutingAutonomyPlans env now

/-- Persist and publish the automation mode. -/
def setAutonomyMode (env : Env) (mode : AutonomyMode) : Fallible Host EngineError Unit := do
  appendEvent env (.autonomyMode mode)
  Fallible.modify ({ · with autonomyMode := mode })
  let h ← Fallible.reads id
  Fallible.when (mode ≠ .manual ∧ h.lifecycle = .running) (resumePlans env)

-- Reconciliation

/-- Apply what the broker answered about an unknown order. The portfolio is left to the
account snapshot. -/
def applyReconciledEvent (env : Env) (event : BrokerEvent) : Fallible Host EngineError Unit := do
  appendEvent env (.brokerEvent event)
  recordTiming env event
  onRuntime (Runtime.applyReconciledBrokerEvent event)
  indexFillNow env event
  recordChildEvent env event

/-- Query the broker about each order of a list. -/
def queryOrders (env : Env) : List String → ReconcileSummary →
    Fallible Host EngineError ReconcileSummary
  | [], summary => pure summary
  | id :: ids, summary => do
    let answer ← onRuntime (Runtime.queryReconcile env id)
    match answer with
    | .ok (some event) =>
      applyReconciledEvent env event
      queryOrders env ids { summary with resolved := summary.resolved + 1 }
    | .ok none => queryOrders env ids { summary with stillUnknown := summary.stillUnknown + 1 }
    | .error message =>
      queryOrders env ids { summary with failed := summary.failed ++ [(id, .reconcile message)] }

/-- Reconcile all unknown orders. -/
def reconcileUnknownOrders (env : Env) : Fallible Host EngineError ReconcileSummary := do
  let h ← Fallible.reads id
  let ids := h.runtime.unknownOrderIds
  queryOrders env ids ⟨ids.length, 0, 0, [], 0, 0, 0, 0⟩

/-- The event a snapshot order stands for: a fill is cut down to what is not yet known, and
there is none when nothing is new. -/
def snapshotEvent (h : Host) (order : BrokerOrderSnapshot) : Option BrokerEvent :=
  match order.event, order.filledQuantityTicks with
  | .filled clientOrderId _ priceTicks, some cumulative =>
    let current := h.runtime.filledQuantity order.clientOrderId
    if cumulative ≤ current then none
    else some (.filled clientOrderId (min (cumulative - current) (2 ^ 63 - 1)) priceTicks)
  | event, _ => some event

/-- Journal and apply one snapshot event. A local refusal is a failure of the sweep. -/
def applySnapshotEvent (env : Env) (event : BrokerEvent) (summary : ReconcileSummary) :
    Fallible Host EngineError ReconcileSummary := do
  appendEvent env (.brokerEvent event)
  recordTiming env event
  let h ← Fallible.reads id
  let priorFill := h.runtime.filledQuantity event.clientOrderId
  let outcome ← Fallible.attempt (onRuntime (Runtime.applyReconciledBrokerEvent event))
  match outcome with
  | .error error => pure { summary with failed := summary.failed ++ [("snapshot-order", error)] }
  | .ok _ =>
    indexFillNow env event
    recordAttribution env event priorFill
    recordChildEvent env event
    pure summary

/-- Reconcile the orders of a snapshot in turn. -/
def reconcileSnapshotOrders (env : Env) : List BrokerOrderSnapshot → ReconcileSummary →
    Fallible Host EngineError ReconcileSummary
  | [], summary => pure summary
  | order :: orders, summary => do
    let h ← Fallible.reads id
    if h.runtime.hasOrder order.clientOrderId then
      match h.snapshotEvent order with
      | none => reconcileSnapshotOrders env orders summary
      | some event =>
        let summary ← applySnapshotEvent env event summary
        reconcileSnapshotOrders env orders summary
    else
      reconcileSnapshotOrders env orders
        { summary with externalOrders := summary.externalOrders + 1 }

/-- Adopt the positions and cash of a snapshot, and journal them with the equity peak. -/
def adoptSnapshot (env : Env) (snapshot : BrokerSnapshot) : Fallible Host EngineError Unit := do
  let record ← Fallible.ofExcept (encodePortfolioSnapshot snapshot)
  appendEvent env record
  onRuntime (Runtime.applyBrokerSnapshot snapshot)
  let now ← monotonicNow env
  indexPortfolio now
  let h ← Fallible.reads id
  appendEvent env (.portfolioPeak h.runtime.portfolio.peakEquityTicks)

/-- Local working orders a snapshot does not report. -/
def missingAtBroker (h : Host) (snapshot : BrokerSnapshot) : ℕ :=
  (h.runtime.workingOrderIds.filter fun id =>
    id ∉ snapshot.orders.map (·.clientOrderId)).length

/-- Start a sweep: no orders are accepted until it ends clean. -/
def beginSweep : Fallible Host EngineError Unit := do
  let h ← Fallible.reads id
  Fallible.require (h.lifecycle ≠ .stopped) .notRunning
  Fallible.modify ({ · with lifecycle := .reconciling })

/-- Reconcile with the broker's queries and its snapshot. -/
def reconcileSnapshot (env : Env) : Fallible Host EngineError ReconcileSummary := do
  let summary ← reconcileUnknownOrders env
  let snapshot ← onRuntime (Runtime.brokerSnapshot env)
  let summary ← reconcileSnapshotOrders env snapshot.orders { summary with
    snapshotPositions := snapshot.positions.length
    snapshotAccountValues := snapshot.accountValues.size }
  adoptSnapshot env snapshot
  let h ← Fallible.reads id
  pure { summary with missingAtBroker := h.missingAtBroker snapshot }

/-- End a clean sweep. -/
def endSweep : Fallible Host EngineError Unit :=
  Fallible.modify fun h =>
    { h with lifecycle := if h.lifecycle = .reconciling then .running else h.lifecycle }

/-- A sweep; a clean one sets the host running. -/
def reconcileSweep (env : Env) : Fallible Host EngineError ReconcileSummary := do
  beginSweep
  let summary ← reconcileSnapshot env
  Fallible.when summary.clean endSweep
  pure summary

/-- A sweep for an operational trigger. A clean one resumes the executing plans. -/
def reconcileTrigger (env : Env) : Fallible Host EngineError ReconcileSummary := do
  let summary ← reconcileSweep env
  Fallible.when summary.clean (resumePlans env)
  pure summary

/-- Counts of the broker's snapshot for display. -/
def brokerStatusSnapshot (env : Env) : Fallible Host EngineError (BrokerHealth × ℕ × ℕ × ℕ) := do
  let snapshot ← onRuntime (Runtime.brokerSnapshot env)
  pure (env.gateway.health, snapshot.orders.length, snapshot.positions.length,
    snapshot.accountValues.size)

/-- Begin a graceful shutdown of a running host. -/
def drain : Fallible Host EngineError Unit :=
  Fallible.modify fun h =>
    { h with lifecycle := if h.lifecycle = .running then .draining else h.lifecycle }

/-- Complete the shutdown. -/
def stop : Fallible Host EngineError Unit := Fallible.modify ({ · with lifecycle := .stopped })

end Host

end InsiderTrader
