import InsiderTrader.Projection

/-!
# The read model mirrors the journal

What the read model has at the end of a run is what it took on the path most
operations journal by. Two operations write to the journal without it.

## Main definitions

- `Host.Mirrors` — the read model is the journal's
- `Call.Bypasses`, `Call.Refuses` — what opens a gap

## Main results

- `Op.follows` — every operation but two takes the shared path
- `readModel_mirrors_iff` — it mirrors the journal until a call opens a gap
-/

namespace InsiderTrader

open Fallible

namespace Host

variable {env : Env}

-- Orders

theorem submitIntentWithTiming_follows {intent : OrderIntent} {now : MonoTime} :
    Along (Follows env) (submitIntentWithTiming env intent now) :=
  (Along.reads _).bind fun _ => (onSilent_follows Runtime.recordDecision_silent).bind fun _ =>
    Along.bind appendEvent_follows fun _ => Along.bind monotonicNow_follows fun _ =>
    (onSilent_follows Runtime.recordSend_silent).bind fun _ => Along.bind appendEvent_follows fun _ =>
    onRuntime_follows Runtime.submitIntent_calling

theorem submitPlanned_follows {intent : OrderIntent} {traceId : TraceId} {proposalId : ProposalId}
    {now : MonoTime} : Along (Follows env) (submitPlanned env intent traceId proposalId now) :=
  (Along.reads _).bind fun _ => (Along.ofExcept _).bind fun _ => Along.bind appendEvent_follows fun _ =>
    Along.bind appendEvent_follows fun _ => (Along.require _ _).bind fun _ =>
    submitIntentWithTiming_follows

theorem ingestMarketEvent_follows {event : MarketEvent} {receiveWall : WallTime} :
    Along (Follows env) (ingestMarketEvent env event receiveWall) := by
  refine (Along.require _ _).bind fun _ => Along.bind onMarketData_follows fun outcome => ?_
  cases outcome with
  | duplicate => exact Along.ret _
  | accepted _ =>
    refine Along.bind appendEvent_follows fun _ => ?_
    split
    · exact Along.ret _
    · exact (Along.reads _).bind fun _ => (Along.ofExcept _).bind fun _ =>
        (Along.when appendEvent_follows).bind fun _ => onSilent_follows Runtime.onPortfolio_silent

theorem ingestMarketBar_follows {bar : Bar} {sequence : ℕ} :
    Along (Follows env) (ingestMarketBar env bar sequence) := by
  refine Along.bind onMarketData_follows fun update => ?_
  split
  · exact appendEvent_follows
  · exact appendEvent_follows
  · exact Along.ret _

theorem submitStrategyProposal_follows {proposal : Proposal} {now : MonoTime} :
    Along (Follows env) (submitStrategyProposal env proposal now) :=
  (Along.reads _).bind fun _ => (Along.ofExcept _).bind fun _ => Along.bind appendEvent_follows fun _ =>
    Along.modify fun _ => follows_of_eq rfl rfl

theorem resolveStrategyProposals_follows {policy : StrategyPolicy} {now : MonoTime} :
    Along (Follows env) (resolveStrategyProposals env policy now) :=
  (Along.reads _).bind fun _ => Along.bind appendEvent_follows fun _ =>
    Along.bind (Along.modify fun _ => follows_of_eq rfl rfl) fun _ => Along.ret _

theorem resolveStrategyProposalsWithBudgets_follows {policy : StrategyPolicy} {now : MonoTime}
    {budgets : Std.TreeMap String Int} :
    Along (Follows env) (resolveStrategyProposalsWithBudgets env policy now budgets) :=
  (Along.require _ _).bind fun _ => (Along.reads _).bind fun _ => Along.bind appendEvent_follows
    fun _ => Along.bind (Along.modify fun _ => follows_of_eq rfl rfl) fun _ => Along.ret _

theorem previewManualTarget_follows {instrumentId : InstrumentId} {quantity : Int}
    {proposalId : ProposalId} {now : MonoTime} {traceId : TraceId} {ttlNs : ℕ}
    {orderType : OrderType} {limit : Option Int} :
    Along (Follows env) (previewManualTargetWithOrder env instrumentId quantity proposalId now
      traceId ttlNs orderType limit) :=
  (Along.reads _).bind fun _ => (Along.require _ _).bind fun _ => (Along.ofExcept _).bind fun _ =>
    (onSilent_follows Runtime.prepareManualTargetWithOrder_silent).bind fun _ => Along.reads _

theorem scaledProposal_follows {proposal : Proposal} {scale : F64} :
    Along (Follows env) (scaledProposal env proposal scale) :=
  (Along.orFail _ _).bind fun _ => Along.ret _

theorem previewStrategyProposal_follows {proposalId : ProposalId} {scale : F64} {now : MonoTime}
    {traceId : TraceId} {ttlNs : ℕ} :
    Along (Follows env) (previewStrategyProposal env proposalId scale now traceId ttlNs) :=
  (Along.require _ _).bind fun _ => (Along.reads _).bind fun _ => (Along.orFail _ _).bind fun _ =>
    Along.bind scaledProposal_follows fun _ => (Along.ofExcept _).bind fun _ => (Along.ofExcept _).bind
    fun _ => (onSilent_follows Runtime.prepareProposal_silent).bind fun _ => Along.reads _

theorem submitManualPreview_follows {preview : ManualOrderPreview} {now : MonoTime}
    {confirmation : String} :
    Along (Follows env) (submitManualPreview env preview now confirmation) :=
  Along.bind requireRunning_follows fun _ => (Along.require _ _).bind fun _ => (Along.require _ _).bind
    fun _ => (Along.reads _).bind fun _ => (Along.require _ _).bind fun _ =>
    (onSilent_follows Runtime.prepareManualTargetWithOrder_silent).bind fun _ =>
    (Along.require _ _).bind fun _ => Along.bind submitPlanned_follows fun _ => Along.ret _

theorem planProposal_follows {proposal : Proposal} {now : MonoTime} {traceId : TraceId} :
    Along (Follows env) (planProposal env proposal now traceId) :=
  Along.bind requireRunning_follows fun _ => (Along.reads _).bind fun _ => (Along.ofExcept _).bind
    fun _ => (Along.ofExcept _).bind fun _ => onSilent_follows Runtime.prepareProposal_silent

theorem submitProposal_follows {proposal : Proposal} {now : MonoTime} {traceId : TraceId} :
    Along (Follows env) (submitProposal env proposal now traceId) :=
  Along.bind planProposal_follows fun _ => Along.bind submitPlanned_follows fun _ => Along.ret _

theorem submitScaledProposal_follows {proposalId : ProposalId} {scale : F64} {now : MonoTime}
    {traceId : TraceId} :
    Along (Follows env) (submitScaledProposal env proposalId scale now traceId) :=
  (Along.require _ _).bind fun _ => (Along.reads _).bind fun _ => (Along.orFail _ _).bind fun _ =>
    Along.bind scaledProposal_follows fun _ => submitProposal_follows

theorem submitApprovedAction_follows {approved : ApprovedAction} {proposal : Proposal}
    {now : MonoTime} {traceId : TraceId} :
    Along (Follows env) (submitApprovedAction env approved proposal now traceId) :=
  Along.bind requireRunning_follows fun _ => (Along.orFail _ _).bind fun _ => (Along.require _ _).bind
    fun _ => (Along.require _ _).bind fun _ => Along.bind scaledProposal_follows fun _ =>
    submitProposal_follows

theorem driveChild_follows {now : MonoTime} {claim : Runtime.ClaimedChild} :
    Along (Follows env) (driveChild env now claim) := by
  have hrestore : Along (Follows env) (restoreClaim env claim) :=
    Along.bind appendEvent_follows fun _ => Along.bind appendEvent_follows fun _ => (Along.require _ _).bind
      fun _ => onSilent_follows Runtime.restoreIntent_silent
  refine hrestore.bind fun _ => Along.bind (Along.attempt submitIntentWithTiming_follows) fun result => ?_
  cases result with
  | ok _ =>
    exact (onSilent_follows Runtime.markChildSent_silent).bind fun _ => appendEvent_follows
  | error e =>
    exact (onSilent_follows Runtime.markChildUnknown_silent).bind fun _ =>
      Along.bind appendEvent_follows fun _ => Along.fail _

theorem driveScheduledChildren_follows {now : MonoTime} :
    Along (Follows env) (driveScheduledChildren env now) :=
  (onSilent_follows Runtime.claimDueChildren_silent).bind fun _ =>
    Along.bind (Along.forEach fun _ _ => driveChild_follows) fun _ => Along.ret _

theorem submitScheduledProposal_follows {proposal : Proposal} {schedule : Schedule}
    {now : MonoTime} {traceId : TraceId} :
    Along (Follows env) (submitScheduledProposal env proposal schedule now traceId) :=
  Along.bind planProposal_follows fun _ => (Along.reads _).bind fun _ => (Along.ofExcept _).bind
    fun _ => (onSilent_follows Runtime.createChildPlan_silent).bind fun _ =>
    Along.bind appendEvent_follows fun _ => Along.bind appendEvent_follows fun _ =>
    Along.bind driveScheduledChildren_follows fun _ => Along.ret _

-- Broker events and controls

theorem applyBrokerEvent_follows {event : BrokerEvent} :
    Along (Follows env) (applyBrokerEvent env event) :=
  Along.bind appendEvent_follows fun _ => Along.bind recordTiming_follows fun _ => (Along.reads _).bind
    fun _ => (onSilent_follows Runtime.applyBrokerEventInner_silent).bind fun _ =>
    Along.bind indexFillNow_follows fun _ => Along.bind monotonicNow_follows fun _ =>
    Along.bind indexPortfolio_follows fun _ => Along.bind recordAttribution_follows fun _ =>
    recordChildEvent_follows

theorem replaceOrder_follows {clientOrderId : String} {quantity : Int} {limit : Option Int} :
    Along (Follows env) (replaceOrder env clientOrderId quantity limit) :=
  Along.bind requireRunning_follows fun _ => Along.bind appendEvent_follows fun _ =>
    onRuntime_follows Runtime.replaceOrder_calling

theorem updateMarkPrice_follows {instrumentId : InstrumentId} {price : Int} :
    Along (Follows env) (updateMarkPrice instrumentId price) :=
  (Along.reads _).bind fun _ => (Along.require _ _).bind fun _ =>
    onSilent_follows Runtime.onPortfolio_silent

theorem setScopedRiskPolicy_follows {policy : Option ScopedRiskPolicy} :
    Along (Follows env) (setScopedRiskPolicy env policy) :=
  (Along.ofExcept _).bind fun _ => Along.bind appendEvent_follows fun _ =>
    onSilent_follows (Along.modify fun _ => ⟨rfl, fun _ h => h⟩)

theorem applyCorporateAction_follows {instrumentId : InstrumentId} {kind : CorporateActionKind} :
    Along (Follows env) (applyCorporateAction env instrumentId kind) :=
  (Along.reads _).bind fun _ => (Along.require _ _).bind fun _ => (Along.ofExcept _).bind fun _ =>
    Along.bind appendEvent_follows fun _ => onSilent_follows Runtime.applyCorporateAction_silent

-- Plans and reconciliation

theorem publishPlans_follows {candidate : PlanStore} :
    Along (Follows env) (publishPlans env candidate) :=
  Along.bind (Along.forEach fun _ _ => appendEvent_follows) fun _ =>
    Along.modify fun _ => follows_of_eq rfl rfl

theorem recordPlanTransition_follows {planId : String} {next : PlanState} {now : MonoTime} :
    Along (Follows env) (recordPlanTransition env planId next now) :=
  (Along.reads _).bind fun _ => (Along.require _ _).bind fun _ => Along.bind publishPlans_follows
    fun _ => Along.ofExcept _

theorem executeAction_follows {planId : String} {now : MonoTime} {index : ℕ}
    {action : AutonomousAction} :
    Along (Follows env) (executeAction env planId now index action) := by
  unfold executeAction
  cases action.proposalId with
  | none => exact Along.require _ _
  | some text =>
    refine (Along.orFail _ _).bind fun _ => (Along.reads _).bind fun _ => ?_
    cases action.actionType with
    | executeProposal =>
      exact Along.ite (fun _ => Along.ret _) fun _ => (Along.orFail _ _).bind fun _ =>
        Along.discard submitProposal_follows
    | executeProposalScaled =>
      exact Along.ite (fun _ => Along.ret _) fun _ => (Along.orFail _ _).bind fun _ =>
        Along.discard submitScaledProposal_follows
    | _ => exact Along.ret _

theorem runPlan_follows {planId : String} {now : MonoTime} :
    Along (Follows env) (runPlan env planId now) := by
  have hexecute : Along (Follows env) (executeAutonomyPlan env planId now) :=
    (Along.reads _).bind fun _ => (Along.orFail _ _).bind fun _ =>
      Along.forEach fun _ _ => executeAction_follows
  refine Along.bind hexecute.attempt fun execution => ?_
  cases execution with
  | ok _ => exact recordPlanTransition_follows
  | error e => exact Along.bind (Along.attempt recordPlanTransition_follows) fun _ => Along.fail _

theorem resumePlans_follows : Along (Follows env) (resumePlans env) := by
  refine Along.bind monotonicNow_follows fun now => (Along.reads _).bind fun _ =>
    Along.ite (fun _ => Along.ret _) fun _ => Along.forEach fun planId _ => ?_
  refine (Along.reads _).bind fun h => ?_
  cases h.autonomyPlans.get planId with
  | none => exact Along.ret _
  | some record =>
    exact Along.ite (fun _ => Along.discard (Along.attempt recordPlanTransition_follows))
      fun _ => runPlan_follows

theorem queryOrders_follows {ids : List String} {summary : ReconcileSummary} :
    Along (Follows env) (queryOrders env ids summary) := by
  induction ids generalizing summary with
  | nil => exact Along.ret _
  | cons id ids ih =>
    refine (onRuntime_follows Runtime.callBroker_calling).bind fun answer => ?_
    split
    · refine Along.bind ?_ fun _ => ih
      exact Along.bind appendEvent_follows fun _ => Along.bind recordTiming_follows fun _ =>
        (onSilent_follows Runtime.applyBrokerEventInner_silent).bind fun _ =>
        Along.bind indexFillNow_follows fun _ => recordChildEvent_follows
    · exact ih
    · exact ih

theorem applySnapshotEvent_follows {event : BrokerEvent} {summary : ReconcileSummary} :
    Along (Follows env) (applySnapshotEvent env event summary) := by
  refine Along.bind appendEvent_follows fun _ => Along.bind recordTiming_follows fun _ => (Along.reads _).bind
    fun _ => Along.bind (onSilent_follows Runtime.applyBrokerEventInner_silent).attempt
    fun outcome => ?_
  cases outcome with
  | error e => exact Along.ret _
  | ok _ =>
    exact Along.bind indexFillNow_follows fun _ => Along.bind recordAttribution_follows fun _ =>
      Along.bind recordChildEvent_follows fun _ => Along.ret _

theorem reconcileSnapshotOrders_follows {orders : List BrokerOrderSnapshot}
    {summary : ReconcileSummary} :
    Along (Follows env) (reconcileSnapshotOrders env orders summary) := by
  induction orders generalizing summary with
  | nil => exact Along.ret _
  | cons order orders ih =>
    refine (Along.reads _).bind fun h => Along.ite (fun _ => ?_) fun _ => ih
    split
    · exact ih
    · exact Along.bind applySnapshotEvent_follows fun _ => ih

theorem brokerSnapshot_follows : Along (Follows env) (onRuntime (Runtime.brokerSnapshot env)) :=
  onRuntime_follows (Along.bind Runtime.callBroker_calling fun _ => Along.ofExcept _)

theorem adoptSnapshot_follows {snapshot : BrokerSnapshot} :
    Along (Follows env) (adoptSnapshot env snapshot) :=
  (Along.ofExcept _).bind fun _ => Along.bind appendEvent_follows fun _ =>
    (onSilent_follows Runtime.applyBrokerSnapshot_silent).bind fun _ => Along.bind monotonicNow_follows
    fun _ => Along.bind indexPortfolio_follows fun _ => (Along.reads _).bind fun _ => appendEvent_follows

theorem reconcileUnknownOrders_follows : Along (Follows env) (reconcileUnknownOrders env) :=
  (Along.reads _).bind fun _ => queryOrders_follows

theorem reconcileTrigger_follows : Along (Follows env) (reconcileTrigger env) := by
  have hbegin : Along (Follows env) beginSweep :=
    (Along.reads _).bind fun _ => (Along.require _ _).bind fun _ =>
      Along.modify fun _ => follows_of_eq rfl rfl
  have hend : Along (Follows env) endSweep := Along.modify fun _ => follows_of_eq rfl rfl
  have hsnapshot : Along (Follows env) (reconcileSnapshot env) :=
    Along.bind reconcileUnknownOrders_follows fun _ => Along.bind brokerSnapshot_follows fun _ =>
      Along.bind reconcileSnapshotOrders_follows fun _ => Along.bind adoptSnapshot_follows fun _ =>
      (Along.reads _).bind fun _ => Along.ret _
  have hsweep : Along (Follows env) (reconcileSweep env) :=
    hbegin.bind fun _ => hsnapshot.bind fun _ => (Along.when hend).bind fun _ => Along.ret _
  exact hsweep.bind fun _ => (Along.when resumePlans_follows).bind fun _ => Along.ret _

end Host

/-- The operations that write to the journal without the read model. -/
def Op.direct : Op → Bool
  | .cancelOrder _ | .transitionRiskState _ _ => true
  | _ => false

/-- **Every other operation takes the shared path.** -/
theorem Op.follows {env : Env} {op : Op} (hop : op.direct = false) (h : Host) :
    Host.Follows env h (op.after env h) := by
  have along {p : Fallible Host EngineError Unit} (hp : Along (Host.Follows env) p) :
      Host.Follows env h (p h).2 := hp h
  unfold Op.after Op.run
  cases op with
  | cancelOrder => cases hop
  | transitionRiskState => cases hop
  | appendEvent => exact along Host.appendEvent_follows
  | registerMarketInstrument => exact along (Along.modify fun _ => Host.follows_of_eq rfl rfl)
  | ingestMarketEvent => exact along Host.ingestMarketEvent_follows
  | ingestMarketBar => exact along Host.ingestMarketBar_follows
  | recoverMarketBook => exact along Host.onMarketData_follows
  | recoverMarketStream => exact along Host.onMarketData_follows
  | markMarketDataStale => exact along (Along.modify fun _ => Host.follows_of_eq rfl rfl)
  | submitStrategyProposal => exact along Host.submitStrategyProposal_follows
  | resolveStrategyProposals => exact along (Along.discard Host.resolveStrategyProposals_follows)
  | resolveStrategyProposalsWithBudgets =>
    exact along (Along.discard Host.resolveStrategyProposalsWithBudgets_follows)
  | previewManualTarget => exact along (Along.discard Host.previewManualTarget_follows)
  | previewStrategyProposal => exact along (Along.discard Host.previewStrategyProposal_follows)
  | submitManualPreview => exact along (Along.discard Host.submitManualPreview_follows)
  | submitProposal => exact along (Along.discard Host.submitProposal_follows)
  | submitScheduledProposal => exact along (Along.discard Host.submitScheduledProposal_follows)
  | driveScheduledChildren => exact along (Along.discard Host.driveScheduledChildren_follows)
  | submitScaledProposal => exact along (Along.discard Host.submitScaledProposal_follows)
  | submitApprovedAction => exact along (Along.discard Host.submitApprovedAction_follows)
  | applyBrokerEvent => exact along Host.applyBrokerEvent_follows
  | configureLiveLimits =>
    exact along (Along.bind Host.appendEvent_follows fun _ =>
      Host.onSilent_follows Runtime.configureLiveLimits_silent)
  | armLive => exact along (Host.onSilent_follows Runtime.onLiveGuard_silent).discard
  | confirmLive => exact along (Host.onSilent_follows Runtime.onLiveGuard_silent)
  | killLive =>
    exact along (Along.bind Host.appendEvent_follows fun _ =>
      Host.onSilent_follows (Along.modify fun _ => ⟨rfl, fun _ h => h⟩))
  | replaceOrder => exact along Host.replaceOrder_follows
  | updateMarkPrice => exact along Host.updateMarkPrice_follows
  | setScopedRiskPolicy => exact along Host.setScopedRiskPolicy_follows
  | applyCorporateAction => exact along Host.applyCorporateAction_follows
  | reloadConfig =>
    exact along (Host.onSilent_follows (Along.modify fun _ => ⟨rfl, fun _ h => h⟩))
  | submitAutonomyPlan =>
    exact along ((Along.reads _).bind fun _ => (Along.ofExcept _).bind fun _ =>
      Host.publishPlans_follows)
  | transitionAutonomyPlan =>
    exact along (Along.bind Host.recordPlanTransition_follows fun _ => Along.when Host.runPlan_follows)
  | setAutonomyMode =>
    exact along (Along.bind Host.appendEvent_follows fun _ =>
      Along.bind (Along.modify fun _ => Host.follows_of_eq rfl rfl) fun _ =>
      (Along.reads _).bind fun _ => Along.when Host.resumePlans_follows)
  | reconcileUnknownOrders => exact along (Along.discard Host.reconcileUnknownOrders_follows)
  | reconcileTrigger => exact along (Along.discard Host.reconcileTrigger_follows)
  | brokerStatusSnapshot =>
    exact along (Along.bind Host.brokerSnapshot_follows fun _ => Along.ret _).discard
  | drain => exact along (Along.modify fun _ => Host.follows_of_eq rfl rfl)
  | stop => exact along (Along.modify fun _ => Host.follows_of_eq rfl rfl)

-- Gaps

namespace Host

/-- The read model is the journal's. -/
def Mirrors (h : Host) : Prop := h.readModel = .rebuild (journalOf h.trace)

theorem Mirrors.length {h : Host} (hm : h.Mirrors) :
    h.readModel.records.length = (journalOf h.trace).length := by
  rw [hm, ProjectionStore.rebuild_length]

/-- An opened host starts with the read model of its journal. -/
theorem mirrors_of_openJournal {float : FloatArith} {settings : Settings}
    {journal : List JournalRecord} {h : Host}
    (hopen : openJournal float settings journal = .ok h) : h.Mirrors := by
  unfold openJournal at hopen
  rcases hreplay : replayFrom float 0 journal (start settings) with ⟨_ | u, s⟩
  · rw [hreplay] at hopen
    cases hopen
  · rw [hreplay] at hopen
    cases hopen
    exact congrArg ProjectionStore.rebuild (journalOf_journal journal).symm

/-- **Along the shared path** the mirror breaks exactly when the read model refuses a record. -/
theorem Follows.mirrors_iff {env : Env} {h h' : Host} (hf : Follows env h h') (hm : h.Mirrors) :
    h'.Mirrors ↔ ¬RefusedIn env h.trace h'.trace := by
  obtain ⟨fresh, htrace, hrecords⟩ := hf
  rw [htrace]
  constructor
  · intro hm' hrefused
    have hlt := projectedFrom_length.2 hrefused
    have hlength := hm'.length
    rw [hrecords, htrace, journalOf_append, List.length_append, List.length_append, hm.length]
      at hlength
    omega
  · intro htaken
    have htake := projectedFrom_of_taken htaken
    rw [← htrace] at htake
    have hstart : h.readModel.records = (ProjectionStore.rebuild (journalOf h.trace)).records :=
      congrArg ProjectionStore.records hm
    rw [← hstart, ← hrecords] at htake
    exact congrArg ProjectionStore.mk htake

/-- The read model gains no more than the journal. -/
def Lags (h h' : Host) : Prop :=
  h'.readModel.records.length + (journalOf h.trace).length ≤
    h.readModel.records.length + (journalOf h'.trace).length

instance : Std.Refl Lags := ⟨fun _ => Nat.le_refl _⟩

instance : IsTrans Host Lags where
  trans _ _ _ h h' := by
    unfold Lags at *
    omega

theorem Follows.lags {env : Env} {h h' : Host} (hf : Follows env h h') : Lags h h' := by
  obtain ⟨fresh, htrace, hrecords⟩ := hf
  have hle : (projectedFrom env h.trace fresh).length ≤ (journalOf fresh).length :=
    projectedFrom_length.1
  unfold Lags
  rw [hrecords, htrace, journalOf_append, List.length_append, List.length_append]
  omega

/-- A record the journal alone takes leaves the read model behind for good. -/
theorem not_mirrors_of_lags {h h' : Host} {record : JournalRecord} (hm : h.Mirrors)
    (hl : Lags (h.emit (.append record)) h') : ¬h'.Mirrors := by
  intro hm'
  have hjournal : (journalOf (h.emit (.append record)).trace).length =
      (journalOf h.trace).length + 1 := by simp
  have hmodel : (h.emit (.append record)).readModel = h.readModel := rfl
  unfold Lags at hl
  rw [hjournal, hmodel, hm.length, hm'.length] at hl
  omega

variable {env : Env}

theorem appendJournal_of_some {record : JournalRecord} {h : Host} {error : JournalError}
    (hj : env.journal h.trace record = some error) :
    appendJournal env record h = (.error (.journal error), h) := by
  rw [appendJournal, reads_bind, id, hj]
  rfl

theorem appendJournal_of_none {record : JournalRecord} {h : Host}
    (hj : env.journal h.trace record = none) :
    appendJournal env record h = (.ok (), h.emit (.append record)) := by
  rw [appendJournal, reads_bind, id, hj]
  rfl

theorem cancelRequest_follows {clientOrderId : String} :
    Along (Follows env) (onRuntime (Runtime.cancelOrder env clientOrderId)) :=
  onRuntime_follows Runtime.cancelOrder_calling

theorem cancelOrder_lags {clientOrderId : String} : Along Lags (cancelOrder env clientOrderId) := by
  have happend : Along Lags (appendJournal env (.cancelRequest clientOrderId)) := by
    intro h
    cases hj : env.journal h.trace (.cancelRequest clientOrderId) with
    | some error => rw [appendJournal_of_some hj]; exact Std.Refl.refl _
    | none =>
      rw [appendJournal_of_none hj]
      unfold Lags
      rw [trace_emit, journalOf_append, List.length_append]
      change h.readModel.records.length + _ ≤ _
      omega
  exact ((Along.reads _).bind fun _ => Along.require _ _).bind fun _ => happend.bind fun _ =>
    Along.mono cancelRequest_follows fun _ _ hf => Follows.lags hf

end Host

/-- The call journals past the read model: a cancellation that is asked for while running, or a
risk state that is in order, when the journal takes the record. -/
def Call.Bypasses (c : Call) : Prop :=
  match c.op with
  | .cancelOrder clientOrderId => c.host.lifecycle = .running ∧
      c.env.journal c.host.trace (.cancelRequest clientOrderId) = none
  | .transitionRiskState next authorization =>
    (c.host.runtime.risk.validateTransition next authorization).isOk ∧
      c.env.journal c.host.trace (.riskState next authorization) = none
  | _ => False

/-- The read model refuses a record of the call that the journal took. -/
def Call.Refuses (c : Call) : Prop :=
  RefusedIn c.env c.host.trace (c.op.after c.env c.host).trace

/-- A call that leaves no trace has no record refused. -/
theorem not_refusedIn_self {env : Env} {t : List Effect} : ¬RefusedIn env t t := by
  rintro ⟨front, record, hfront, hprefix, -⟩
  have hle := hfront.length_le
  have hlt := hprefix.length_le
  rw [List.length_append, List.length_singleton] at hlt
  omega

namespace Host

variable {env : Env} {h : Host}

/-- A cancellation opens a gap, or does nothing. -/
theorem cancelOrder_gap {clientOrderId : String} (hm : h.Mirrors) :
    (Call.Bypasses ⟨h, env, .cancelOrder clientOrderId⟩ ∧
        ¬(cancelOrder env clientOrderId h).2.Mirrors) ∨
      (¬Call.Bypasses ⟨h, env, .cancelOrder clientOrderId⟩ ∧
        (cancelOrder env clientOrderId h).2 = h) := by
  by_cases hrun : h.lifecycle = .running
  · have hguard : requireRunning h = (.ok (), h) := by
      rw [requireRunning, reads_bind, id, require, if_pos hrun, pure_apply]
    rw [cancelOrder, bind_of_ok hguard]
    cases hj : env.journal h.trace (.cancelRequest clientOrderId) with
    | some error =>
      rw [bind_of_error (appendJournal_of_some hj)]
      exact .inr ⟨fun hb => absurd (hj.symm.trans hb.2) (by simp), rfl⟩
    | none =>
      rw [bind_of_ok (appendJournal_of_none hj)]
      exact .inl ⟨⟨hrun, hj⟩, not_mirrors_of_lags hm (cancelRequest_follows _).lags⟩
  · have hguard : requireRunning h = (.error .notRunning, h) := by
      rw [requireRunning, reads_bind, id, require, if_neg hrun, fail_apply]
    rw [cancelOrder, bind_of_error hguard]
    exact .inr ⟨fun hb => hrun hb.1, rfl⟩

/-- What follows the record of a risk state leaves the read model behind. -/
theorem afterRiskState_lags {next : RiskState} {authorization : String} :
    Along Lags (do
      onRuntime (Runtime.transitionRiskState next authorization)
      let h ← Fallible.reads id
      Fallible.when (next = .halted) (cancelOrders env h.runtime.workingOrderIds)
      Fallible.when (next ≠ .running) (publishAlert env) : Fallible Host EngineError Unit) := by
  have hchange : Along (Follows env) (onRuntime (Runtime.transitionRiskState next authorization)) :=
    onSilent_follows Runtime.transitionRiskState_silent
  have halert : Along (Follows env) (publishAlert env) :=
    Along.bind monotonicNow_follows fun _ => Along.bind (Along.attempt appendEvent_follows) fun _ => Along.ret _
  have hcancel (ids : List String) : Along Lags (cancelOrders env ids) :=
    Along.forEach fun _ _ => Along.bind (Along.attempt cancelOrder_lags) fun _ => Along.ret _
  exact (hchange.mono fun _ _ => Follows.lags).bind fun _ => (Along.reads _).bind fun _ =>
    (Along.when (hcancel _)).bind fun _ => Along.when (halert.mono fun _ _ => Follows.lags)

/-- A change of the risk state opens a gap, or does nothing. -/
theorem transitionRiskState_gap {next : RiskState} {authorization : String} (hm : h.Mirrors) :
    (Call.Bypasses ⟨h, env, .transitionRiskState next authorization⟩ ∧
        ¬(transitionRiskState env next authorization h).2.Mirrors) ∨
      (¬Call.Bypasses ⟨h, env, .transitionRiskState next authorization⟩ ∧
        (transitionRiskState env next authorization h).2 = h) := by
  unfold Call.Bypasses
  dsimp only
  rw [transitionRiskState, reads_bind, id]
  cases hv : h.runtime.risk.validateTransition next authorization with
  | error e => exact .inr ⟨fun hb => absurd hb.1 (by simp [Except.isOk, Except.toBool]), rfl⟩
  | ok u =>
    have hvalid : (ofExcept (Except.mapError EngineError.riskState (.ok u)) :
        Fallible Host EngineError Unit) h = (.ok u, h) := rfl
    rw [bind_of_ok hvalid]
    cases hj : env.journal h.trace (.riskState next authorization) with
    | some error =>
      rw [bind_of_error (appendJournal_of_some hj)]
      exact .inr ⟨fun hb => absurd hb.2 (by simp), rfl⟩
    | none =>
      rw [bind_of_ok (appendJournal_of_none hj)]
      exact .inl ⟨⟨rfl, rfl⟩, not_mirrors_of_lags hm (afterRiskState_lags _)⟩

end Host

/-- **One call**: the mirror lasts exactly when the call neither bypasses the read model nor has a
record refused. -/
theorem Call.mirrors_iff {c : Call} (hm : c.host.Mirrors) :
    (c.op.after c.env c.host).Mirrors ↔ ¬c.Bypasses ∧ ¬c.Refuses := by
  obtain ⟨h, env, op⟩ := c
  -- a call that wrote past the read model, or did nothing
  have hgap {after : Host} (hafter : op.after env h = after)
      (hcase : (Call.Bypasses ⟨h, env, op⟩ ∧ ¬after.Mirrors) ∨
        (¬Call.Bypasses ⟨h, env, op⟩ ∧ after = h)) :
      (op.after env h).Mirrors ↔ ¬Call.Bypasses ⟨h, env, op⟩ ∧ ¬Call.Refuses ⟨h, env, op⟩ := by
    obtain ⟨hbypass, hbroken⟩ | ⟨hdirect, hsame⟩ := hcase
    · rw [hafter]
      exact iff_of_false hbroken fun hok => hok.1 hbypass
    · have hkept : op.after env h = h := hafter.trans hsame
      have htrace : ¬Call.Refuses ⟨h, env, op⟩ := by
        unfold Call.Refuses
        dsimp only
        rw [hkept]
        exact not_refusedIn_self
      rw [hkept]
      exact iff_of_true hm ⟨hdirect, htrace⟩
  have hshared (hop : op.direct = false) (hnone : ¬Call.Bypasses ⟨h, env, op⟩) :
      (op.after env h).Mirrors ↔ ¬Call.Bypasses ⟨h, env, op⟩ ∧ ¬Call.Refuses ⟨h, env, op⟩ := by
    rw [and_iff_right hnone]
    exact (Op.follows hop h).mirrors_iff hm
  cases op with
  | cancelOrder clientOrderId => exact hgap rfl (Host.cancelOrder_gap hm)
  | transitionRiskState next authorization => exact hgap rfl (Host.transitionRiskState_gap hm)
  | _ => exact hshared rfl id

/-- **The read model mirrors the journal** after every call of a run exactly when no call journals
past it and none has a record refused by it. -/
theorem readModel_mirrors_iff {float : FloatArith} {settings : Settings}
    {journal : List JournalRecord} {h : Host}
    (hopen : Host.openJournal float settings journal = .ok h) (run : List (Env × Op)) :
    (∀ c ∈ callsFrom h run, (c.op.after c.env c.host).Mirrors) ↔
      ∀ c ∈ callsFrom h run, ¬c.Bypasses ∧ ¬c.Refuses := by
  have hm := Host.mirrors_of_openJournal hopen
  clear hopen
  induction run generalizing h with
  | nil => simp [callsFrom]
  | cons step rest ih =>
    obtain ⟨env, op⟩ := step
    rw [callsFrom, List.forall_mem_cons, List.forall_mem_cons, ← Call.mirrors_iff hm]
    exact and_congr_right ih

/-- A fresh host that reconciles, submits an order and drains. -/
theorem readModel_mirrors_submitted :
    let run := [(Sample.env Sample.empty, .reconcileTrigger),
      (Sample.env Sample.empty, Sample.submit 5 10), (Sample.env Sample.empty, .drain)]
    (∀ c ∈ callsFrom (Host.start Sample.settings) run, (c.op.after c.env c.host).Mirrors) := by
  intro run
  refine (readModel_mirrors_iff (Host.openJournal_nil Sample.float Sample.settings) run).mpr ?_
  intro c hc
  have htaken (t u : List Effect) : ¬RefusedIn (Sample.env Sample.empty) t u := by
    rintro ⟨_, _, -, -, hrefused⟩
    exact hrefused rfl
  simp only [run, callsFrom, List.mem_cons, List.not_mem_nil, or_false] at hc
  obtain rfl | rfl | rfl := hc
  · exact ⟨id, htaken _ _⟩
  · exact ⟨id, htaken _ _⟩
  · exact ⟨id, htaken _ _⟩

/-- **It does not always**: when every append succeeds, one change of the risk state and the
journal has a record the read model never sees. -/
theorem readModel_misses_riskState :
    let reduced := Op.after (Sample.env Sample.empty) (.transitionRiskState .reduceOnly "")
      (Host.start Sample.settings)
    (Sample.env Sample.empty).Reliable ∧
      Host.openJournal Sample.float Sample.settings [] = .ok (Host.start Sample.settings) ∧
      reduced.readModel.records.length = 1 ∧ (journalOf reduced.trace).length = 2 ∧
      ¬reduced.Mirrors := by
  refine ⟨fun _ _ => rfl, rfl, by decide, by decide, fun hm => ?_⟩
  exact absurd hm.length (by decide)

end InsiderTrader
