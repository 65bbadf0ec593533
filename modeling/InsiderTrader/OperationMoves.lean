import InsiderTrader.SubmissionMoves

/-!
# Every operation is a sequence of moves

What an operation may order and how it may change the lifecycle, for each
operation, and the theorem that it does nothing else.

## Main definitions

- `Op.shifts` — the lifecycle changes of an operation
- `Op.orders` — the orders of an operation

## Main results

- `Op.moves` — an operation makes only moves of these kinds
-/

namespace InsiderTrader

open Fallible

/-- The lifecycle changes an operation may make. -/
def Op.shifts : Op → Lifecycle → Lifecycle → Prop
  | .drain, a, b => a = .running ∧ b = .draining
  | .stop, _, b => b = .stopped
  | .reconcileTrigger, a, b => a ≠ .stopped ∧ b = .reconciling ∨ a = .reconciling ∧ b = .running
  | _, _, _ => False

/-- The orders an operation may make: the replacement it asks for, or sends that carry out its
requests. -/
def Op.orders (env : Env) (op : Op) (h : Host) : Host → BrokerCall → Prop :=
  match op with
  | .replaceOrder id quantityTicks limitPriceTicks => fun s c =>
    s.lifecycle = .running ∧ c = .replace id quantityTicks limitPriceTicks
  | op => Sent (op.requests env (op.decisionHost env h)) (op.decisionHost env h).runtime

namespace Host

variable {L : Lifecycle → Lifecycle → Prop} {Q : Host → BrokerCall → Prop} {env : Env}

theorem onRuntime_bind {α β : Type} (p : Fallible Runtime EngineError α)
    (f : α → Fallible Runtime EngineError β) :
    onRuntime (p >>= f) = onRuntime p >>= fun a => onRuntime (f a) := by
  unfold onRuntime
  refine zoom_bind ?_ ?_ p f
  · exact fun _ _ => rfl
  · exact fun _ _ _ => rfl

theorem onMarketData_quiet {α : Type} {p : Fallible MarketDataHub HubError α} :
    Along Quiet (onMarketData p) :=
  fun _ => quiet_of_eq rfl rfl

-- Market data, previews and controls

theorem ingestMarketEvent_quiet {event : MarketEvent} {receiveWall : WallTime} :
    Along Quiet (ingestMarketEvent env event receiveWall) := by
  refine (Along.require _ _).bind fun _ => Along.bind onMarketData_quiet fun outcome => ?_
  split
  · exact Along.ret _
  · refine Along.bind appendEvent_quiet fun _ => ?_
    split
    · exact Along.ret _
    · exact (Along.reads _).bind fun _ => (Along.ofExcept _).bind fun _ =>
        (Along.when appendEvent_quiet).bind fun _ => onRuntime_quiet Runtime.onPortfolio_silent

theorem ingestMarketBar_quiet {bar : Bar} {sequence : ℕ} :
    Along Quiet (ingestMarketBar env bar sequence) := by
  refine Along.bind onMarketData_quiet fun update => ?_
  split
  · exact appendEvent_quiet
  · exact appendEvent_quiet
  · exact Along.ret _

theorem submitStrategyProposal_quiet {proposal : Proposal} {now : MonoTime} :
    Along Quiet (submitStrategyProposal env proposal now) :=
  (Along.reads _).bind fun _ => (Along.ofExcept _).bind fun _ => Along.bind appendEvent_quiet fun _ =>
    Along.modify fun _ => quiet_of_eq rfl rfl

theorem resolveStrategyProposals_quiet {policy : StrategyPolicy} {now : MonoTime} :
    Along Quiet (resolveStrategyProposals env policy now) :=
  (Along.reads _).bind fun _ => Along.bind appendEvent_quiet fun _ =>
    Along.bind (Along.modify fun _ => quiet_of_eq rfl rfl) fun _ => Along.ret _

theorem resolveStrategyProposalsWithBudgets_quiet {policy : StrategyPolicy} {now : MonoTime}
    {budgets : Std.TreeMap String Int} :
    Along Quiet (resolveStrategyProposalsWithBudgets env policy now budgets) :=
  (Along.require _ _).bind fun _ => (Along.reads _).bind fun _ => Along.bind appendEvent_quiet fun _ =>
    Along.bind (Along.modify fun _ => quiet_of_eq rfl rfl) fun _ => Along.ret _

theorem previewManualTarget_quiet {instrumentId : InstrumentId} {quantity : Int}
    {proposalId : ProposalId} {now : MonoTime} {traceId : TraceId} {ttlNs : ℕ}
    {orderType : OrderType} {limit : Option Int} :
    Along Quiet (previewManualTargetWithOrder env instrumentId quantity proposalId now traceId
      ttlNs orderType limit) :=
  (Along.reads _).bind fun _ => (Along.require _ _).bind fun _ => (Along.ofExcept _).bind fun _ =>
    (onRuntime_quiet Runtime.prepareManualTargetWithOrder_silent).bind fun _ => Along.reads _

theorem previewStrategyProposal_quiet {proposalId : ProposalId} {scale : F64} {now : MonoTime}
    {traceId : TraceId} {ttlNs : ℕ} :
    Along Quiet (previewStrategyProposal env proposalId scale now traceId ttlNs) :=
  (Along.require _ _).bind fun _ => (Along.reads _).bind fun _ => (Along.orFail _ _).bind fun _ =>
    Along.bind ((Along.orFail _ _).bind fun _ => Along.ret _) fun _ => (Along.ofExcept _).bind
    fun _ => (Along.ofExcept _).bind fun _ =>
    (onRuntime_quiet Runtime.prepareProposal_silent).bind fun _ => Along.reads _

theorem applyBrokerEvent_quiet {event : BrokerEvent} : Along Quiet (applyBrokerEvent env event) :=
  Along.bind appendEvent_quiet fun _ => Along.bind recordTiming_quiet fun _ => (Along.reads _).bind fun _ =>
    (onRuntime_quiet Runtime.applyBrokerEventInner_silent).bind fun _ =>
    Along.bind indexFillNow_quiet fun _ => Along.bind monotonicNow_quiet fun _ =>
    Along.bind indexPortfolio_quiet fun _ => Along.bind recordAttribution_quiet fun _ => recordChildEvent_quiet

theorem configureLiveLimits_quiet {limits : LiveLimits} :
    Along Quiet (configureLiveLimits env limits) :=
  Along.bind appendEvent_quiet fun _ => onRuntime_quiet Runtime.configureLiveLimits_silent

theorem killLive_quiet : Along Quiet (killLive env) :=
  Along.bind appendEvent_quiet fun _ => onRuntime_quiet (Along.modify fun _ => ⟨rfl, fun _ h => h⟩)

theorem updateMarkPrice_quiet {instrumentId : InstrumentId} {price : Int} :
    Along Quiet (updateMarkPrice instrumentId price) :=
  (Along.reads _).bind fun _ => (Along.require _ _).bind fun _ =>
    onRuntime_quiet Runtime.onPortfolio_silent

theorem setScopedRiskPolicy_quiet {policy : Option ScopedRiskPolicy} :
    Along Quiet (setScopedRiskPolicy env policy) :=
  (Along.ofExcept _).bind fun _ => Along.bind appendEvent_quiet fun _ =>
    onRuntime_quiet (Along.modify fun _ => ⟨rfl, fun _ h => h⟩)

theorem applyCorporateAction_quiet {instrumentId : InstrumentId} {kind : CorporateActionKind} :
    Along Quiet (applyCorporateAction env instrumentId kind) :=
  (Along.reads _).bind fun _ => (Along.require _ _).bind fun _ => (Along.ofExcept _).bind fun _ =>
    Along.bind appendEvent_quiet fun _ => onRuntime_quiet Runtime.applyCorporateAction_silent

-- Requests about working orders

theorem cancelOrder_quiet {id : String} : Along Quiet (cancelOrder env id) := by
  refine Along.bind requireRunning_quiet fun _ => Along.bind appendJournal_quiet fun _ => ?_
  unfold Runtime.cancelOrder
  simp only [onRuntime_bind]
  refine (onRuntime_quiet (Along.require _ _)).bind fun _ =>
    (onRuntime_quiet (Runtime.onOrders_silent (OrderBook.onRecord_keeps _ _ _))).bind fun _ =>
    (callBroker_quiet rfl).bind fun answer => onRuntime_quiet ?_
  cases answer with
  | error message =>
    exact (Runtime.onOrders_silent (OrderBook.onRecord_keeps _ _ _)).bind fun _ => Along.fail _
  | ok _ => exact Along.ret _

theorem cancelOrders_quiet {ids : List String} : Along Quiet (cancelOrders env ids) :=
  Along.forEach fun _ _ => Along.bind (Along.attempt cancelOrder_quiet) fun _ => Along.ret _

theorem transitionRiskState_quiet {next : RiskState} {authorization : String} :
    Along Quiet (transitionRiskState env next authorization) :=
  (Along.reads _).bind fun _ => (Along.ofExcept _).bind fun _ => Along.bind appendJournal_quiet fun _ =>
    (onRuntime_quiet Runtime.transitionRiskState_silent).bind fun _ => (Along.reads _).bind fun _ =>
    (Along.when cancelOrders_quiet).bind fun _ => Along.when (Along.bind monotonicNow_quiet fun _ =>
      Along.bind (Along.attempt appendEvent_quiet) fun _ => Along.ret _)

/-- A replacement reaches the broker as it was asked for, from a running host. -/
theorem replaceOrder_moves {id : String} {quantity : Int} {limit : Option Int} (h : Host) :
    Moves L (fun s c => s.lifecycle = .running ∧ c = .replace id quantity limit) h
      (replaceOrder env id quantity limit h).2 := by
  refine Moves.bind_quiet requireRunning_quiet fun _ s₀ h₀ _ => ?_
  obtain ⟨hrun, rfl⟩ := requireRunning_eq_ok h₀
  refine Moves.bind_quiet appendEvent_quiet fun _ s₁ _ q₁ => ?_
  unfold Runtime.replaceOrder
  simp only [onRuntime_bind]
  refine Moves.bind_quiet (onRuntime_quiet (Along.require _ _)) fun _ s₂ _ q₂ => ?_
  refine Moves.bind_quiet (onRuntime_quiet (Runtime.onOrders_silent
    (OrderBook.onRecord_keeps _ _ _))) fun _ s₃ _ q₃ => ?_
  have hlife : s₃.lifecycle = .running :=
    (Moves.lifecycle (q₁.trans (q₂.trans q₃) : Quiet s₀ s₃)).trans hrun
  refine Along.bind_at (.single (.replace s₃ id quantity limit ⟨hlife, rfl⟩)) fun answer s₄ _ => ?_
  refine Quiet.moves (onRuntime_quiet ?_ s₄)
  cases answer with
  | error message =>
    exact (Runtime.onOrders_silent (OrderBook.onRecord_keeps _ _ _)).bind fun _ => Along.fail _
  | ok _ => exact Along.ret _

-- Plans and reconciliation

theorem submitAutonomyPlan_quiet {plan : Plan} {now : MonoTime} :
    Along Quiet (submitAutonomyPlan env plan now) :=
  (Along.reads _).bind fun _ => (Along.ofExcept _).bind fun _ => publishPlans_quiet

/-- Only a plan that starts executing sends anything. -/
theorem transitionAutonomyPlan_moves {planId : String} {next : PlanState} {now : MonoTime}
    (h : Host) :
    Moves L (Sent ((Op.transitionAutonomyPlan planId next now).requests env h) h.runtime) h
      (transitionAutonomyPlan env planId next now h).2 := by
  refine Moves.bind_quiet recordPlanTransition_quiet fun _ s hs _ => ?_
  have hg := Along.of_ok recordPlanTransition_sameGate hs
  by_cases hnext : next = .executing
  · subst hnext
    refine Moves.mono (runPlan_moves s) (fun _ _ hl => hl) fun _ _ hsent =>
      hsent.mono (fun q hq => ?_) hg.runtime
    rwa [planRequests_congr hg] at hq
  · rw [when, if_neg hnext]
    exact .refl

theorem setAutonomyMode_moves {mode : AutonomyMode} (h : Host) :
    Moves L (Sent ((Op.setAutonomyMode mode).requests env h) h.runtime) h
      (setAutonomyMode env mode h).2 := by
  refine Moves.bind_quiet appendEvent_quiet fun _ s hs _ => ?_
  obtain rfl := appendEvent_eq_ok hs
  refine Along.bind_at (Quiet.moves (quiet_of_eq rfl rfl)) fun _ s' hs' => ?_
  obtain rfl := (Prod.mk.inj hs').2
  rw [reads_bind]
  unfold when
  split
  · next hmode =>
    refine Moves.mono (resumePlans_moves _) (fun _ _ hl => hl) fun _ _ hsent =>
      hsent.mono (fun q hq => ?_) ⟨rfl, rfl, rfl, rfl⟩
    cases mode with
    | manual => exact absurd rfl hmode.1
    | hybrid => exact hq
    | autonomous => exact hq
  · exact .refl

theorem queryOrders_quiet {ids : List String} {summary : ReconcileSummary} :
    Along Quiet (queryOrders env ids summary) := by
  induction ids generalizing summary with
  | nil => exact Along.ret _
  | cons id ids ih =>
    refine (callBroker_quiet rfl).bind fun answer => ?_
    split
    · refine Along.bind ?_ fun _ => ih
      exact Along.bind appendEvent_quiet fun _ => Along.bind recordTiming_quiet fun _ =>
        (onRuntime_quiet Runtime.applyBrokerEventInner_silent).bind fun _ =>
        Along.bind indexFillNow_quiet fun _ => recordChildEvent_quiet
    · exact ih
    · exact ih

theorem applySnapshotEvent_quiet {event : BrokerEvent} {summary : ReconcileSummary} :
    Along Quiet (applySnapshotEvent env event summary) := by
  refine Along.bind appendEvent_quiet fun _ => Along.bind recordTiming_quiet fun _ => (Along.reads _).bind
    fun _ => Along.bind (onRuntime_quiet Runtime.applyBrokerEventInner_silent).attempt
    fun outcome => ?_
  cases outcome with
  | error e => exact Along.ret _
  | ok _ =>
    exact Along.bind indexFillNow_quiet fun _ => Along.bind recordAttribution_quiet fun _ =>
      Along.bind recordChildEvent_quiet fun _ => Along.ret _

theorem reconcileSnapshotOrders_quiet {orders : List BrokerOrderSnapshot}
    {summary : ReconcileSummary} : Along Quiet (reconcileSnapshotOrders env orders summary) := by
  induction orders generalizing summary with
  | nil => exact Along.ret _
  | cons order orders ih =>
    refine (Along.reads _).bind fun h => Along.ite (fun _ => ?_) fun _ => ih
    split
    · exact ih
    · exact Along.bind applySnapshotEvent_quiet fun _ => ih

theorem brokerSnapshot_quiet : Along Quiet (onRuntime (Runtime.brokerSnapshot env)) := by
  unfold Runtime.brokerSnapshot
  rw [onRuntime_bind]
  exact (callBroker_quiet rfl).bind fun _ => onRuntime_quiet (Along.ofExcept _)

theorem adoptSnapshot_quiet {snapshot : BrokerSnapshot} :
    Along Quiet (adoptSnapshot env snapshot) :=
  (Along.ofExcept _).bind fun _ => Along.bind appendEvent_quiet fun _ =>
    (onRuntime_quiet Runtime.applyBrokerSnapshot_silent).bind fun _ => Along.bind monotonicNow_quiet
    fun _ => Along.bind indexPortfolio_quiet fun _ => (Along.reads _).bind fun _ => appendEvent_quiet

theorem reconcileSnapshot_quiet : Along Quiet (reconcileSnapshot env) :=
  Along.bind ((Along.reads _).bind fun _ => queryOrders_quiet) fun _ => Along.bind brokerSnapshot_quiet
    fun _ => Along.bind reconcileSnapshotOrders_quiet fun _ => Along.bind adoptSnapshot_quiet fun _ =>
    (Along.reads _).bind fun _ => Along.ret _

/-- A sweep orders nothing and ends reconciling or running. -/
theorem reconcileSweep_moves (h : Host) :
    Moves Op.reconcileTrigger.shifts Q h (reconcileSweep env h).2 := by
  refine Along.bind_at ?_ fun _ s₁ _ => ?_
  · rw [beginSweep, reads_bind, require_bind]
    split
    · next hl => exact .single (.shift h _ (.inl ⟨hl, rfl⟩))
    · exact .refl
  · refine Along.bind_at (Quiet.moves (reconcileSnapshot_quiet s₁)) fun summary s₂ _ => ?_
    refine Along.bind_at (Along.when (fun s => ?_) s₂) fun _ _ _ => .refl
    rw [endSweep, modify_apply]
    by_cases hl : s.lifecycle = .reconciling
    · simp only [hl, ↓reduceIte]
      exact .single (.shift s _ (.inr ⟨hl, rfl⟩))
    · simp only [hl, ↓reduceIte]
      exact .refl

theorem reconcileTrigger_moves (h : Host) :
    Moves Op.reconcileTrigger.shifts
      (Sent ((reconcileSweep env h).2.resumedRequests env) (reconcileSweep env h).2.runtime) h
      (reconcileTrigger env h).2 := by
  refine Along.bind_at (reconcileSweep_moves h) fun summary s hs => ?_
  rw [hs]
  refine Along.bind_at ?_ fun _ _ _ => .refl
  unfold when
  split
  · exact resumePlans_moves s
  · exact .refl

/-- Only a running host starts draining. -/
theorem drain_moves (h : Host) : Moves Op.drain.shifts Q h (drain h).2 := by
  rw [drain, modify_apply]
  by_cases hl : h.lifecycle = .running
  · simp only [hl, ↓reduceIte]
    exact .single (.shift h _ ⟨hl, rfl⟩)
  · simp only [hl, ↓reduceIte]
    exact .refl

end Host

/-- **Every operation is a sequence of moves**: it orders only what it asks for, and changes the
lifecycle only as its kind does. -/
theorem Op.moves (env : Env) (op : Op) (h : Host) :
    Moves op.shifts (op.orders env h) h (op.after env h) := by
  have quiet {p : Fallible Host EngineError Unit} (hp : Along Quiet p) :
      Moves op.shifts (op.orders env h) h (p h).2 := Quiet.moves (hp h)
  unfold Op.after Op.run
  cases op with
  | appendEvent => exact quiet Host.appendEvent_quiet
  | registerMarketInstrument => exact quiet (Along.modify fun _ => Host.quiet_of_eq rfl rfl)
  | ingestMarketEvent => exact quiet Host.ingestMarketEvent_quiet
  | ingestMarketBar => exact quiet Host.ingestMarketBar_quiet
  | recoverMarketBook => exact quiet Host.onMarketData_quiet
  | recoverMarketStream => exact quiet Host.onMarketData_quiet
  | markMarketDataStale => exact quiet (Along.modify fun _ => Host.quiet_of_eq rfl rfl)
  | submitStrategyProposal => exact quiet Host.submitStrategyProposal_quiet
  | resolveStrategyProposals => exact quiet (Along.discard Host.resolveStrategyProposals_quiet)
  | resolveStrategyProposalsWithBudgets =>
    exact quiet (Along.discard Host.resolveStrategyProposalsWithBudgets_quiet)
  | previewManualTarget => exact quiet (Along.discard Host.previewManualTarget_quiet)
  | previewStrategyProposal => exact quiet (Along.discard Host.previewStrategyProposal_quiet)
  | submitManualPreview => rw [discard_snd]; exact Host.submitManualPreview_moves h
  | submitProposal => rw [discard_snd]; exact Host.submitProposal_moves h
  | submitScheduledProposal => exact quiet (Along.discard Host.submitScheduledProposal_quiet)
  | driveScheduledChildren => exact quiet (Along.discard Host.driveScheduledChildren_quiet)
  | submitScaledProposal => rw [discard_snd]; exact Host.submitScaledProposal_moves h
  | submitApprovedAction => rw [discard_snd]; exact Host.submitApprovedAction_moves h
  | applyBrokerEvent => exact quiet Host.applyBrokerEvent_quiet
  | configureLiveLimits => exact quiet Host.configureLiveLimits_quiet
  | armLive => exact quiet (Along.discard (Host.onRuntime_quiet Runtime.onLiveGuard_silent))
  | confirmLive => exact quiet (Host.onRuntime_quiet Runtime.onLiveGuard_silent)
  | killLive => exact quiet Host.killLive_quiet
  | cancelOrder => exact quiet Host.cancelOrder_quiet
  | replaceOrder => exact Host.replaceOrder_moves h
  | updateMarkPrice => exact quiet Host.updateMarkPrice_quiet
  | setScopedRiskPolicy => exact quiet Host.setScopedRiskPolicy_quiet
  | applyCorporateAction => exact quiet Host.applyCorporateAction_quiet
  | transitionRiskState => exact quiet Host.transitionRiskState_quiet
  | reloadConfig =>
    exact quiet (Host.onRuntime_quiet (Along.modify fun _ => ⟨rfl, fun _ h => h⟩))
  | submitAutonomyPlan => exact quiet Host.submitAutonomyPlan_quiet
  | transitionAutonomyPlan => exact Host.transitionAutonomyPlan_moves h
  | setAutonomyMode => exact Host.setAutonomyMode_moves h
  | reconcileUnknownOrders =>
    exact quiet (Along.discard ((Along.reads _).bind fun _ => Host.queryOrders_quiet))
  | reconcileTrigger => rw [discard_snd]; exact Host.reconcileTrigger_moves h
  | brokerStatusSnapshot =>
    exact quiet (Along.discard (Along.bind Host.brokerSnapshot_quiet fun _ => Along.ret _))
  | drain => exact Host.drain_moves h
  | stop => exact .single (.shift h _ rfl)

end InsiderTrader
