import InsiderTrader.NamedOrders

/-!
# Which orders a call makes

Every public operation of the host makes orders that are named after what they
name. The proposals on record stay, except for an admission, and only broker
events add to the execution summaries, when reconciliation brings no fill.

## Main definitions

- `Env.ReportsNoFill` — reconciliation brings no fill

## Main results

- `Op.orderly` — every call but an admission and a broker event
- `Host.submitStrategyProposal_admits` — an admission
-/

namespace InsiderTrader

open Fallible

namespace Host

variable {N : String → Prop} {env : Env}

-- Admissions

/-- An admission records a number that was free. -/
theorem submitChecked_proposalOf (float : FloatArith) (proposal : Proposal) (now : MonoTime)
    (c : Coordinator) (p : ProposalId) :
    (Coordinator.submitChecked float proposal now c).2.proposalOf p = c.proposalOf p ∨
      p = proposal.proposalId ∧ c.proposalOf p = none ∧
        (Coordinator.submitChecked float proposal now c).2.proposalOf p = some proposal := by
  rw [Coordinator.submitChecked, reads_bind, id_eq]
  cases proposal.validate float now with
  | error e => exact .inl rfl
  | ok _ =>
    dsimp only
    split
    · exact .inl rfl
    · next hfree =>
      rw [Option.not_isSome_iff_eq_none] at hfree
      by_cases hp : p = proposal.proposalId
      · subst hp
        refine .inr ⟨rfl, by rw [Coordinator.proposalOf, hfree]; rfl, ?_⟩
        simp [Coordinator.proposalOf, Coordinator.record, Fallible.modify]
      · refine .inl ?_
        have hne : compare proposal.proposalId p ≠ .eq :=
          fun heq => hp (Std.LawfulEqCmp.eq_of_compare heq).symm
        simp [Coordinator.proposalOf, Coordinator.record, Fallible.modify,
          Std.TreeMap.getElem?_insert, hne]

/-- **An admission** makes no order, and gives a number that was free its strategy. -/
theorem submitStrategyProposal_admits (env : Env) (proposal : Proposal) (now : MonoTime)
    (h : Host) :
    let h' := (submitStrategyProposal env proposal now h).2
    Runtime.Makes (fun _ => False) h.runtime h'.runtime ∧
      h'.strategyExecutionSummaries = h.strategyExecutionSummaries ∧
      ∀ p, h'.strategyOf p = h.strategyOf p ∨
        p = proposal.proposalId ∧ h.strategyOf p = none ∧
          h'.strategyOf p = some proposal.strategyId := by
  have happend : Makes (fun _ => False) h (appendEvent env (.strategyProposal proposal) h).2 :=
    appendEvent_makes h
  dsimp only
  rw [submitStrategyProposal, reads_bind, id_eq, bind_apply, ofExcept_apply]
  cases (Coordinator.submitChecked env.float proposal now h.strategyCoordinator).1 with
  | error e => exact ⟨Std.Refl.refl _, rfl, fun p => .inl rfl⟩
  | ok _ =>
    dsimp only [Except.mapError]
    rcases ha : appendEvent env (.strategyProposal proposal) h with ⟨_ | _, s⟩ <;>
      rw [ha] at happend
    · rw [bind_of_error ha]
      refine ⟨happend.runtime, happend.summaries, fun p => .inl ?_⟩
      rw [strategyOf, happend.proposals, strategyOf]
    · rw [bind_of_ok ha]
      refine ⟨happend.runtime, happend.summaries, fun p => ?_⟩
      refine (submitChecked_proposalOf env.float proposal now h.strategyCoordinator p).imp ?_ ?_
      · exact congrArg (Option.map Proposal.strategyId)
      · rintro ⟨rfl, hfree, hadmitted⟩
        refine ⟨rfl, ?_, ?_⟩
        · rw [strategyOf, hfree]
          rfl
        · exact congrArg (Option.map Proposal.strategyId) hadmitted

-- The other operations

theorem callBroker_makes {α : Type} {c : BrokerCall} {answer : List BrokerCall → Except String α} :
    Along (Runtime.Makes N) (Runtime.callBroker c answer) := fun _ =>
  Runtime.makes_of_eq rfl rfl rfl

theorem onPortfolio_makes {α : Type} {p : Fallible Portfolio AccountingError α} :
    Along (Makes N) (onRuntime (Runtime.onPortfolio p)) :=
  onRuntime_makes fun _ => Runtime.makes_of_eq rfl rfl rfl

theorem onLiveGuard_makes {α : Type} {p : Fallible LiveGuard LiveGuardError α} :
    Along (Makes N) (onRuntime (Runtime.onLiveGuard p)) :=
  onRuntime_makes fun _ => Runtime.makes_of_eq rfl rfl rfl

theorem ingestMarketEvent_makes {event : MarketEvent} {receiveWall : WallTime} :
    Along (Makes N) (ingestMarketEvent env event receiveWall) := by
  refine (Along.require _ _).bind fun _ => Along.bind onMarketData_makes fun outcome => ?_
  cases outcome with
  | duplicate => exact Along.ret _
  | accepted _ =>
    refine Along.bind appendEvent_makes fun _ => ?_
    split
    · exact Along.ret _
    · exact (Along.reads _).bind fun _ => (Along.ofExcept _).bind fun _ =>
        (Along.when appendEvent_makes).bind fun _ => onPortfolio_makes

theorem ingestMarketBar_makes {bar : Bar} {sequence : ℕ} :
    Along (Makes N) (ingestMarketBar env bar sequence) := by
  refine Along.bind onMarketData_makes fun update => ?_
  split
  · exact appendEvent_makes
  · exact appendEvent_makes
  · exact Along.ret _

/-- The coordinator is published after its record, with the same proposals. -/
theorem publishCoordinator_makes {α : Type} {record : JournalRecord} {c : Coordinator} {h : Host}
    (hc : c.proposalOf = h.strategyCoordinator.proposalOf) (a : α) :
    Makes N h ((do
      appendEvent env record
      Fallible.modify ({ · with strategyCoordinator := c })
      pure a : Fallible Host EngineError α) h).2 := by
  have happend : Makes N h (appendEvent env record h).2 := appendEvent_makes h
  refine Along.bind_at happend fun _ s hs => ?_
  rw [hs] at happend
  exact ⟨⟨Std.Refl.refl _, hc.trans happend.proposals.symm⟩, rfl⟩

theorem resolveStrategyProposals_makes {policy : StrategyPolicy} {now : MonoTime} :
    Along (Makes N) (resolveStrategyProposals env policy now) := fun h =>
  publishCoordinator_makes (Coordinator.proposalOf_resolveAt env.float policy now
    h.strategyCoordinator) _

theorem resolveStrategyProposalsWithBudgets_makes {policy : StrategyPolicy} {now : MonoTime}
    {budgets : Std.TreeMap String Int} :
    Along (Makes N) (resolveStrategyProposalsWithBudgets env policy now budgets) :=
  (Along.require _ _).bind fun _ h =>
    publishCoordinator_makes (Coordinator.proposalOf_resolveAt env.float policy now
      h.strategyCoordinator) _

theorem previewManualTarget_makes {instrumentId : InstrumentId} {quantity : Int}
    {proposalId : ProposalId} {now : MonoTime} {traceId : TraceId} {ttlNs : ℕ}
    {orderType : OrderType} {limit : Option Int} :
    Along (Makes N) (previewManualTargetWithOrder env instrumentId quantity proposalId now
      traceId ttlNs orderType limit) :=
  (Along.reads _).bind fun _ => (Along.require _ _).bind fun _ => (Along.ofExcept _).bind fun _ =>
    (onRuntime_makes (Runtime.paced_makes Runtime.prepareManualTargetWithOrder_paced)).bind
    fun _ => Along.reads _

theorem previewStrategyProposal_makes {proposalId : ProposalId} {scale : F64} {now : MonoTime}
    {traceId : TraceId} {ttlNs : ℕ} :
    Along (Makes N) (previewStrategyProposal env proposalId scale now traceId ttlNs) :=
  (Along.require _ _).bind fun _ => (Along.reads _).bind fun _ => (Along.orFail _ _).bind fun _ =>
    ((Along.orFail _ _).bind fun _ => Along.ret _).bind fun _ => (Along.ofExcept _).bind fun _ =>
    (Along.ofExcept _).bind fun _ =>
    (onRuntime_makes (Runtime.paced_makes Runtime.prepareProposal_paced)).bind fun _ =>
    Along.reads _

theorem cancelOrder_makes {clientOrderId : String} :
    Along (Makes N) (cancelOrder env clientOrderId) := by
  have hbook (next : OrderState) : Along (Runtime.Makes N) (Runtime.onOrders
      (fun e => EngineError.cancel (.transition e)) (OrderBook.transition clientOrderId next)) :=
    Runtime.onOrders_makes Runtime.onRecord_known
  refine Along.bind requireRunning_makes fun _ => Along.bind appendJournal_makes fun _ =>
    onRuntime_makes ((Along.require _ _).bind fun _ => (hbook _).bind fun _ =>
      Along.bind callBroker_makes fun answer => ?_)
  cases answer with
  | error message => exact (hbook _).bind fun _ => Along.fail _
  | ok _ => exact Along.ret _

theorem replaceOrder_makes {clientOrderId : String} {quantity : Int} {limit : Option Int} :
    Along (Makes N) (replaceOrder env clientOrderId quantity limit) := by
  have hbook : Along (Runtime.Makes N) (Runtime.onOrders
      (fun e => EngineError.replace (.transition e)) (OrderBook.transition clientOrderId .unknown)) :=
    Runtime.onOrders_makes Runtime.onRecord_known
  refine Along.bind requireRunning_makes fun _ => Along.bind appendEvent_makes fun _ =>
    onRuntime_makes ((Along.require _ _).bind fun _ =>
      Along.bind (Runtime.onOrders_makes Runtime.onRecord_known) fun _ =>
      Along.bind callBroker_makes fun answer => ?_)
  cases answer with
  | error message => exact hbook.bind fun _ => Along.fail _
  | ok _ => exact Along.ret _

theorem transitionRiskState_makes {next : RiskState} {authorization : String} :
    Along (Makes N) (transitionRiskState env next authorization) := by
  have hstate : Along (Runtime.Makes N) (Runtime.transitionRiskState next authorization) :=
    (Along.reads _).bind fun _ => (Along.ofExcept _).bind fun _ =>
      Along.modify fun _ => Runtime.makes_of_eq rfl rfl rfl
  have hcancels (ids : List String) : Along (Makes N) (cancelOrders env ids) :=
    Along.forEach fun _ _ => Along.bind (Along.attempt cancelOrder_makes) fun _ => Along.ret _
  have halert : Along (Makes N) (publishAlert env) :=
    Along.bind monotonicNow_makes fun _ =>
      Along.bind (Along.attempt appendEvent_makes) fun _ => Along.ret _
  exact (Along.reads _).bind fun _ => (Along.ofExcept _).bind fun _ =>
    Along.bind appendJournal_makes fun _ => (onRuntime_makes hstate).bind fun _ =>
    (Along.reads _).bind fun _ => (Along.when (hcancels _)).bind fun _ => Along.when halert

theorem submitAutonomyPlan_makes {plan : Plan} {now : MonoTime} :
    Along (Makes N) (submitAutonomyPlan env plan now) :=
  (Along.reads _).bind fun _ => (Along.ofExcept _).bind fun _ =>
    Along.bind (Along.forEach fun _ _ => appendEvent_makes) fun _ =>
    Along.modify fun _ => makes_of_eq rfl rfl rfl

-- Plans and reconciliation

theorem publishPlans_makes {candidate : PlanStore} : Along (Makes N) (publishPlans env candidate) :=
  Along.bind (Along.forEach fun _ _ => appendEvent_makes) fun _ =>
    Along.modify fun _ => makes_of_eq rfl rfl rfl

theorem recordPlanTransition_makes {planId : String} {next : PlanState} {now : MonoTime} :
    Along (Makes N) (recordPlanTransition env planId next now) :=
  (Along.reads _).bind fun _ => (Along.require _ _).bind fun _ =>
    Along.bind publishPlans_makes fun _ => Along.ofExcept _

theorem executeAction_makes {planId : String} {now : MonoTime} {index : ℕ}
    {action : AutonomousAction} : Along MakesNamed (executeAction env planId now index action) := by
  unfold executeAction
  split
  · exact Along.require _ _
  · refine (Along.orFail _ _).bind fun proposalId => (Along.reads _).bind fun h => ?_
    dsimp only
    split
    · exact Along.ite (fun _ => Along.ret _) fun _ => (Along.orFail _ _).bind fun _ =>
        Along.discard submitProposal_makes
    · exact Along.ite (fun _ => Along.ret _) fun _ => (Along.orFail _ _).bind fun _ =>
        Along.discard submitScaledProposal_makes
    · exact Along.ret _

theorem runPlan_makes {planId : String} {now : MonoTime} :
    Along MakesNamed (runPlan env planId now) := by
  have hstep (next : PlanState) : Along MakesNamed (recordPlanTransition env planId next now) :=
    recordPlanTransition_makes.mono fun _ _ => Makes.named
  have hactions : Along MakesNamed (executeAutonomyPlan env planId now) :=
    (Along.reads _).bind fun _ => (Along.orFail _ _).bind fun _ =>
      Along.forEach fun _ _ => executeAction_makes
  refine (Along.attempt hactions).bind fun execution => ?_
  cases execution with
  | ok _ => exact hstep .completed
  | error error => exact (Along.attempt (hstep .failed)).bind fun _ => Along.fail _

theorem transitionAutonomyPlan_makes {planId : String} {next : PlanState} {now : MonoTime} :
    Along MakesNamed (transitionAutonomyPlan env planId next now) :=
  Along.bind (recordPlanTransition_makes.mono fun _ _ => Makes.named) fun _ =>
    Along.when runPlan_makes

theorem resumePlans_makes : Along MakesNamed (resumePlans env) := by
  have hrecover (now : MonoTime) (planId : String) :
      Along MakesNamed (recoverPlan env now planId) := by
    refine (Along.reads _).bind fun h => ?_
    split
    · exact Along.ret _
    · exact Along.ite (fun _ => Along.discard (Along.attempt
        (recordPlanTransition_makes.mono fun _ _ => Makes.named))) fun _ => runPlan_makes
  refine Along.bind (monotonicNow_makes.mono fun _ _ => Makes.named) fun now =>
    (Along.reads _).bind fun h => ?_
  exact Along.ite (fun _ => Along.ret _) fun _ => Along.forEach fun planId _ => hrecover now planId

theorem setAutonomyMode_makes {mode : AutonomyMode} :
    Along MakesNamed (setAutonomyMode env mode) := by
  refine Along.bind (appendEvent_makes.mono fun _ _ => Makes.named) fun _ =>
    Along.bind (Along.modify fun h => ?_) fun _ => (Along.reads _).bind fun _ =>
    Along.when resumePlans_makes
  exact Makes.named (makes_of_eq rfl rfl rfl)

end Host

/-- Whether an event is a fill. -/
def BrokerEvent.isFill : BrokerEvent → Bool
  | .filled _ _ _ => true
  | _ => false

/-- Reconciliation brings no fill: neither the broker's answers about single orders nor its
snapshots do. -/
structure Env.ReportsNoFill (env : Env) : Prop where
  reconcile : ∀ calls id event, env.gateway.reconcile calls id = .ok (some event) →
    event.isFill = false
  snapshot : ∀ calls snapshot, env.gateway.snapshot calls = .ok snapshot →
    ∀ order ∈ snapshot.orders, order.event.isFill = false

namespace Host

variable {N : String → Prop} {env : Env}

/-- An event other than a fill is not attributed. -/
theorem recordAttribution_of_not_fill {event : BrokerEvent} {priorFill : Int}
    (hevent : event.isFill = false) : Along (Makes N) (recordAttribution env event priorFill) := by
  refine (Along.reads _).bind fun h => ?_
  cases event with
  | filled => cases hevent
  | _ => exact Along.ret _

theorem recordTiming_makes {event : BrokerEvent} : Along (Makes N) (recordTiming env event) := by
  refine Along.bind monotonicNow_makes fun _ => (Along.reads _).bind fun _ =>
    (onRuntime_makes Runtime.recordBrokerTiming_makes).bind fun timing => ?_
  cases timing with
  | none => exact Along.ret _
  | some _ => exact appendEvent_makes

theorem indexFillNow_makes {event : BrokerEvent} : Along (Makes N) (indexFillNow env event) := by
  cases event with
  | filled => exact Along.bind monotonicNow_makes fun _ => Along.require _ _
  | _ => exact Along.ret _

theorem recordChildEvent_makes {event : BrokerEvent} :
    Along (Makes N) (recordChildEvent env event) := by
  refine (onRuntime_makes Runtime.applyChildEvent_makes).bind fun record => ?_
  cases record with
  | none => exact Along.ret _
  | some _ => exact appendEvent_makes

theorem applyReconciledEvent_makes {event : BrokerEvent} :
    Along (Makes N) (applyReconciledEvent env event) :=
  Along.bind appendEvent_makes fun _ => Along.bind recordTiming_makes fun _ =>
    (onRuntime_makes Runtime.applyBrokerEventInner_makes).bind fun _ =>
    Along.bind indexFillNow_makes fun _ => recordChildEvent_makes

theorem queryOrders_makes {ids : List String} {summary : ReconcileSummary} :
    Along (Makes N) (queryOrders env ids summary) := by
  induction ids generalizing summary with
  | nil => exact Along.ret _
  | cons id ids ih =>
    refine (onRuntime_makes callBroker_makes).bind fun answer => ?_
    split
    · exact Along.bind applyReconciledEvent_makes fun _ => ih
    · exact ih
    · exact ih

theorem reconcileUnknownOrders_makes : Along (Makes N) (reconcileUnknownOrders env) :=
  (Along.reads _).bind fun _ => queryOrders_makes

/-- A snapshot event stands for the event of its order. -/
theorem snapshotEvent_isFill {h : Host} {order : BrokerOrderSnapshot} {event : BrokerEvent}
    (horder : order.event.isFill = false) (hevent : h.snapshotEvent order = some event) :
    event.isFill = false := by
  unfold snapshotEvent at hevent
  split at hevent
  · next hfill _ =>
    rw [hfill] at horder
    cases horder
  · rw [← Option.some.inj hevent]
    exact horder

theorem applySnapshotEvent_makes {event : BrokerEvent} {summary : ReconcileSummary}
    (hevent : event.isFill = false) :
    Along (Makes N) (applySnapshotEvent env event summary) := by
  refine Along.bind appendEvent_makes fun _ => Along.bind recordTiming_makes fun _ =>
    (Along.reads _).bind fun _ =>
    (Along.attempt (onRuntime_makes Runtime.applyBrokerEventInner_makes)).bind fun outcome => ?_
  cases outcome with
  | error => exact Along.ret _
  | ok _ =>
    exact Along.bind indexFillNow_makes fun _ => (recordAttribution_of_not_fill hevent).bind
      fun _ => Along.bind recordChildEvent_makes fun _ => Along.ret _

theorem reconcileSnapshotOrders_makes {orders : List BrokerOrderSnapshot}
    {summary : ReconcileSummary} (horders : ∀ order ∈ orders, order.event.isFill = false) :
    Along (Makes N) (reconcileSnapshotOrders env orders summary) := by
  induction orders generalizing summary with
  | nil => exact Along.ret _
  | cons order orders ih =>
    obtain ⟨horder, horders⟩ := List.forall_mem_cons.mp horders
    refine (Along.reads _).bind fun h => Along.ite (fun _ => ?_) fun _ => ih horders
    cases hevent : h.snapshotEvent order with
    | none => exact ih horders
    | some event =>
      exact (applySnapshotEvent_makes (snapshotEvent_isFill horder hevent)).bind fun _ =>
        ih horders

theorem adoptSnapshot_makes {snapshot : BrokerSnapshot} :
    Along (Makes N) (adoptSnapshot env snapshot) := by
  have hadopt : Along (Runtime.Makes N) (Runtime.applyBrokerSnapshot snapshot) := by
    refine (Along.ofExcept _).bind fun _ => Along.modify fun r => ?_
    exact Runtime.makes_of_eq rfl rfl rfl
  exact (Along.ofExcept _).bind fun _ => Along.bind appendEvent_makes fun _ =>
    (onRuntime_makes hadopt).bind fun _ =>
    Along.bind monotonicNow_makes fun _ => Along.bind indexPortfolio_makes fun _ =>
    (Along.reads _).bind fun _ => appendEvent_makes

theorem reconcileSnapshot_makes (henv : env.ReportsNoFill) :
    Along (Makes N) (reconcileSnapshot env) := by
  refine Along.bind reconcileUnknownOrders_makes fun summary h => ?_
  have hasked : Along (Makes N) (onRuntime (Runtime.brokerSnapshot env)) :=
    onRuntime_makes (Along.bind callBroker_makes fun _ => Along.ofExcept _)
  refine Along.bind_at (hasked h) fun snapshot s hsnapshot => ?_
  have horders : ∀ order ∈ snapshot.orders, order.event.isFill = false := by
    obtain ⟨answer, _, hcall, hanswer⟩ := bind_eq_ok (onRuntime_eq_ok hsnapshot)
    rw [ofExcept_apply, Prod.mk.injEq, mapError_eq_ok] at hanswer
    have hgateway : env.gateway.snapshot (brokerCalls h.runtime.trace) = answer :=
      Except.ok.inj (congrArg Prod.fst hcall)
    exact henv.snapshot _ _ (hgateway.trans hanswer.1)
  exact (reconcileSnapshotOrders_makes horders).bind
    (fun _ => Along.bind adoptSnapshot_makes fun _ => (Along.reads _).bind fun _ => Along.ret _) s

theorem reconcileTrigger_makes (henv : env.ReportsNoFill) :
    Along MakesNamed (reconcileTrigger env) := by
  have hbegin : Along (Makes fun _ => False) (beginSweep) :=
    (Along.reads _).bind fun _ => (Along.require _ _).bind fun _ =>
      Along.modify fun _ => makes_of_eq rfl rfl rfl
  have hend : Along (Makes fun _ => False) endSweep :=
    Along.modify fun _ => makes_of_eq rfl rfl rfl
  have hsweep : Along (Makes fun _ => False) (reconcileSweep env) :=
    hbegin.bind fun _ => (reconcileSnapshot_makes henv).bind fun _ =>
      (Along.when hend).bind fun _ => Along.ret _
  exact (hsweep.mono fun _ _ => Makes.named).bind fun _ =>
    (Along.when resumePlans_makes).bind fun _ => Along.ret _


end Host

/-- The calls that ask the broker about orders. -/
def Op.reconciles : Op → Bool
  | .reconcileUnknownOrders | .reconcileTrigger => true
  | _ => false

/-- **Every call** but an admission and a broker event makes orders that are named after what they
name, and changes no recorded proposal and no summary. -/
theorem Op.orderly {env : Env} {op : Op} (henv : op.reconciles = true → env.ReportsNoFill)
    (hadmission : ∀ proposal now, op ≠ .submitStrategyProposal proposal now)
    (hevent : ∀ event, op ≠ .applyBrokerEvent event) (h : Host) :
    Host.Orderly h (op.after env h) := by
  have along {p : Fallible Host EngineError Unit} (hp : Along (Host.Makes fun _ => False) p) :
      Host.Orderly h (p h).2 := (hp h).orderly
  have named {p : Fallible Host EngineError Unit} (hp : Along Host.MakesNamed p) :
      Host.Orderly h (p h).2 := fun _ => hp h
  unfold Op.after Op.run
  cases op with
  | appendEvent => exact along Host.appendEvent_makes
  | registerMarketInstrument => exact along (Along.modify fun _ => Host.makes_of_eq rfl rfl rfl)
  | ingestMarketEvent => exact along Host.ingestMarketEvent_makes
  | ingestMarketBar => exact along Host.ingestMarketBar_makes
  | recoverMarketBook => exact along Host.onMarketData_makes
  | recoverMarketStream => exact along Host.onMarketData_makes
  | markMarketDataStale => exact along (Along.modify fun _ => Host.makes_of_eq rfl rfl rfl)
  | submitStrategyProposal proposal now => exact absurd rfl (hadmission proposal now)
  | resolveStrategyProposals => exact along (Along.discard Host.resolveStrategyProposals_makes)
  | resolveStrategyProposalsWithBudgets =>
    exact along (Along.discard Host.resolveStrategyProposalsWithBudgets_makes)
  | previewManualTarget => exact along (Along.discard Host.previewManualTarget_makes)
  | previewStrategyProposal => exact along (Along.discard Host.previewStrategyProposal_makes)
  | submitManualPreview => exact named (Along.discard Host.submitManualPreview_makes)
  | submitProposal => exact named (Along.discard Host.submitProposal_makes)
  | submitScheduledProposal => exact Along.discard Host.submitScheduledProposal_orderly h
  | driveScheduledChildren => exact Along.discard Host.driveScheduledChildren_orderly h
  | submitScaledProposal => exact named (Along.discard Host.submitScaledProposal_makes)
  | submitApprovedAction => exact named (Along.discard Host.submitApprovedAction_makes)
  | applyBrokerEvent event => exact absurd rfl (hevent event)
  | configureLiveLimits =>
    exact along (Along.bind Host.appendEvent_makes fun _ => Host.onRuntime_makes
      ((Along.reads _).bind fun _ => (Along.require _ _).bind fun _ =>
        Along.modify fun _ => Runtime.makes_of_eq rfl rfl rfl))
  | armLive => exact along (Along.discard Host.onLiveGuard_makes)
  | confirmLive => exact along Host.onLiveGuard_makes
  | killLive =>
    exact along (Along.bind Host.appendEvent_makes fun _ => Host.onRuntime_makes
      (Along.modify fun _ => Runtime.makes_of_eq rfl rfl rfl))
  | cancelOrder => exact along Host.cancelOrder_makes
  | replaceOrder => exact along Host.replaceOrder_makes
  | updateMarkPrice =>
    exact along ((Along.reads _).bind fun _ => (Along.require _ _).bind fun _ =>
      Host.onPortfolio_makes)
  | setScopedRiskPolicy =>
    exact along ((Along.ofExcept _).bind fun _ => Along.bind Host.appendEvent_makes fun _ =>
      Host.onRuntime_makes (Along.modify fun _ => Runtime.makes_of_eq rfl rfl rfl))
  | applyCorporateAction =>
    exact along ((Along.reads _).bind fun _ => (Along.require _ _).bind fun _ =>
      (Along.ofExcept _).bind fun _ => Along.bind Host.appendEvent_makes fun _ =>
      Host.onRuntime_makes (Along.bind (fun _ => Runtime.makes_of_eq rfl rfl rfl)
        fun _ => Along.ret _))
  | transitionRiskState => exact along Host.transitionRiskState_makes
  | reloadConfig =>
    exact along (Host.onRuntime_makes (Along.modify fun _ => Runtime.makes_of_eq rfl rfl rfl))
  | submitAutonomyPlan => exact along Host.submitAutonomyPlan_makes
  | transitionAutonomyPlan => exact named Host.transitionAutonomyPlan_makes
  | setAutonomyMode => exact named Host.setAutonomyMode_makes
  | reconcileUnknownOrders => exact along (Along.discard Host.reconcileUnknownOrders_makes)
  | reconcileTrigger => exact named (Along.discard (Host.reconcileTrigger_makes (henv rfl)))
  | brokerStatusSnapshot =>
    exact along (Along.discard ((Host.onRuntime_makes (Along.bind Host.callBroker_makes fun _ =>
      Along.ofExcept _)).bind fun _ => Along.ret _))
  | drain => exact along (Along.modify fun _ => Host.makes_of_eq rfl rfl rfl)
  | stop => exact along (Along.modify fun _ => Host.makes_of_eq rfl rfl rfl)

end InsiderTrader
