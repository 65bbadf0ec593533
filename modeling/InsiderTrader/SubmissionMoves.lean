import InsiderTrader.Effects
import InsiderTrader.Planning

/-!
# The ways an order is sent

Every order that leaves the host was asked for by the operation under way, was
planned at the host that operation decided on, and had its intent journaled
before, on a running host.

## Main definitions

- `Sent` — what holds of every send

## Main results

- `Host.submitProposal_moves`, `Host.submitManualPreview_moves`
- `Host.executeAutonomyPlan_moves`, `Host.resumePlans_moves`
- `Host.driveScheduledChildren_quiet` — parent plans send nothing
-/

namespace InsiderTrader

open Fallible

instance : Std.Refl Runtime.SameGate := ⟨fun _ => ⟨rfl, rfl, rfl, rfl⟩⟩

instance : IsTrans Runtime Runtime.SameGate :=
  ⟨fun _ _ _ h h' => ⟨h'.accountId.trans h.accountId, h'.portfolio.trans h.portfolio,
    h'.risk.trans h.risk, h'.scopedRiskPolicy.trans h.scopedRiskPolicy⟩⟩

instance : Std.Refl Host.SameGate := ⟨fun _ => ⟨Std.Refl.refl _, rfl, fun _ => rfl⟩⟩

instance : IsTrans Host Host.SameGate :=
  ⟨fun _ _ _ h h' => ⟨IsTrans.trans _ _ _ h.runtime h'.runtime,
    h'.strategyCoordinator.trans h.strategyCoordinator,
    fun id => (h'.plans id).trans (h.plans id)⟩⟩

-- Submissions leave the gate as it is

namespace Runtime

theorem planTarget_sameGate {env : Env} {strategyId : Option String} {target : Target}
    {now : MonoTime} {traceId : TraceId} {deviation : Option Int} :
    Along SameGate (planTarget env strategyId target now traceId deviation) := by
  refine (Along.reads _).bind fun r => Along.bind ?_ fun _ => Along.ofExcept _
  unfold contextualRiskInputs
  dsimp only
  split
  · exact Along.ret _
  · exact (Along.ofExcept _).bind fun _ => (Along.ofExcept _).bind fun _ =>
      (Along.reads _).bind fun _ => (Along.require _ _).bind fun _ =>
      (Along.require _ _).bind fun _ =>
      Along.bind (Along.bind (Along.modify fun _ => ⟨rfl, rfl, rfl, rfl⟩) fun _ => Along.reads _)
      fun _ => Along.ret _

theorem prepareProposal_sameGate {env : Env} {proposal : Proposal} {now : MonoTime}
    {traceId : TraceId} : Along SameGate (prepareProposal env proposal now traceId) :=
  (Along.ofExcept _).bind fun _ => (Along.reads _).bind fun _ => (Along.ofExcept _).bind fun _ =>
    planTarget_sameGate

theorem recordDecision_sameGate {intent : OrderIntent} {now : MonoTime}
    {market : Option ExecutionMarketReference} :
    Along SameGate (recordDecision intent now market) :=
  (Along.reads _).bind fun _ => (Along.require _ _).bind fun _ => (Along.require _ _).bind fun _ =>
    Along.bind (Along.modify fun _ => ⟨rfl, rfl, rfl, rfl⟩) fun _ => Along.ret _

theorem recordSend_sameGate {id : String} {now : MonoTime}
    {market : Option ExecutionMarketReference} : Along SameGate (recordSend id now market) :=
  (Along.reads _).bind fun _ => (Along.orFail _ _).bind fun _ => (Along.require _ _).bind fun _ =>
    Along.bind (Along.modify fun _ => ⟨rfl, rfl, rfl, rfl⟩) fun _ => Along.ret _

theorem submitIntent_sameGate {env : Env} {intent : OrderIntent} :
    Along SameGate (submitIntent env intent) := by
  intro r
  rcases submitIntent_cases env intent r with hsame | ⟨-, -, book, hrun, -⟩
  · rw [hsame]; exact Std.Refl.refl _
  · rw [hrun]; exact ⟨rfl, rfl, rfl, rfl⟩

end Runtime

namespace Host

theorem onRuntime_sameGate {α : Type} {p : Fallible Runtime EngineError α}
    (hp : Along Runtime.SameGate p) : Along SameGate (onRuntime p) :=
  hp.zoom fun _ _ hr => ⟨hr, rfl, fun _ => rfl⟩

theorem monotonicNow_sameGate {env : Env} : Along SameGate (monotonicNow env) :=
  (Along.reads _).bind fun _ =>
    Along.bind (Along.modify fun _ => ⟨Std.Refl.refl _, rfl, fun _ => rfl⟩) fun _ => Along.ret _

theorem appendEvent_sameGate {env : Env} {record : JournalRecord} :
    Along SameGate (appendEvent env record) := by
  refine (Along.reads _).bind fun _ => Along.bind ?_ fun _ => (Along.reads _).bind fun _ =>
    (Along.require _ _).bind fun _ =>
      Along.modify fun _ => ⟨Std.Refl.refl _, rfl, fun _ => rfl⟩
  refine (Along.reads _).bind fun h => ?_
  split
  · exact Along.fail _
  · exact Along.modify fun h => ⟨⟨rfl, rfl, rfl, rfl⟩, rfl, fun _ => rfl⟩

theorem submitPlanned_sameGate {env : Env} {intent : OrderIntent} {traceId : TraceId}
    {proposalId : ProposalId} {now : MonoTime} :
    Along SameGate (submitPlanned env intent traceId proposalId now) := by
  refine (Along.reads _).bind fun _ => (Along.ofExcept _).bind fun _ =>
    Along.bind appendEvent_sameGate fun _ => Along.bind appendEvent_sameGate fun _ =>
    (Along.require _ _).bind fun _ => ?_
  exact (Along.reads _).bind fun _ => (onRuntime_sameGate Runtime.recordDecision_sameGate).bind
    fun _ => Along.bind appendEvent_sameGate fun _ => Along.bind monotonicNow_sameGate fun _ =>
    (onRuntime_sameGate Runtime.recordSend_sameGate).bind fun _ =>
    Along.bind appendEvent_sameGate fun _ => onRuntime_sameGate Runtime.submitIntent_sameGate

theorem planProposal_sameGate {env : Env} {proposal : Proposal} {now : MonoTime}
    {traceId : TraceId} : Along SameGate (planProposal env proposal now traceId) :=
  Along.bind ((Along.reads _).bind fun _ => Along.require _ _) fun _ => (Along.reads _).bind
    fun _ => (Along.ofExcept _).bind fun _ => (Along.ofExcept _).bind fun _ =>
    onRuntime_sameGate Runtime.prepareProposal_sameGate

theorem submitProposal_sameGate {env : Env} {proposal : Proposal} {now : MonoTime}
    {traceId : TraceId} : Along SameGate (submitProposal env proposal now traceId) :=
  Along.bind planProposal_sameGate fun _ => Along.bind submitPlanned_sameGate fun _ => Along.ret _

theorem scaledProposal_sameGate {env : Env} {proposal : Proposal} {scale : F64} :
    Along SameGate (scaledProposal env proposal scale) :=
  (Along.orFail _ _).bind fun _ => Along.ret _

theorem submitScaledProposal_sameGate {env : Env} {proposalId : ProposalId} {scale : F64}
    {now : MonoTime} {traceId : TraceId} :
    Along SameGate (submitScaledProposal env proposalId scale now traceId) :=
  (Along.require _ _).bind fun _ => (Along.reads _).bind fun _ => (Along.orFail _ _).bind fun _ =>
    Along.bind scaledProposal_sameGate fun _ => submitProposal_sameGate

theorem executeAction_sameGate {env : Env} {planId : String} {now : MonoTime} {index : ℕ}
    {action : AutonomousAction} :
    Along SameGate (executeAction env planId now index action) := by
  unfold executeAction
  split
  · exact Along.require _ _
  · refine (Along.orFail _ _).bind fun _ => (Along.reads _).bind fun h => ?_
    dsimp only
    split
    · exact Along.ite (fun _ => Along.ret _) fun _ => (Along.orFail _ _).bind fun _ =>
        Along.discard submitProposal_sameGate
    · exact Along.ite (fun _ => Along.ret _) fun _ => (Along.orFail _ _).bind fun _ =>
        Along.discard submitScaledProposal_sameGate
    · exact Along.ret _

theorem publishPlans_quiet {env : Env} {candidate : PlanStore} :
    Along Quiet (publishPlans env candidate) :=
  Along.bind (Along.forEach fun _ _ => appendEvent_quiet) fun _ =>
    Along.modify fun _ => quiet_of_eq rfl rfl

theorem recordPlanTransition_quiet {env : Env} {planId : String} {next : PlanState}
    {now : MonoTime} : Along Quiet (recordPlanTransition env planId next now) :=
  (Along.reads _).bind fun _ => (Along.require _ _).bind fun _ => Along.bind publishPlans_quiet fun _ =>
    Along.ofExcept _

/-- Publishing plans of the same texts changes nothing planning reads. -/
theorem publishPlans_sameGate {env : Env} {candidate : PlanStore} {h : Host}
    (hplans : ∀ id, (candidate.get id).map (·.plan) = (h.autonomyPlans.get id).map (·.plan)) :
    SameGate h (publishPlans env candidate h).2 := by
  have hevents : Along SameGate (Fallible.forEach
      (fun event => appendEvent env (.planEvent event)) candidate.drainEvents.1) :=
    Along.forEach fun _ _ => appendEvent_sameGate
  refine Along.bind_at (hevents h) fun _ s hs => ?_
  have hg := hevents.of_ok hs
  exact ⟨Std.Refl.refl _, rfl, fun id => (hplans id).trans (hg.plans id).symm⟩

theorem recordPlanTransition_sameGate {env : Env} {planId : String} {next : PlanState}
    {now : MonoTime} : Along SameGate (recordPlanTransition env planId next now) := by
  intro h
  rw [recordPlanTransition, reads_bind, require_bind]
  split
  · exact Along.bind_at (publishPlans_sameGate fun id => PlanStore.transition_plan _ id _ _ _)
      fun _ s _ => Std.Refl.refl s
  · exact Std.Refl.refl h

theorem executeAutonomyPlan_sameGate {env : Env} {planId : String} {now : MonoTime} :
    Along SameGate (executeAutonomyPlan env planId now) :=
  (Along.reads _).bind fun _ => (Along.orFail _ _).bind fun _ =>
    Along.forEach fun _ _ => executeAction_sameGate

theorem runPlan_sameGate {env : Env} {planId : String} {now : MonoTime} :
    Along SameGate (runPlan env planId now) := by
  refine Along.bind (Along.attempt executeAutonomyPlan_sameGate) fun execution => ?_
  cases execution with
  | error e => exact Along.bind (Along.attempt recordPlanTransition_sameGate) fun _ => Along.fail _
  | ok _ => exact recordPlanTransition_sameGate

theorem recoverPlan_sameGate {env : Env} {now : MonoTime} {planId : String} :
    Along SameGate (recoverPlan env now planId) := by
  refine (Along.reads _).bind fun h => ?_
  split
  · exact Along.ret _
  · exact Along.ite (fun _ => Along.discard (Along.attempt recordPlanTransition_sameGate))
      fun _ => runPlan_sameGate

-- Single orders

end Host

/-- What holds of every send: the host is running, the intent is journaled, and the order
carries out one of the requests `R` at the runtime `r` that was decided on. -/
def Sent (R : List Request) (r : Runtime) (s : Host) (call : BrokerCall) : Prop :=
  ∃ intent, call = .send intent ∧ s.lifecycle = .running ∧
    Journaled s.trace intent.clientOrderId ∧ ∃ q ∈ R, q.Approves r intent

theorem Sent.mono {R R' : List Request} {r r' : Runtime} (hR : ∀ q ∈ R, q ∈ R')
    (hg : r'.SameGate r) {s : Host} {call : BrokerCall} (h : Sent R r s call) :
    Sent R' r' s call := by
  obtain ⟨intent, rfl, hrun, hj, q, hq, happ⟩ := h
  exact ⟨intent, rfl, hrun, hj, q, hR q hq, (q.approves_congr hg intent).mp happ⟩

namespace Host

variable {L : Lifecycle → Lifecycle → Prop} {env : Env}

/-- An appended intent is journaled. -/
theorem appendEvent_journaled {intent : OrderIntent} {h s : Host} {u : Unit}
    (ha : appendEvent env (encodeOrderIntent intent) h = (.ok u, s)) :
    Journaled s.trace intent.clientOrderId := by
  rw [appendEvent_eq_ok ha]
  exact ⟨encodeIntent intent, List.mem_append_right _ (List.mem_singleton.mpr rfl), rfl⟩

/-- A planned order is sent by a running host after its intent was journaled. -/
theorem submitPlanned_moves {intent : OrderIntent} {traceId : TraceId} {proposalId : ProposalId}
    {now : MonoTime} {h : Host} (hrun : h.lifecycle = .running) :
    Moves L (fun s c => c = .send intent ∧ s.lifecycle = .running ∧
        Journaled s.trace intent.clientOrderId)
      h (submitPlanned env intent traceId proposalId now h).2 := by
  refine Moves.bind_quiet (Along.reads _) fun _ s₀ _ q₀ => ?_
  refine Moves.bind_quiet (Along.ofExcept _) fun _ s₁ _ q₁ => ?_
  refine Moves.bind_quiet appendEvent_quiet fun _ s₂ _ q₂ => ?_
  refine Moves.bind_quiet appendEvent_quiet fun _ s₃ h₃ q₃ => ?_
  refine Moves.bind_quiet indexOrder_quiet fun _ s₄ _ q₄ => ?_
  refine submitIntentWithTiming_moves fun s q _ => ⟨rfl, ?_, ?_⟩
  · have hquiet : Quiet h s := q₀.trans (q₁.trans (q₂.trans (q₃.trans (q₄.trans q))))
    rw [Moves.lifecycle hquiet, hrun]
  · exact (appendEvent_journaled h₃).mono (Moves.trace_mono (q₄.trans q))

theorem requireRunning_eq_ok {h s : Host} {u : Unit} (hr : requireRunning h = (.ok u, s)) :
    h.lifecycle = .running ∧ s = h := by
  rw [requireRunning, reads_bind] at hr
  unfold require at hr
  split at hr
  · exact ⟨‹_›, (Prod.mk.inj hr).2.symm⟩
  · simp at hr

theorem planProposal_quiet {proposal : Proposal} {now : MonoTime} {traceId : TraceId} :
    Along Quiet (planProposal env proposal now traceId) :=
  Along.bind requireRunning_quiet fun _ => (Along.reads _).bind fun _ => (Along.ofExcept _).bind fun _ =>
    (Along.ofExcept _).bind fun _ => onRuntime_quiet Runtime.prepareProposal_silent

/-- A value of a computation on the runtime is the runtime's own. -/
theorem onRuntime_eq_ok {α : Type} {p : Fallible Runtime EngineError α} {h s : Host} {a : α}
    (hp : onRuntime p h = (.ok a, s)) : p h.runtime = (.ok a, s.runtime) := by
  rw [onRuntime, zoom_apply, Prod.mk.injEq, mapError_eq_ok] at hp
  obtain ⟨hok, rfl⟩ := hp
  exact Prod.ext hok rfl

theorem planProposal_eq_ok {proposal : Proposal} {now : MonoTime} {traceId : TraceId} {h s : Host}
    {intent : OrderIntent} (hp : planProposal env proposal now traceId h = (.ok intent, s)) :
    h.lifecycle = .running ∧
      ∃ q ∈ h.proposalRequests env now proposal, q.Approves h.runtime intent := by
  obtain ⟨_, s₀, hr, hplan⟩ := bind_eq_ok hp
  obtain ⟨hrun, rfl⟩ := requireRunning_eq_ok hr
  rw [reads_bind] at hplan
  obtain ⟨_, -, hplan⟩ := ofExcept_bind_eq_ok hplan
  obtain ⟨_, -, hplan⟩ := ofExcept_bind_eq_ok hplan
  obtain ⟨target, htarget, happ, -⟩ := Runtime.prepareProposal_approves (onRuntime_eq_ok hplan)
  refine ⟨hrun, _, ?_, happ⟩
  simp [proposalRequests, htarget]

theorem submitProposal_moves {proposal : Proposal} {now : MonoTime} {traceId : TraceId} (h : Host) :
    Moves L (Sent (h.proposalRequests env now proposal) h.runtime) h
      (submitProposal env proposal now traceId h).2 := by
  refine Moves.bind_quiet planProposal_quiet fun intent s hs q => ?_
  obtain ⟨hrun, happ⟩ := planProposal_eq_ok hs
  refine Along.bind_at (Moves.mono (submitPlanned_moves ((Moves.lifecycle q).trans hrun))
    (fun _ _ hl => hl) ?_) fun _ s' _ => .refl
  rintro s' c ⟨rfl, hrun', hj⟩
  exact ⟨intent, rfl, hrun', hj, happ⟩

theorem scaledProposal_moves {proposal : Proposal} {scale : F64} {now : MonoTime}
    {traceId : TraceId} (h : Host) :
    Moves L (Sent (h.scaledRequests env now proposal scale) h.runtime) h
      ((scaledProposal env proposal scale >>= fun p => submitProposal env p now traceId) h).2 := by
  unfold scaledProposal scaledRequests
  cases scaleAction env.float scale proposal.action with
  | none => exact .refl
  | some action => exact submitProposal_moves h

theorem submitScaledProposal_moves {proposalId : ProposalId} {scale : F64} {now : MonoTime}
    {traceId : TraceId} (h : Host) :
    Moves L (Sent (h.admittedScaledRequests env now proposalId scale) h.runtime) h
      (submitScaledProposal env proposalId scale now traceId h).2 := by
  rw [submitScaledProposal, require_bind]
  split
  · rw [reads_bind, admittedScaledRequests, id]
    cases h.strategyCoordinator.record proposalId with
    | none => exact .refl
    | some record => exact scaledProposal_moves h
  · exact .refl

theorem submitApprovedAction_moves {approved : ApprovedAction} {proposal : Proposal}
    {now : MonoTime} {traceId : TraceId} (h : Host) :
    Moves L (Sent (h.scaledRequests env now proposal approved.scale) h.runtime) h
      (submitApprovedAction env approved proposal now traceId h).2 := by
  refine Along.bind_at (Quiet.moves (requireRunning_quiet h)) fun _ s hs => ?_
  obtain ⟨-, rfl⟩ := requireRunning_eq_ok hs
  cases approved.action.proposalId with
  | none => exact .refl
  | some text =>
    rw [orFail, pure_bind, require_bind]
    split
    · rw [require_bind]
      split
      · exact scaledProposal_moves s
      · exact .refl
    · exact .refl

theorem submitManualPreview_moves {preview : ManualOrderPreview} {now : MonoTime}
    {confirmation : String} (h : Host) :
    Moves L (Sent [⟨none, ⟨preview.intent.instrumentId, preview.targetQuantityTicks,
      preview.proposalId⟩, now⟩] h.runtime) h
      (submitManualPreview env preview now confirmation h).2 := by
  refine Along.bind_at (Quiet.moves (requireRunning_quiet h)) fun _ s hs => ?_
  obtain ⟨hrun, rfl⟩ := requireRunning_eq_ok hs
  rw [require_bind]
  split
  · rw [require_bind]
    split
    · rw [reads_bind, require_bind]
      split
      · refine Moves.bind_quiet (onRuntime_quiet Runtime.prepareManualTargetWithOrder_silent)
          fun intent s' hplan q => ?_
        obtain ⟨happ, -⟩ := Runtime.prepareManualTargetWithOrder_approves (onRuntime_eq_ok hplan)
        rw [require_bind]
        split
        · refine Along.bind_at (Moves.mono (submitPlanned_moves ((Moves.lifecycle q).trans hrun))
            (fun _ _ hl => hl) ?_) fun _ s' _ => .refl
          rintro s' c ⟨rfl, hrun', hj⟩
          exact ⟨intent, rfl, hrun', hj, _, by simp, happ⟩
        · exact .refl
      · exact .refl
    · exact .refl
  · exact .refl

-- Plans

theorem executeAction_moves {planId : String} {now : MonoTime} {index : ℕ}
    {action : AutonomousAction} (h : Host) :
    Moves L (Sent (h.actionRequests env now action) h.runtime) h
      (executeAction env planId now index action h).2 := by
  unfold executeAction actionRequests
  cases action.proposalId with
  | none => exact Quiet.moves (Along.require _ _ h)
  | some text =>
    dsimp only [Option.bind_some]
    cases (parseProposalId text).or (parseDecimalProposalId text) with
    | none => exact .refl
    | some proposalId =>
      simp only [orFail, pure_bind, reads_bind, id_eq]
      by_cases hs : h.runtime.hasOrder (h.runtime.clientOrderIdForProposal proposalId) = true
      · simp only [hs, ↓reduceIte]
        cases action.actionType <;> exact .refl
      · simp only [hs, Bool.false_eq_true, ↓reduceIte]
        cases action.actionType with
        | executeProposal =>
          change Moves L (Sent (h.admittedRequests env now proposalId) h.runtime) h _
          unfold admittedRequests
          cases h.strategyCoordinator.record proposalId with
          | none => exact .refl
          | some record =>
            change Moves L _ h (Fallible.discard (submitProposal env record.proposal now _) h).2
            rw [discard_snd]
            exact submitProposal_moves h
        | executeProposalScaled =>
          cases action.scale with
          | none => exact .refl
          | some scale =>
            change Moves L _ h (Fallible.discard (submitScaledProposal env proposalId scale now _) h).2
            rw [discard_snd]
            exact submitScaledProposal_moves h
        | _ => exact .refl

/-- A plan sends only what its actions ask for. -/
theorem executeAutonomyPlan_moves {planId : String} {now : MonoTime} (h : Host) :
    Moves L (Sent (h.planRequests env now planId) h.runtime) h
      (executeAutonomyPlan env planId now h).2 := by
  rw [executeAutonomyPlan, reads_bind, planRequests, id]
  cases h.autonomyPlans.get planId with
  | none => exact .refl
  | some record =>
    refine Along.forEach_of_inv (I := SameGate h) (fun e he s hg => ?_) (Std.Refl.refl h)
    refine ⟨IsTrans.trans _ _ _ hg (executeAction_sameGate s), ?_⟩
    refine Moves.mono (executeAction_moves s) (fun _ _ hl => hl) fun s' i hs =>
      hs.mono (fun q hq => ?_) hg.runtime
    rw [actionRequests_congr hg] at hq
    exact List.mem_flatMap.mpr ⟨e.1, List.fst_mem_of_mem_zipIdx he, hq⟩

theorem runPlan_moves {planId : String} {now : MonoTime} (h : Host) :
    Moves L (Sent (h.planRequests env now planId) h.runtime) h (runPlan env planId now h).2 := by
  refine Along.bind_at (p := attempt (executeAutonomyPlan env planId now))
    (executeAutonomyPlan_moves h) fun execution s _ => ?_
  cases execution with
  | error e =>
    exact Quiet.moves (Along.bind (Along.attempt recordPlanTransition_quiet) (fun _ => Along.fail _) s)
  | ok _ => exact Quiet.moves (recordPlanTransition_quiet s)

theorem recoverPlan_moves {planId : String} {now : MonoTime} (h : Host) :
    Moves L (Sent (h.planRequests env now planId) h.runtime) h
      (recoverPlan env now planId h).2 := by
  rw [recoverPlan, reads_bind, id]
  cases h.autonomyPlans.get planId with
  | none => exact .refl
  | some record =>
    dsimp only
    split
    · exact Quiet.moves (Along.discard (Along.attempt recordPlanTransition_quiet) h)
    · exact runPlan_moves h

/-- Resuming plans sends only what the executing plans ask for now. -/
theorem resumePlans_moves (h : Host) :
    Moves L (Sent (h.resumedRequests env) h.runtime) h (resumePlans env h).2 := by
  refine Moves.bind_quiet monotonicNow_quiet fun now s hs _ => ?_
  have hgate : SameGate h s := Along.of_ok monotonicNow_sameGate hs
  obtain ⟨rfl, rfl⟩ : env.clock h.clockReads = now ∧ { h with clockReads := h.clockReads + 1 } = s := by
    simpa [monotonicNow, bind_apply] using hs
  rw [recoverExecutingAutonomyPlans, reads_bind]
  split
  · exact .refl
  · refine Along.forEach_of_inv (I := SameGate h) (fun planId hid s' hg => ?_) hgate
    refine ⟨IsTrans.trans _ _ _ hg (recoverPlan_sameGate s'), ?_⟩
    refine Moves.mono (recoverPlan_moves s') (fun _ _ hl => hl) fun _ i hsent =>
      hsent.mono (fun q hq => ?_) hg.runtime
    rw [planRequests_congr hg] at hq
    exact List.mem_flatMap.mpr ⟨planId, hid, hq⟩

-- Parent plans

/-- Restoring succeeds exactly for a new risk-approved intent. -/
theorem restoreIntent_eq_ok_iff {intent : OrderIntent} {h s : Host} {u : Unit} :
    onRuntime (Runtime.restoreIntent intent) h = (.ok u, s) ↔
      intent.state = .riskApproved ∧ h.runtime.orders.get intent.clientOrderId = none ∧
        s = { h with runtime := { h.runtime with
          orders := h.runtime.orders.put intent.clientOrderId ⟨intent, none, 0⟩ } } := by
  rw [onRuntime, zoom_apply, Runtime.restoreIntent, Runtime.onOrders_apply, Prod.mk.injEq,
    mapError_eq_ok, mapError_eq_ok]
  rcases hi : OrderBook.insert intent h.runtime.orders with ⟨outcome, book⟩
  constructor
  · rintro ⟨hok, rfl⟩
    obtain rfl : outcome = .ok u := hok
    obtain ⟨hs, hf, rfl⟩ := OrderBook.insert_eq_ok_iff.mp hi
    exact ⟨hs, hf, rfl⟩
  · rintro ⟨hs, hf, rfl⟩
    rw [OrderBook.insert_of_fresh hs hf] at hi
    obtain ⟨rfl, rfl⟩ := Prod.mk.inj hi
    exact ⟨rfl, rfl⟩

/-- A restored intent is in the book. -/
theorem restoreIntent_hasOrder {intent : OrderIntent} {h s : Host} {u : Unit}
    (hr : onRuntime (Runtime.restoreIntent intent) h = (.ok u, s)) :
    s.runtime.hasOrder intent.clientOrderId := by
  obtain ⟨-, -, rfl⟩ := restoreIntent_eq_ok_iff.mp hr
  simp [Runtime.hasOrder]

theorem restoreClaim_quiet {claim : Runtime.ClaimedChild} : Along Quiet (restoreClaim env claim) :=
  Along.bind appendEvent_quiet fun _ => Along.bind appendEvent_quiet fun _ => Along.bind indexOrder_quiet fun _ =>
    onRuntime_quiet Runtime.restoreIntent_silent

/-- A restored claim has its order id in the book. -/
theorem restoreClaim_hasOrder {claim : Runtime.ClaimedChild} {h s : Host} {u : Unit}
    (hr : restoreClaim env claim h = (.ok u, s)) :
    s.runtime.hasOrder claim.intent.clientOrderId := by
  obtain ⟨_, s₁, -, hr⟩ := bind_eq_ok hr
  obtain ⟨_, s₂, -, hr⟩ := bind_eq_ok hr
  obtain ⟨_, s₃, -, hr⟩ := bind_eq_ok hr
  exact restoreIntent_hasOrder hr

/-- Restoring a child's intent takes its order id, so nothing is sent for it. -/
theorem driveChild_quiet {now : MonoTime} {claim : Runtime.ClaimedChild} :
    Along Quiet (driveChild env now claim) := by
  intro h
  refine Moves.bind_quiet restoreClaim_quiet fun _ s hrestore _ => ?_
  have hknown := restoreClaim_hasOrder hrestore
  refine Along.bind_at (p := attempt (submitIntentWithTiming env claim.intent now))
    (submitIntentWithTiming_quiet hknown) fun result s' _ => ?_
  cases result with
  | ok _ =>
    exact (onRuntime_quiet Runtime.markChildSent_silent).bind (fun _ => appendEvent_quiet) s'
  | error e =>
    exact (onRuntime_quiet Runtime.markChildUnknown_silent).bind (fun _ =>
      Along.bind appendEvent_quiet fun _ => Along.fail _) s'

theorem driveScheduledChildren_quiet {now : MonoTime} :
    Along Quiet (driveScheduledChildren env now) :=
  (onRuntime_quiet Runtime.claimDueChildren_silent).bind fun _ =>
    Along.bind (Along.forEach fun _ _ => driveChild_quiet) fun _ => Along.ret _

theorem submitScheduledProposal_quiet {proposal : Proposal} {schedule : Schedule} {now : MonoTime}
    {traceId : TraceId} :
    Along Quiet (submitScheduledProposal env proposal schedule now traceId) :=
  Along.bind planProposal_quiet fun _ => (Along.reads _).bind fun _ => (Along.ofExcept _).bind fun _ =>
    (onRuntime_quiet Runtime.createChildPlan_silent).bind fun _ => Along.bind appendEvent_quiet fun _ =>
    Along.bind appendEvent_quiet fun _ => Along.bind driveScheduledChildren_quiet fun _ => Along.ret _

end Host

end InsiderTrader
