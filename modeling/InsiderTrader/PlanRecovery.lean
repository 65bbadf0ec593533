import InsiderTrader.SubmissionMoves
import InsiderTrader.Operation

/-!
# Plans after a restart

A process measures time from its own start. The deadline of a plan is journaled
as it was read by the process that accepted the plan, and the process that
resumes the plan compares it with its own clock.

## Main definitions

- `clockReading` — what the clock of a process shows
- `Host.recoveries` — the plans the recovery comes to, each with the host it finds
- `Host.Spares` — the recovery submits nothing for a plan

## Main results

- `Host.recoverExecutingAutonomyPlans_sends` — what a recovery submits, plan by plan
- `Host.submitPlanned_sends` — a planned intent that nothing stops goes out
- `expired_plan_spared_iff` — when a plan whose deadline has passed is not resumed
-/

namespace InsiderTrader

open MachineInt Fallible

/-- What the clock of a process shows: the nanoseconds since its start. -/
def clockReading (started now : ℕ) : MonoTime := min (now - started) u64Max

namespace Runtime

variable {r : Runtime} {intent : OrderIntent} {timing : ExecutionTiming} {now : MonoTime}

theorem recordDecision_of_arrival {market : Option ExecutionMarketReference}
    (hmarket : ¬market.any fun m => m.midTicks ≤ 0 ∨ m.spreadTicks < 0)
    (harrival : ¬(intent.limitPriceTicks.or
      (r.portfolio.markPrice intent.instrumentId)).any (· ≤ 0)) :
    ∃ timing, timing.decisionMonoNs = now ∧ recordDecision intent now market r =
      (.ok timing, { r with timings := r.timings.insert intent.clientOrderId timing }) := by
  rw [recordDecision, reads_bind, id, require_bind, if_pos hmarket, require_bind, if_pos harrival]
  exact ⟨_, rfl, rfl⟩

theorem recordSend_of_decision {clientOrderId : String} (market : Option ExecutionMarketReference)
    (htiming : r.timings[clientOrderId]? = some timing) (hnow : timing.decisionMonoNs ≤ now) :
    ∃ sent, recordSend clientOrderId now market r =
      (.ok sent, { r with timings := r.timings.insert clientOrderId sent }) := by
  rw [recordSend, reads_bind, id, htiming, Fallible.orFail, pure_bind, require_bind, if_pos hnow]
  exact ⟨_, rfl⟩

theorem submitIntent_sends (env : Env) (hauth : r.authorizeIntent intent = .ok ())
    (hstate : intent.state = .riskApproved) (hfresh : r.orders.get intent.clientOrderId = none) :
    intent ∈ sends (submitIntent env intent r).2.trace := by
  obtain ⟨book, hrun, -⟩ := submitOrder_of_fresh env hstate hfresh
  rw [submitIntent, reads_bind, id, hauth, bind_of_ok (ofExcept_apply _ _), hrun]
  simp

/-- Without a scoped policy and guardrails, planning does not look at the time. -/
theorem planTarget_unscoped {env : Env} {strategyId : Option String} {target : Target}
    {traceId : TraceId} {deviation : Option Int} (hpolicy : r.scopedRiskPolicy = none)
    (hguardrails : r.risk.guardrails = {}) :
    planTarget env strategyId target now traceId deviation r =
      ((planTargetWithGuardrails env.float r.accountId traceId r.portfolio target r.risk
        env.gateway.capabilities none).mapError .plan, r) := by
  have hrisk : r.effectiveRisk strategyId target.instrumentId now = r.risk := by
    rw [effectiveRisk, hpolicy]
  rw [planTarget, reads_bind, id, hrisk]
  unfold contextualRiskInputs
  dsimp only
  rw [if_pos hguardrails]
  rfl

end Runtime

namespace Host

-- The recovery, plan by plan

/-- The plans of a list the recovery comes to, each with the host it finds; the first error ends
the recovery. -/
def recoveriesFrom (env : Env) (now : MonoTime) : List String → Host → List (String × Host)
  | [], _ => []
  | planId :: planIds, h =>
    (planId, h) :: match recoverPlan env now planId h with
      | (.ok _, h') => recoveriesFrom env now planIds h'
      | (.error _, _) => []

/-- The plans a recovery comes to, each with the host it finds. -/
def recoveries (env : Env) (now : MonoTime) (h : Host) : List (String × Host) :=
  if h.autonomyMode = .manual then [] else recoveriesFrom env now h.autonomyPlans.executingPlanIds h

/-- The orders the recovery of one plan sends. -/
def recoverySends (env : Env) (now : MonoTime) (planId : String) (h : Host) : List OrderIntent :=
  (sends (recoverPlan env now planId h).2.trace).drop (sends h.trace).length

/-- The recovery submits nothing for a plan. -/
def Spares (env : Env) (now : MonoTime) (planId : String) (h : Host) : Prop :=
  ∀ s, (planId, s) ∈ recoveries env now h → recoverySends env now planId s = []

variable {env : Env} {now : MonoTime} {planId : String} {h : Host}

theorem recoverPlan_sends :
    sends (recoverPlan env now planId h).2.trace =
      sends h.trace ++ recoverySends env now planId h := by
  have htrace : h.trace <+: (recoverPlan env now planId h).2.trace :=
    Moves.trace_mono (L := fun _ _ => True) (recoverPlan_moves h)
  obtain ⟨rest, hrest⟩ := htrace
  rw [recoverySends, ← hrest, sends_append, List.drop_left]

theorem recoveriesFrom_sends {planIds : List String} :
    sends (Fallible.forEach (recoverPlan env now) planIds h).2.trace =
      sends h.trace ++ (recoveriesFrom env now planIds h).flatMap
        fun e => recoverySends env now e.1 e.2 := by
  induction planIds generalizing h with
  | nil => simp [Fallible.forEach, recoveriesFrom]
  | cons planId planIds ih =>
    rw [Fallible.forEach, recoveriesFrom, bind_apply, List.flatMap_cons, ← List.append_assoc,
      ← recoverPlan_sends]
    rcases recoverPlan env now planId h with ⟨_ | _, h'⟩
    · simp
    · exact ih

/-- **What a recovery submits** is what it submits for each plan it comes to. -/
theorem recoverExecutingAutonomyPlans_sends :
    sends (recoverExecutingAutonomyPlans env now h).2.trace =
      sends h.trace ++ (recoveries env now h).flatMap fun e => recoverySends env now e.1 e.2 := by
  rw [recoverExecutingAutonomyPlans, reads_bind, recoveries, id]
  by_cases hmode : h.autonomyMode = .manual
  · simp [hmode]
  · rw [if_neg hmode, if_neg hmode, recoveriesFrom_sends]

/-- The recovery finds the plans with the texts they had when it began. -/
theorem recoveriesFrom_sameGate {planIds : List String} {e : String × Host}
    (he : e ∈ recoveriesFrom env now planIds h) : SameGate h e.2 := by
  induction planIds generalizing h with
  | nil => cases he
  | cons planId planIds ih =>
    rw [recoveriesFrom, List.mem_cons] at he
    rcases he with rfl | he
    · exact Std.Refl.refl h
    · rcases hrun : recoverPlan env now planId h with ⟨_ | _, h'⟩
      · rw [hrun] at he
        cases he
      · rw [hrun] at he
        exact IsTrans.trans _ _ _ (Along.of_ok recoverPlan_sameGate hrun) (ih he)

/-- A plan past its deadline on the clock of the process is not executed. -/
theorem recoverySends_of_expired (hexpired : ∀ record ∈ h.autonomyPlans.get planId,
    record.plan.expiresAt ≤ now) : recoverySends env now planId h = [] := by
  have hquiet : Quiet h (recoverPlan env now planId h).2 := by
    rw [recoverPlan, reads_bind, id]
    cases hget : h.autonomyPlans.get planId with
    | none => exact .refl
    | some record =>
      dsimp only
      rw [if_pos (hexpired record hget)]
      exact Along.discard (Along.attempt recordPlanTransition_quiet) h
  rw [recoverySends, hquiet.sends_eq, List.drop_length]

/-- A plan whose deadline the clock of the process has passed is spared. -/
theorem spares_of_expired {record : PlanRecord} (hget : h.autonomyPlans.get planId = some record)
    (hexpired : record.plan.expiresAt ≤ now) : Spares env now planId h := by
  intro s hs
  refine recoverySends_of_expired fun found hfound => ?_
  have hgate : SameGate h s := by
    rw [recoveries] at hs
    by_cases hmode : h.autonomyMode = .manual
    · rw [if_pos hmode] at hs
      cases hs
    · rw [if_neg hmode] at hs
      exact recoveriesFrom_sameGate hs
  have hplan := hgate.plans planId
  rw [hget, Option.mem_def.mp hfound, Option.map_some, Option.map_some,
    Option.some.injEq] at hplan
  rw [hplan]
  exact hexpired

/-- What a plan sent stays sent when its outcome is recorded. -/
theorem runPlan_trace :
    (executeAutonomyPlan env planId now h).2.trace <+: (runPlan env planId now h).2.trace := by
  rw [runPlan, attempt_bind]
  cases (executeAutonomyPlan env planId now h).1 with
  | error e =>
    exact Moves.trace_mono
      (Along.bind (Along.attempt recordPlanTransition_quiet) (fun _ => Along.fail e) _ : Quiet _ _)
  | ok _ => exact (recordPlanTransition_quiet _).trace_mono

-- A submission that goes through

/-- What lets the send of an intent through: it is authorized, new and risk-approved, there is no
market reference to check and the arrival price is positive. -/
structure Clears (h : Host) (intent : OrderIntent) : Prop where
  authorized : h.runtime.authorizeIntent intent = .ok ()
  fresh : h.runtime.orders.get intent.clientOrderId = none
  riskApproved : intent.state = .riskApproved
  unreferenced : h.marketReference intent.instrumentId = none
  arrival : ¬(intent.limitPriceTicks.or
    (h.runtime.portfolio.markPrice intent.instrumentId)).any (· ≤ 0)

theorem onRuntime_of_ok {α : Type} {p : Fallible Runtime EngineError α} {r : Runtime} {a : α}
    (hp : p h.runtime = (.ok a, r)) : onRuntime p h = (.ok a, { h with runtime := r }) := by
  rw [onRuntime, zoom_apply, hp]
  rfl

theorem monotonicNow_apply (h : Host) :
    monotonicNow env h = (.ok (env.clock h.clockReads), { h with clockReads := h.clockReads + 1 }) :=
  rfl

/-- A cleared intent goes out when the clock does not run backwards. -/
theorem submitIntentWithTiming_sends (hreliable : env.Reliable) {intent : OrderIntent}
    (hclears : h.Clears intent) (hclock : now ≤ env.clock h.clockReads) :
    intent ∈ sends (submitIntentWithTiming env intent now h).2.trace := by
  have happend : ∀ record s, appendEvent env record s =
      (.ok (), (s.emit (.append record)).project ⟨s.journalCursor, record⟩) :=
    fun record s => appendEvent_eq_ok_iff.mpr ⟨hreliable _ _, rfl⟩
  obtain ⟨decision, hnow, hdecision⟩ :
      ∃ timing : ExecutionTiming, timing.decisionMonoNs = now ∧
        Runtime.recordDecision intent now none h.runtime = (.ok timing, { h.runtime with
          timings := h.runtime.timings.insert intent.clientOrderId timing }) :=
    Runtime.recordDecision_of_arrival (by simp) hclears.arrival
  rw [submitIntentWithTiming, reads_bind, id, hclears.unreferenced,
    bind_of_ok (onRuntime_of_ok hdecision), bind_of_ok (happend _ _),
    bind_of_ok (monotonicNow_apply _)]
  have htiming : (h.runtime.timings.insert intent.clientOrderId decision)[intent.clientOrderId]? =
      some decision := Std.TreeMap.getElem?_insert_self
  have hsend : decision.decisionMonoNs ≤ env.clock h.clockReads := by rwa [hnow]
  let decided : Host := project ⟨h.journalCursor, .executionTiming decision⟩
    (emit (.append (.executionTiming decision)) { h with runtime :=
      { h.runtime with timings := h.runtime.timings.insert intent.clientOrderId decision } })
  obtain ⟨sent, hsent⟩ := Runtime.recordSend_of_decision (r := decided.runtime) none htiming hsend
  let stamped : Host := { decided with clockReads := h.clockReads + 1 }
  change intent ∈ sends ((onRuntime (Runtime.recordSend intent.clientOrderId
    (env.clock h.clockReads) none) >>= _) stamped).2.trace
  rw [bind_of_ok (onRuntime_of_ok (h := stamped) hsent), bind_of_ok (happend _ _)]
  exact Runtime.submitIntent_sends env hclears.authorized hclears.riskApproved hclears.fresh

/-- **A planned intent that nothing stops goes out.** -/
theorem submitPlanned_sends (hreliable : env.Reliable) {intent : OrderIntent} {traceId : TraceId}
    {proposalId : ProposalId} (hclears : h.Clears intent) (hid : ¬Text.isBlank intent.intentId)
    (hclock : now ≤ env.clock h.clockReads) :
    intent ∈ sends (submitPlanned env intent traceId proposalId now h).2.trace := by
  have happend : ∀ record s, appendEvent env record s =
      (.ok (), (s.emit (.append record)).project ⟨s.journalCursor, record⟩) :=
    fun record s => appendEvent_eq_ok_iff.mpr ⟨hreliable _ _, rfl⟩
  have hindex : ∀ s, indexOrder intent s = (.ok (), s) := by
    intro s
    rw [indexOrder, Fallible.require, if_pos hid]
    rfl
  rw [submitPlanned, reads_bind, id, hclears.authorized, bind_of_ok (ofExcept_apply _ _),
    bind_of_ok (happend _ _), bind_of_ok (happend _ _), bind_of_ok (hindex _)]
  exact submitIntentWithTiming_sends hreliable ⟨hclears.authorized, hclears.fresh,
    hclears.riskApproved, hclears.unreferenced, hclears.arrival⟩ hclock

end Host

namespace Sample

/-- A proposal to hold 10 of instrument 7, generated at a time. -/
def timely (generated : MonoTime) : Proposal := { proposal 5 10 with generatedMono := generated }

theorem timely_validate (now : MonoTime) : (timely now).validate float now = .ok () := by
  unfold Proposal.validate
  have hname : ¬(Text.isBlank "trend" ∨ (5 : ℕ) = 0) := by decide
  have hconfidence : ¬¬float.inUnit one := by decide
  have hhorizon : ¬((1000 : ℕ) = 0 ∨ (1000 : ℕ) = 0 ∨ min (1000 * 10) u64Max < 1000) := by decide
  have haction : ¬¬(Action.targetQuantity 10).valid float := by decide
  rw [timely, proposal, if_neg hname, if_neg hconfidence, if_neg hhorizon, if_neg haction,
    if_neg (by simp)]

/-- A plan with a deadline that executes the proposal. -/
def executesBy (expiresAt : MonoTime) : Plan where
  planId := "p-1"
  generatedAt := 0
  expiresAt := expiresAt
  actions := [⟨.executeProposal, some "5", none, []⟩]

/-- A running host with the plan in execution, and the proposal. -/
def executing (generated expiresAt : MonoTime) : Host :=
  { Host.start settings with
    lifecycle := .running
    autonomyMode := .autonomous
    autonomyPlans := ⟨Std.TreeMap.empty.insert "p-1" ⟨executesBy expiresAt, .executing⟩, []⟩
    strategyCoordinator := ⟨Std.TreeMap.empty.insert 5 ⟨timely generated, .pending⟩, []⟩ }

/-- The sample environment with the clock at a time. -/
def envAt (now : MonoTime) : Env := { env empty with clock := fun _ => now }

/-- What planning makes of the proposal. -/
def resumed : Except PlanError OrderIntent :=
  planTargetWithGuardrails float 1 (Host.actionTrace "p-1" 0) settings.portfolio ⟨7, 10, 5⟩
    settings.risk (gateway empty).capabilities none

theorem prepareProposal_timely {intent : OrderIntent} (hresumed : resumed = .ok intent)
    (now : MonoTime) :
    Runtime.prepareProposal (envAt now) (timely now) now (Host.actionTrace "p-1" 0)
      (Host.start settings).runtime = (.ok intent, (Host.start settings).runtime) := by
  have htarget : (ofExcept (((Host.start settings).runtime.portfolio.targetFromProposal
        (envAt now).float (timely now)).mapError .target) : Fallible Runtime EngineError Target)
      (Host.start settings).runtime = (.ok ⟨7, 10, 5⟩, (Host.start settings).runtime) := rfl
  have hplan : Runtime.planTarget (envAt now) (some "trend") ⟨7, 10, 5⟩ now
      (Host.actionTrace "p-1" 0) none (Host.start settings).runtime =
        (.ok intent, (Host.start settings).runtime) := by
    rw [Runtime.planTarget_unscoped rfl rfl]
    exact Prod.ext (congrArg (Except.mapError EngineError.plan) hresumed) rfl
  have hvalid : (ofExcept (((timely now).validate (envAt now).float now).mapError .proposal) :
      Fallible Runtime EngineError Unit) (Host.start settings).runtime =
        (.ok (), (Host.start settings).runtime) :=
    Prod.ext (congrArg (Except.mapError EngineError.proposal) (timely_validate now)) rfl
  rw [Runtime.prepareProposal, bind_of_ok hvalid, reads_bind, id, bind_of_ok htarget]
  exact hplan

theorem planProposal_timely (now expiresAt : MonoTime) {intent : OrderIntent}
    (hresumed : resumed = .ok intent) :
    Host.planProposal (envAt now) (timely now) now (Host.actionTrace "p-1" 0)
        (executing now expiresAt) = (.ok intent, executing now expiresAt) := by
  have htarget : (ofExcept (((executing now expiresAt).runtime.portfolio.targetFromProposal
        (envAt now).float (timely now)).mapError .target) : Fallible Host EngineError Target)
      (executing now expiresAt) = (.ok ⟨7, 10, 5⟩, executing now expiresAt) := rfl
  have hhealth : (executing now expiresAt).ensureMarketHealthForTarget 7 10
      ((executing now expiresAt).runtime.portfolio.quantity 7) = .ok () := rfl
  rw [Host.planProposal, bind_of_ok (rfl : Host.requireRunning (executing now expiresAt) = _),
    reads_bind, id, bind_of_ok htarget, hhealth, bind_of_ok (ofExcept_apply _ _)]
  exact Host.onRuntime_of_ok (h := executing now expiresAt) (prepareProposal_timely hresumed now)

theorem resumed_clears : ∃ intent, resumed = .ok intent ∧ ¬Text.isBlank intent.intentId ∧
    ∀ now expiresAt, (executing now expiresAt).Clears intent := by
  have hrun : resumed.toOption.any fun intent => ¬Text.isBlank intent.intentId
      ∧ intent.state = .riskApproved ∧ intent.instrumentId = 7
      ∧ ¬(intent.limitPriceTicks.or (settings.portfolio.markPrice intent.instrumentId)).any
        (· ≤ 0) := by
    decide
  cases hresumed : resumed with
  | error e => rw [hresumed] at hrun; cases hrun
  | ok intent =>
    rw [hresumed] at hrun
    obtain ⟨hid, hstate, hinstrument, harrival⟩ := of_decide_eq_true hrun
    refine ⟨intent, rfl, hid, fun now expiresAt => ⟨rfl, OrderBook.get_new _, hstate, ?_, harrival⟩⟩
    rw [hinstrument]
    rfl

/-- The action of the plan sends its order. -/
theorem executing_sends {intent : OrderIntent} (hresumed : resumed = .ok intent)
    (hid : ¬Text.isBlank intent.intentId) (now expiresAt : MonoTime)
    (hclears : (executing now expiresAt).Clears intent) :
    intent ∈ sends (Host.executeAutonomyPlan (envAt now) "p-1" now
      (executing now expiresAt)).2.trace := by
  have hreliable : (envAt now).Reliable := fun _ _ => rfl
  have hsubmitted : intent ∈ sends (Host.submitProposal (envAt now) (timely now) now
      (Host.actionTrace "p-1" 0) (executing now expiresAt)).2.trace := by
    rw [Host.submitProposal, bind_of_ok (planProposal_timely now expiresAt hresumed)]
    rw [bind_pure_snd]
    exact Host.submitPlanned_sends hreliable hclears hid (Nat.le_refl now)
  have haction : intent ∈ sends (Host.executeAction (envAt now) "p-1" now 0
      ⟨.executeProposal, some "5", none, []⟩ (executing now expiresAt)).2.trace := by
    have hparse : (parseProposalId "5").or (parseDecimalProposalId "5") = some 5 := by
      decide
    have hunknown : ∀ orderId, ¬(executing now expiresAt).runtime.hasOrder orderId := by
      intro orderId hknown
      have hnone := congrArg Option.isSome (OrderBook.get_new orderId)
      exact Bool.noConfusion (hknown.symm.trans hnone)
    have hrecord : (executing now expiresAt).strategyCoordinator.record 5 =
        some ⟨timely now, .pending⟩ := rfl
    unfold Host.executeAction
    dsimp only
    rw [hparse, orFail, Fallible.pure_bind, reads_bind]
    dsimp only [id]
    rw [if_neg (hunknown _), hrecord, orFail, Fallible.pure_bind, discard_snd]
    exact hsubmitted
  have hget : (executing now expiresAt).autonomyPlans.get "p-1" =
      some ⟨executesBy expiresAt, .executing⟩ := rfl
  rw [Host.executeAutonomyPlan, reads_bind, id, hget, orFail, Fallible.pure_bind]
  change intent ∈ sends (Fallible.discard (Host.executeAction (envAt now) "p-1" now 0
    ⟨.executeProposal, some "5", none, []⟩) (executing now expiresAt)).2.trace
  rw [discard_snd]
  exact haction

/-- A plan before its deadline on the clock of the process is executed. -/
theorem executing_not_spared {now expiresAt : MonoTime} (h : now < expiresAt) :
    ¬(executing now expiresAt).Spares (envAt now) now "p-1" := by
  intro hspared
  obtain ⟨intent, hresumed, hid, hclears⟩ := resumed_clears
  have hsent := executing_sends hresumed hid now expiresAt (hclears now expiresAt)
  have hget : (executing now expiresAt).autonomyPlans.get "p-1" =
      some ⟨executesBy expiresAt, .executing⟩ := rfl
  have hrun : (Host.recoverPlan (envAt now) now "p-1" (executing now expiresAt)).2 =
      (Host.runPlan (envAt now) "p-1" now (executing now expiresAt)).2 := by
    rw [Host.recoverPlan, reads_bind, id, hget]
    dsimp only
    rw [if_neg (show ¬(executesBy expiresAt).expiresAt ≤ now from Nat.not_le.mpr h)]
  have hreached : ("p-1", executing now expiresAt) ∈
      Host.recoveries (envAt now) now (executing now expiresAt) := by
    rw [Host.recoveries, if_neg (fun hmanual => by cases hmanual)]
    exact List.mem_cons_self ..
  have hsends : sends (Host.recoverPlan (envAt now) now "p-1" (executing now expiresAt)).2.trace =
      [] ++ Host.recoverySends (envAt now) now "p-1" (executing now expiresAt) :=
    Host.recoverPlan_sends
  rw [hspared _ hreached, hrun] at hsends
  obtain ⟨rest, hrest⟩ := Host.runPlan_trace (h := executing now expiresAt)
  rw [← hrest, sends_append] at hsends
  have hmem := List.mem_append_left (sends rest) hsent
  rw [hsends] at hmem
  cases hmem

end Sample

/-- **Exactly when an overdue plan is spared**: a plan whose deadline has passed in real time is
not resumed, whatever the host and the broker, exactly when the deadline has also passed counted
from the start of the process that recovers it. -/
theorem expired_plan_spared_iff {accepted restarted now expiresAt : ℕ} (hstart : restarted ≤ now)
    (hwidth : expiresAt ≤ u64Max) :
    (accepted + expiresAt ≤ now → ∀ (env : Env) (h : Host) (planId : String),
        ∀ record ∈ h.autonomyPlans.get planId, record.state = .executing →
          record.plan.expiresAt = expiresAt →
          h.Spares env (clockReading restarted now) planId) ↔
      (accepted + expiresAt ≤ now → restarted + expiresAt ≤ now) := by
  constructor
  · intro hspared hpassed
    by_contra hlate
    have hbefore : clockReading restarted now < expiresAt := by
      show (min (now - restarted) u64Max : ℕ) < expiresAt
      omega
    exact Sample.executing_not_spared hbefore
      (hspared hpassed _ _ "p-1" ⟨Sample.executesBy expiresAt, .executing⟩ rfl rfl rfl)
  · intro hcondition hpassed env h planId record hget _ hdeadline
    have hlate := hcondition hpassed
    refine Host.spares_of_expired hget ?_
    rw [hdeadline]
    show expiresAt ≤ (min (now - restarted) u64Max : ℕ)
    omega

/-- A process that has been up for longer than the plan was to live. -/
theorem expired_plan_spared_late :
    (Sample.executing 0 1700).Spares (Sample.envAt 0) (clockReading 1000000 1001700) "p-1" :=
  (@expired_plan_spared_iff 0 1000000 1001700 1700 (by decide) (by decide)).mpr
    (fun _ => by decide) (by decide) _ _ _ ⟨Sample.executesBy 1700, .executing⟩ rfl rfl rfl

namespace Sample

/-- The journal of a process that stops while it executes a plan with the deadline 1700. -/
def interrupted : List JournalRecord :=
  (journalOf (afterAll running [(env empty, .setAutonomyMode .autonomous),
    (env empty, .submitStrategyProposal (proposal 5 10) 1000),
    (env empty, .submitAutonomyPlan (executesBy 1700) 1000),
    (env empty, .transitionAutonomyPlan "p-1" .approved 1000),
    (env empty, .transitionAutonomyPlan "p-1" .executing 1000)]).trace).take 7

end Sample

set_option maxRecDepth 20000 in
/-- **An overdue plan is resumed**: the plan of a process started at 0 had to be executed by 1700.
A process started at 1000000 resumes it at 1001500, when its own clock shows 1500. -/
theorem expired_plan_resumed :
    ¬∀ (accepted restarted now : ℕ) (env : Env) (h : Host) (planId : String),
      Host.openJournal Sample.float Sample.settings Sample.interrupted = .ok h →
      restarted ≤ now → ∀ record ∈ h.autonomyPlans.get planId, record.state = .executing →
        accepted + record.plan.expiresAt ≤ now →
        (Host.reconcileSweep env h).2.Spares env (clockReading restarted now) planId := by
  have hopened : (Host.openJournal Sample.float Sample.settings Sample.interrupted).toOption.any
      fun h => h.autonomyPlans.get "p-1" = some ⟨Sample.executesBy 1700, .executing⟩
        ∧ ∃ e ∈ Host.recoveries (Sample.envAt 1500) 1500
            (Host.reconcileSweep (Sample.envAt 1500) h).2,
          e.1 = "p-1" ∧ Host.recoverySends (Sample.envAt 1500) 1500 "p-1" e.2 ≠ [] := by
    decide
  intro hclaim
  cases hopen : Host.openJournal Sample.float Sample.settings Sample.interrupted with
  | error e => rw [hopen] at hopened; cases hopened
  | ok h =>
    rw [hopen] at hopened
    obtain ⟨hget, ⟨planId, s⟩, hreached, rfl, hsent⟩ := of_decide_eq_true hopened
    exact hsent (hclaim 0 1000000 1001500 (Sample.envAt 1500) h "p-1" hopen (by decide) _ hget rfl
      (by decide) s hreached)

end InsiderTrader
