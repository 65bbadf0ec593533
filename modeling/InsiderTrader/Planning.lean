import InsiderTrader.Operation
import InsiderTrader.RiskCheck

/-!
# What planning approves

A planned order closes the distance between a position and the quantity the
risk engine lets pass for the target that was asked for. The targets an
operation may ask for are determined by its arguments and the host it is called
on.

## Main definitions

- `Request` — a target asked for, with the scope and time of its limits
- `Request.Approves` — an order carries a request out
- `Op.requests` — what an operation may ask for

## Main results

- `planTarget_approves` — planned intents carry out their request
-/

namespace InsiderTrader

open MachineInt Fallible

/-- A target asked for, with the strategy and the time its limits are resolved by. -/
structure Request where
  strategyId : Option String
  target : Target
  now : MonoTime

/-- The risk engine a request is judged by. -/
def Request.risk (q : Request) (r : Runtime) : RiskEngine :=
  r.effectiveRisk q.strategyId q.target.instrumentId q.now

/-- The position a request is about. -/
def Request.position (q : Request) (r : Runtime) : Int := r.portfolio.quantity q.target.instrumentId

/-- An order that moves the position of a request to a quantity the risk engine accepts. -/
def Request.Approves (q : Request) (r : Runtime) (intent : OrderIntent) : Prop :=
  intent.instrumentId = q.target.instrumentId ∧
    ∃ safe, (q.risk r).Accepts r.portfolio q.target safe ∧
      intent.signedTicks = safe - q.position r

/-- A check before a decision can only deny. -/
private lemma deny_or_eq {c : Prop} [Decidable c] {reason : Reason} {d e : Decision}
    (h : (∃ reason, d = .deny reason) ∨ d = e) :
    (∃ reason', (if c then .deny reason else d) = .deny reason') ∨
      (if c then .deny reason else d) = e := by
  split
  · exact .inl ⟨_, rfl⟩
  · exact h

/-- The guardrails can only deny. -/
theorem RiskEngine.checkWithGuardrails_eq (float : FloatArith) (r : RiskEngine) (p : Portfolio)
    (target : Target) (g : Guardrails) (inputs : RiskInputs) :
    (∃ reason, r.checkWithGuardrails float p target g inputs = .deny reason) ∨
      r.checkWithGuardrails float p target g inputs = r.check p target := by
  unfold RiskEngine.checkWithGuardrails
  iterate 12 refine deny_or_eq ?_
  exact .inr rfl

/-- A target names the instrument and the identity of its proposal. -/
theorem Portfolio.targetFromProposal_eq_ok {float : FloatArith} {p : Portfolio}
    {proposal : Proposal} {target : Target} (h : p.targetFromProposal float proposal = .ok target) :
    target.instrumentId = proposal.instrumentId ∧ target.proposalId = proposal.proposalId := by
  have hbind : ∀ quantity? : Except TargetError Int, (quantity? >>= fun quantity =>
      .ok (⟨proposal.instrumentId, quantity, proposal.proposalId⟩ : Target)) = .ok target →
      target.instrumentId = proposal.instrumentId ∧ target.proposalId = proposal.proposalId := by
    intro quantity? heq
    cases quantity? with
    | error e => cases heq
    | ok quantity =>
      cases heq
      exact ⟨rfl, rfl⟩
  unfold Portfolio.targetFromProposal at h
  dsimp only at h
  repeat' split at h
  all_goals exact hbind _ h

theorem approvedQuantity_accepts {float : FloatArith} {p : Portfolio} {target : Target}
    {risk : RiskEngine} {inputs : Option RiskInputs} {safe : Int}
    (h : (targetDecision float p target risk inputs).approvedQuantity target = .ok safe) :
    risk.Accepts p target safe := by
  have hcheck : (∃ reason, targetDecision float p target risk inputs = .deny reason) ∨
      targetDecision float p target risk inputs = risk.check p target := by
    cases inputs with
    | none => exact .inr rfl
    | some inputs => exact risk.checkWithGuardrails_eq float p target risk.guardrails inputs
  rcases hcheck with ⟨reason, hdeny⟩ | hcheck
  · rw [hdeny] at h
    cases h
  · rw [hcheck] at h
    unfold RiskEngine.Accepts
    cases hd : risk.check p target with
    | allow => rw [hd] at h; cases h; exact .inl ⟨rfl, rfl⟩
    | resize q => rw [hd] at h; cases h; exact .inr rfl
    | deny reason => rw [hd] at h; cases h

/-- **Specification of the planner**: the order closes the distance to an accepted quantity. -/
theorem planTargetWithGuardrails_eq_ok {float : FloatArith} {accountId : AccountId}
    {traceId : TraceId} {p : Portfolio} {target : Target} {risk : RiskEngine}
    {capabilities : Capabilities} {inputs : Option RiskInputs} {intent : OrderIntent}
    (h : planTargetWithGuardrails float accountId traceId p target risk capabilities inputs
      = .ok intent) :
    ∃ safe delta, risk.Accepts p target safe ∧ delta = safe - p.quantity target.instrumentId ∧
      delta ≠ 0 ∧ Fits 64 delta ∧ intent = deltaIntent accountId traceId target delta delta.natAbs := by
  unfold planTargetWithGuardrails at h
  cases hq : (targetDecision float p target risk inputs).approvedQuantity target with
  | error e => rw [hq] at h; cases h
  | ok safe =>
    rw [hq] at h
    simp only [bind, Except.bind] at h
    split at h
    · cases h
    · next delta hdelta =>
      split at h
      · cases h
      · next hne =>
        split at h
        · cases h
        · next absolute habs =>
          split at h
          · cases h
          · cases h
            obtain ⟨hfits, rfl⟩ := narrow_eq_some.mp hdelta
            obtain ⟨-, rfl⟩ := narrow_eq_some.mp habs
            exact ⟨safe, _, approvedQuantity_accepts hq, rfl, hne, hfits, rfl⟩

theorem deltaIntent_signedTicks (accountId : AccountId) (traceId : TraceId) (target : Target)
    (delta : Int) : (deltaIntent accountId traceId target delta delta.natAbs).signedTicks = delta := by
  unfold OrderIntent.signedTicks deltaIntent
  by_cases hpos : 0 < delta
  · simp only [hpos, ↓reduceIte]
    omega
  · simp only [hpos, ↓reduceIte, reduceCtorEq]
    omega

namespace Runtime

/-- Planned intents carry out their request. -/
theorem planTarget_approves {env : Env} {strategyId : Option String} {target : Target}
    {now : MonoTime} {traceId : TraceId} {deviation : Option Int} {r r' : Runtime}
    {intent : OrderIntent}
    (h : planTarget env strategyId target now traceId deviation r = (.ok intent, r')) :
    (⟨strategyId, target, now⟩ : Request).Approves r intent ∧ intent.state = .riskApproved := by
  rw [planTarget, reads_bind] at h
  obtain ⟨inputs, _, -, h⟩ := bind_eq_ok h
  rw [ofExcept_apply, Prod.mk.injEq, mapError_eq_ok] at h
  obtain ⟨safe, delta, haccepts, hdelta, -, -, rfl⟩ := planTargetWithGuardrails_eq_ok h.1
  exact ⟨⟨rfl, safe, haccepts, by rw [deltaIntent_signedTicks, hdelta]; rfl⟩, rfl⟩

theorem prepareProposal_approves {env : Env} {proposal : Proposal} {now : MonoTime}
    {traceId : TraceId} {r r' : Runtime} {intent : OrderIntent}
    (h : prepareProposal env proposal now traceId r = (.ok intent, r')) :
    ∃ target, r.portfolio.targetFromProposal env.float proposal = .ok target ∧
      (⟨some proposal.strategyId, target, now⟩ : Request).Approves r intent ∧
      intent.state = .riskApproved := by
  obtain ⟨_, -, h⟩ := ofExcept_bind_eq_ok h
  rw [reads_bind] at h
  obtain ⟨target, htarget, h⟩ := ofExcept_bind_eq_ok h
  exact ⟨target, mapError_eq_ok.mp htarget, planTarget_approves h⟩

theorem prepareManualTargetWithOrder_approves {env : Env} {instrumentId : InstrumentId}
    {quantity : Int} {proposalId : ProposalId} {now : MonoTime} {traceId : TraceId}
    {orderType : OrderType} {limit : Option Int} {r r' : Runtime} {intent : OrderIntent}
    (h : prepareManualTargetWithOrder env instrumentId quantity proposalId now traceId orderType
      limit r = (.ok intent, r')) :
    (⟨none, ⟨instrumentId, quantity, proposalId⟩, now⟩ : Request).Approves r intent ∧
      intent.state = .riskApproved := by
  obtain ⟨-, h⟩ := require_bind_eq_ok h
  rw [reads_bind] at h
  obtain ⟨planned, _, hplan, h⟩ := bind_eq_ok h
  cases h
  obtain ⟨⟨hi, safe, haccepts, hsigned⟩, hstate⟩ := planTarget_approves hplan
  exact ⟨⟨hi, safe, haccepts, hsigned⟩, hstate⟩

/-- What planning reads of a runtime stays the same. -/
structure SameGate (r r' : Runtime) : Prop where
  accountId : r'.accountId = r.accountId
  portfolio : r'.portfolio = r.portfolio
  risk : r'.risk = r.risk
  scopedRiskPolicy : r'.scopedRiskPolicy = r.scopedRiskPolicy

end Runtime

theorem Request.risk_congr {r r' : Runtime} (hg : r.SameGate r') (q : Request) :
    q.risk r' = q.risk r := by
  simp only [Request.risk, Runtime.effectiveRisk, hg.accountId, hg.risk, hg.scopedRiskPolicy]

theorem Request.approves_congr {r r' : Runtime} (hg : r.SameGate r') (q : Request)
    (intent : OrderIntent) : q.Approves r' intent ↔ q.Approves r intent := by
  simp only [Request.Approves, q.risk_congr hg, Request.position, hg.portfolio]

-- What an operation may ask for

namespace Host

/-- What planning reads of a host stays the same; plans may change their states. -/
structure SameGate (h h' : Host) : Prop where
  runtime : h.runtime.SameGate h'.runtime
  strategyCoordinator : h'.strategyCoordinator = h.strategyCoordinator
  plans : ∀ id, (h'.autonomyPlans.get id).map (·.plan) = (h.autonomyPlans.get id).map (·.plan)

/-- The target a proposal asks for now. -/
def proposalRequests (env : Env) (now : MonoTime) (proposal : Proposal) (h : Host) :
    List Request :=
  match h.runtime.portfolio.targetFromProposal env.float proposal with
  | .ok target => [⟨some proposal.strategyId, target, now⟩]
  | .error _ => []

/-- The target a proposal asks for at a scale. -/
def scaledRequests (env : Env) (now : MonoTime) (proposal : Proposal) (scale : F64) (h : Host) :
    List Request :=
  match scaleAction env.float scale proposal.action with
  | some action => h.proposalRequests env now { proposal with action := action }
  | none => []

/-- The target an admitted proposal asks for. -/
def admittedRequests (env : Env) (now : MonoTime) (proposalId : ProposalId) (h : Host) :
    List Request :=
  match h.strategyCoordinator.record proposalId with
  | some record => h.proposalRequests env now record.proposal
  | none => []

/-- The target an admitted proposal asks for at a scale. -/
def admittedScaledRequests (env : Env) (now : MonoTime) (proposalId : ProposalId) (scale : F64)
    (h : Host) : List Request :=
  match h.strategyCoordinator.record proposalId with
  | some record => h.scaledRequests env now record.proposal scale
  | none => []

/-- The target the action of a plan asks for. -/
def actionRequests (env : Env) (now : MonoTime) (h : Host) (action : AutonomousAction) :
    List Request :=
  match action.proposalId.bind fun text => (parseProposalId text).or (parseDecimalProposalId text),
      action.actionType, action.scale with
  | some proposalId, .executeProposal, _ => h.admittedRequests env now proposalId
  | some proposalId, .executeProposalScaled, some scale =>
    h.admittedScaledRequests env now proposalId scale
  | _, _, _ => []

/-- The targets a plan asks for. -/
def planRequests (env : Env) (now : MonoTime) (h : Host) (planId : String) : List Request :=
  match h.autonomyPlans.get planId with
  | some record => record.plan.actions.flatMap (h.actionRequests env now)
  | none => []

/-- The targets the executing plans ask for when they are resumed. -/
def resumedRequests (env : Env) (h : Host) : List Request :=
  h.autonomyPlans.executingPlanIds.flatMap (h.planRequests env (env.clock h.clockReads))

section Congruence

variable {h h' : Host}

theorem proposalRequests_congr (hg : h.SameGate h') (env : Env) (now : MonoTime)
    (proposal : Proposal) :
    h'.proposalRequests env now proposal = h.proposalRequests env now proposal := by
  simp only [proposalRequests, hg.runtime.portfolio]

theorem scaledRequests_congr (hg : h.SameGate h') (env : Env) (now : MonoTime)
    (proposal : Proposal) (scale : F64) :
    h'.scaledRequests env now proposal scale = h.scaledRequests env now proposal scale := by
  simp only [scaledRequests, proposalRequests_congr hg]

theorem actionRequests_congr (hg : h.SameGate h') (env : Env) (now : MonoTime)
    (action : AutonomousAction) :
    h'.actionRequests env now action = h.actionRequests env now action := by
  simp only [actionRequests, admittedRequests, admittedScaledRequests, hg.strategyCoordinator,
    proposalRequests_congr hg, scaledRequests_congr hg]

theorem planRequests_congr (hg : h.SameGate h') (env : Env) (now : MonoTime) (planId : String) :
    h'.planRequests env now planId = h.planRequests env now planId := by
  have hplan := hg.plans planId
  unfold planRequests
  have hactions : h'.actionRequests env now = h.actionRequests env now :=
    funext fun action => actionRequests_congr hg env now action
  cases hget : h.autonomyPlans.get planId <;> cases hget' : h'.autonomyPlans.get planId <;>
    simp_all

end Congruence

end Host

/-- The host an operation decides on: the reconciled one where it reconciles first. -/
def Op.decisionHost (env : Env) (op : Op) (h : Host) : Host :=
  match op with
  | .reconcileTrigger => (Host.reconcileSweep env h).2
  | _ => h

/-- The targets an operation may ask for at the host it decides on. -/
def Op.requests (env : Env) (h : Host) : Op → List Request
  | .submitManualPreview preview now _ =>
    [⟨none, ⟨preview.intent.instrumentId, preview.targetQuantityTicks, preview.proposalId⟩, now⟩]
  | .submitProposal proposal now _ => h.proposalRequests env now proposal
  | .submitScaledProposal proposalId scale now _ =>
    h.admittedScaledRequests env now proposalId scale
  | .submitApprovedAction approved proposal now _ =>
    h.scaledRequests env now proposal approved.scale
  | .transitionAutonomyPlan planId .executing now => h.planRequests env now planId
  | .setAutonomyMode .hybrid | .setAutonomyMode .autonomous | .reconcileTrigger =>
    h.resumedRequests env
  | _ => []

end InsiderTrader
