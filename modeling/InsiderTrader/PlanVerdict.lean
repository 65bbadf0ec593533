import InsiderTrader.Planning

/-!
# The verdict of the planner

Planning reads a time in two places: the limits in force, and the boundaries of
the last second. With both given, the verdict on a target is a function of the
portfolio and the risk engine. All a plan leaves behind is its boundary.

## Main definitions

- `ManualTarget` — a manual target with its order type and limit
- `Runtime.messageCount` — the boundaries of the last second
- `Runtime.planVerdict` — the verdict under limits and a message rate
- `Runtime.Paced` — only the boundaries changed

## Main results

- `planTarget_verdict`, `prepareManualTargetWithOrder_verdict` — what planning answers
- `planTarget_paced`, `prepareManualTargetWithOrder_paced` — what it leaves behind
-/

namespace InsiderTrader

open MachineInt Fallible

/-- A manual target with its order type and limit. -/
structure ManualTarget where
  instrumentId : InstrumentId
  quantityTicks : Int
  proposalId : ProposalId
  traceId : TraceId
  orderType : OrderType
  limitPriceTicks : Option Int

/-- The order type and the limit fit together. -/
def ManualTarget.WellFormed (m : ManualTarget) : Prop :=
  ¬(m.orderType = .market ∧ m.limitPriceTicks.isSome
    ∨ m.orderType = .limit ∧ m.limitPriceTicks.all (· ≤ 0))

instance (m : ManualTarget) : Decidable m.WellFormed := inferInstanceAs (Decidable (¬_))

namespace Runtime

/-- The boundaries kept at a new one. -/
def pacedTimestamps (r : Runtime) (now : MonoTime) : List MonoTime :=
  let recent := r.messageTimestampsNs.dropWhile (· < now - 1000000000)
  (if 1000000 ≤ recent.length then recent.drop 1 else recent) ++ [now]

/-- The boundaries of the last second, the new one included. -/
def messageCount (r : Runtime) (now : MonoTime) : ℕ := (r.pacedTimestamps now).length

/-- What the guardrails observe at a message rate. -/
def riskInputs (env : Env) (r : Runtime) (risk : RiskEngine) (target : Target)
    (priceDeviationBps : Option Int) (rate : ℕ) : Except EngineError (Option RiskInputs) :=
  let g := risk.guardrails
  if g = {} then .ok none
  else do
    let leverage ← observedLeverage env.float r.portfolio g
    let drawdownBps ← observedDrawdown r.portfolio g
    if g.maxPriceDeviationBps.isSome ∧ priceDeviationBps.isNone then .error staleData
    else if g.maxPredictedVolatilityBps.isSome ∨ g.maxParticipationBps.isSome then .error staleData
    else .ok (some {
      leverage := leverage
      drawdownBps := drawdownBps
      predictedVolatilityBps := 0
      participationBps := 0
      outstandingOrders := r.outstandingOrders
      messageRate := rate
      priceDeviationBps := priceDeviationBps.getD 0
      pricesFresh := (r.portfolio.markPrice target.instrumentId).any (0 < ·)
      clockHealthy := true
      brokerSessionHealthy := env.gateway.health = .healthy
      duplicateIntent := false })

/-- The verdict on a target under a risk engine and a message rate. -/
def planVerdict (env : Env) (r : Runtime) (target : Target) (traceId : TraceId)
    (priceDeviationBps : Option Int) (risk : RiskEngine) (rate : ℕ) :
    Except EngineError OrderIntent := do
  let inputs ← r.riskInputs env risk target priceDeviationBps rate
  (planTargetWithGuardrails env.float r.accountId traceId r.portfolio target risk
    env.gateway.capabilities inputs).mapError .plan

/-- Only the planning boundaries changed. -/
def Paced (r r' : Runtime) : Prop := ∃ ts, r' = { r with messageTimestampsNs := ts }

instance : Std.Refl Paced := ⟨fun r => ⟨r.messageTimestampsNs, rfl⟩⟩

instance : IsTrans Runtime Paced :=
  ⟨fun _ _ _ h h' => by obtain ⟨_, rfl⟩ := h; obtain ⟨ts, rfl⟩ := h'; exact ⟨ts, rfl⟩⟩

theorem contextualRiskInputs_verdict (env : Env) (r : Runtime) (risk : RiskEngine)
    (target : Target) (now : MonoTime) (deviation : Option Int) :
    (contextualRiskInputs env r.portfolio risk target now deviation r).1 =
      r.riskInputs env risk target deviation (r.messageCount now) := by
  unfold contextualRiskInputs riskInputs
  dsimp only
  by_cases hg : risk.guardrails = {}
  · rw [if_pos hg, if_pos hg]
    rfl
  rw [if_neg hg, if_neg hg]
  cases observedLeverage env.float r.portfolio risk.guardrails with
  | error e => rfl
  | ok leverage =>
    cases observedDrawdown r.portfolio risk.guardrails with
    | error e => rfl
    | ok drawdownBps =>
      change ((require (¬(risk.guardrails.maxPriceDeviationBps.isSome ∧ deviation.isNone))
        staleData >>= fun _ => _) r).1 = _
      rw [require_bind]
      by_cases hdev : risk.guardrails.maxPriceDeviationBps.isSome ∧ deviation.isNone
      · rw [if_neg (not_not.mpr hdev)]
        exact (if_pos hdev).symm
      rw [if_pos hdev, require_bind]
      by_cases hmarket :
          risk.guardrails.maxPredictedVolatilityBps.isSome ∨ risk.guardrails.maxParticipationBps.isSome
      · rw [if_neg (not_not.mpr hmarket)]
        exact ((if_neg hdev).trans (if_pos hmarket)).symm
      · rw [if_pos hmarket]
        exact ((if_neg hdev).trans (if_neg hmarket)).symm

theorem contextualRiskInputs_paced {env : Env} {p : Portfolio} {risk : RiskEngine}
    {target : Target} {now : MonoTime} {deviation : Option Int} :
    Along Paced (contextualRiskInputs env p risk target now deviation) := by
  have hrate : Along Paced (messageRate now) := fun r => ⟨r.pacedTimestamps now, rfl⟩
  unfold contextualRiskInputs
  dsimp only
  split
  · exact Along.ret _
  · exact (Along.ofExcept _).bind fun _ => (Along.ofExcept _).bind fun _ =>
      (Along.reads _).bind fun _ => (Along.require _ _).bind fun _ =>
      (Along.require _ _).bind fun _ => hrate.bind fun _ => Along.ret _

/-- **What planning answers** depends on the time through the limits and the message rate. -/
theorem planTarget_verdict (env : Env) (r : Runtime) (strategyId : Option String)
    (target : Target) (now : MonoTime) (traceId : TraceId) (deviation : Option Int) :
    (planTarget env strategyId target now traceId deviation r).1 =
      r.planVerdict env target traceId deviation
        (r.effectiveRisk strategyId target.instrumentId now) (r.messageCount now) := by
  rw [planTarget, reads_bind, bind_apply, planVerdict, id, ← contextualRiskInputs_verdict]
  rcases contextualRiskInputs env r.portfolio (r.effectiveRisk strategyId target.instrumentId now)
    target now deviation r with ⟨e | inputs, r'⟩ <;> rfl

theorem planTarget_paced {env : Env} {strategyId : Option String} {target : Target}
    {now : MonoTime} {traceId : TraceId} {deviation : Option Int} :
    Along Paced (planTarget env strategyId target now traceId deviation) :=
  (Along.reads _).bind fun _ => Along.bind contextualRiskInputs_paced fun _ => Along.ofExcept _

theorem prepareProposal_paced {env : Env} {proposal : Proposal} {now : MonoTime}
    {traceId : TraceId} : Along Paced (prepareProposal env proposal now traceId) :=
  (Along.ofExcept _).bind fun _ => (Along.reads _).bind fun _ => (Along.ofExcept _).bind fun _ =>
    planTarget_paced

/-- The verdict on a manual target under a risk engine and a message rate. -/
def manualVerdict (env : Env) (r : Runtime) (m : ManualTarget) (risk : RiskEngine) (rate : ℕ) :
    Except EngineError OrderIntent := do
  let intent ← r.planVerdict env ⟨m.instrumentId, m.quantityTicks, m.proposalId⟩ m.traceId
    (limitDeviationBps r.portfolio m.instrumentId m.limitPriceTicks) risk rate
  .ok { intent with orderType := m.orderType, limitPriceTicks := m.limitPriceTicks }

/-- The verdict on a manual target at a time. -/
def manualVerdictAt (env : Env) (r : Runtime) (m : ManualTarget) (now : MonoTime) :
    Except EngineError OrderIntent :=
  r.manualVerdict env m (r.effectiveRisk none m.instrumentId now) (r.messageCount now)

theorem prepareManualTargetWithOrder_verdict (env : Env) (r : Runtime) (m : ManualTarget)
    (now : MonoTime) :
    (prepareManualTargetWithOrder env m.instrumentId m.quantityTicks m.proposalId now m.traceId
      m.orderType m.limitPriceTicks r).1 =
      if m.WellFormed then r.manualVerdictAt env m now else .error .invalidRequest := by
  change ((require m.WellFormed EngineError.invalidRequest >>= fun _ => _) r).1 = _
  rw [require_bind]
  by_cases hm : m.WellFormed
  · rw [if_pos hm, if_pos hm, reads_bind, bind_apply,
      manualVerdictAt, manualVerdict, id, ← planTarget_verdict]
    rcases planTarget env none ⟨m.instrumentId, m.quantityTicks, m.proposalId⟩ now m.traceId
      (limitDeviationBps r.portfolio m.instrumentId m.limitPriceTicks) r with ⟨e | intent, r'⟩ <;> rfl
  · rw [if_neg hm, if_neg hm]

theorem prepareManualTargetWithOrder_paced {env : Env} {instrumentId : InstrumentId}
    {quantity : Int} {proposalId : ProposalId} {now : MonoTime} {traceId : TraceId}
    {orderType : OrderType} {limit : Option Int} :
    Along Paced (prepareManualTargetWithOrder env instrumentId quantity proposalId now traceId
      orderType limit) :=
  (Along.require _ _).bind fun _ => (Along.reads _).bind fun _ =>
    Along.bind planTarget_paced fun _ => Along.ret _

end Runtime

end InsiderTrader
