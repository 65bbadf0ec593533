import InsiderTrader.Planning

/-!
# Planning a reduction

While reducing, the check only lets targets toward zero through; what is planned
is the distance to the quantity it resizes them to. That quantity lies between
zero and the position unless the order cap turns the step around, and then the
planned order enlarges the position.

## Main definitions

- `OrderIntent.Reduces` — an order against the position and no larger than it
- `RiskEngine.GuardrailsPass` — the observations that every guardrail lets through
- `MisdirectsReduction` — the planned reductions that the order cap turns around

## Main results

- `planTargetWithGuardrails_eq_ok_iff` — when a target is planned, and as which order
- `planned_reduces_iff` — while reducing, exactly the misdirected reductions do not reduce
-/

namespace InsiderTrader

open MachineInt

/-- An order against a position, for no more than the position: its complete fill leaves the
position between zero and what it was. -/
structure OrderIntent.Reduces (p : Portfolio) (intent : OrderIntent) : Prop where
  against : intent.side = .sell ∧ 0 < p.quantity intent.instrumentId ∨
    intent.side = .buy ∧ p.quantity intent.instrumentId < 0
  quantity : intent.quantityTicks ≤ (p.quantity intent.instrumentId).natAbs
  filled : let held := p.quantity intent.instrumentId
    let rest := held + intent.signedTicks
    rest.natAbs ≤ held.natAbs ∧ (rest = 0 ∨ rest.sign = held.sign)

-- When a target is planned

namespace RiskEngine

/-- Observations that no guardrail denies. -/
structure GuardrailsPass (float : FloatArith) (g : Guardrails) (inputs : RiskInputs) : Prop where
  prices : inputs.pricesFresh
  clock : inputs.clockHealthy
  session : inputs.brokerSessionHealthy
  distinct : ¬inputs.duplicateIntent
  observed : ¬(¬float.isRatio inputs.leverage ∨ inputs.drawdownBps < 0
    ∨ inputs.predictedVolatilityBps < 0 ∨ inputs.participationBps < 0
    ∨ inputs.priceDeviationBps = -2 ^ 63)
  leverage : ¬g.maxLeverage.any fun limit =>
    ¬float.isRatio limit ∨ float.exceeds inputs.leverage limit
  drawdown : ¬breached g.maxDrawdownBps inputs.drawdownBps
  volatility : ¬breached g.maxPredictedVolatilityBps inputs.predictedVolatilityBps
  participation : ¬breached g.maxParticipationBps inputs.participationBps
  outstanding : ¬g.maxOutstandingOrders.any (· < inputs.outstandingOrders)
  messages : ¬g.maxMessageRate.any (· < inputs.messageRate)
  deviation : ¬breached g.maxPriceDeviationBps inputs.priceDeviationBps.natAbs

variable {float : FloatArith} {r : RiskEngine} {p : Portfolio} {target : Target}

/-- Observations that pass leave the decision to the hard limits. -/
theorem checkWithGuardrails_of_pass {g : Guardrails} {inputs : RiskInputs}
    (h : GuardrailsPass float g inputs) :
    r.checkWithGuardrails float p target g inputs = r.check p target := by
  unfold checkWithGuardrails
  rw [if_neg (not_not.mpr h.prices), if_neg (not_not.mpr h.clock), if_neg (not_not.mpr h.session),
    if_neg h.distinct, if_neg h.observed, if_neg h.leverage, if_neg h.drawdown,
    if_neg h.volatility, if_neg h.participation, if_neg h.outstanding, if_neg h.messages,
    if_neg h.deviation]

/-- A guardrail that does not deny lets the rest decide. -/
private lemma not_and_of_not_deny {c : Prop} [Decidable c] {reason : Reason} {d : Decision}
    (h : ∀ reason', (if c then .deny reason else d) ≠ .deny reason') :
    ¬c ∧ ∀ reason', d ≠ .deny reason' := by
  by_cases hc : c
  · rw [if_pos hc] at h
    exact absurd rfl (h reason)
  · rw [if_neg hc] at h
    exact ⟨hc, h⟩

/-- Observations that are not denied pass. -/
theorem guardrailsPass_of_not_deny {g : Guardrails} {inputs : RiskInputs}
    (h : ∀ reason, r.checkWithGuardrails float p target g inputs ≠ .deny reason) :
    GuardrailsPass float g inputs := by
  unfold checkWithGuardrails at h
  obtain ⟨prices, h⟩ := not_and_of_not_deny h
  obtain ⟨clock, h⟩ := not_and_of_not_deny h
  obtain ⟨session, h⟩ := not_and_of_not_deny h
  obtain ⟨distinct, h⟩ := not_and_of_not_deny h
  obtain ⟨observed, h⟩ := not_and_of_not_deny h
  obtain ⟨leverage, h⟩ := not_and_of_not_deny h
  obtain ⟨drawdown, h⟩ := not_and_of_not_deny h
  obtain ⟨volatility, h⟩ := not_and_of_not_deny h
  obtain ⟨participation, h⟩ := not_and_of_not_deny h
  obtain ⟨outstanding, h⟩ := not_and_of_not_deny h
  obtain ⟨messages, h⟩ := not_and_of_not_deny h
  obtain ⟨deviation, -⟩ := not_and_of_not_deny h
  exact ⟨not_not.mp prices, not_not.mp clock, not_not.mp session, distinct, observed, leverage,
    drawdown, volatility, participation, outstanding, messages, deviation⟩

end RiskEngine

open RiskEngine

variable {float : FloatArith} {p : Portfolio} {target : Target} {risk : RiskEngine}
  {inputs : Option RiskInputs}

theorem approvedQuantity_eq_ok_iff {d : Decision} {safe : Int} :
    d.approvedQuantity target = .ok safe ↔
      d = .allow ∧ safe = target.quantityTicks ∨ d = .resize safe := by
  cases d with
  | allow => simp [Decision.approvedQuantity, eq_comm]
  | resize quantity => simp [Decision.approvedQuantity]
  | deny reason => simp [Decision.approvedQuantity]

/-- **What is approved** has passed the guardrails and is accepted by the hard limits. -/
theorem targetDecision_approves_iff {safe : Int} :
    (targetDecision float p target risk inputs).approvedQuantity target = .ok safe ↔
      (∀ observed ∈ inputs, GuardrailsPass float risk.guardrails observed) ∧
        risk.Accepts p target safe := by
  cases inputs with
  | none =>
    refine approvedQuantity_eq_ok_iff.trans (Iff.symm (and_iff_right ?_))
    exact fun observed h => nomatch h
  | some observed =>
    constructor
    · intro h
      refine ⟨fun _ hobserved => ?_, approvedQuantity_accepts h⟩
      obtain rfl := Option.some.inj hobserved
      have hallowed : ∀ reason, risk.checkWithGuardrails float p target risk.guardrails observed ≠
          .deny reason := by
        intro reason hdeny
        rw [targetDecision, hdeny] at h
        cases h
      exact guardrailsPass_of_not_deny hallowed
    · rintro ⟨hpass, haccepts⟩
      rw [targetDecision, checkWithGuardrails_of_pass (hpass observed rfl)]
      exact approvedQuantity_eq_ok_iff.mpr haccepts

variable {accountId : AccountId} {traceId : TraceId} {capabilities : Capabilities}

/-- **When a target is planned**: the guardrails pass, market orders are supported, and the order
closes a representable distance to an accepted quantity. -/
theorem planTargetWithGuardrails_eq_ok_iff {intent : OrderIntent} :
    planTargetWithGuardrails float accountId traceId p target risk capabilities inputs = .ok intent ↔
      (∀ observed ∈ inputs, GuardrailsPass float risk.guardrails observed) ∧
        capabilities.market ∧ ∃ safe, risk.Accepts p target safe ∧
          safe - p.quantity target.instrumentId ≠ 0 ∧
          Fits 64 (safe - p.quantity target.instrumentId) ∧
          Fits 64 (safe - p.quantity target.instrumentId).natAbs ∧
          intent = deltaIntent accountId traceId target (safe - p.quantity target.instrumentId)
            (safe - p.quantity target.instrumentId).natAbs := by
  unfold planTargetWithGuardrails
  constructor
  · intro h
    cases hq : (targetDecision float p target risk inputs).approvedQuantity target with
    | error e => rw [hq] at h; cases h
    | ok safe =>
      rw [hq] at h
      simp only [bind, Except.bind] at h
      split at h
      · cases h
      · next delta hdelta =>
        obtain ⟨hfits, rfl⟩ := narrow_eq_some.mp hdelta
        split at h
        · cases h
        · next hne =>
          split at h
          · cases h
          · next absolute habsolute =>
            obtain ⟨hfits', rfl⟩ := narrow_eq_some.mp habsolute
            split at h
            · cases h
            · next hsupported =>
              cases h
              obtain ⟨hpass, haccepts⟩ := targetDecision_approves_iff.mp hq
              exact ⟨hpass, by_contra fun hmarket => hsupported (.inl hmarket), safe, haccepts,
                hne, hfits, hfits', rfl⟩
  · rintro ⟨hpass, hmarket, safe, haccepts, hne, hfits, hfits', rfl⟩
    rw [targetDecision_approves_iff.mpr ⟨hpass, haccepts⟩]
    simp only [bind, Except.bind]
    rw [narrow_eq_some.mpr ⟨hfits, rfl⟩]
    dsimp only
    rw [if_neg hne, narrow_eq_some.mpr ⟨hfits', rfl⟩]
    dsimp only
    rw [if_neg]
    rintro (hnot | hle)
    · exact hnot hmarket
    · omega

-- Reductions

/-- A quantity between zero and a position. -/
def Between (held safe : Int) : Prop := 0 ≤ safe ∧ safe ≤ held ∨ held ≤ safe ∧ safe ≤ 0

theorem movesTowardZero_iff {held quantity : Int} :
    movesTowardZero held quantity = true ↔ Between held quantity := by
  unfold movesTowardZero Between
  split
  · rw [decide_eq_true_eq]; omega
  · split
    · rw [decide_eq_true_eq]; omega
    · rw [decide_eq_true_eq]; omega

/-- **The slip while reducing**: an accepted quantity is between zero and the position, except when
the target is misdirected. -/
theorem RiskEngine.Passes.between_iff {safe : Int} (h : risk.Passes p target safe)
    (hstate : risk.state = .reduceOnly) :
    Between (p.quantity target.instrumentId) safe ↔ ¬Misdirects risk.limits p target := by
  have htoward : Between (p.quantity target.instrumentId) target.quantityTicks :=
    movesTowardZero_iff.mp (by_contra fun hnot => h.reduces ⟨hstate, hnot⟩)
  have hlimits := h.limits
  constructor
  · rintro hbetween ⟨hne, hsign, hfar, hlimited, -⟩
    have hsafe := h.limited
    rw [positionLimited_eq (by omega), hlimited] at hsafe
    obtain rfl := Option.some.inj hsafe
    rw [cappedQuantity, hsign] at hbetween
    unfold Between at hbetween
    rcases lt_trichotomy (p.quantity target.instrumentId) 0 with hneg | hzero | hpos
    · rw [Int.sign_eq_neg_one_of_neg hneg] at hbetween
      omega
    · omega
    · rw [Int.sign_eq_one_of_pos hpos] at hbetween
      omega
  · intro hdir
    have hcontained := (h.contained hdir).between
    unfold clampedTarget at hcontained
    unfold Between at htoward ⊢
    dsimp only at hcontained
    omega

/-- A planned order reduces the position exactly when it closes the distance to a quantity between
zero and the position. -/
theorem deltaIntent_reduces_iff {safe : Int}
    (hne : safe - p.quantity target.instrumentId ≠ 0) :
    (deltaIntent accountId traceId target (safe - p.quantity target.instrumentId)
        (safe - p.quantity target.instrumentId).natAbs).Reduces p ↔
      Between (p.quantity target.instrumentId) safe := by
  have hsigned := deltaIntent_signedTicks accountId traceId target
    (safe - p.quantity target.instrumentId)
  have hinstrument : ∀ delta quantity,
      (deltaIntent accountId traceId target delta quantity).instrumentId = target.instrumentId :=
    fun _ _ => rfl
  unfold Between
  constructor
  · rintro ⟨hagainst, hquantity, -⟩
    rw [hinstrument] at hagainst hquantity
    change ((if 0 < safe - p.quantity target.instrumentId then Side.buy else Side.sell) = _ ∧ _ ∨
      (if 0 < safe - p.quantity target.instrumentId then Side.buy else Side.sell) = _ ∧ _) at hagainst
    change ((safe - p.quantity target.instrumentId).natAbs : Int) ≤ _ at hquantity
    split at hagainst
    · simp only [reduceCtorEq, false_and, true_and, false_or] at hagainst
      omega
    · simp only [reduceCtorEq, false_and, true_and, or_false] at hagainst
      omega
  · intro hbetween
    have hfilled : p.quantity target.instrumentId + (safe - p.quantity target.instrumentId) = safe := by
      omega
    refine ⟨?_, ?_, ?_⟩
    · rw [hinstrument]
      show (if 0 < safe - p.quantity target.instrumentId then Side.buy else Side.sell) = _ ∧ _ ∨
        (if 0 < safe - p.quantity target.instrumentId then Side.buy else Side.sell) = _ ∧ _
      split
      · exact .inr ⟨rfl, by omega⟩
      · exact .inl ⟨rfl, by omega⟩
    · rw [hinstrument]
      show ((safe - p.quantity target.instrumentId).natAbs : Int) ≤ _
      omega
    · rw [hinstrument, hsigned]
      dsimp only
      rw [hfilled]
      refine ⟨by omega, ?_⟩
      rcases lt_trichotomy safe 0 with hneg | hzero | hpos
      · have hheld : p.quantity target.instrumentId < 0 := by omega
        exact .inr (by rw [Int.sign_eq_neg_one_of_neg hneg, Int.sign_eq_neg_one_of_neg hheld])
      · exact .inl hzero
      · have hheld : 0 < p.quantity target.instrumentId := by omega
        exact .inr (by rw [Int.sign_eq_one_of_pos hpos, Int.sign_eq_one_of_pos hheld])

/-- The step to a limited quantity is representable when the order limit answers. -/
theorem RiskEngine.orderLimited_fits {limits : Limits} {current limited safe : Int}
    (h : orderLimited limits current limited = some safe) : Fits 64 (limited - current) := by
  unfold orderLimited at h
  simp only [Option.bind_eq_bind, Option.bind_eq_some_iff] at h
  obtain ⟨delta, hdelta, -⟩ := h
  obtain ⟨hfits, rfl⟩ := narrow_eq_some.mp hdelta
  exact hfits

/-- The target of a reduction whose capped step leads away from zero, where the limits, the
guardrails and the broker let the order through. -/
structure MisdirectsReduction (float : FloatArith) (p : Portfolio) (target : Target)
    (risk : RiskEngine) (capabilities : Capabilities) (inputs : Option RiskInputs) : Prop where
  toward : movesTowardZero (p.quantity target.instrumentId) target.quantityTicks
  limits : 0 < risk.limits.maxPositionTicks ∧ 0 < risk.limits.maxOrderTicks ∧
    0 < risk.limits.maxGrossNotionalTicks
  misdirects : Misdirects risk.limits p target
  guardrails : ∀ observed ∈ inputs, GuardrailsPass float risk.guardrails observed
  market : capabilities.market

/-- A misdirected reduction is planned at the capped step. -/
theorem MisdirectsReduction.accepts (h : MisdirectsReduction float p target risk capabilities inputs)
    (hstate : risk.state = .reduceOnly) : risk.Accepts p target (cappedQuantity risk.limits
      (p.quantity target.instrumentId) (clampedTarget risk.limits target.quantityTicks)) := by
  obtain ⟨hposition, horder, hnotional⟩ := h.limits
  obtain ⟨-, -, -, hlimited, price, hprice, hpos, gross, hgross, hle⟩ := h.misdirects
  refine accepts_iff_passes.mpr ⟨by simp [hstate], by omega, fun hnot => hnot.2 h.toward, ?_,
    price, gross, hprice, hpos, hgross, hle⟩
  rw [positionLimited_eq hposition]
  exact hlimited

/-- **Planning while reducing**: every order planned for a target is a reduction of the position,
exactly when the target is not a misdirected reduction. -/
theorem planned_reduces_iff (hstate : risk.state = .reduceOnly) :
    (∀ intent, planTargetWithGuardrails float accountId traceId p target risk capabilities inputs =
        .ok intent → intent.Reduces p) ↔
      ¬MisdirectsReduction float p target risk capabilities inputs := by
  constructor
  · intro hreduces hdir
    have haccepts := hdir.accepts hstate
    obtain ⟨hne, hsign, hfar, hlimited, -⟩ := hdir.misdirects
    obtain ⟨-, horder, -⟩ := hdir.limits
    have hfits := fits_64_iff.mp (orderLimited_fits hlimited)
    have hstep : cappedQuantity risk.limits (p.quantity target.instrumentId)
          (clampedTarget risk.limits target.quantityTicks) - p.quantity target.instrumentId =
        risk.limits.maxOrderTicks ∨
        cappedQuantity risk.limits (p.quantity target.instrumentId)
          (clampedTarget risk.limits target.quantityTicks) - p.quantity target.instrumentId =
        -risk.limits.maxOrderTicks := by
      unfold cappedQuantity
      rcases lt_or_gt_of_ne hne with hneg | hpos
      · rw [Int.sign_eq_neg_one_of_neg hneg]
        omega
      · rw [Int.sign_eq_one_of_pos hpos]
        omega
    -- the capped step is smaller than a step that is representable
    have hnonzero : cappedQuantity risk.limits (p.quantity target.instrumentId)
        (clampedTarget risk.limits target.quantityTicks) - p.quantity target.instrumentId ≠ 0 := by
      omega
    have hplanned := hreduces _ (planTargetWithGuardrails_eq_ok_iff.mpr
      ⟨hdir.guardrails, hdir.market, _, haccepts, hnonzero, fits_64_iff.mpr (by omega),
        fits_64_iff.mpr (by omega), rfl⟩)
    have hbetween := (deltaIntent_reduces_iff hnonzero).mp hplanned
    exact ((accepts_iff_passes.mp haccepts).between_iff hstate).mp hbetween hdir.misdirects
  · intro hdir intent hintent
    obtain ⟨hpass, hmarket, safe, haccepts, hnonzero, -, -, rfl⟩ :=
      planTargetWithGuardrails_eq_ok_iff.mp hintent
    have hpasses := accepts_iff_passes.mp haccepts
    have hlimits := hpasses.limits
    refine (deltaIntent_reduces_iff hnonzero).mpr ((hpasses.between_iff hstate).mpr fun hmis => ?_)
    exact hdir ⟨by_contra fun hnot => hpasses.reduces ⟨hstate, hnot⟩, by omega, hmis, hpass, hmarket⟩

namespace Sample

/-- A reducing engine with an order limit of 50. -/
def reducer : RiskEngine := { RiskEngine.new ⟨1000, 50, 1000000⟩ with state := .reduceOnly }

end Sample

/-- A target of 60 from a position of 100 is planned as a sale of 40. -/
theorem planned_reduces_sale :
    ∃ intent, planTargetWithGuardrails Sample.float 1 9 (Portfolio.new.setPosition 7 ⟨100, 10⟩)
        ⟨7, 60, 1⟩ Sample.reducer ⟨true, true, true, true⟩ none = .ok intent ∧
      intent.side = .sell ∧ intent.quantityTicks = 40 ∧
      intent.Reduces (Portfolio.new.setPosition 7 ⟨100, 10⟩) := by
  have hdir : ¬MisdirectsReduction Sample.float (Portfolio.new.setPosition 7 ⟨100, 10⟩) ⟨7, 60, 1⟩
      Sample.reducer ⟨true, true, true, true⟩ none :=
    fun h => absurd h.misdirects.2.2.1 (by decide)
  exact ⟨_, rfl, by decide, by decide, (planned_reduces_iff rfl).mpr hdir _ rfl⟩

/-- **The capped step of a planned reduction**: a target of 10 from a position of 100 is planned as
a purchase of 50. -/
theorem planned_enlarges :
    ∃ intent, planTargetWithGuardrails Sample.float 1 9 (Portfolio.new.setPosition 7 ⟨100, 10⟩)
        ⟨7, 10, 1⟩ Sample.reducer ⟨true, true, true, true⟩ none = .ok intent ∧
      ¬intent.Reduces (Portfolio.new.setPosition 7 ⟨100, 10⟩) := by
  refine ⟨_, rfl, fun h => absurd h.filled.1 ?_⟩
  decide

end InsiderTrader
