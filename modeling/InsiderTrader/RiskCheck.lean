import InsiderTrader.Risk

/-!
# What the risk check lets through

A check clamps the target to the position limit and the step to the order
limit, and values all positions at the quantity that is left. The capped step
takes the sign of the target: on a reduction by more than the order limit it
leads away from the target.

## Main definitions

- `RiskEngine.Accepts` — a target passes the hard limits at a quantity
- `RiskEngine.Contained` — what the limits are there to guarantee
- `RiskEngine.Misdirects` — the targets whose capped step leads away from them

## Main results

- `RiskEngine.accepts_iff_passes` — what a target passes on its way
- `RiskEngine.check_contained_iff` — the limits hold of all targets but these
-/

namespace InsiderTrader

open MachineInt

-- Valuation

namespace Portfolio

/-- The price of an instrument: its trusted mark, else the mark of its position. -/
def valuationPrice (p : Portfolio) (instrument : InstrumentId) : Option Int :=
  (p.markPrice instrument).or ((p.position instrument).map (·.markPriceTicks))

/-- The absolute value of one position, with one instrument at another quantity. -/
def exposureOf (p : Portfolio) (instrument : InstrumentId) (quantity : Int)
    (e : InstrumentId × Position) : Int :=
  (if e.1 = instrument then quantity else e.2.quantityTicks).natAbs *
    (p.markPrice e.1).getD e.2.markPriceTicks

/-- The sum of the absolute values of all positions, with one instrument at another quantity. -/
def exposureAt (p : Portfolio) (instrument : InstrumentId) (quantity : Int) : Int :=
  (p.positions.toList.map (p.exposureOf instrument quantity)).sum +
    if (p.position instrument).isNone then
      quantity.natAbs * (p.valuationPrice instrument).getD 0
    else 0

end Portfolio

namespace RiskEngine

/-- The fold of the gross notional adds up the values of the positions. -/
theorem grossNotional_fold {p : Portfolio} {instrument : InstrumentId} {quantity : Int}
    {entries : List (InstrumentId × Position)} {total gross : Int}
    (h : entries.foldlM (fun (total : Int) e => do
      let q := if e.1 = instrument then quantity else e.2.quantityTicks
      let mark := (p.markPrice e.1).getD e.2.markPriceTicks
      if mark ≤ 0 then none
      else
        let notional ← narrow 128 (q.natAbs * mark.natAbs)
        narrow 128 (total + notional)) total = some gross) :
    gross = total + (entries.map (p.exposureOf instrument quantity)).sum := by
  induction entries generalizing total with
  | nil =>
    have heq : total = gross := by simpa using h
    simp [heq]
  | cons e entries ih =>
    simp only [List.foldlM_cons, Option.bind_eq_bind, Option.bind_eq_some_iff] at h
    obtain ⟨next, hnext, h⟩ := h
    split at hnext
    · cases hnext
    · next hmark =>
      simp only [Option.bind_eq_some_iff, narrow_eq_some] at hnext
      obtain ⟨notional, ⟨-, rfl⟩, -, rfl⟩ := hnext
      have hvalue : ((p.markPrice e.1).getD e.2.markPriceTicks).natAbs =
          (p.markPrice e.1).getD e.2.markPriceTicks := by omega
      rw [ih h, List.map_cons, List.sum_cons, Portfolio.exposureOf, hvalue]
      omega

/-- A representable gross notional is the exposure at the quantity. -/
theorem grossNotional_eq_some {p : Portfolio} {instrument : InstrumentId}
    {quantity price gross : Int} (hprice : p.valuationPrice instrument = some price)
    (hpos : 0 < price) (h : grossNotional p instrument quantity price = some gross) :
    gross = p.exposureAt instrument quantity := by
  unfold grossNotional at h
  simp only [Option.bind_eq_bind, Option.bind_eq_some_iff] at h
  obtain ⟨held, hheld, h⟩ := h
  have hsum := grossNotional_fold hheld
  have habs : (price.natAbs : Int) = price := by omega
  unfold Portfolio.exposureAt
  split at h
  · next hnone =>
    simp only [Option.bind_eq_some_iff, narrow_eq_some] at h
    obtain ⟨notional, ⟨-, rfl⟩, -, rfl⟩ := h
    simp only [hnone, if_true, hprice, Option.getD_some, habs] at hsum ⊢
    omega
  · next hsome =>
    have heq : held = gross := by simpa using h
    simp only [hsome, if_false, Bool.false_eq_true] at hsum ⊢
    omega

-- Acceptance

/-- The risk engine lets a target pass at the quantity `safe`. -/
def Accepts (risk : RiskEngine) (p : Portfolio) (target : Target) (safe : Int) : Prop :=
  risk.check p target = .allow ∧ safe = target.quantityTicks ∨ risk.check p target = .resize safe

/-- What a target that is not denied went through. -/
structure Passes (risk : RiskEngine) (p : Portfolio) (target : Target) (safe : Int) : Prop where
  opened : ¬(risk.state = .halted ∨ risk.state = .cancelOnly)
  limits : ¬(risk.limits.maxPositionTicks ≤ 0 ∨ risk.limits.maxOrderTicks ≤ 0 ∨
    risk.limits.maxGrossNotionalTicks ≤ 0)
  reduces : ¬(risk.state = .reduceOnly ∧
    ¬movesTowardZero (p.quantity target.instrumentId) target.quantityTicks)
  limited : orderLimited risk.limits (p.quantity target.instrumentId)
    (positionLimited risk.limits target.quantityTicks) = some safe
  valued : ∃ price gross, p.valuationPrice target.instrumentId = some price ∧ 0 < price ∧
    grossNotional p target.instrumentId safe price = some gross ∧
    gross ≤ risk.limits.maxGrossNotionalTicks

/-- A check denies, or its target passes at a quantity. -/
theorem check_cases (risk : RiskEngine) (p : Portfolio) (target : Target) :
    (∃ reason, risk.check p target = .deny reason) ∨
      ∃ safe, risk.Passes p target safe ∧
        risk.check p target = if safe = target.quantityTicks then .allow else .resize safe := by
  unfold check
  split
  · exact .inl ⟨_, rfl⟩
  · next opened =>
    split
    · exact .inl ⟨_, rfl⟩
    · next limits =>
      dsimp only
      split
      · exact .inl ⟨_, rfl⟩
      · next price hprice =>
        split
        · exact .inl ⟨_, rfl⟩
        · next hpos =>
          split
          · exact .inl ⟨_, rfl⟩
          · next reduces =>
            split
            · exact .inl ⟨_, rfl⟩
            · next safe limited =>
              split
              · exact .inl ⟨_, rfl⟩
              · next gross hgross =>
                split
                · exact .inl ⟨_, rfl⟩
                · next hle =>
                  exact .inr ⟨safe, ⟨opened, limits, reduces, limited,
                    price, gross, hprice, by omega, hgross, by omega⟩, rfl⟩

/-- **Acceptance**: a quantity is accepted exactly when the target passes at it. -/
theorem accepts_iff_passes {risk : RiskEngine} {p : Portfolio} {target : Target} {safe : Int} :
    risk.Accepts p target safe ↔ risk.Passes p target safe := by
  constructor
  · intro h
    unfold Accepts at h
    rcases risk.check_cases p target with ⟨reason, hdeny⟩ | ⟨safe', hpasses, hcheck⟩
    · rw [hdeny] at h
      obtain ⟨hne, -⟩ | hne := h <;> cases hne
    · rw [hcheck] at h
      split at h
      · next heq =>
        obtain ⟨-, rfl⟩ | hne := h
        · rwa [← heq]
        · cases hne
      · obtain ⟨hne, -⟩ | heq := h
        · cases hne
        · cases heq
          exact hpasses
  · rintro ⟨opened, limits, reduces, limited, price, gross, hprice, hpos, hgross, hle⟩
    have hcheck : risk.check p target =
        if safe = target.quantityTicks then .allow else .resize safe := by
      unfold Portfolio.valuationPrice at hprice
      unfold check
      rw [if_neg opened, if_neg limits]
      dsimp only
      rw [hprice]
      dsimp only
      rw [if_neg (by omega), if_neg reduces, limited]
      dsimp only
      rw [hgross]
      dsimp only
      rw [if_neg (by omega)]
    unfold Accepts
    rw [hcheck]
    by_cases heq : safe = target.quantityTicks
    · rw [if_pos heq]
      exact .inl ⟨rfl, heq⟩
    · rw [if_neg heq]
      exact .inr rfl

/-- The order limit either lets a quantity pass or caps the step to it. -/
theorem orderLimited_eq_some {limits : Limits} {current limited safe : Int}
    (h : orderLimited limits current limited = some safe) :
    (limits.maxOrderTicks.natAbs < (limited - current).natAbs ∧
        safe = current + limited.sign * limits.maxOrderTicks.natAbs) ∨
      (¬limits.maxOrderTicks.natAbs < (limited - current).natAbs ∧ safe = limited) := by
  unfold orderLimited at h
  simp only [Option.bind_eq_bind, Option.bind_eq_some_iff] at h
  obtain ⟨delta, hdelta, h⟩ := h
  obtain ⟨-, rfl⟩ := narrow_eq_some.mp hdelta
  split at h
  · next hcap =>
    simp only [Option.bind_eq_some_iff] at h
    obtain ⟨capped, hcapped, step, hstep, hsafe⟩ := h
    obtain ⟨-, rfl⟩ := narrow_eq_some.mp hcapped
    obtain ⟨-, rfl⟩ := narrow_eq_some.mp hstep
    obtain ⟨-, rfl⟩ := narrow_eq_some.mp hsafe
    exact .inl ⟨hcap, rfl⟩
  · next hcap => exact .inr ⟨hcap, by simpa using h.symm⟩

/-- A clamped target is between zero and the target. -/
theorem positionLimited_between {limits : Limits} (hpos : 0 < limits.maxPositionTicks)
    (target : Int) :
    (0 ≤ target → 0 ≤ positionLimited limits target ∧ positionLimited limits target ≤ target) ∧
      (target ≤ 0 → target ≤ positionLimited limits target ∧ positionLimited limits target ≤ 0) := by
  unfold positionLimited
  split
  · next hcap =>
    rcases lt_trichotomy target 0 with hneg | rfl | hpos'
    · rw [Int.sign_eq_neg_one_of_neg hneg]
      omega
    · omega
    · rw [Int.sign_eq_one_of_pos hpos']
      omega
  · omega

-- The limits

/-- The target clamped to the interval of the position limit. -/
def clampedTarget (limits : Limits) (target : Int) : Int :=
  max (-limits.maxPositionTicks) (min target limits.maxPositionTicks)

/-- For a positive limit the code's clamp is the clamp to the interval. -/
theorem positionLimited_eq {limits : Limits} (hpos : 0 < limits.maxPositionTicks) (target : Int) :
    positionLimited limits target = clampedTarget limits target := by
  unfold positionLimited clampedTarget
  split
  · next hcap =>
    rcases lt_trichotomy target 0 with hneg | rfl | hpos'
    · rw [Int.sign_eq_neg_one_of_neg hneg]
      omega
    · omega
    · rw [Int.sign_eq_one_of_pos hpos']
      omega
  · omega

/-- What the hard limits are there for: the quantity lies between the position and the clamped
target, the step is within the order limit and the exposure within the gross limit. -/
structure Contained (limits : Limits) (p : Portfolio) (target : Target) (q : Int) : Prop where
  between : let current := p.quantity target.instrumentId
    let limited := clampedTarget limits target.quantityTicks
    current ≤ q ∧ q ≤ limited ∨ limited ≤ q ∧ q ≤ current
  step : ((q - p.quantity target.instrumentId).natAbs : Int) ≤ limits.maxOrderTicks
  exposure : p.exposureAt target.instrumentId q ≤ limits.maxGrossNotionalTicks

/-- The quantity a capped step leads to: from the position in the direction of the target's
sign. -/
def cappedQuantity (limits : Limits) (current limited : Int) : Int :=
  current + limited.sign * limits.maxOrderTicks

/-- A reduction on one side of zero by more than the order limit, whose capped step the other
checks let pass. -/
def Misdirects (limits : Limits) (p : Portfolio) (target : Target) : Prop :=
  let current := p.quantity target.instrumentId
  let limited := clampedTarget limits target.quantityTicks
  let q := cappedQuantity limits current limited
  limited ≠ 0 ∧ limited.sign = current.sign ∧
    limited.natAbs + limits.maxOrderTicks < current.natAbs ∧
    orderLimited limits current limited = some q ∧
    ∃ price ∈ p.valuationPrice target.instrumentId, 0 < price ∧
      ∃ gross ∈ grossNotional p target.instrumentId q price, gross ≤ limits.maxGrossNotionalTicks

/-- An accepted quantity is contained, or the target was misdirected. -/
theorem Passes.contained {risk : RiskEngine} {p : Portfolio} {target : Target} {q : Int}
    (h : risk.Passes p target q) (hdir : ¬Misdirects risk.limits p target) :
    Contained risk.limits p target q := by
  obtain ⟨-, hlimits, -, hlimited, price, gross, hprice, hpos, hgross, hle⟩ := h
  rw [positionLimited_eq (by omega)] at hlimited
  have hcases := orderLimited_eq_some hlimited
  have hexposure := grossNotional_eq_some hprice hpos hgross
  have habs : (risk.limits.maxOrderTicks.natAbs : Int) = risk.limits.maxOrderTicks := by omega
  have hturn : ¬(clampedTarget risk.limits target.quantityTicks ≠ 0 ∧
      (clampedTarget risk.limits target.quantityTicks).sign =
        (p.quantity target.instrumentId).sign ∧
      (clampedTarget risk.limits target.quantityTicks).natAbs + risk.limits.maxOrderTicks <
        (p.quantity target.instrumentId).natAbs ∧
      q = cappedQuantity risk.limits (p.quantity target.instrumentId)
        (clampedTarget risk.limits target.quantityTicks)) := by
    rintro ⟨hne, hsign, hfar, rfl⟩
    exact hdir ⟨hne, hsign, hfar, hlimited, price, hprice, hpos, gross, hgross, hle⟩
  unfold cappedQuantity at hturn
  rw [habs] at hcases
  refine ⟨?_, ?_, by omega⟩
  · dsimp only
    generalize clampedTarget _ _ = limited at *
    generalize p.quantity _ = current at *
    rcases lt_trichotomy limited 0 with hneg | rfl | hpos'
    · rw [Int.sign_eq_neg_one_of_neg hneg] at hcases hturn
      -- a capped step goes down: toward the target, unless the position is below it
      have hsign : current < 0 → current.sign = -1 := Int.sign_eq_neg_one_of_neg
      omega
    · simp only [Int.sign_zero, Int.zero_mul, Int.add_zero] at hcases
      omega
    · rw [Int.sign_eq_one_of_pos hpos'] at hcases hturn
      have hsign : 0 < current → current.sign = 1 := Int.sign_eq_one_of_pos
      omega
  · generalize clampedTarget _ _ = limited at *
    generalize p.quantity _ = current at *
    rcases lt_trichotomy limited 0 with hneg | rfl | hpos'
    · rw [Int.sign_eq_neg_one_of_neg hneg] at hcases
      omega
    · simp only [Int.sign_zero, Int.zero_mul, Int.add_zero] at hcases
      omega
    · rw [Int.sign_eq_one_of_pos hpos'] at hcases
      omega

/-- **The limits and their slip**: a running engine with positive limits accepts only contained
quantities, exactly for the targets whose capped step is not misdirected. -/
theorem check_contained_iff {risk : RiskEngine} {p : Portfolio} {target : Target}
    (hstate : risk.state = .running) (hposition : 0 < risk.limits.maxPositionTicks)
    (horder : 0 < risk.limits.maxOrderTicks) (hnotional : 0 < risk.limits.maxGrossNotionalTicks) :
    (∀ q, risk.Accepts p target q → Contained risk.limits p target q) ↔
      ¬Misdirects risk.limits p target := by
  constructor
  · rintro hcontained ⟨hne, hsign, hfar, hlimited, price, hprice, hpos, gross, hgross, hle⟩
    have hpasses : risk.Passes p target (cappedQuantity risk.limits
        (p.quantity target.instrumentId) (clampedTarget risk.limits target.quantityTicks)) :=
      ⟨by simp [hstate], by omega, by simp [hstate],
        by rw [positionLimited_eq hposition]; exact hlimited,
        price, gross, hprice, hpos, hgross, hle⟩
    have hbetween := (hcontained _ (accepts_iff_passes.mpr hpasses)).between
    dsimp only at hbetween
    unfold cappedQuantity at hbetween
    generalize clampedTarget _ _ = limited at *
    generalize p.quantity _ = current at *
    rcases lt_trichotomy limited 0 with hneg | rfl | hpos'
    · rw [Int.sign_eq_neg_one_of_neg hneg] at hbetween hsign
      have hcurrent := Int.sign_eq_neg_one_iff_neg.mp hsign.symm
      omega
    · exact hne rfl
    · rw [Int.sign_eq_one_of_pos hpos'] at hbetween hsign
      have hcurrent := Int.sign_eq_one_iff_pos.mp hsign.symm
      omega
  · intro hdir q haccepts
    exact (accepts_iff_passes.mp haccepts).contained hdir

namespace Sample

/-- A running engine with an order limit of 10. -/
def tight : RiskEngine := RiskEngine.new ⟨1000, 10, 1000000⟩

/-- A long position of 100 at a mark of 10. -/
def longPortfolio : Portfolio := Portfolio.new.setPosition 7 ⟨100, 10⟩

/-- A request to hold a quantity of instrument 7. -/
def target (quantityTicks : Int) : Target := ⟨7, quantityTicks, 1⟩

end Sample

/-- A target across zero is approached by the order limit. -/
theorem check_contained_reversal :
    Sample.tight.Accepts Sample.longPortfolio (Sample.target (-50)) 90 ∧
      Contained Sample.tight.limits Sample.longPortfolio (Sample.target (-50)) 90 := by
  have haccepts : Sample.tight.Accepts Sample.longPortfolio (Sample.target (-50)) 90 :=
    .inr (by decide)
  have hdir : ¬Misdirects Sample.tight.limits Sample.longPortfolio (Sample.target (-50)) :=
    fun hdir => absurd hdir.2.1 (by decide)
  exact ⟨haccepts,
    (check_contained_iff rfl (by decide) (by decide) (by decide)).mpr hdir 90 haccepts⟩

/-- **The capped step turns a reduction around**: a target of 50 from a position of 100 is
resized to 110. -/
theorem check_not_contained :
    ¬∀ q, Sample.tight.Accepts Sample.longPortfolio (Sample.target 50) q →
      Contained Sample.tight.limits Sample.longPortfolio (Sample.target 50) q := by
  intro hcontained
  have hrun : Sample.tight.check Sample.longPortfolio (Sample.target 50) = .resize 110 ∧
      Sample.longPortfolio.quantity (Sample.target 50).instrumentId = 100 ∧
      clampedTarget Sample.tight.limits (Sample.target 50).quantityTicks = 50 := by
    decide
  obtain ⟨hcheck, hcurrent, hlimited⟩ := hrun
  have hbetween := (hcontained 110 (.inr hcheck)).between
  dsimp only at hbetween
  rw [hcurrent, hlimited] at hbetween
  omega

end RiskEngine

end InsiderTrader
