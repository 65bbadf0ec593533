import InsiderTrader.Evaluation
import InsiderTrader.Library.Fallible

/-!
# Strategy instances

The trend strategy next to the threshold strategy. Either one turns the fresh
metrics of an instrument into a decision and numbers the proposal of it by a
count of its own, which starts at one.

## Main definitions

- `VolatilityScaledTrendStrategy.evaluate` — the proposal of trend, volatility and spread
- `StrategyInstance.evaluate` — either strategy, with the count of its proposals
- `StrategyInstance.Evident` — the metrics give a decision that can be proposed

## Main results

- `evaluate_spec` — the evaluations that yield a proposal, and its number
-/

namespace InsiderTrader

/-- The floating point operations of the trend strategy. -/
structure TrendArith extends FloatArith where
  quotient : F64 → F64 → F64
  least : F64 → F64 → F64
  /-- the sign bit is clear -/
  positive : F64 → Bool
  /-- the whole part of an integer times a value -/
  wholeTimes : ℕ → F64 → ℕ

/-- What a strategy sees of one evaluation. -/
structure StrategyContext where
  now : MonoTime
  instrumentId : InstrumentId
  metrics : List MetricOutput

/-- Typed reasons of the trend strategy. -/
inductive TrendRationale where
  | missingOrStaleEvidence
  | evidenceWarmingUp
  | invalidEvidence
  | spreadGuard
  | trendBelowEntry
  | trendNeutral
  | longTrend
  | shortTrend
  | volatilityScaled
  | riskBudgetTooSmall
  deriving DecidableEq

/-- The code of a reason in evidence. -/
def TrendRationale.code : TrendRationale → String
  | missingOrStaleEvidence => "MISSING_OR_STALE_EVIDENCE"
  | evidenceWarmingUp => "EVIDENCE_WARMING_UP"
  | invalidEvidence => "INVALID_EVIDENCE"
  | spreadGuard => "SPREAD_GUARD"
  | trendBelowEntry => "TREND_BELOW_ENTRY"
  | trendNeutral => "TREND_NEUTRAL"
  | longTrend => "LONG_TREND"
  | shortTrend => "SHORT_TREND"
  | volatilityScaled => "VOLATILITY_SCALED"
  | riskBudgetTooSmall => "RISK_BUDGET_TOO_SMALL"

/-- What a trend strategy is configured with. -/
structure VolatilityScaledTrendConfig where
  strategyId : String
  trendMetricId : String
  volatilityMetricId : String
  spreadMetricId : String
  entryThreshold : F64
  exitThreshold : F64
  maxSpread : F64
  targetVolatility : F64
  minConfidence : F64
  baseQuantityTicks : Int
  horizonNs : ℕ
  ttlNs : ℕ
  deriving DecidableEq

/-- A trend strategy with the number of its next proposal. -/
structure VolatilityScaledTrendStrategy where
  config : VolatilityScaledTrendConfig
  baseQuantityTicks : ℕ
  nextProposal : ℕ
  deriving DecidableEq

/-- What a strategy proposes: an action, the confidence in it, and its evidence. -/
abbrev TrendDecision := Action × F64 × List String

/-- Advance a 64-bit counter, which wraps. -/
def fetchAdd (counter : ℕ) : ℕ := (counter + 1) % 2 ^ 64

namespace VolatilityScaledTrendStrategy

variable (arith : TrendArith)

/-- A value equals zero. -/
def isZero (x : F64) : Bool := arith.atMost x arith.zero && arith.atMost arith.zero x

/-- A strategy with a proposal seed. -/
def newWithProposalSeed (config : VolatilityScaledTrendConfig) (proposalSeed : ℕ) :
    Option VolatilityScaledTrendStrategy :=
  let ids := [config.strategyId, config.trendMetricId, config.volatilityMetricId,
    config.spreadMetricId]
  let base := config.baseQuantityTicks.natAbs
  if 2 ^ 32 ≤ base ∨ proposalSeed = 0 ∨ ids.any (fun id => Text.isBlank id || 128 < id.utf8ByteSize)
      ∨ ¬[config.trendMetricId, config.volatilityMetricId, config.spreadMetricId].Nodup
      ∨ ¬arith.isFinite config.entryThreshold ∨ ¬arith.isFinite config.exitThreshold
      ∨ ¬arith.isFinite config.maxSpread ∨ ¬arith.isFinite config.targetVolatility
      ∨ ¬arith.isFinite config.minConfidence ∨ ¬arith.inUnit config.entryThreshold
      ∨ arith.atMost config.entryThreshold config.exitThreshold
      ∨ arith.exceeds arith.zero config.exitThreshold ∨ ¬arith.inUnit config.maxSpread
      ∨ isZero arith config.maxSpread ∨ ¬arith.inUnit config.targetVolatility
      ∨ isZero arith config.targetVolatility ∨ ¬arith.inUnit config.minConfidence ∨ base = 0
      ∨ config.horizonNs = 0 ∨ config.ttlNs = 0
      ∨ min (config.horizonNs * 10) u64Max < config.ttlNs then none
  else some ⟨config, base, proposalSeed⟩

/-- A strategy whose proposals are numbered from one. -/
def new (config : VolatilityScaledTrendConfig) : Option VolatilityScaledTrendStrategy :=
  newWithProposalSeed arith config 1

def rationale (code : TrendRationale) : String := "rationale:" ++ code.code

/-- Sixteen hexadecimal digits. -/
def hex16 (n : ℕ) : String :=
  String.ofList <| (List.range 16).reverse.map fun k =>
    "0123456789abcdef".toList.getD (n / 16 ^ k % 16) '0'

def metricEvidence (metric : MetricOutput) : String :=
  "metric:" ++ metric.metricId ++ ":mono=" ++ toString metric.generatedMono ++ ":score="
    ++ hex16 metric.score.bits ++ ":confidence=" ++ hex16 metric.confidence.bits
    ++ ":uncertainty=" ++ hex16 metric.uncertainty.bits

/-- The fresh metric of an identity, when there is exactly one. -/
def findMetric (context : StrategyContext) (metricId : String) : Option MetricOutput :=
  match context.metrics.filter fun m =>
    m.metricId = metricId ∧ m.instrumentId = context.instrumentId ∧ m.isFresh context.now with
  | [metric] => some metric
  | _ => none

/-- A quantity scaled down to a whole number of ticks. -/
def scaledQuantity (base : ℕ) (scale : F64) : Option ℕ :=
  if ¬arith.inUnit scale then none
  else if arith.wholeTimes base scale ≤ base then some (arith.wholeTimes base scale)
  else none

/-- The three metrics are within their ranges. -/
def validEvidence (trend volatility spread : MetricOutput) : Bool :=
  ([trend, volatility, spread].all fun m => arith.isFinite m.score && arith.isFinite m.confidence
    && arith.isFinite m.uncertainty && arith.inUnit m.confidence
    && arith.atMost arith.zero m.uncertainty)
    && arith.inSignedUnit trend.score && arith.atMost arith.zero volatility.score
    && arith.atMost arith.zero spread.score

/-- The least confidence of the three metrics, each lowered by its uncertainty. -/
def adjustedConfidence (metrics : List MetricOutput) : F64 :=
  arith.clampUnit <| (metrics.map fun m =>
    arith.quotient m.confidence (arith.add arith.one m.uncertainty)).foldl arith.least arith.one

/-- The target of a trend, scaled down by its volatility. -/
def target (s : VolatilityScaledTrendStrategy) (trend volatility : MetricOutput)
    (confidence : F64) (evidence : List String) : Except ProposalError TrendDecision :=
  let scale := if arith.atMost volatility.score s.config.targetVolatility then arith.one
    else arith.quotient s.config.targetVolatility volatility.score
  match scaledQuantity arith s.baseQuantityTicks scale with
  | none => .error .invalidAction
  | some 0 => .ok (.noAction, confidence, evidence ++ [rationale .riskBudgetTooSmall])
  | some quantity =>
    let long := arith.positive trend.score
    let direction := rationale (if long then .longTrend else .shortTrend)
    let scaling := if arith.exceeds arith.one scale then [rationale .volatilityScaled] else []
    .ok (.targetQuantity (if long then quantity else -quantity), confidence,
      evidence ++ [direction] ++ scaling)

/-- What the metrics make the strategy propose. -/
def decision (s : VolatilityScaledTrendStrategy) (context : StrategyContext) :
    Except ProposalError TrendDecision :=
  let missing (metricId : String) : Except ProposalError TrendDecision :=
    .ok (.noAction, arith.zero,
      [rationale .missingOrStaleEvidence, "metric:" ++ metricId ++ ":stale-or-missing"])
  match findMetric context s.config.trendMetricId with
  | none => missing s.config.trendMetricId
  | some trend =>
    match findMetric context s.config.volatilityMetricId with
    | none => missing s.config.volatilityMetricId
    | some volatility =>
      match findMetric context s.config.spreadMetricId with
      | none => missing s.config.spreadMetricId
      | some spread =>
        let metrics := [trend, volatility, spread]
        let evidence := metrics.map metricEvidence
        let confidence := adjustedConfidence arith metrics
        let magnitude := arith.abs trend.score
        if ¬validEvidence arith trend volatility spread then
          .ok (.noAction, arith.zero, evidence ++ [rationale .invalidEvidence])
        else if arith.exceeds s.config.minConfidence confidence then
          .ok (.noAction, confidence, evidence ++ [rationale .evidenceWarmingUp])
        else if arith.exceeds spread.score s.config.maxSpread then
          .ok (.noAction, confidence, evidence ++ [rationale .spreadGuard])
        else if arith.atMost magnitude s.config.exitThreshold then
          .ok (.close, confidence, evidence ++ [rationale .trendNeutral])
        else if arith.exceeds s.config.entryThreshold magnitude then
          .ok (.noAction, confidence, evidence ++ [rationale .trendBelowEntry])
        else s.target arith trend volatility confidence evidence

/-- The proposal of a decision. -/
def candidate (s : VolatilityScaledTrendStrategy) (context : StrategyContext)
    (decision : TrendDecision) : Proposal where
  proposalId := s.nextProposal
  strategyId := s.config.strategyId
  instrumentId := context.instrumentId
  action := decision.1
  confidence := decision.2.1
  horizonNs := s.config.horizonNs
  ttlNs := s.config.ttlNs
  evidence := decision.2.2
  generatedMono := context.now

/-- Number a proposal and validate it; the number is spent in any case. -/
def proposal (context : StrategyContext) (decision : TrendDecision) :
    Fallible VolatilityScaledTrendStrategy ProposalError Proposal := do
  let s ← Fallible.reads id
  Fallible.modify ({ · with nextProposal := fetchAdd s.nextProposal })
  Fallible.require (s.nextProposal ≠ 0) .missingIdentity
  Fallible.ofExcept ((s.candidate context decision).validate arith.toFloatArith context.now)
  pure (s.candidate context decision)

/-- Evaluate the metrics into a proposal or an abstention. -/
def evaluate (context : StrategyContext) :
    Fallible VolatilityScaledTrendStrategy ProposalError Proposal := do
  let s ← Fallible.reads id
  let decision ← Fallible.ofExcept (s.decision arith context)
  proposal arith context decision

end VolatilityScaledTrendStrategy

/-- A threshold strategy whose proposals are numbered from one. -/
def ThresholdStrategy.new (float : FloatArith) (config : ThresholdConfig) :
    Option ThresholdStrategy :=
  newWithProposalSeed float config 1

/-- The metric that a threshold strategy looks at. -/
def ThresholdStrategy.found (s : ThresholdStrategy) (context : StrategyContext) :
    Option MetricOutput :=
  context.metrics.find? fun m =>
    m.metricId = s.metricId ∧ m.instrumentId = context.instrumentId ∧ m.isFresh context.now

/-- The proposal of a threshold strategy. -/
def ThresholdStrategy.candidate (float : FloatArith) (s : ThresholdStrategy)
    (context : StrategyContext) : Proposal where
  proposalId := s.nextProposal
  strategyId := s.strategyId
  instrumentId := context.instrumentId
  action := (s.found context).elim .noAction fun m => s.action float m.score
  confidence := (s.found context).elim float.zero (confidence float)
  horizonNs := s.horizonNs
  ttlNs := s.ttlNs
  evidence := [(s.found context).elim ("metric:" ++ s.metricId ++ ":stale-or-missing")
    fun m => "metric:" ++ m.metricId]
  generatedMono := context.now

-- Either strategy

/-- An instance of a strategy. -/
inductive StrategyInstance where
  | threshold (s : ThresholdStrategy)
  | trend (s : VolatilityScaledTrendStrategy)
  deriving DecidableEq

namespace StrategyInstance

variable (arith : TrendArith)

/-- The number of the next proposal. -/
def number : StrategyInstance → ℕ
  | threshold s => s.nextProposal
  | trend s => s.nextProposal

/-- Evaluate an instance. -/
def evaluate (context : StrategyContext) : Fallible StrategyInstance ProposalError Proposal
  | threshold s =>
    (s.evaluate arith.toFloatArith context.now context.instrumentId context.metrics,
      threshold { s with nextProposal := fetchAdd s.nextProposal })
  | trend s => ((s.evaluate arith context).1, trend (s.evaluate arith context).2)

/-- An instance as its default constructor makes it. -/
inductive Built : StrategyInstance → Prop where
  | threshold (config : ThresholdConfig) (s : ThresholdStrategy)
      (h : ThresholdStrategy.new arith.toFloatArith config = some s) : Built (.threshold s)
  | trend (config : VolatilityScaledTrendConfig) (s : VolatilityScaledTrendStrategy)
      (h : VolatilityScaledTrendStrategy.new arith config = some s) : Built (.trend s)

/-- The identity and the times of a strategy are ones that a proposal may carry. -/
structure SoundTimes (strategyId : String) (horizonNs ttlNs : ℕ) : Prop where
  named : Text.isBlank strategyId = false
  horizon : horizonNs ≠ 0
  ttl : ttlNs ≠ 0
  bounded : ttlNs ≤ min (horizonNs * 10) u64Max

/-- What the constructors check of an instance. -/
def Sound : StrategyInstance → Prop
  | threshold s => SoundTimes s.strategyId s.horizonNs s.ttlNs ∧ s.quantityTicks ≠ 0
  | trend s => SoundTimes s.config.strategyId s.config.horizonNs s.config.ttlNs

/-- The metrics give a decision, with a confidence in the unit interval. -/
def Evident (context : StrategyContext) : StrategyInstance → Prop
  | threshold s => arith.inUnit
      ((s.found context).elim arith.zero (ThresholdStrategy.confidence arith.toFloatArith)) = true
  | trend s => ∃ decision, s.decision arith context = .ok decision ∧ arith.inUnit decision.2.1 = true

variable {arith} {context : StrategyContext} {i : StrategyInstance}

theorem Built.sound (h : Built arith i) : i.Sound := by
  cases h with
  | threshold config s h =>
    rw [ThresholdStrategy.new, ThresholdStrategy.newWithProposalSeed] at h
    obtain ⟨quantity, -, h⟩ := Option.bind_eq_some_iff.mp h
    split at h
    · cases h
    · next hcheck =>
      simp only [not_or, not_lt] at hcheck
      obtain ⟨-, hid, -, -, -, -, -, hquantity, hhorizon, httl, hbounded⟩ := hcheck
      cases h
      exact ⟨⟨Bool.eq_false_iff.mpr hid, hhorizon, httl, hbounded⟩, hquantity⟩
  | trend config s h =>
    rw [VolatilityScaledTrendStrategy.new, VolatilityScaledTrendStrategy.newWithProposalSeed] at h
    split at h
    · cases h
    · next hcheck =>
      simp only [not_or, not_lt] at hcheck
      obtain ⟨-, -, hids, -, -, -, -, -, -, -, -, -, -, -, -, -, -, -, hhorizon, httl, hbounded⟩ :=
        hcheck
      cases h
      have hid : Text.isBlank config.strategyId = false := by
        by_contra hblank
        exact hids (by simp [Bool.eq_true_of_not_eq_false hblank])
      exact ⟨hid, hhorizon, httl, hbounded⟩

/-- An instance of a default constructor numbers its proposals from one. -/
theorem Built.number (h : Built arith i) : i.number = 1 := by
  cases h with
  | threshold config s h =>
    rw [ThresholdStrategy.new, ThresholdStrategy.newWithProposalSeed] at h
    obtain ⟨quantity, -, h⟩ := Option.bind_eq_some_iff.mp h
    split at h
    · cases h
    · cases h
      rfl
  | trend config s h =>
    rw [VolatilityScaledTrendStrategy.new, VolatilityScaledTrendStrategy.newWithProposalSeed] at h
    split at h
    · cases h
    · cases h
      rfl

/-- A proposal of sound times is valid when its number, its confidence and its action are. -/
theorem validate_iff_of_sound {float : FloatArith} {p : Proposal}
    (h : SoundTimes p.strategyId p.horizonNs p.ttlNs) (haction : p.action.valid float = true) :
    p.validate float p.generatedMono = .ok () ↔
      p.proposalId ≠ 0 ∧ float.inUnit p.confidence = true := by
  have hhorizon : ¬(p.horizonNs = 0 ∨ p.ttlNs = 0 ∨ min (p.horizonNs * 10) u64Max < p.ttlNs) := by
    simp only [not_or, not_lt]
    exact ⟨h.horizon, h.ttl, h.bounded⟩
  have hfresh : ¬(p.generatedMono < p.generatedMono ∨
      p.ttlNs ≤ p.generatedMono - p.generatedMono) := by
    have httl := h.ttl
    rw [Nat.sub_self]
    simpa using httl
  rw [Proposal.validate, h.named, if_neg hhorizon, if_neg (not_not.mpr haction), if_neg hfresh]
  by_cases hid : p.proposalId = 0
  · simp [hid]
  · by_cases hconfidence : float.inUnit p.confidence = true
    · simp [hid, hconfidence]
    · simp [hid, hconfidence]

/-- What a trend strategy decides is an action that a proposal may carry. -/
theorem valid_of_decision {s : VolatilityScaledTrendStrategy} {decision : TrendDecision}
    (h : s.decision arith context = .ok decision) :
    decision.1.valid arith.toFloatArith = true := by
  unfold VolatilityScaledTrendStrategy.decision at h
  dsimp only at h
  repeat' split at h
  all_goals try (cases h; rfl)
  -- only a target quantity can be zero
  unfold VolatilityScaledTrendStrategy.target at h
  dsimp only at h
  split at h
  · cases h
  · cases h
    rfl
  · next quantity hzero _ =>
    have hne : quantity ≠ 0 := hzero
    cases h
    simp only [Action.valid]
    split
    · simpa using hne
    · simpa using hne

/-- An evaluation spends numbers, and changes nothing else of a trend strategy. -/
theorem config_evaluate : Fallible.Along (Fallible.Same VolatilityScaledTrendStrategy.config)
    (VolatilityScaledTrendStrategy.evaluate arith context) := by
  refine .bind (.reads _) fun s => .bind (.ofExcept _) fun decision => ?_
  refine .bind (.reads _) fun s => .bind (.modify fun s => rfl) fun _ => ?_
  exact .bind (.require _ _) fun _ => .bind (.ofExcept _) fun _ => .ret _

theorem Sound.evaluate (h : i.Sound) (arith : TrendArith) (context : StrategyContext) :
    (i.evaluate arith context).2.Sound := by
  cases i with
  | threshold s => exact h
  | trend s =>
    have hconfig : (s.evaluate arith context).2.config = s.config := config_evaluate s
    simp only [StrategyInstance.evaluate, Sound, hconfig]
    exact h

/-- The proposals of a trend strategy. -/
theorem trend_evaluate_iff {s : VolatilityScaledTrendStrategy} (h : (trend s).Sound) {p : Proposal} :
    (s.evaluate arith context).1 = .ok p ↔ s.nextProposal ≠ 0 ∧
      ∃ decision, s.decision arith context = .ok decision ∧ arith.inUnit decision.2.1 = true ∧
        p = s.candidate context decision := by
  rw [VolatilityScaledTrendStrategy.evaluate, Fallible.reads_bind, id]
  cases hdecision : s.decision arith context with
  | error e =>
    constructor
    · intro hp
      cases hp
    · rintro ⟨-, decision, hok, -⟩
      cases hok
  | ok decision =>
    have hvalid : (s.candidate context decision).validate arith.toFloatArith context.now = .ok () ↔
        s.nextProposal ≠ 0 ∧ arith.inUnit decision.2.1 = true :=
      validate_iff_of_sound (p := s.candidate context decision) h (valid_of_decision hdecision)
    rw [Fallible.ofExcept_bind_ok rfl, VolatilityScaledTrendStrategy.proposal, Fallible.reads_bind,
      Fallible.modify_bind, Fallible.require_bind, id]
    by_cases hnumber : s.nextProposal = 0
    · simp [hnumber]
    · rw [if_pos hnumber]
      cases hcandidate : (s.candidate context decision).validate arith.toFloatArith context.now with
      | error e =>
        have hnot : ¬arith.inUnit decision.2.1 = true := fun hunit => by
          cases hcandidate.symm.trans (hvalid.mpr ⟨hnumber, hunit⟩)
        constructor
        · intro hp
          cases hp
        · rintro ⟨-, decision', hok, hunit, -⟩
          cases hok
          exact absurd hunit hnot
      | ok _ =>
        constructor
        · intro hp
          cases hp
          exact ⟨hnumber, decision, rfl, (hvalid.mp hcandidate).2, rfl⟩
        · rintro ⟨-, decision', hok, -, rfl⟩
          cases hok
          rfl

theorem threshold_evaluate (s : ThresholdStrategy) :
    (evaluate arith context (threshold s)).1 =
      if s.nextProposal = 0 then .error .missingIdentity
      else ((s.candidate arith.toFloatArith context).validate arith.toFloatArith context.now).map
        fun _ => s.candidate arith.toFloatArith context := rfl

/-- The proposals of a threshold strategy. -/
theorem threshold_evaluate_iff {s : ThresholdStrategy} (h : (threshold s).Sound) {p : Proposal} :
    (evaluate arith context (threshold s)).1 = .ok p ↔
      s.nextProposal ≠ 0 ∧ (threshold s).Evident arith context ∧
        p = s.candidate arith.toFloatArith context := by
  have haction : (s.candidate arith.toFloatArith context).action.valid arith.toFloatArith = true := by
    simp only [ThresholdStrategy.candidate]
    cases s.found context with
    | none => rfl
    | some m =>
      simp only [Option.elim_some, ThresholdStrategy.action]
      repeat' split
      · simpa [Action.valid] using h.2
      · simpa [Action.valid] using h.2
      · rfl
      · rfl
  have hvalid : (s.candidate arith.toFloatArith context).validate arith.toFloatArith context.now =
      .ok () ↔ s.nextProposal ≠ 0 ∧ (threshold s).Evident arith context :=
    validate_iff_of_sound (p := s.candidate arith.toFloatArith context) h.1 haction
  rw [threshold_evaluate]
  by_cases hnumber : s.nextProposal = 0
  · simp [hnumber]
  · rw [if_neg hnumber]
    cases hcandidate : (s.candidate arith.toFloatArith context).validate arith.toFloatArith
        context.now with
    | error e =>
      constructor
      · intro hp
        cases hp
      · rintro ⟨-, hevident, -⟩
        cases hcandidate.symm.trans (hvalid.mpr ⟨hnumber, hevident⟩)
    | ok _ =>
      constructor
      · intro hp
        cases hp
        exact ⟨hnumber, (hvalid.mp hcandidate).2, rfl⟩
      · rintro ⟨-, -, rfl⟩
        rfl

/-- **Specification of an evaluation**: it yields a proposal exactly when the count is not at zero
and the metrics give a decision, and the proposal has the number of the count. -/
theorem evaluate_spec (h : i.Sound) (arith : TrendArith) (context : StrategyContext) :
    ((∃ p, (i.evaluate arith context).1 = .ok p) ↔ i.number ≠ 0 ∧ i.Evident arith context) ∧
      ∀ p, (i.evaluate arith context).1 = .ok p → p.proposalId = i.number := by
  cases i with
  | threshold s =>
    refine ⟨⟨?_, ?_⟩, fun p hp => ?_⟩
    · rintro ⟨p, hp⟩
      obtain ⟨hnumber, hevident, -⟩ := (threshold_evaluate_iff h).mp hp
      exact ⟨hnumber, hevident⟩
    · rintro ⟨hnumber, hevident⟩
      exact ⟨_, (threshold_evaluate_iff h).mpr ⟨hnumber, hevident, rfl⟩⟩
    · obtain ⟨-, -, rfl⟩ := (threshold_evaluate_iff h).mp hp
      rfl
  | trend s =>
    refine ⟨⟨?_, ?_⟩, fun p hp => ?_⟩
    · rintro ⟨p, hp⟩
      obtain ⟨hnumber, decision, hdecision, hunit, -⟩ := (trend_evaluate_iff h).mp hp
      exact ⟨hnumber, decision, hdecision, hunit⟩
    · rintro ⟨hnumber, decision, hdecision, hunit⟩
      exact ⟨_, (trend_evaluate_iff h).mpr ⟨hnumber, decision, hdecision, hunit, rfl⟩⟩
    · obtain ⟨-, decision, -, -, rfl⟩ := (trend_evaluate_iff h).mp hp
      rfl

end StrategyInstance

end InsiderTrader
