import InsiderTrader.Submission

/-!
# Strategy evaluation

The threshold strategy: one metric against two thresholds. The proposal it
yields is admitted to the coordinator; it is never sent as an order.

## Main definitions

- `MetricOutput` — a metric snapshot with its validity
- `ThresholdStrategy.evaluate` — the proposal of a metric snapshot
- `Host.evaluateThresholdStrategy` — evaluation and admission

## Main results

- `thresholdProposal_valid` — proposals of an evaluation are valid at its time
-/

namespace InsiderTrader

/-- Validated output of a metric. -/
structure MetricOutput where
  metricId : String
  instrumentId : InstrumentId
  generatedMono : MonoTime
  ttlNs : ℕ
  score : F64
  confidence : F64
  uncertainty : F64
  deriving DecidableEq

/-- A snapshot within its validity, and not from the future. -/
def MetricOutput.isFresh (m : MetricOutput) (now : MonoTime) : Bool :=
  m.generatedMono ≤ now ∧ now - m.generatedMono ≤ m.ttlNs

/-- A single-metric threshold strategy with the identity of its next proposal. -/
structure ThresholdStrategy where
  strategyId : String
  metricId : String
  entryThreshold : F64
  exitThreshold : F64
  quantityTicks : Int
  horizonNs : ℕ
  ttlNs : ℕ
  nextProposal : ℕ
  deriving DecidableEq

/-- What a threshold strategy is configured with. -/
structure ThresholdConfig where
  strategyId : String
  metricId : String
  entryThreshold : F64
  exitThreshold : F64
  quantityTicks : Int
  horizonNs : ℕ
  ttlNs : ℕ
  deriving DecidableEq

namespace ThresholdStrategy

/-- A strategy with a proposal seed. The entry threshold must exceed the exit threshold, which
must not be negative. -/
def newWithProposalSeed (float : FloatArith) (c : ThresholdConfig) (proposalSeed : ℕ) :
    Option ThresholdStrategy := do
  let quantityTicks ← MachineInt.narrow 64 c.quantityTicks.natAbs
  if proposalSeed = 0 ∨ Text.isBlank c.strategyId ∨ Text.isBlank c.metricId
      ∨ ¬float.isFinite c.entryThreshold ∨ ¬float.isFinite c.exitThreshold
      ∨ float.atMost c.entryThreshold c.exitThreshold ∨ float.exceeds float.zero c.exitThreshold
      ∨ quantityTicks = 0 ∨ c.horizonNs = 0 ∨ c.ttlNs = 0
      ∨ min (c.horizonNs * 10) u64Max < c.ttlNs then none
  else some ⟨c.strategyId, c.metricId, c.entryThreshold, c.exitThreshold, quantityTicks,
    c.horizonNs, c.ttlNs, proposalSeed⟩

/-- The action a score asks for. -/
def action (float : FloatArith) (s : ThresholdStrategy) (score : F64) : Action :=
  if float.atMost s.entryThreshold score then .increase s.quantityTicks
  else if float.atMost score (float.neg s.entryThreshold) then .decrease s.quantityTicks
  else if float.atMost (float.abs score) s.exitThreshold then .close
  else .noAction

/-- The confidence in a metric snapshot. -/
def confidence (float : FloatArith) (m : MetricOutput) : F64 :=
  float.clampUnit (float.times m.confidence
    (float.max (float.sub float.one m.uncertainty) float.zero))

/-- The proposal of a strategy for an instrument. Missing or stale evidence is an abstention. -/
def evaluate (float : FloatArith) (s : ThresholdStrategy) (now : MonoTime)
    (instrumentId : InstrumentId) (metrics : List MetricOutput) : Except ProposalError Proposal :=
  let metric := metrics.find? fun m =>
    m.metricId = s.metricId ∧ m.instrumentId = instrumentId ∧ m.isFresh now
  let proposal : Proposal := {
    proposalId := s.nextProposal
    strategyId := s.strategyId
    instrumentId := instrumentId
    action := metric.elim .noAction fun m => s.action float m.score
    confidence := metric.elim float.zero (confidence float)
    horizonNs := s.horizonNs
    ttlNs := s.ttlNs
    evidence := [metric.elim ("metric:" ++ s.metricId ++ ":stale-or-missing")
      fun m => "metric:" ++ m.metricId]
    generatedMono := now }
  if s.nextProposal = 0 then .error .missingIdentity
  else (proposal.validate float now).map fun _ => proposal

end ThresholdStrategy

/-- The name of a proposal failure. -/
def ProposalError.name : ProposalError → String
  | missingIdentity => "MissingIdentity"
  | invalidAction => "InvalidAction"
  | invalidConfidence => "InvalidConfidence"
  | invalidHorizon => "InvalidHorizon"

/-- The proposal of a metric snapshot at a time. -/
def thresholdProposal (float : FloatArith) (config : ThresholdConfig) (metric : MetricOutput)
    (now : MonoTime) : Except EngineError Proposal :=
  if now < metric.generatedMono ∨ ¬metric.isFresh now then
    .error (.strategyText "metric snapshot is stale or from the future")
  else
    match ThresholdStrategy.newWithProposalSeed float config (max now 1) with
    | none => .error (.strategyText "invalid threshold strategy configuration")
    | some strategy =>
      (strategy.evaluate float now metric.instrumentId [metric]).mapError fun e =>
        .strategyText ("threshold evaluation: " ++ e.name)

/-- Proposals of an evaluation are valid at its time. -/
theorem thresholdProposal_valid {float : FloatArith} {config : ThresholdConfig}
    {metric : MetricOutput} {now : MonoTime} {proposal : Proposal}
    (h : thresholdProposal float config metric now = .ok proposal) :
    proposal.validate float now = .ok () := by
  unfold thresholdProposal at h
  split at h
  · cases h
  · split at h
    · cases h
    · next strategy _ =>
      rw [Fallible.mapError_eq_ok] at h
      unfold ThresholdStrategy.evaluate at h
      dsimp only at h
      split at h
      · cases h
      · next hid =>
        revert h
        generalize hp : Proposal.mk _ _ _ _ _ _ _ _ _ = candidate
        intro h
        cases hv : candidate.validate float now with
        | error e => rw [hv] at h; cases h
        | ok _ => rw [hv] at h; cases h; exact hv

namespace Host

/-- Evaluate a threshold strategy and admit its proposal. -/
def evaluateThresholdStrategy (env : Env) (config : ThresholdConfig) (metric : MetricOutput)
    (now : MonoTime) : Fallible Host EngineError Proposal := do
  let proposal ← Fallible.ofExcept (thresholdProposal env.float config metric now)
  submitStrategyProposal env proposal now
  pure proposal

end Host

end InsiderTrader
