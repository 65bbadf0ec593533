import InsiderTrader.Strategy

/-!
# Risk

The hard pre-trade limits, the risk state machine and the contextual
guardrails, with the scoped policy that selects the limits in force.

## Main definitions

- `RiskEngine.check` — the decision on a target
- `RiskEngine.checkWithGuardrails` — contextual guardrails before the limits
- `ScopedRiskPolicy` — limit revisions by account, strategy, asset and instrument
-/

namespace InsiderTrader

open MachineInt

/-- Runtime risk state. -/
inductive RiskState where
  | running
  | reduceOnly
  | cancelOnly
  | halted
  deriving DecidableEq

/-- Hard limits in quantity and notional ticks. -/
structure Limits where
  maxPositionTicks : Int
  maxOrderTicks : Int
  maxGrossNotionalTicks : Int
  deriving DecidableEq

/-- One limit revision and the decision time from which it holds. -/
structure TimedLimits where
  effectiveMonoNs : ℕ
  limits : Limits
  deriving DecidableEq

/-- Failure installing a scoped revision. -/
inductive PolicyError where
  | invalidIdentity
  | invalidLimits
  deriving DecidableEq

/-- Canonical asset classes. -/
inductive AssetClass where
  | equity
  | etf
  | option
  | future
  | fx
  | crypto
  deriving DecidableEq, Ord

/-- What a request's limits are resolved by. -/
structure RiskScope where
  accountId : String
  strategyId : Option String
  assetClass : Option AssetClass
  instrumentId : InstrumentId

/-- Limit revisions by scope; the snapshot of a policy has the same fields. -/
structure ScopedRiskPolicy where
  system : List TimedLimits
  accounts : Std.TreeMap String (List TimedLimits)
  strategies : Std.TreeMap String (List TimedLimits)
  assets : Std.TreeMap AssetClass (List TimedLimits)
  instruments : Std.TreeMap InstrumentId (List TimedLimits)

/-- Every hard limit is positive. -/
def validateLimits (limits : Limits) : Except PolicyError Unit :=
  if 0 < limits.maxPositionTicks ∧ 0 < limits.maxOrderTicks ∧ 0 < limits.maxGrossNotionalTicks
  then .ok ()
  else .error .invalidLimits

/-- Insert a revision before the first later one; keeps a sorted list sorted. -/
def insertRevision (revision : TimedLimits) : List TimedLimits → List TimedLimits
  | [] => [revision]
  | r :: rs =>
    if revision.effectiveMonoNs < r.effectiveMonoNs then revision :: r :: rs
    else r :: insertRevision revision rs

/-- Replace the revision of the same time, or add this one in time order. -/
def upsertRevision (revisions : List TimedLimits) (revision : TimedLimits) : List TimedLimits :=
  if revisions.any (·.effectiveMonoNs = revision.effectiveMonoNs) then
    revisions.map fun r => if r.effectiveMonoNs = revision.effectiveMonoNs then revision else r
  else insertRevision revision revisions

/-- The latest revision in force at a time. -/
def latestRevision (revisions : List TimedLimits) (now : MonoTime) : Option TimedLimits :=
  revisions.reverse.find? (·.effectiveMonoNs ≤ now)

namespace ScopedRiskPolicy

/-- No revisions at all. -/
def empty : ScopedRiskPolicy := ⟨[], ∅, ∅, ∅, ∅⟩

/-- A policy with one system-wide revision. -/
def new (limits : Limits) : Except PolicyError ScopedRiskPolicy := do
  validateLimits limits
  .ok { empty with system := [⟨0, limits⟩] }

/-- Install a system-wide revision. -/
def setSystem (p : ScopedRiskPolicy) (r : TimedLimits) : Except PolicyError ScopedRiskPolicy := do
  validateLimits r.limits
  .ok { p with system := upsertRevision p.system r }

/-- Install an account-scoped revision. -/
def setAccount (p : ScopedRiskPolicy) (account : String) (r : TimedLimits) :
    Except PolicyError ScopedRiskPolicy := do
  if Text.isBlank account then .error .invalidIdentity
  validateLimits r.limits
  let revisions := upsertRevision ((p.accounts[account]?).getD []) r
  .ok { p with accounts := p.accounts.insert account revisions }

/-- Install a strategy-scoped revision. -/
def setStrategy (p : ScopedRiskPolicy) (strategy : String) (r : TimedLimits) :
    Except PolicyError ScopedRiskPolicy := do
  if Text.isBlank strategy then .error .invalidIdentity
  validateLimits r.limits
  let revisions := upsertRevision ((p.strategies[strategy]?).getD []) r
  .ok { p with strategies := p.strategies.insert strategy revisions }

/-- Install an asset-class-scoped revision. -/
def setAsset (p : ScopedRiskPolicy) (asset : AssetClass) (r : TimedLimits) :
    Except PolicyError ScopedRiskPolicy := do
  validateLimits r.limits
  let revisions := upsertRevision ((p.assets[asset]?).getD []) r
  .ok { p with assets := p.assets.insert asset revisions }

/-- Install an instrument-scoped revision. -/
def setInstrument (p : ScopedRiskPolicy) (instrument : InstrumentId) (r : TimedLimits) :
    Except PolicyError ScopedRiskPolicy := do
  validateLimits r.limits
  let revisions := upsertRevision ((p.instruments[instrument]?).getD []) r
  .ok { p with instruments := p.instruments.insert instrument revisions }

/-- Restore a policy from its snapshot, revision by revision. -/
def fromSnapshot (s : ScopedRiskPolicy) : Except PolicyError ScopedRiskPolicy := do
  if s.system.isEmpty ∨ 256 < s.system.length ∨ 1024 < s.accounts.size
      ∨ 1024 < s.strategies.size ∨ 16 < s.assets.size ∨ 16384 < s.instruments.size then
    .error .invalidIdentity
  if (s.accounts.values ++ s.strategies.values ++ s.assets.values ++ s.instruments.values).any
      (256 < ·.length) then
    .error .invalidIdentity
  let p ← s.system.foldlM setSystem empty
  let p ← s.accounts.toList.foldlM (fun p e => e.2.foldlM (setAccount · e.1) p) p
  let p ← s.strategies.toList.foldlM (fun p e => e.2.foldlM (setStrategy · e.1) p) p
  let p ← s.assets.toList.foldlM (fun p e => e.2.foldlM (setAsset · e.1) p) p
  s.instruments.toList.foldlM (fun p e => e.2.foldlM (setInstrument · e.1) p) p

/-- The limits of the most specific scope with a revision in force. -/
def limitsAt (p : ScopedRiskPolicy) (scope : RiskScope) (now : MonoTime) : Limits :=
  let selected := (latestRevision p.system now).elim ⟨0, 0, 0⟩ (·.limits)
  let account := if Text.isBlank scope.accountId then none else p.accounts[scope.accountId]?
  [account, scope.strategyId.bind (p.strategies[·]?), scope.assetClass.bind (p.assets[·]?),
    p.instruments[scope.instrumentId]?].foldl
    (fun selected revisions =>
      ((revisions.bind (latestRevision · now)).elim selected (·.limits)))
    selected

end ScopedRiskPolicy

/-- Optional contextual guardrails; `none` disables only that guard. -/
structure Guardrails where
  maxLeverage : Option F64 := none
  maxDrawdownBps : Option Int := none
  maxPredictedVolatilityBps : Option Int := none
  maxParticipationBps : Option Int := none
  maxOutstandingOrders : Option ℕ := none
  maxMessageRate : Option ℕ := none
  maxPriceDeviationBps : Option Int := none
  deriving DecidableEq

/-- Runtime observations for the guardrails. -/
structure RiskInputs where
  leverage : F64
  drawdownBps : Int
  predictedVolatilityBps : Int
  participationBps : Int
  outstandingOrders : ℕ
  messageRate : ℕ
  priceDeviationBps : Int
  pricesFresh : Bool
  clockHealthy : Bool
  brokerSessionHealthy : Bool
  duplicateIntent : Bool

/-- Stable denial reason. -/
inductive Reason where
  | halted
  | invalidLimit
  | positionLimit
  | orderLimit
  | grossExposure
  | missingPrice
  | arithmeticOverflow
  | staleData
  | unhealthyClock
  | unhealthyBrokerSession
  | duplicateIntent
  | leverage
  | drawdown
  | predictedVolatility
  | participation
  | outstandingOrders
  | messageRate
  | priceDeviation
  deriving DecidableEq

/-- Risk decision. -/
inductive Decision where
  | allow
  | resize (quantityTicks : Int)
  | deny (reason : Reason)
  deriving DecidableEq

/-- Failure changing the risk state. -/
inductive StateTransitionError where
  | invalidTransition (source target : RiskState)
  | authorizationRequired
  deriving DecidableEq

/-- The risk evaluator: limits, guardrails and the enforced state. -/
structure RiskEngine where
  limits : Limits
  guardrails : Guardrails
  state : RiskState
  deriving DecidableEq

/-- A target that keeps the sign of the position and does not grow it. -/
def movesTowardZero (current target : Int) : Bool :=
  if 0 < current then 0 ≤ target ∧ target ≤ current
  else if current < 0 then current ≤ target ∧ target ≤ 0
  else target = 0

namespace RiskEngine

/-- A running engine without guardrails. -/
def new (limits : Limits) : RiskEngine := ⟨limits, {}, .running⟩

/-- The same state and guardrails under other limits. -/
def withLimits (r : RiskEngine) (limits : Limits) : RiskEngine := { r with limits := limits }

/-- Whether a state change takes permissions away. -/
def restricts : RiskState → RiskState → Bool
  | .running, .reduceOnly | .running, .cancelOnly | .running, .halted
  | .reduceOnly, .cancelOnly | .reduceOnly, .halted | .cancelOnly, .halted => true
  | _, _ => false

/-- A change that broadens permissions needs an operator. -/
def validateTransition (r : RiskEngine) (next : RiskState) (authorization : String) :
    Except StateTransitionError Unit :=
  if r.state = next then .ok ()
  else if ¬restricts r.state next ∧ Text.isBlank authorization then .error .authorizationRequired
  else .ok ()

/-- Clamp a target to the position limit. -/
def positionLimited (limits : Limits) (target : Int) : Int :=
  if limits.maxPositionTicks.natAbs < target.natAbs then target.sign * limits.maxPositionTicks
  else target

/-- Clamp a target to the order limit. The capped step takes the sign of the target, not
that of the change. -/
def orderLimited (limits : Limits) (current limited : Int) : Option Int := do
  let delta ← narrow 64 (limited - current)
  if limits.maxOrderTicks.natAbs < delta.natAbs then
    let capped ← narrow 64 limits.maxOrderTicks.natAbs
    let step ← narrow 64 (limited.sign * capped)
    narrow 64 (current + step)
  else some limited

/-- Gross notional of all positions, with one instrument at another quantity. -/
def grossNotional (p : Portfolio) (instrument : InstrumentId) (quantity price : Int) :
    Option Int := do
  let gross ← p.positions.toList.foldlM (fun (total : Int) e => do
    let q := if e.1 = instrument then quantity else e.2.quantityTicks
    let mark := (p.markPrice e.1).getD e.2.markPriceTicks
    if mark ≤ 0 then none
    else
      let notional ← narrow 128 (q.natAbs * mark.natAbs)
      narrow 128 (total + notional)) 0
  if (p.position instrument).isNone then
    let notional ← narrow 128 (quantity.natAbs * price.natAbs)
    narrow 128 (gross + notional)
  else some gross

/-- Check a target against the current portfolio and the hard limits. -/
def check (r : RiskEngine) (p : Portfolio) (target : Target) : Decision :=
  if r.state = .halted ∨ r.state = .cancelOnly then .deny .halted
  else if r.limits.maxPositionTicks ≤ 0 ∨ r.limits.maxOrderTicks ≤ 0
      ∨ r.limits.maxGrossNotionalTicks ≤ 0 then .deny .invalidLimit
  else
    let current := p.quantity target.instrumentId
    match (p.markPrice target.instrumentId).or
        ((p.position target.instrumentId).map (·.markPriceTicks)) with
    | none => .deny .missingPrice
    | some price =>
      if price ≤ 0 then .deny .missingPrice
      else if r.state = .reduceOnly ∧ ¬movesTowardZero current target.quantityTicks then
        .deny .halted
      else
        match orderLimited r.limits current (positionLimited r.limits target.quantityTicks) with
        | none => .deny .arithmeticOverflow
        | some safe =>
          match grossNotional p target.instrumentId safe price with
          | none => .deny .arithmeticOverflow
          | some gross =>
            if r.limits.maxGrossNotionalTicks < gross then .deny .grossExposure
            else if safe = target.quantityTicks then .allow
            else .resize safe

/-- A limit that is set and negative, or exceeded. -/
def breached (limit : Option Int) (observed : Int) : Bool :=
  limit.any fun limit => limit < 0 ∨ limit < observed

/-- Apply the contextual guardrails, then the hard limits. -/
def checkWithGuardrails (float : FloatArith) (r : RiskEngine) (p : Portfolio) (target : Target)
    (g : Guardrails) (inputs : RiskInputs) : Decision :=
  if ¬inputs.pricesFresh then .deny .staleData
  else if ¬inputs.clockHealthy then .deny .unhealthyClock
  else if ¬inputs.brokerSessionHealthy then .deny .unhealthyBrokerSession
  else if inputs.duplicateIntent then .deny .duplicateIntent
  else if ¬float.isRatio inputs.leverage ∨ inputs.drawdownBps < 0
      ∨ inputs.predictedVolatilityBps < 0 ∨ inputs.participationBps < 0
      ∨ inputs.priceDeviationBps = -2 ^ 63 then .deny .staleData
  else if g.maxLeverage.any fun limit =>
      ¬float.isRatio limit ∨ float.exceeds inputs.leverage limit then .deny .leverage
  else if breached g.maxDrawdownBps inputs.drawdownBps then .deny .drawdown
  else if breached g.maxPredictedVolatilityBps inputs.predictedVolatilityBps then
    .deny .predictedVolatility
  else if breached g.maxParticipationBps inputs.participationBps then .deny .participation
  else if g.maxOutstandingOrders.any (· < inputs.outstandingOrders) then .deny .outstandingOrders
  else if g.maxMessageRate.any (· < inputs.messageRate) then .deny .messageRate
  else if breached g.maxPriceDeviationBps inputs.priceDeviationBps.natAbs then
    .deny .priceDeviation
  else r.check p target

end RiskEngine

end InsiderTrader
