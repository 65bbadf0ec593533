import InsiderTrader.Strategy
import InsiderTrader.Library.MachineInt

/-!
# Conflict resolution

What the coordinator makes of the pending proposals: expiry, the conflict
policy on each instrument, and the budgets of strategies.

## Main definitions

- `Coordinator.resolve` — the conflict policy
- `Coordinator.resolveAt` — the same after proposals that are no longer valid
- `Coordinator.resolveAtWithBudgets` — the same with quantity budgets
-/

namespace InsiderTrader

open MachineInt

/-- Conflict resolution policy. -/
inductive StrategyPolicy where
  | isolatedBooks
  | priority
  | weightedNet
  deriving DecidableEq

/-- Opposing proposals for one instrument. -/
structure Conflict where
  instrumentId : InstrumentId
  proposalIds : List ProposalId
  deriving DecidableEq

/-- Attribution from one resolved proposal to its sources. -/
structure Attribution where
  resultProposalId : ProposalId
  instrumentId : InstrumentId
  sourceProposalIds : List ProposalId
  deriving DecidableEq

/-- Coordinator output. -/
structure ResultSet where
  accepted : List Proposal
  conflicts : List Conflict
  expired : List ProposalId
  attributions : List Attribution
  deriving DecidableEq

/-- One budget resize. -/
structure BudgetAdjustment where
  proposalId : ProposalId
  beforeQuantityTicks : Int
  afterQuantityTicks : Int
  deriving DecidableEq

/-- Resolution result with budget diagnostics. -/
structure BudgetedResultSet where
  result : ResultSet
  adjustments : List BudgetAdjustment
  deriving DecidableEq

/-- The side an action asks for. -/
def Action.direction (float : FloatArith) : Action → Int
  | targetQuantity q | increase q => q.sign
  | decrease q => -q.sign
  | targetWeight w =>
    if float.exceeds w float.zero then 1 else if float.exceeds float.zero w then -1 else 0
  | close | noAction => 0

/-- The signed quantity an action contributes to a net; a weight cannot be netted. -/
def Action.netQuantity (float : FloatArith) : Action → Option F64
  | targetQuantity q | increase q => some (float.ofInt q)
  | decrease q => some (float.neg (float.ofInt q))
  | targetWeight _ => none
  | close | noAction => some float.zero

/-- The least of the values a list of proposals has. -/
def leastOf (f : Proposal → ℕ) (first : Proposal) (proposals : List Proposal) : ℕ :=
  proposals.foldl (fun least p => min least (f p)) (f first)

/-- The proposals of one instrument netted by confidence. -/
def weightedNet (float : FloatArith) (instrumentId : InstrumentId) (proposals : List Proposal) :
    Option Proposal := do
  let first ← proposals.head?
  let quantities ← proposals.mapM fun p => p.action.netQuantity float
  let weighted := (quantities.zip proposals).foldl
    (fun total e => float.add total (float.times e.1 e.2.confidence)) float.zero
  let confidence := proposals.foldl (fun total p => float.add total p.confidence) float.zero
  if ¬float.isFinite weighted ∨ ¬float.isFinite confidence then none
  else
    let rounded := float.round weighted
    some {
      proposalId := first.proposalId
      strategyId := "coordinator.weighted_net.v1"
      instrumentId := instrumentId
      action := if rounded = 0 then .noAction else .targetQuantity rounded
      confidence := float.clampUnit (float.divide confidence proposals.length)
      horizonNs := leastOf (·.horizonNs) first proposals
      ttlNs := leastOf (·.ttlNs) first proposals
      evidence := proposals.flatMap (·.evidence)
      generatedMono := first.generatedMono }

/-- The order in which the proposals of an instrument are looked at. -/
def resolvesBefore (left right : Proposal) : Bool :=
  match compare left.strategyId right.strategyId with
  | .lt => true
  | .gt => false
  | .eq => left.proposalId ≤ right.proposalId

/-- What the policy makes of the proposals of one instrument. -/
def resolveInstrument (float : FloatArith) (policy : StrategyPolicy) (instrumentId : InstrumentId)
    (proposals : List Proposal) : ResultSet :=
  let proposals := proposals.mergeSort resolvesBefore
  let ids := proposals.map (·.proposalId)
  let opposed := (proposals.any fun p => 0 < p.action.direction float)
    ∧ (proposals.any fun p => p.action.direction float < 0)
  let conflicts := if opposed then [⟨instrumentId, ids⟩] else []
  let each (accepted : List Proposal) : ResultSet :=
    ⟨accepted, conflicts, [], accepted.map fun p => ⟨p.proposalId, instrumentId, [p.proposalId]⟩⟩
  match policy with
  | .isolatedBooks => each proposals
  | .priority =>
    if opposed then
      let winner := proposals.head?.map (·.action.direction float)
      each (proposals.filter fun p => some (p.action.direction float) = winner)
    else each proposals
  | .weightedNet =>
    match weightedNet float instrumentId proposals with
    | none => ⟨[], conflicts, [], []⟩
    | some net => ⟨[net], conflicts, [], [⟨net.proposalId, instrumentId, ids⟩]⟩

/-- Two outputs, one after the other. -/
def ResultSet.append (a b : ResultSet) : ResultSet :=
  ⟨a.accepted ++ b.accepted, a.conflicts ++ b.conflicts, a.expired ++ b.expired,
    a.attributions ++ b.attributions⟩

/-- Pending proposals by instrument, each instrument in the order of submission. -/
def groupByInstrument (proposals : List Proposal) : Std.TreeMap InstrumentId (List Proposal) :=
  proposals.foldl (fun grouped p =>
    grouped.insert p.instrumentId ((grouped[p.instrumentId]?).getD [] ++ [p])) ∅

namespace Coordinator

/-- Set the lifecycle state of a proposal. -/
def setState (proposalId : ProposalId) (state : ProposalState) (c : Coordinator) : Coordinator :=
  match c.records[proposalId]? with
  | none => c
  | some record => { c with records := c.records.insert proposalId { record with state := state } }

/-- The lifecycle state a resolution leaves a submitted proposal in. -/
def resolvedState (result : ResultSet) (proposalId : ProposalId) : ProposalState :=
  if proposalId ∈ result.accepted.map (·.proposalId) then .accepted
  else if result.conflicts.any (proposalId ∈ ·.proposalIds) then .superseded
  else .rejected

/-- Take all pending proposals and resolve their conflicts. -/
def resolve (float : FloatArith) (policy : StrategyPolicy) (c : Coordinator) :
    ResultSet × Coordinator :=
  let result := (groupByInstrument c.pending).toList.foldl
    (fun result e => result.append (resolveInstrument float policy e.1 e.2)) ⟨[], [], [], []⟩
  let c' := c.pending.foldl
    (fun c p => c.setState p.proposalId (resolvedState result p.proposalId)) c
  (result, { c' with pending := [] })

/-- Expire the proposals that are no longer valid, then resolve the others. -/
def resolveAt (float : FloatArith) (policy : StrategyPolicy) (now : MonoTime) (c : Coordinator) :
    ResultSet × Coordinator :=
  let valid (p : Proposal) := (p.validate float now).isOk
  let expired := (c.pending.filter fun p => ¬valid p).map (·.proposalId)
  let c' := expired.foldl (fun c proposalId => c.setState proposalId .expired) c
  let resolved := resolve float policy { c' with pending := c.pending.filter valid }
  ({ resolved.1 with expired := expired }, resolved.2)

end Coordinator

/-- The quantity an action asks for, as far as budgets look at it. -/
def Action.budgeted : Action → Option Int
  | targetQuantity q | increase q | decrease q => some q
  | close | noAction | targetWeight _ => none

/-- An action with a bounded quantity. -/
def boundedAction (original : Action) (quantityTicks : Int) : Action :=
  match original with
  | .targetQuantity _ => .targetQuantity quantityTicks
  | .increase _ => .increase quantityTicks
  | .decrease _ => .decrease quantityTicks
  | other => other

/-- Subtraction of a signed 64-bit integer, clamped to the range. -/
def saturatingSub (x y : Int) : Int := max (-2 ^ 63) (min (x - y) (2 ^ 63 - 1))

/-- One accepted proposal under what is left of the budgets. -/
def applyBudget (remaining : Std.TreeMap String Int) (p : Proposal) :
    Proposal × Std.TreeMap String Int × List BudgetAdjustment :=
  match remaining[p.strategyId]?, p.action.budgeted with
  | some available, some requested =>
    let cap := min requested.natAbs available.natAbs
    let bounded := if cap ≤ 2 ^ 63 - 1 then (narrow 64 (requested.sign * cap)).getD 0 else 0
    let left := saturatingSub available (min cap (2 ^ 63 - 1))
    let remaining := remaining.insert p.strategyId left
    if bounded = requested then (p, remaining, [])
    else ({ p with action := boundedAction p.action bounded }, remaining,
      [⟨p.proposalId, requested, bounded⟩])
  | _, _ => (p, remaining, [])

/-- The accepted proposals under the budgets, in turn. -/
def applyBudgets : Std.TreeMap String Int → List Proposal → List Proposal × List BudgetAdjustment
  | _, [] => ([], [])
  | remaining, p :: ps =>
    let (p, remaining, adjustment) := applyBudget remaining p
    let (ps, adjustments) := applyBudgets remaining ps
    (p :: ps, adjustment ++ adjustments)

/-- Resolve proposals, then cut the accepted ones down to the budgets of their strategies. -/
def Coordinator.resolveAtWithBudgets (float : FloatArith) (policy : StrategyPolicy)
    (now : MonoTime) (budgets : Std.TreeMap String Int) (c : Coordinator) :
    BudgetedResultSet × Coordinator :=
  let resolved := resolveAt float policy now c
  let (accepted, adjustments) := applyBudgets budgets resolved.1.accepted
  (⟨{ resolved.1 with accepted := accepted }, adjustments⟩, resolved.2)

end InsiderTrader
