import InsiderTrader.Library.Wire
import InsiderTrader.Operation
import InsiderTrader.Strategy
import Mathlib.Algebra.Order.BigOperators.Group.List
import Mathlib.Algebra.Order.Group.Unbundled.Abs
import Std.Data.TreeSet

/-!
# The target optimizer

Candidates receive quantities in the order of their scores, as long as the
position, liquidity, turnover, gross and net limits allow it. A candidate that
is refused stays at its present quantity, and that holding enters the totals
all the same.

## Main definitions

- `OptimizationCandidate`, `OptimizationConstraints` — what is allocated, within which limits
- `Allocation.allocate` — the next candidate
- `optimizeTargets` — the allocation of all candidates
- `Displaced` — a holding that the totals have no room left for
- `repeats` — the candidates of an instrument after its first one

## Main results

- `Allocation.allocate_eq_ok` — what one candidate adds to the totals
- `optimized_within_iff` — the allocations that stay within the limits
- `optimized_once_iff` — the allocations that count every instrument once
-/

namespace InsiderTrader

open MachineInt

/-- A target from a proposal, with the holding and the mark it is valued at. -/
structure OptimizationCandidate where
  target : Target
  currentQuantityTicks : Int
  markPriceTicks : Int
  expectedReturnBps : F64
  uncertaintyBps : F64
  maxParticipationQuantityTicks : Option Int
  deriving DecidableEq

/-- The aggregate limits of one optimization. -/
structure OptimizationConstraints where
  maxGrossNotionalTicks : Int
  maxNetNotionalTicks : Int
  maxPositionNotionalTicks : Int
  maxTurnoverQuantityTicks : Int
  deriving DecidableEq

/-- What became of a candidate. -/
inductive OptimizationDisposition where
  | accepted
  | resized
  | rejected
  deriving DecidableEq

/-- The decision on a candidate. -/
structure OptimizationDecision where
  proposalId : ProposalId
  targetQuantityTicks : Int
  disposition : OptimizationDisposition
  deriving DecidableEq

/-- The targets, the decision on every candidate, and the totals. -/
structure OptimizationResult where
  targets : List Target
  decisions : List OptimizationDecision
  grossNotionalTicks : Int
  netNotionalTicks : Int
  turnoverQuantityTicks : Int
  deriving DecidableEq

/-- Why there is no allocation. -/
inductive OptimizationError where
  | invalidConstraints
  | invalidCandidate
  | overflow
  deriving DecidableEq

namespace OptimizationCandidate

/-- The instrument of a candidate. -/
def instrumentId (c : OptimizationCandidate) : InstrumentId := c.target.instrumentId

/-- The notional of a quantity at the mark of a candidate. -/
def notional (c : OptimizationCandidate) (quantityTicks : Int) : Int :=
  quantityTicks * c.markPriceTicks

/-- The quantities, the mark and the scores of a candidate are usable. -/
def valid (float : FloatArith) (c : OptimizationCandidate) : Bool :=
  c.currentQuantityTicks ≠ -2 ^ 63 ∧ 0 < c.markPriceTicks ∧ float.isFinite c.expectedReturnBps
    ∧ float.isRatio c.uncertaintyBps ∧ c.target.quantityTicks ≠ -2 ^ 63
    ∧ ∀ liquidity ∈ c.maxParticipationQuantityTicks, 0 < liquidity

/-- The score of a candidate. -/
def score (float : FloatArith) (c : OptimizationCandidate) : F64 :=
  float.sub c.expectedReturnBps c.uncertaintyBps

/-- The greater score comes first, then the lesser instrument, then the lesser proposal. -/
def before (float : FloatArith) (c c' : OptimizationCandidate) : Bool :=
  if float.exceeds (c.score float) (c'.score float) then true
  else if float.exceeds (c'.score float) (c.score float) then false
  else if c.instrumentId ≠ c'.instrumentId then c.instrumentId < c'.instrumentId
  else c.target.proposalId ≤ c'.target.proposalId

end OptimizationCandidate

/-- The limits are usable. -/
def OptimizationConstraints.valid (limits : OptimizationConstraints) : Bool :=
  0 < limits.maxGrossNotionalTicks ∧ 0 < limits.maxNetNotionalTicks
    ∧ 0 < limits.maxPositionNotionalTicks ∧ 0 < limits.maxTurnoverQuantityTicks

/-- A value between two bounds. -/
def clamp (low high x : Int) : Int := if x < low then low else if high < x then high else x

/-- A signed integer of a width, or an overflow. -/
def narrowed (w : ℕ) (x : Int) : Except OptimizationError Int :=
  (narrow w x).elim (.error .overflow) .ok

/-- The requested quantity within the position limit of a candidate and its liquidity. -/
def OptimizationCandidate.sized (limits : OptimizationConstraints) (c : OptimizationCandidate) :
    Except OptimizationError Int := do
  let maxPosition ← narrowed 64 (limits.maxPositionNotionalTicks / c.markPriceTicks)
  let quantity := clamp (-maxPosition) maxPosition c.target.quantityTicks
  match c.maxParticipationQuantityTicks with
  | none => pure quantity
  | some maxLiquidity =>
    let maxTarget ← narrowed 64 (c.currentQuantityTicks + maxLiquidity)
    let minTarget ← narrowed 64 (c.currentQuantityTicks - maxLiquidity)
    pure (clamp minTarget maxTarget quantity)

/-- What has been allocated so far. -/
structure Allocation where
  targets : List Target
  decisions : List OptimizationDecision
  gross : Int
  net : Int
  turnover : Int
  allocatedInstruments : Std.TreeSet InstrumentId

namespace Allocation

/-- Nothing is allocated. -/
def empty : Allocation := ⟨[], [], 0, 0, 0, ∅⟩

/-- The quantity a candidate may ask for: as far as the turnover allows, and the present one when
its instrument has been allocated. -/
def proposed (limits : OptimizationConstraints) (c : OptimizationCandidate) (a : Allocation) :
    Except OptimizationError Int := do
  let current := c.currentQuantityTicks
  let sized ← c.sized limits
  let desiredDelta ← narrowed 64 (sized - current)
  let remainingTurnover ← narrowed 64 (limits.maxTurnoverQuantityTicks - a.turnover)
  let delta := clamp (-remainingTurnover) remainingTurnover desiredDelta
  let quantity ← narrowed 64 (current + delta)
  pure (if a.allocatedInstruments.contains c.instrumentId then current else quantity)

/-- The totals have room for a notional. -/
def hasRoom (limits : OptimizationConstraints) (notional : Int) (a : Allocation) : Bool :=
  (narrow 128 (a.gross + |notional|)).any (· ≤ limits.maxGrossNotionalTicks)
    && (narrow 128 (a.net + notional)).any (|·| ≤ limits.maxNetNotionalTicks)

/-- The decision on a candidate at the quantity it ends at. -/
def decision (c : OptimizationCandidate) (requestedDelta finalDelta quantityTicks : Int) :
    OptimizationDecision where
  proposalId := c.target.proposalId
  targetQuantityTicks := quantityTicks
  disposition :=
    if finalDelta = requestedDelta then .accepted
    else if finalDelta = 0 then .rejected
    else .resized

/-- The next candidate: what it may ask for when there is room for it, and else what it holds. -/
def allocate (limits : OptimizationConstraints) (a : Allocation) (c : OptimizationCandidate) :
    Except OptimizationError Allocation := do
  let quantity ← a.proposed limits c
  let targetNotional ← narrowed 128 (c.notional quantity)
  let final := if a.hasRoom limits targetNotional then quantity else c.currentQuantityTicks
  let finalDelta ← narrowed 64 (final - c.currentQuantityTicks)
  let finalNotional ← narrowed 128 (c.notional final)
  let gross ← narrowed 128 (a.gross + |finalNotional|)
  let net ← narrowed 128 (a.net + finalNotional)
  let turnover ← narrowed 64 (a.turnover + |finalDelta|)
  let requestedDelta ← narrowed 64 (c.target.quantityTicks - c.currentQuantityTicks)
  pure {
    targets := a.targets ++
      (if finalDelta ≠ 0 then [{ c.target with quantityTicks := final }] else [])
    decisions := a.decisions ++ [decision c requestedDelta finalDelta final]
    gross := gross
    net := net
    turnover := turnover
    allocatedInstruments := a.allocatedInstruments.insert c.instrumentId }

end Allocation

/-- The candidates in the order of their scores. -/
def scoreOrder (float : FloatArith) (candidates : List OptimizationCandidate) :
    List OptimizationCandidate :=
  candidates.mergeSort (OptimizationCandidate.before float)

/-- Allocate quantities to candidates, within limits. -/
def optimizeTargets (float : FloatArith) (candidates : List OptimizationCandidate)
    (limits : OptimizationConstraints) : Except OptimizationError OptimizationResult :=
  if ¬limits.valid then .error .invalidConstraints
  else if ¬candidates.all (OptimizationCandidate.valid float) then .error .invalidCandidate
  else do
    let a ← (scoreOrder float candidates).foldlM (Allocation.allocate limits) .empty
    pure ⟨a.targets, a.decisions, a.gross, a.net, a.turnover⟩

-- Sample candidates

namespace Sample

/-- A candidate with a mark of 100 ticks. -/
def candidate (instrumentId : InstrumentId) (proposalId : ProposalId)
    (targetTicks currentTicks : Int) : OptimizationCandidate :=
  ⟨⟨instrumentId, targetTicks, proposalId⟩, currentTicks, 100, one, ⟨0⟩, none⟩

/-- Limits for ten lots at a mark of 100 ticks. -/
def limits : OptimizationConstraints := ⟨1000, 1000, 5000, 100⟩

/-- Candidates that are listed in the order of their scores. -/
theorem scoreOrder_eq {cs : List OptimizationCandidate}
    (h : cs.Pairwise fun c c' => c.before float c') : scoreOrder float cs = cs :=
  List.mergeSort_of_pairwise h

end Sample

-- One candidate

theorem narrowed_eq_ok {w : ℕ} {x y : Int} : narrowed w x = .ok y ↔ Fits w x ∧ y = x := by
  rw [← narrow_eq_some, narrowed]
  cases narrow w x <;> simp

/-- A clamped value is between the bounds. -/
theorem abs_clamp_le {bound : Int} (hbound : 0 ≤ bound) (x : Int) :
    |clamp (-bound) bound x| ≤ bound := by
  unfold clamp
  rw [abs_le']
  split
  · omega
  · split <;> omega

namespace Allocation

variable {limits : OptimizationConstraints} {c : OptimizationCandidate} {a a' : Allocation}

/-- What a candidate may ask for is within what is left of the turnover, and is what it holds when
its instrument has been allocated. -/
theorem proposed_eq_ok {q : Int} (h : a.proposed limits c = .ok q) :
    (a.turnover ≤ limits.maxTurnoverQuantityTicks →
      |q - c.currentQuantityTicks| ≤ limits.maxTurnoverQuantityTicks - a.turnover) ∧
    (a.allocatedInstruments.contains c.instrumentId → q = c.currentQuantityTicks) := by
  unfold proposed at h
  simp only [Wire.bind_eq_ok, narrowed_eq_ok] at h
  obtain ⟨_, -, desired, -, _, ⟨-, rfl⟩, _, ⟨-, rfl⟩, hq⟩ := h
  cases hq
  refine ⟨fun hle => ?_, fun hcontains => if_pos hcontains⟩
  split
  · rw [sub_self, abs_zero]
    omega
  · rw [add_sub_cancel_left]
    exact abs_clamp_le (by omega) desired

/-- A candidate ends at a quantity, and the totals grow by what it amounts to. -/
structure Settles (limits : OptimizationConstraints) (a : Allocation) (c : OptimizationCandidate)
    (q held : Int) (a' : Allocation) : Prop where
  proposed_eq : a.proposed limits c = .ok q
  held_eq : held = if a.hasRoom limits (c.notional q) then q else c.currentQuantityTicks
  gross_eq : a'.gross = a.gross + |c.notional held|
  net_eq : a'.net = a.net + c.notional held
  turnover_eq : a'.turnover = a.turnover + |held - c.currentQuantityTicks|
  decided_eq : a'.decisions.map (·.targetQuantityTicks) =
    a.decisions.map (·.targetQuantityTicks) ++ [held]
  targets_eq : a'.targets = a.targets ++
    if held - c.currentQuantityTicks ≠ 0 then [{ c.target with quantityTicks := held }] else []
  allocated_eq : a'.allocatedInstruments = a.allocatedInstruments.insert c.instrumentId

/-- **One candidate** ends at what it asked for when there was room for it, and else at what it
holds. -/
theorem allocate_eq_ok (h : allocate limits a c = .ok a') :
    ∃ q held, Settles limits a c q held a' := by
  unfold allocate at h
  simp only [Wire.bind_eq_ok, narrowed_eq_ok] at h
  obtain ⟨q, hproposed, _, ⟨-, rfl⟩, _, ⟨-, rfl⟩, _, ⟨-, rfl⟩, _, ⟨-, rfl⟩, _, ⟨-, rfl⟩, _,
    ⟨-, rfl⟩, _, ⟨-, rfl⟩, ha'⟩ := h
  cases ha'
  exact ⟨q, _, hproposed, rfl, rfl, rfl, rfl, by rw [List.map_append]; rfl, rfl, rfl⟩

end Allocation

-- The totals

/-- Candidates with the quantities they end at. -/
abbrev Holdings := List (OptimizationCandidate × Int)

namespace Holdings

/-- The gross notional of some holdings. -/
def gross (held : Holdings) : Int := (held.map fun h => |h.1.notional h.2|).sum

/-- The net notional of some holdings. -/
def net (held : Holdings) : Int := (held.map fun h => h.1.notional h.2).sum

/-- The quantity that is traded to reach some holdings. -/
def turnover (held : Holdings) : Int := (held.map fun h => |h.2 - h.1.currentQuantityTicks|).sum

end Holdings

namespace Allocation

variable {limits : OptimizationConstraints} {c : OptimizationCandidate}
  {cs : List OptimizationCandidate} {a a' : Allocation}

/-- The quantities that have been decided. -/
def decided (a : Allocation) : List Int := a.decisions.map (·.targetQuantityTicks)

/-- The totals of an allocation are those of the quantities it decided. -/
theorem totals_of_foldlM (h : cs.foldlM (allocate limits) a = .ok a') :
    ∃ held : List Int, a'.decided = a.decided ++ held ∧
      a'.gross = a.gross + Holdings.gross (cs.zip held) ∧
      a'.net = a.net + Holdings.net (cs.zip held) ∧
      a'.turnover = a.turnover + Holdings.turnover (cs.zip held) := by
  induction cs generalizing a with
  | nil =>
    cases h
    exact ⟨[], (List.append_nil _).symm, (add_zero _).symm, (add_zero _).symm, (add_zero _).symm⟩
  | cons c cs ih =>
    rw [List.foldlM_cons, Wire.bind_eq_ok] at h
    obtain ⟨next, hnext, h⟩ := h
    obtain ⟨q, held, hsettles⟩ := allocate_eq_ok hnext
    obtain ⟨rest, hdecided, hgross, hnet, hturnover⟩ := ih h
    refine ⟨held :: rest, ?_, ?_, ?_, ?_⟩
    · rw [hdecided, decided, hsettles.decided_eq, List.append_assoc]
      rfl
    · rw [hgross, hsettles.gross_eq, add_assoc]
      rfl
    · rw [hnet, hsettles.net_eq, add_assoc]
      rfl
    · rw [hturnover, hsettles.turnover_eq, add_assoc]
      rfl

/-- One candidate does not take the turnover beyond its limit. -/
theorem turnover_le_of_allocate (h : allocate limits a c = .ok a')
    (hle : a.turnover ≤ limits.maxTurnoverQuantityTicks) :
    a'.turnover ≤ limits.maxTurnoverQuantityTicks := by
  obtain ⟨q, held, hsettles⟩ := allocate_eq_ok h
  have hasked := (proposed_eq_ok hsettles.proposed_eq).1 hle
  rw [hsettles.turnover_eq, hsettles.held_eq]
  split
  · omega
  · rw [sub_self, abs_zero]
    omega

theorem turnover_le_of_foldlM (h : cs.foldlM (allocate limits) a = .ok a')
    (hle : a.turnover ≤ limits.maxTurnoverQuantityTicks) :
    a'.turnover ≤ limits.maxTurnoverQuantityTicks := by
  induction cs generalizing a with
  | nil =>
    cases h
    exact hle
  | cons c cs ih =>
    rw [List.foldlM_cons, Wire.bind_eq_ok] at h
    obtain ⟨next, hnext, h⟩ := h
    exact ih h (turnover_le_of_allocate hnext hle)

/-- A candidate is refused what it asks for. -/
def Refuses (limits : OptimizationConstraints) (a : Allocation) (c : OptimizationCandidate) : Prop :=
  ∃ q, a.proposed limits c = .ok q ∧ a.hasRoom limits (c.notional q) = false

theorem le_of_hasRoom {notional : Int} (h : a.hasRoom limits notional = true) :
    a.gross + |notional| ≤ limits.maxGrossNotionalTicks ∧
      |a.net + notional| ≤ limits.maxNetNotionalTicks := by
  simp only [hasRoom, Bool.and_eq_true, Option.any_eq_true, narrow_eq_some, decide_eq_true_eq] at h
  obtain ⟨⟨_, ⟨-, rfl⟩, hgross⟩, _, ⟨-, rfl⟩, hnet⟩ := h
  exact ⟨hgross, hnet⟩

/-- **The totals after one candidate** are within the limits, unless it was refused and there is no
room for what it holds. -/
theorem allocate_cases (h : allocate limits a c = .ok a') :
    let held := c.notional c.currentQuantityTicks
    (¬Refuses limits a c ∧ a'.gross ≤ limits.maxGrossNotionalTicks ∧
      |a'.net| ≤ limits.maxNetNotionalTicks) ∨
    (Refuses limits a c ∧ a'.gross = a.gross + |held| ∧ a'.net = a.net + held) := by
  obtain ⟨q, held, hsettles⟩ := allocate_eq_ok h
  have hheld := hsettles.held_eq
  rw [hsettles.gross_eq, hsettles.net_eq]
  cases hroom : a.hasRoom limits (c.notional q) with
  | true =>
    rw [if_pos hroom] at hheld
    subst hheld
    refine .inl ⟨?_, le_of_hasRoom hroom⟩
    rintro ⟨q', hq', hfull⟩
    cases hsettles.proposed_eq.symm.trans hq'
    exact absurd (hroom.symm.trans hfull) (by decide)
  | false =>
    rw [if_neg (hroom ▸ Bool.false_ne_true)] at hheld
    subst hheld
    exact .inr ⟨⟨q, hsettles.proposed_eq, hroom⟩, rfl, rfl⟩

/-- An allocation goes through each of its candidates. -/
theorem split_of_foldlM {before after : List OptimizationCandidate}
    (h : (before ++ c :: after).foldlM (allocate limits) a = .ok a') :
    ∃ b b', before.foldlM (allocate limits) a = .ok b ∧ allocate limits b c = .ok b' ∧
      after.foldlM (allocate limits) b' = .ok a' := by
  rw [List.foldlM_append, Wire.bind_eq_ok] at h
  obtain ⟨b, hbefore, h⟩ := h
  rw [List.foldlM_cons, Wire.bind_eq_ok] at h
  obtain ⟨b', hc, hafter⟩ := h
  exact ⟨b, b', hbefore, hc, hafter⟩

theorem gross_le_of_foldlM (h : cs.foldlM (allocate limits) a = .ok a') : a.gross ≤ a'.gross := by
  obtain ⟨held, -, hgross, -, -⟩ := totals_of_foldlM h
  have hnonneg : 0 ≤ Holdings.gross (cs.zip held) := by
    refine List.sum_nonneg fun x hx => ?_
    obtain ⟨_, -, rfl⟩ := List.mem_map.mp hx
    exact abs_nonneg _
  omega

/-- **The gross total** stays within its limit exactly when there is room for what every refused
candidate holds. -/
theorem gross_le_iff (h : cs.foldlM (allocate limits) a = .ok a')
    (hle : a.gross ≤ limits.maxGrossNotionalTicks) :
    a'.gross ≤ limits.maxGrossNotionalTicks ↔ ∀ before c after b, cs = before ++ c :: after →
      before.foldlM (allocate limits) a = .ok b → Refuses limits b c →
        b.gross + |c.notional c.currentQuantityTicks| ≤ limits.maxGrossNotionalTicks := by
  constructor
  · rintro hfinal before c after b rfl hbefore hrefuses
    obtain ⟨b', next, hbefore', hnext, hafter⟩ := split_of_foldlM h
    cases hbefore.symm.trans hbefore'
    rcases allocate_cases hnext with ⟨hadmits, -, -⟩ | ⟨-, hgross, -⟩
    · exact absurd hrefuses hadmits
    · rw [← hgross]
      exact (gross_le_of_foldlM hafter).trans hfinal
  · intro hroom
    induction cs generalizing a with
    | nil =>
      cases h
      exact hle
    | cons c cs ih =>
      rw [List.foldlM_cons, Wire.bind_eq_ok] at h
      obtain ⟨next, hnext, h⟩ := h
      have hle' : next.gross ≤ limits.maxGrossNotionalTicks := by
        rcases allocate_cases hnext with ⟨-, hgross, -⟩ | ⟨hrefuses, hgross, -⟩
        · exact hgross
        · rw [hgross]
          exact hroom [] c cs a rfl rfl hrefuses
      refine ih h hle' fun before c' after b hcs hbefore hrefuses => ?_
      refine hroom (c :: before) c' after b (congrArg (c :: ·) hcs) ?_ hrefuses
      rw [List.foldlM_cons, hnext]
      exact hbefore

/-- **The net total** is within its limit exactly when the last candidate was not refused, or there
is room for what it holds. -/
theorem net_le_iff (h : (cs ++ [c]).foldlM (allocate limits) a = .ok a') :
    |a'.net| ≤ limits.maxNetNotionalTicks ↔ ∀ b, cs.foldlM (allocate limits) a = .ok b →
      Refuses limits b c →
        |b.net + c.notional c.currentQuantityTicks| ≤ limits.maxNetNotionalTicks := by
  obtain ⟨b, next, hbefore, hnext, hafter⟩ := split_of_foldlM h
  cases hafter
  constructor
  · intro hfinal b' hb' hrefuses
    cases hbefore.symm.trans hb'
    rcases allocate_cases hnext with ⟨hadmits, -, -⟩ | ⟨-, -, hnet⟩
    · exact absurd hrefuses hadmits
    · rwa [← hnet]
  · intro hroom
    rcases allocate_cases hnext with ⟨-, -, hnet⟩ | ⟨hrefuses, -, hnet⟩
    · exact hnet
    · rw [hnet]
      exact hroom b hbefore hrefuses

end Allocation

/-- The quantities decided for some candidates. -/
def OptimizationResult.holdings (ordered : List OptimizationCandidate) (r : OptimizationResult) :
    Holdings :=
  ordered.zip (r.decisions.map (·.targetQuantityTicks))

/-- The holdings after an optimization, and what is traded for them, are within the limits. -/
structure OptimizationResult.Within (limits : OptimizationConstraints)
    (ordered : List OptimizationCandidate) (r : OptimizationResult) : Prop where
  gross : (r.holdings ordered).gross ≤ limits.maxGrossNotionalTicks
  net : |(r.holdings ordered).net| ≤ limits.maxNetNotionalTicks
  turnover : (r.holdings ordered).turnover ≤ limits.maxTurnoverQuantityTicks

/-- A candidate is refused what it asks for, and there is no room for what it holds: in the gross
limit, or in the net limit when it is the last one. -/
def Displaced (limits : OptimizationConstraints) (ordered : List OptimizationCandidate) : Prop :=
  ∃ before c after a, ordered = before ++ c :: after ∧
    before.foldlM (Allocation.allocate limits) .empty = .ok a ∧ Allocation.Refuses limits a c ∧
    (limits.maxGrossNotionalTicks < a.gross + |c.notional c.currentQuantityTicks| ∨
      after = [] ∧ limits.maxNetNotionalTicks < |a.net + c.notional c.currentQuantityTicks|)

namespace Allocation

variable {limits : OptimizationConstraints} {cs : List OptimizationCandidate} {a : Allocation}

/-- The totals are within the limits exactly when nothing is displaced. -/
theorem totals_le_iff (h : cs.foldlM (allocate limits) .empty = .ok a)
    (hgross : 0 ≤ limits.maxGrossNotionalTicks) (hnet : 0 ≤ limits.maxNetNotionalTicks) :
    (a.gross ≤ limits.maxGrossNotionalTicks ∧ |a.net| ≤ limits.maxNetNotionalTicks) ↔
      ¬Displaced limits cs := by
  rw [gross_le_iff h hgross]
  constructor
  · rintro ⟨hgrosses, hnetLe⟩ ⟨before, c, after, b, rfl, hbefore, hrefuses, hlt | ⟨rfl, hlt⟩⟩
    · exact absurd (hgrosses before c after b rfl hbefore hrefuses) (not_le.mpr hlt)
    · exact absurd ((net_le_iff h).mp hnetLe b hbefore hrefuses) (not_le.mpr hlt)
  · intro hkept
    refine ⟨fun before c after b hcs hbefore hrefuses => not_lt.mp fun hlt => hkept
      ⟨before, c, after, b, hcs, hbefore, hrefuses, .inl hlt⟩, ?_⟩
    rcases List.eq_nil_or_concat cs with rfl | ⟨before, c, rfl⟩
    · cases h
      exact hnet
    · rw [List.concat_eq_append] at h hkept
      exact (net_le_iff h).mpr fun b hbefore hrefuses => not_lt.mp fun hlt => hkept
        ⟨before, c, [], b, rfl, hbefore, hrefuses, .inr ⟨rfl, hlt⟩⟩

end Allocation

theorem optimizeTargets_eq_ok {float : FloatArith} {candidates : List OptimizationCandidate}
    {limits : OptimizationConstraints} {r : OptimizationResult}
    (h : optimizeTargets float candidates limits = .ok r) :
    limits.valid = true ∧ (∀ c ∈ candidates, c.valid float = true) ∧
      ∃ a, (scoreOrder float candidates).foldlM (Allocation.allocate limits) .empty = .ok a ∧
        r = ⟨a.targets, a.decisions, a.gross, a.net, a.turnover⟩ := by
  unfold optimizeTargets at h
  split at h
  · cases h
  · next hlimits =>
    split at h
    · cases h
    · next hcandidates =>
      obtain ⟨a, ha, hr⟩ := Wire.bind_eq_ok.mp h
      cases hr
      rw [not_not] at hlimits hcandidates
      exact ⟨hlimits, List.all_eq_true.mp hcandidates, a, ha, rfl⟩

/-- **The resulting holdings** are within the limits exactly when no refused candidate is
displaced. -/
theorem optimized_within_iff {float : FloatArith} {candidates : List OptimizationCandidate}
    {limits : OptimizationConstraints} {r : OptimizationResult}
    (h : optimizeTargets float candidates limits = .ok r) :
    r.Within limits (scoreOrder float candidates) ↔
      ¬Displaced limits (scoreOrder float candidates) := by
  obtain ⟨hlimits, -, a, ha, rfl⟩ := optimizeTargets_eq_ok h
  simp only [OptimizationConstraints.valid, decide_eq_true_eq] at hlimits
  obtain ⟨hgrossLimit, hnetLimit, -, hturnoverLimit⟩ := hlimits
  rw [← Allocation.totals_le_iff ha hgrossLimit.le hnetLimit.le]
  have hturnoverLe := Allocation.turnover_le_of_foldlM ha hturnoverLimit.le
  obtain ⟨held, hdecided, hgross, hnet, hturnover⟩ := Allocation.totals_of_foldlM ha
  have hheld : a.decisions.map (·.targetQuantityTicks) = held := hdecided
  rw [hgross, hnet]
  rw [hturnover] at hturnoverLe
  simp only [Allocation.empty, zero_add] at hturnoverLe ⊢
  subst hheld
  constructor
  · rintro ⟨hgrossLe, hnetLe, -⟩
    exact ⟨hgrossLe, hnetLe⟩
  · rintro ⟨hgrossLe, hnetLe⟩
    exact ⟨hgrossLe, hnetLe, hturnoverLe⟩

namespace Sample

/-- Two candidates that there is room for one of. -/
theorem optimized_within_two :
    let candidates := [candidate 1 1 10 0, candidate 2 2 20 0]
    ∃ r, optimizeTargets float candidates limits = .ok r ∧
      (r.Within limits (scoreOrder float candidates) ↔
        ¬Displaced limits (scoreOrder float candidates)) := by
  intro candidates
  have hok : optimizeTargets float candidates limits = .ok ⟨[⟨1, 10, 1⟩],
      [⟨1, 10, .accepted⟩, ⟨2, 0, .rejected⟩], 1000, 1000, 10⟩ := by
    rw [optimizeTargets, scoreOrder_eq (by decide)]
    rfl
  exact ⟨_, hok, optimized_within_iff hok⟩

/-- **A holding is displaced**: the first candidate takes all the room, and the second one keeps what
it holds. -/
theorem optimized_beyond_limits :
    let candidates := [candidate 1 1 10 0, candidate 2 2 5 5]
    let held : Holdings := candidates.map fun c => (c, c.currentQuantityTicks)
    (candidates.map (·.instrumentId)).Nodup ∧ held.gross ≤ limits.maxGrossNotionalTicks ∧
      |held.net| ≤ limits.maxNetNotionalTicks ∧
      ∃ r, optimizeTargets float candidates limits = .ok r ∧
        limits.maxGrossNotionalTicks < (r.holdings (scoreOrder float candidates)).gross ∧
        limits.maxNetNotionalTicks < |(r.holdings (scoreOrder float candidates)).net| := by
  intro candidates held
  have hok : optimizeTargets float candidates limits = .ok ⟨[⟨1, 10, 1⟩],
      [⟨1, 10, .accepted⟩, ⟨2, 5, .accepted⟩], 1500, 1500, 10⟩ := by
    rw [optimizeTargets, scoreOrder_eq (by decide)]
    rfl
  refine ⟨by decide, by decide, by decide, _, hok, ?_⟩
  rw [scoreOrder_eq (by decide)]
  decide

end Sample

-- One target per instrument

/-- The candidates that are the first of their instrument, after those that were seen. -/
def firsts : List InstrumentId → List OptimizationCandidate → List OptimizationCandidate
  | _, [] => []
  | seen, c :: cs =>
    if c.instrumentId ∈ seen then firsts seen cs else c :: firsts (c.instrumentId :: seen) cs

/-- The candidates whose instrument was seen or had a candidate before. -/
def repeats : List InstrumentId → List OptimizationCandidate → List OptimizationCandidate
  | _, [] => []
  | seen, c :: cs =>
    if c.instrumentId ∈ seen then c :: repeats seen cs else repeats (c.instrumentId :: seen) cs

/-- The quantity that an instrument ends at: its target, or what it holds. -/
def endsAt (targets : List Target) (c : OptimizationCandidate) : Int :=
  (targets.find? (·.instrumentId = c.instrumentId)).elim c.currentQuantityTicks (·.quantityTicks)

/-- The first candidates of their instruments, with the quantities these end at. -/
def ends (targets : List Target) (seen : List InstrumentId) (cs : List OptimizationCandidate) :
    Holdings :=
  (firsts seen cs).map fun c => (c, endsAt targets c)

/-- The candidates that are not the first of their instruments, with what they hold. -/
def again (seen : List InstrumentId) (cs : List OptimizationCandidate) : Holdings :=
  (repeats seen cs).map fun c => (c, c.currentQuantityTicks)

/-- The totals of an optimization count every instrument once. -/
structure OptimizationResult.CountsOnce (ordered : List OptimizationCandidate)
    (r : OptimizationResult) : Prop where
  gross : r.grossNotionalTicks = (ends r.targets [] ordered).gross
  net : r.netNotionalTicks = (ends r.targets [] ordered).net
  turnover : r.turnoverQuantityTicks = (ends r.targets [] ordered).turnover

namespace Allocation

variable {limits : OptimizationConstraints} {c : OptimizationCandidate}
  {cs : List OptimizationCandidate} {a a' : Allocation}

/-- An allocated instrument receives no other target. -/
theorem targets_of_foldlM (h : cs.foldlM (allocate limits) a = .ok a') :
    ∃ targets, a'.targets = a.targets ++ targets ∧
      ∀ t ∈ targets, a.allocatedInstruments.contains t.instrumentId = false := by
  induction cs generalizing a with
  | nil =>
    cases h
    exact ⟨[], (List.append_nil _).symm, fun _ ht => absurd ht List.not_mem_nil⟩
  | cons c cs ih =>
    rw [List.foldlM_cons, Wire.bind_eq_ok] at h
    obtain ⟨next, hnext, h⟩ := h
    obtain ⟨q, held, hsettles⟩ := allocate_eq_ok hnext
    obtain ⟨targets, htargets, hnew⟩ := ih h
    refine ⟨_, by rw [htargets, hsettles.targets_eq, List.append_assoc], fun t ht => ?_⟩
    rcases List.mem_append.mp ht with hown | hlater
    · split at hown
      · next hmoved =>
        obtain rfl := List.mem_singleton.mp hown
        by_contra hcontains
        have hsame := (proposed_eq_ok hsettles.proposed_eq).2
          (Bool.eq_true_of_not_eq_false hcontains)
        have hheld := hsettles.held_eq
        rw [hsame, ite_self] at hheld
        exact hmoved (by rw [hheld, sub_self])
      · cases hown
    · have hcontains := hnew t hlater
      rw [hsettles.allocated_eq, Std.TreeSet.contains_insert, Bool.or_eq_false_iff] at hcontains
      exact hcontains.2

/-- An instrument ends at the only target it received, or at what it holds. -/
theorem endsAt_eq {earlier later : List Target} (held : Int)
    (hearlier : ∀ t ∈ earlier, t.instrumentId ≠ c.instrumentId)
    (hlater : ∀ t ∈ later, t.instrumentId ≠ c.instrumentId) :
    endsAt (earlier ++ (if held - c.currentQuantityTicks ≠ 0
      then [{ c.target with quantityTicks := held }] else []) ++ later) c = held := by
  have hnone : ∀ targets : List Target, (∀ t ∈ targets, t.instrumentId ≠ c.instrumentId) →
      targets.find? (·.instrumentId = c.instrumentId) = none := by
    intro targets htargets
    exact List.find?_eq_none.mpr fun t ht => by simpa using htargets t ht
  rw [endsAt, List.append_assoc, List.find?_append, hnone earlier hearlier, Option.none_or,
    List.find?_append, hnone later hlater, Option.or_none]
  split
  · simp only [List.find?_cons, OptimizationCandidate.instrumentId, decide_true]
    rfl
  · next hsame =>
    have hheld : c.currentQuantityTicks = held := by omega
    exact hheld

/-- **The totals** are those of the instruments, and once more what the candidates hold that are not
the first of their instruments. -/
theorem instruments_of_foldlM {seen : List InstrumentId}
    (h : cs.foldlM (allocate limits) a = .ok a')
    (hseen : ∀ i, a.allocatedInstruments.contains i = true ↔ i ∈ seen)
    (htargets : ∀ t ∈ a.targets, t.instrumentId ∈ seen) :
    a'.gross = a.gross + (ends a'.targets seen cs).gross + (again seen cs).gross ∧
      a'.net = a.net + (ends a'.targets seen cs).net + (again seen cs).net ∧
      a'.turnover = a.turnover + (ends a'.targets seen cs).turnover := by
  induction cs generalizing a seen with
  | nil =>
    cases h
    exact ⟨by simp [ends, again, firsts, repeats, Holdings.gross],
      by simp [ends, again, firsts, repeats, Holdings.net],
      by simp [ends, firsts, Holdings.turnover]⟩
  | cons c cs ih =>
    rw [List.foldlM_cons, Wire.bind_eq_ok] at h
    obtain ⟨next, hnext, h⟩ := h
    obtain ⟨q, held, hsettles⟩ := allocate_eq_ok hnext
    have hallocated : ∀ i, next.allocatedInstruments.contains i = true ↔
        i ∈ c.instrumentId :: seen := by
      intro i
      rw [hsettles.allocated_eq, Std.TreeSet.contains_insert, Bool.or_eq_true, hseen,
        List.mem_cons, beq_iff_eq, Std.LawfulEqCmp.compare_eq_iff_eq, eq_comm]
    by_cases hrepeat : c.instrumentId ∈ seen
    · -- a repeated candidate ends at what it holds
      have hsame : held = c.currentQuantityTicks := by
        rw [hsettles.held_eq, (proposed_eq_ok hsettles.proposed_eq).2 ((hseen _).mpr hrepeat),
          ite_self]
      have hnexttargets : next.targets = a.targets := by
        rw [hsettles.targets_eq, if_neg (by rw [hsame, sub_self]; exact not_not.mpr rfl),
          List.append_nil]
      have hseen' : ∀ i, next.allocatedInstruments.contains i = true ↔ i ∈ seen := by
        intro i
        rw [hallocated, List.mem_cons, or_iff_right_of_imp fun heq => heq ▸ hrepeat]
      obtain ⟨hgross, hnet, hturnover⟩ := ih h hseen' (hnexttargets ▸ htargets)
      have hfirsts : firsts seen (c :: cs) = firsts seen cs := if_pos hrepeat
      have hrepeats : repeats seen (c :: cs) = c :: repeats seen cs := if_pos hrepeat
      rw [ends, again, hfirsts, hrepeats, List.map_cons]
      refine ⟨?_, ?_, ?_⟩
      · rw [hgross, hsettles.gross_eq, hsame]
        show _ = a.gross + (ends a'.targets seen cs).gross +
          (|c.notional c.currentQuantityTicks| + (again seen cs).gross)
        omega
      · rw [hnet, hsettles.net_eq, hsame]
        show _ = a.net + (ends a'.targets seen cs).net +
          (c.notional c.currentQuantityTicks + (again seen cs).net)
        omega
      · rw [hturnover, hsettles.turnover_eq, hsame, sub_self, abs_zero, add_zero]
        rfl
    · -- the first candidate of its instrument decides where that ends
      have hnext : ∀ t ∈ next.targets, t.instrumentId ∈ c.instrumentId :: seen := by
        intro t ht
        rw [hsettles.targets_eq] at ht
        rcases List.mem_append.mp ht with hold | hown
        · exact List.mem_cons_of_mem _ (htargets t hold)
        · split at hown
          · obtain rfl := List.mem_singleton.mp hown
            exact List.mem_cons_self
          · cases hown
      obtain ⟨hgross, hnet, hturnover⟩ := ih h hallocated hnext
      obtain ⟨later, hlater, hnew⟩ := targets_of_foldlM h
      have hends : endsAt a'.targets c = held := by
        rw [hlater, hsettles.targets_eq]
        refine endsAt_eq held (fun t ht heq => hrepeat (heq ▸ htargets t ht)) fun t ht heq => ?_
        have hcontains := (hallocated c.instrumentId).mpr List.mem_cons_self
        rw [← heq, hnew t ht] at hcontains
        cases hcontains
      have hfirsts : firsts seen (c :: cs) = c :: firsts (c.instrumentId :: seen) cs :=
        if_neg hrepeat
      have hrepeats : repeats seen (c :: cs) = repeats (c.instrumentId :: seen) cs :=
        if_neg hrepeat
      rw [ends, again, hfirsts, hrepeats, List.map_cons, hends]
      refine ⟨?_, ?_, ?_⟩
      · rw [hgross, hsettles.gross_eq]
        show _ = a.gross + (|c.notional held| + (ends a'.targets (c.instrumentId :: seen) cs).gross) +
          (again (c.instrumentId :: seen) cs).gross
        omega
      · rw [hnet, hsettles.net_eq]
        show _ = a.net + (c.notional held + (ends a'.targets (c.instrumentId :: seen) cs).net) +
          (again (c.instrumentId :: seen) cs).net
        omega
      · rw [hturnover, hsettles.turnover_eq]
        show _ = a.turnover + (|held - c.currentQuantityTicks| +
          (ends a'.targets (c.instrumentId :: seen) cs).turnover)
        omega

end Allocation

theorem mem_of_mem_repeats {seen : List InstrumentId} {cs : List OptimizationCandidate}
    {c : OptimizationCandidate} (h : c ∈ repeats seen cs) : c ∈ cs := by
  induction cs generalizing seen with
  | nil => cases h
  | cons c' cs ih =>
    unfold repeats at h
    split at h
    · rcases List.mem_cons.mp h with rfl | h
      · exact List.mem_cons_self
      · exact List.mem_cons_of_mem _ (ih h)
    · exact List.mem_cons_of_mem _ (ih h)

/-- What the repeated candidates hold adds nothing exactly when they hold nothing. -/
theorem again_gross_eq_zero_iff {seen : List InstrumentId} {cs : List OptimizationCandidate}
    (hmarks : ∀ c ∈ cs, 0 < c.markPriceTicks) :
    (again seen cs).gross = 0 ↔ ∀ c ∈ repeats seen cs, c.currentQuantityTicks = 0 := by
  rw [Holdings.gross, again, List.map_map]
  constructor
  · intro hsum c hc
    have hle : |c.notional c.currentQuantityTicks| ≤ 0 := by
      rw [← hsum]
      refine List.single_le_sum (fun x hx => ?_) _ (List.mem_map_of_mem hc)
      obtain ⟨_, -, rfl⟩ := List.mem_map.mp hx
      exact abs_nonneg _
    have hzero : c.currentQuantityTicks * c.markPriceTicks = 0 := abs_nonpos_iff.mp hle
    exact (mul_eq_zero.mp hzero).resolve_right (hmarks c (mem_of_mem_repeats hc)).ne'
  · intro hzero
    refine List.sum_eq_zero fun x hx => ?_
    obtain ⟨c, hc, rfl⟩ := List.mem_map.mp hx
    show |c.currentQuantityTicks * c.markPriceTicks| = 0
    rw [hzero c hc, zero_mul, abs_zero]

/-- **Every instrument is counted once** exactly when the candidates that are not the first of their
instruments hold nothing. -/
theorem optimized_once_iff {float : FloatArith} {candidates : List OptimizationCandidate}
    {limits : OptimizationConstraints} {r : OptimizationResult}
    (h : optimizeTargets float candidates limits = .ok r) :
    r.CountsOnce (scoreOrder float candidates) ↔
      ∀ c ∈ repeats [] (scoreOrder float candidates), c.currentQuantityTicks = 0 := by
  obtain ⟨-, hvalid, a, ha, rfl⟩ := optimizeTargets_eq_ok h
  have hmarks : ∀ c ∈ scoreOrder float candidates, 0 < c.markPriceTicks := by
    intro c hc
    have hc := hvalid c ((List.mergeSort_perm _ _).mem_iff.mp hc)
    simp only [OptimizationCandidate.valid, decide_eq_true_eq] at hc
    exact hc.2.1
  have hnone : ∀ i : InstrumentId,
      Allocation.empty.allocatedInstruments.contains i = true ↔ i ∈ ([] : List InstrumentId) := by
    intro i
    simp [Allocation.empty]
  obtain ⟨hgross, hnet, hturnover⟩ := Allocation.instruments_of_foldlM ha hnone
    fun _ ht => absurd ht List.not_mem_nil
  simp only [Allocation.empty, zero_add] at hgross hnet hturnover
  rw [← again_gross_eq_zero_iff hmarks]
  constructor
  · rintro ⟨hgross', -, -⟩
    have hsame : a.gross = (ends a.targets [] (scoreOrder float candidates)).gross := hgross'
    omega
  · intro hzero
    have hnetZero : (again [] (scoreOrder float candidates)).net = 0 := by
      refine List.sum_eq_zero fun x hx => ?_
      obtain ⟨held, hheld, rfl⟩ := List.mem_map.mp hx
      obtain ⟨c, hc, rfl⟩ := List.mem_map.mp hheld
      show c.currentQuantityTicks * c.markPriceTicks = 0
      rw [(again_gross_eq_zero_iff hmarks).mp hzero c hc, zero_mul]
    exact ⟨by rw [hgross, hzero, add_zero], by rw [hnet, hnetZero, add_zero], hturnover⟩

namespace Sample

/-- Two candidates of an instrument that is not held. -/
theorem optimized_once_two :
    let candidates := [candidate 1 1 4 0, candidate 1 2 8 0]
    ∃ r, optimizeTargets float candidates limits = .ok r ∧
      (r.CountsOnce (scoreOrder float candidates) ↔
        ∀ c ∈ repeats [] (scoreOrder float candidates), c.currentQuantityTicks = 0) := by
  intro candidates
  have hok : optimizeTargets float candidates limits = .ok ⟨[⟨1, 4, 1⟩],
      [⟨1, 4, .accepted⟩, ⟨2, 0, .rejected⟩], 400, 400, 4⟩ := by
    rw [optimizeTargets, scoreOrder_eq (by decide)]
    rfl
  exact ⟨_, hok, optimized_once_iff hok⟩

/-- **A holding is counted twice**: the second candidate adds what the instrument held before the
first one. -/
theorem optimized_counts_twice :
    let candidates := [candidate 1 1 4 2, candidate 1 2 8 2]
    ∃ r, optimizeTargets float candidates limits = .ok r ∧
      r.grossNotionalTicks = 600 ∧
      (ends r.targets [] (scoreOrder float candidates)).gross = 400 ∧
      ¬r.CountsOnce (scoreOrder float candidates) := by
  intro candidates
  have hok : optimizeTargets float candidates limits = .ok ⟨[⟨1, 4, 1⟩],
      [⟨1, 4, .accepted⟩, ⟨2, 2, .rejected⟩], 600, 600, 2⟩ := by
    rw [optimizeTargets, scoreOrder_eq (by decide)]
    rfl
  refine ⟨_, hok, rfl, ?_⟩
  rw [scoreOrder_eq (by decide)]
  refine ⟨by decide, fun hcounts => ?_⟩
  have hgross := hcounts.gross
  revert hgross
  decide

end Sample

end InsiderTrader
