import Mathlib.Data.List.Sublists

/-!
# Ranges of indices

Half-open ranges of natural numbers, and the sweep that collects what a list of
zones leaves free below a limit.

## Main definitions

- `IndexRanges.Range` — a half-open range
- `IndexRanges.gaps` — the ranges left free by zones in the order of their starts

## Main results

- `IndexRanges.count_gaps` — an index that is free lies in exactly one gap, any other in none
- `IndexRanges.tails_perm_sublistsLen` — choosing the first element first lists every selection
-/

namespace IndexRanges

/-- The range `start..stop`. -/
structure Range where
  start : ℕ
  stop : ℕ
  deriving Repr, DecidableEq

namespace Range

/-- The range contains an index. -/
def Has (r : Range) (i : ℕ) : Prop := r.start ≤ i ∧ i < r.stop

instance (r : Range) (i : ℕ) : Decidable (r.Has i) := inferInstanceAs (Decidable (_ ∧ _))

/-- The first range ends where the second one starts, or before. -/
def Before (r s : Range) : Prop := r.stop ≤ s.start

end Range

/-- The ranges below `limit` that a sweep over the zones leaves free from `cursor` on. -/
def gaps (limit : ℕ) : List Range → ℕ → List Range
  | [], cursor => if cursor < limit then [⟨cursor, limit⟩] else []
  | z :: zones, cursor =>
    (if cursor < z.start then [⟨cursor, z.start⟩] else []) ++
      gaps limit zones (max cursor z.stop)

/-- How many of the ranges contain an index. -/
def count (ranges : List Range) (i : ℕ) : ℕ := ranges.countP (·.Has i)

theorem count_append (rs ss : List Range) (i : ℕ) :
    count (rs ++ ss) i = count rs i + count ss i := List.countP_append

theorem count_if (a b i : ℕ) :
    count (if a < b then [⟨a, b⟩] else []) i = if a ≤ i ∧ i < b then 1 else 0 := by
  by_cases hab : a < b
  · rw [if_pos hab]
    by_cases hi : a ≤ i ∧ i < b <;> simp [count, Range.Has, hi]
  · rw [if_neg hab, if_neg (by omega)]
    rfl

/-- **The sweep is exact.** Where the zones come in the order of their starts, an index below the
limit that no zone contains is in exactly one gap, and any other index is in none. -/
theorem count_gaps {limit : ℕ} {zones : List Range}
    (hsorted : zones.Pairwise (fun y z => y.start ≤ z.start))
    (hzones : ∀ z ∈ zones, z.start ≤ z.stop ∧ z.start ≤ limit) (cursor i : ℕ) :
    count (gaps limit zones cursor) i =
      if cursor ≤ i ∧ i < limit ∧ ∀ z ∈ zones, ¬ z.Has i then 1 else 0 := by
  induction zones generalizing cursor with
  | nil =>
    rw [gaps, count_if]
    simp only [List.not_mem_nil, false_implies, implies_true, and_true]
  | cons z zones ih =>
    obtain ⟨hz, hsorted⟩ := List.pairwise_cons.mp hsorted
    obtain ⟨hstop, hlimit⟩ := hzones z List.mem_cons_self
    have ih := ih hsorted (fun y hy => hzones y (List.mem_cons_of_mem z hy)) (max cursor z.stop)
    rw [gaps, count_append, count_if, ih]
    simp only [List.forall_mem_cons, Range.Has, not_and, not_lt]
    by_cases hi : cursor ≤ i ∧ i < z.start
    · -- before the zone, and so before all later ones
      have hlater : ∀ y ∈ zones, y.start ≤ i → y.stop ≤ i := fun y hy hyi =>
        absurd (hz y hy) (by omega)
      rw [if_pos hi, if_neg (by omega), if_pos ⟨hi.1, by omega, by omega, hlater⟩]
    · rw [if_neg hi, Nat.zero_add]
      -- in the zone or before the cursor, where nothing is left, or behind both
      congr 1
      apply propext
      constructor
      · rintro ⟨hcursor, hlt, hfree⟩
        exact ⟨by omega, hlt, by omega, hfree⟩
      · rintro ⟨hcursor, hlt, hzone, hfree⟩
        exact ⟨by omega, hlt, hfree⟩

/-- The selections of `r + 1` elements of a range of indices, by their first one. -/
theorem tails_perm_sublistsLen (r next m : ℕ) :
    ((List.range' next m).flatMap fun i =>
        ((List.range' (i + 1) (next + m + r - (i + 1))).sublistsLen r).map (i :: ·)).Perm
      ((List.range' next (m + r)).sublistsLen (r + 1)) := by
  induction m generalizing next with
  | zero =>
    rw [List.sublistsLen_of_length_lt (by simp)]
    exact List.Perm.nil
  | succ m ih =>
    have htail : next + 1 + m + r = next + (m + 1) + r := by omega
    have hfirst : next + (m + 1) + r - (next + 1) = m + r := by omega
    have ih := ih (next + 1)
    rw [htail] at ih
    rw [Nat.add_right_comm m 1 r, List.range'_succ, List.range'_succ, List.sublistsLen_succ_cons,
      List.flatMap_cons, hfirst]
    exact (ih.append_left _).trans List.perm_append_comm

end IndexRanges
