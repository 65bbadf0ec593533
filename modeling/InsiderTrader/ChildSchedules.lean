import Mathlib.Algebra.BigOperators.Intervals
import Mathlib.Data.List.TakeWhile
import InsiderTrader.ChildQuantities

/-!
# Quiet slices and small shares

A schedule that follows observed volume skips the slices whose capacity rounds
to zero, and its children are due in turn all the same: behind a quiet slice
every child is early. A front-loaded schedule splits by weights, and its last
share may round to zero.

## Main definitions

- `povCapacity` — the capacity of a slice
- `leadingCapacity` — the capacity of the slices before the first quiet one
- `WithinParticipation` — a child within the capacity of the slice it is due in

## Main results

- `pov_within_iff` — the volumes whose children are all within participation
- `shortfall_planned_iff` — the quantities that a front-loaded schedule can split
-/

namespace InsiderTrader

open MachineInt

-- Participation

section Participation

variable {intent : OrderIntent} {participationBps intervalNs : ℕ} {volumes : List Int}

/-- The capacity of a slice, rounded down. -/
def povCapacity (participationBps : ℕ) (volume : Int) : Int := volume * participationBps / 10000

/-- The capacity of the slices before the first one without any. -/
def leadingCapacity (participationBps : ℕ) (volumes : List Int) : Int :=
  ((volumes.map (povCapacity participationBps)).takeWhile (0 < ·)).sum

/-- A child that is due at a multiple of the interval takes its part of the slice of that number. -/
def WithinParticipation (participationBps intervalNs : ℕ) (volumes : List Int)
    (child : ChildOrder) : Prop :=
  ∀ k, child.dueAfterNs = k * intervalNs →
    ∃ volume, volumes[k]? = some volume ∧ child.quantityTicks * 10000 ≤ volume * participationBps

theorem leadingCapacity_nonneg (participationBps : ℕ) (volumes : List Int) :
    0 ≤ leadingCapacity participationBps volumes := by
  refine List.sum_nonneg fun c hc => ?_
  have hpos := List.mem_takeWhile_imp hc
  exact (of_decide_eq_true hpos).le

theorem mul_le_of_le_povCapacity {volume q : Int} (h : q ≤ povCapacity participationBps volume) :
    q * 10000 ≤ volume * participationBps := by
  have hfloor := Int.ediv_mul_le (volume * participationBps) (by decide : (10000 : Int) ≠ 0)
  unfold povCapacity at h
  omega

/-- **The parts of a split by volume** are within the slices of their positions when the slices
before the first quiet one suffice, and only then. -/
theorem povQuantities_within_iff {remaining : Int} {quantities : List Int}
    (h : povQuantities participationBps remaining volumes = some (quantities, 0))
    (hremaining : 0 ≤ remaining) :
    (∀ (k : ℕ) (q : Int), quantities[k]? = some q →
      ∃ volume, volumes[k]? = some volume ∧ q * 10000 ≤ volume * participationBps) ↔
        remaining ≤ leadingCapacity participationBps volumes := by
  induction volumes generalizing remaining quantities with
  | nil =>
    cases h
    simp [leadingCapacity]
  | cons volume volumes ih =>
    unfold povQuantities at h
    split at h
    · next hzero =>
      cases h
      have hnonneg := leadingCapacity_nonneg participationBps (volume :: volumes)
      exact iff_of_true (fun k q hq => by simp at hq) (by omega)
    · next hnonzero =>
      obtain ⟨capacity, hnarrow, h⟩ := Option.bind_eq_some_iff.mp h
      have hcapacity : povCapacity participationBps volume = capacity := (narrow_eq_some.mp hnarrow).2.symm
      split at h
      · next hquiet =>
        -- The next child stands at the quiet slice.
        have hsum := povQuantities_whole h hremaining
        refine iff_of_false (fun hall => ?_) ?_
        · cases quantities with
          | nil => simp at hsum; omega
          | cons q qs =>
            obtain ⟨volume', hvolume, hle⟩ := hall 0 q rfl
            cases hvolume
            have hq := hsum.2 q List.mem_cons_self
            unfold povCapacity at hcapacity
            omega
        · rw [leadingCapacity, List.map_cons, List.takeWhile_cons_of_neg (by simp; omega)]
          simp; omega
      · next hloud =>
        obtain ⟨⟨rest, left⟩, hrest, h⟩ := Option.bind_eq_some_iff.mp h
        cases h
        have hlead : leadingCapacity participationBps (volume :: volumes) =
            capacity + leadingCapacity participationBps volumes := by
          rw [leadingCapacity, List.map_cons, List.takeWhile_cons_of_pos (by simp; omega),
            List.sum_cons, hcapacity, leadingCapacity]
        have hfirst : min capacity remaining * 10000 ≤ volume * participationBps :=
          mul_le_of_le_povCapacity (by rw [hcapacity]; exact min_le_left _ _)
        have ih := ih hrest (by omega)
        have hnonneg := leadingCapacity_nonneg participationBps volumes
        constructor
        · intro hall
          have := ih.mp fun k q hq => hall (k + 1) q hq
          omega
        · intro hle k q hq
          cases k with
          | zero =>
            cases hq
            exact ⟨volume, rfl, hfirst⟩
          | succ k => exact ih.mpr (by omega) k q hq

/-- What the numbering can number: the sequence and the due time of every child fit. -/
theorem numberChildren_iff {index : ℕ} {quantities : List Int} :
    (∃ children, numberChildren intent intervalNs index quantities = .ok children) ↔
      ∀ i < quantities.length,
        index + i + 1 < 2 ^ 32 ∧ intervalNs * (index + i) ≤ u64Max := by
  induction quantities generalizing index with
  | nil => exact iff_of_true ⟨[], rfl⟩ fun i hi => absurd hi (Nat.not_lt_zero i)
  | cons q qs ih =>
    have hstep : (∃ children, numberChildren intent intervalNs index (q :: qs) = .ok children) ↔
        (index + 1 < 2 ^ 32 ∧ intervalNs * index ≤ u64Max) ∧
          ∃ children, numberChildren intent intervalNs (index + 1) qs = .ok children := by
      show (∃ children, (childOrder intent intervalNs index q >>= fun child =>
        numberChildren intent intervalNs (index + 1) qs >>= fun rest =>
          .ok (child :: rest)) = .ok children) ↔ _
      unfold childOrder
      by_cases hfits : 2 ^ 32 ≤ index + 1 ∨ u64Max < intervalNs * index
      · rw [if_pos hfits]
        refine iff_of_false (fun h => ?_) (by omega)
        obtain ⟨children, h⟩ := h
        cases h
      · rw [if_neg hfits]
        rw [not_or, not_le, not_lt] at hfits
        rw [and_iff_right hfits]
        cases numberChildren intent intervalNs (index + 1) qs with
        | error e =>
          refine iff_of_false (fun h => ?_) fun h => ?_
          · cases h.choose_spec
          · cases h.choose_spec
        | ok rest => exact iff_of_true ⟨_, rfl⟩ ⟨rest, rfl⟩
    rw [hstep, ih]
    constructor
    · rintro ⟨hfirst, hrest⟩ i hi
      cases i with
      | zero => exact hfirst
      | succ i =>
        rw [show index + (i + 1) = index + 1 + i by omega]
        exact hrest i (Nat.lt_of_succ_lt_succ hi)
    · intro hall
      refine ⟨hall 0 (Nat.succ_pos _), fun i hi => ?_⟩
      rw [show index + 1 + i = index + (i + 1) by omega]
      exact hall (i + 1) (Nat.succ_lt_succ hi)

/-- What is planned: the quantities of the selected schedule, numbered. -/
theorem planChildren_eq_ok {schedule : Schedule} {children : List ChildOrder} :
    planChildren intent schedule = .ok children ↔ 0 < intent.quantityTicks ∧
      ∃ selected quantities interval, selectSchedule intent.quantityTicks schedule = some selected ∧
        scheduleQuantities intent.quantityTicks selected = some (quantities, interval) ∧
        numberChildren intent interval 0 quantities = .ok children := by
  unfold planChildren
  split
  · next hneg => exact iff_of_false (fun h => by cases h) fun h => absurd h.1 (by omega)
  · next hpos =>
    rw [and_iff_right (by omega)]
    cases hsplit : (selectSchedule intent.quantityTicks schedule).bind
        (scheduleQuantities intent.quantityTicks) with
    | none =>
      refine iff_of_false (fun h => by cases h) ?_
      rintro ⟨selected, quantities, interval, hselected, hquantities, -⟩
      rw [hselected, Option.bind_some, hquantities] at hsplit
      cases hsplit
    | some split =>
      obtain ⟨selected, hselected, hquantities⟩ := Option.bind_eq_some_iff.mp hsplit
      constructor
      · intro h
        exact ⟨selected, split.1, split.2, hselected, hquantities, h⟩
      · rintro ⟨selected', quantities, interval, hselected', hquantities', h⟩
        cases hselected.symm.trans hselected'
        cases hquantities.symm.trans hquantities'
        exact h

/-- The child at a position has the quantity and the due time of the position. -/
theorem child_at {quantities : List Int} {children : List ChildOrder} {k : ℕ} {child : ChildOrder}
    (h : numberChildren intent intervalNs 0 quantities = .ok children)
    (hchild : children[k]? = some child) :
    quantities[k]? = some child.quantityTicks ∧ child.dueAfterNs = intervalNs * k := by
  obtain ⟨hquantities, -, -, hdue⟩ := numberChildren_eq_ok h
  have hk := (List.getElem?_eq_some_iff.mp hchild).1
  have hlength : children.length = quantities.length := by rw [← hquantities, List.length_map]
  constructor
  · rw [← hquantities, List.getElem?_map, hchild, Option.map_some]
  · have hat : (children.map (·.dueAfterNs))[k]? = some child.dueAfterNs := by
      rw [List.getElem?_map, hchild, Option.map_some]
    rw [hdue, List.getElem?_map, List.getElem?_range' (hlength ▸ hk), Option.map_some] at hat
    simpa using hat.symm

/-- **A schedule by observed volume** keeps every child within the slice it is due in exactly when
the slices before the first quiet one suffice for the parent. -/
theorem pov_within_iff {children : List ChildOrder}
    (h : planChildren intent (.pov participationBps intervalNs volumes) = .ok children) :
    (∀ child ∈ children, WithinParticipation participationBps intervalNs volumes child) ↔
      intent.quantityTicks ≤ leadingCapacity participationBps volumes := by
  obtain ⟨hpos, selected, quantities, interval, hselected, hquantities, hnumbered⟩ :=
    planChildren_eq_ok.mp h
  cases hselected
  simp only [scheduleQuantities] at hquantities
  split at hquantities
  · cases hquantities
  next hvalid =>
  obtain ⟨⟨quantities', left⟩, hsplit, hquantities⟩ := Option.bind_eq_some_iff.mp hquantities
  dsimp only at hquantities
  split at hquantities
  · cases hquantities
  next hleft =>
  cases hquantities
  rw [not_not.mp hleft] at hsplit
  have hinterval : 0 < intervalNs := by omega
  rw [← povQuantities_within_iff hsplit hpos.le]
  constructor
  · intro hall k q hq
    rw [← (numberChildren_eq_ok hnumbered).1, List.getElem?_map, Option.map_eq_some_iff] at hq
    obtain ⟨child, hchild, rfl⟩ := hq
    have hdue := (child_at hnumbered hchild).2
    exact hall child (List.mem_of_getElem? hchild) k (by rw [hdue, mul_comm])
  · intro hall child hchild k hk
    obtain ⟨k', hchild'⟩ := List.mem_iff_getElem?.mp hchild
    obtain ⟨hq, hdue⟩ := child_at hnumbered hchild'
    rw [hdue, mul_comm] at hk
    rw [← Nat.eq_of_mul_eq_mul_right hinterval hk]
    exact hall k' child.quantityTicks hq

end Participation

-- Front loading

section FrontLoading

variable {intent : OrderIntent} {quantityTicks : Int}

/-- A remainder that is smaller than the number of children does not reach the last one. -/
theorem handOut_concat {remainder : Int} (quantities : List Int) (last : Int)
    (hremainder : 0 ≤ remainder) (hlt : remainder ≤ quantities.length) :
    handOut remainder (quantities ++ [last]) = ((handOut remainder quantities).1 ++ [last], 0) := by
  induction quantities generalizing remainder with
  | nil =>
    obtain rfl : remainder = 0 := by simp at hlt; omega
    rfl
  | cons q qs ih =>
    rw [List.cons_append]
    unfold handOut
    split
    · rfl
    · rw [List.length_cons, Nat.cast_succ] at hlt
      have hhanded : handOut (remainder - 1) (qs ++ [last]) =
          ((handOut (remainder - 1) qs).1 ++ [last], 0) := ih (by omega) (by omega)
      rw [hhanded]
      rfl

/-- A child gets at most one tick of the remainder. -/
theorem mem_handOut {remainder : Int} {quantities : List Int} {q : Int}
    (hq : q ∈ (handOut remainder quantities).1) : ∃ q' ∈ quantities, q' ≤ q ∧ q ≤ q' + 1 := by
  induction quantities generalizing remainder with
  | nil => cases hq
  | cons q' qs ih =>
    unfold handOut at hq
    split at hq
    · exact ⟨q, hq, le_rfl, by omega⟩
    · rcases List.mem_cons.mp hq with rfl | hq
      · exact ⟨q', List.mem_cons_self, by omega, le_rfl⟩
      · obtain ⟨q'', hq'', hle⟩ := ih hq
        exact ⟨q'', List.mem_cons_of_mem _ hq'', hle⟩

/-- Handing out from the front keeps quantities in descending order. -/
theorem handOut_pairwise {remainder : Int} {quantities : List Int}
    (h : quantities.Pairwise (· ≥ ·)) : (handOut remainder quantities).1.Pairwise (· ≥ ·) := by
  induction quantities generalizing remainder with
  | nil => exact List.Pairwise.nil
  | cons q qs ih =>
    obtain ⟨hq, hqs⟩ := List.pairwise_cons.mp h
    unfold handOut
    split
    · exact h
    · refine List.pairwise_cons.mpr ⟨fun q' hq' => ?_, ih hqs⟩
      obtain ⟨q'', hq'', -, hle⟩ := mem_handOut hq'
      have := hq q'' hq''
      omega

theorem handOut_length (remainder : Int) (quantities : List Int) :
    (handOut remainder quantities).1.length = quantities.length := by
  induction quantities generalizing remainder with
  | nil => rfl
  | cons q qs ih =>
    unfold handOut
    split
    · rfl
    · exact congrArg (· + 1) (ih (remainder - 1))

/-- The shares, each rounded down, fall short by less than their number. -/
theorem lt_sum_floors {weights : List ℕ} (hweights : 0 < weights.sum) :
    quantityTicks < (weights.map fun (w : ℕ) => quantityTicks * w / (weights.sum : ℕ)).sum +
      weights.length := by
  generalize htotal : weights.sum = totalWeight at hweights
  have hshares : ∀ weights : List ℕ, quantityTicks * (weights.sum : ℕ) ≤
      totalWeight * (weights.map fun (w : ℕ) => quantityTicks * w / totalWeight).sum +
        weights.length * (totalWeight - 1) := by
    intro weights
    induction weights with
    | nil => simp
    | cons w weights ih =>
      have hdivision := Int.mul_ediv_add_emod (quantityTicks * w) totalWeight
      have hlt := Int.emod_lt_of_pos (quantityTicks * w) (b := (totalWeight : Int)) (by omega)
      rw [List.map_cons, List.sum_cons, List.sum_cons, List.length_cons, Nat.cast_add, Nat.cast_succ,
        mul_add, mul_add, add_mul, one_mul]
      omega
  have hle := hshares weights
  rw [htotal] at hle
  have hlength : 0 < weights.length := by
    cases weights with
    | nil => simp at htotal; omega
    | cons w weights => exact Nat.succ_pos _
  by_contra hge
  rw [not_lt] at hge
  have hmul := mul_le_mul_of_nonneg_left hge (by omega : (0 : Int) ≤ totalWeight)
  rw [mul_add, mul_comm (totalWeight : Int) quantityTicks] at hmul
  have hone : (weights.length : Int) * (totalWeight - 1) =
      totalWeight * weights.length - weights.length := by
    rw [mul_sub, mul_one, mul_comm]
  omega

variable {slices urgencyBps : ℕ}

/-- The last weight is the base weight. -/
theorem shortfallWeights_concat (slices urgencyBps : ℕ) :
    ∃ weights : List ℕ, weights.length = slices ∧
      shortfallWeights (slices + 1) urgencyBps = weights ++ [10000] := by
  refine ⟨(List.range slices).map fun index =>
    10000 + urgencyBps * (slices + 1 - index - 1) / max (slices + 1) 1, ?_, ?_⟩
  · rw [List.length_map, List.length_range]
  · rw [shortfallWeights, List.range_succ, List.map_append, List.map_singleton,
      show slices + 1 - slices - 1 = 0 by omega, mul_zero, Nat.zero_div]

theorem length_shortfallWeights (slices urgencyBps : ℕ) :
    (shortfallWeights slices urgencyBps).length = slices := by
  rw [shortfallWeights, List.length_map, List.length_range]

/-- The weights descend. -/
theorem shortfallWeights_pairwise (slices urgencyBps : ℕ) :
    (shortfallWeights slices urgencyBps).Pairwise (· ≥ ·) := by
  refine List.pairwise_map.mpr (List.pairwise_lt_range.imp fun {i j} hij => ?_)
  exact Nat.add_le_add_left
    (Nat.div_le_div_right (Nat.mul_le_mul_left _ (by omega))) _

theorem sum_shortfallWeights (hslices : 0 < slices) : (shortfallWeights slices urgencyBps).sum =
    10000 * slices + ∑ j ∈ Finset.range slices, urgencyBps * j / slices := by
  have hsum : (shortfallWeights slices urgencyBps).sum =
      ∑ i ∈ Finset.range slices, (10000 + urgencyBps * (slices - 1 - i) / slices) := by
    rw [shortfallWeights, max_eq_left hslices]
    simp only [Nat.sub_right_comm slices _ 1]
    rfl
  rw [hsum, Finset.sum_add_distrib, Finset.sum_const, Finset.card_range, nsmul_eq_mul, mul_comm,
    Nat.cast_id, Finset.sum_range_reflect (fun j => urgencyBps * j / slices) slices]

/-- A proportional split of a quantity in range: the shares, rounded down, and the remainder handed
out, unless a part is empty or something remains. -/
theorem proportional_eq (hpos : 0 ≤ quantityTicks) (hfits : Fits 64 quantityTicks)
    {weights : List ℕ} (htotal : 0 < weights.sum) {floors : List Int}
    (hfloors : floors = weights.map fun (w : ℕ) => quantityTicks * w / (weights.sum : ℕ)) :
    proportional quantityTicks weights weights.sum =
      if (handOut (quantityTicks - floors.sum) floors).2 ≠ 0 ∨
          (handOut (quantityTicks - floors.sum) floors).1.any (· ≤ 0) then none
      else some (handOut (quantityTicks - floors.sum) floors).1 := by
  have hshares : weights.mapM (fun (w : ℕ) => narrow 64 (quantityTicks * w / weights.sum)) =
      some floors := by
    rw [hfloors]
    exact mapM_eq_some fun w hw => narrow_of_fits (share_bounds hpos hfits htotal hw).2
  rw [proportional, hshares]
  rfl

/-- **A front-loaded split** succeeds when the last share is not rounded to zero, and only then. -/
theorem proportional_shortfall_iff (hpos : 0 < quantityTicks) (hfits : Fits 64 quantityTicks)
    (hslices : 0 < slices) (hurgency : urgencyBps ≤ 10000) :
    (∃ quantities, proportional quantityTicks (shortfallWeights slices urgencyBps)
        (shortfallWeights slices urgencyBps).sum = some quantities) ↔
      ((shortfallWeights slices urgencyBps).sum : Int) ≤ 10000 * quantityTicks := by
  obtain ⟨n, rfl⟩ := Nat.exists_eq_add_of_lt hslices
  rw [Nat.zero_add]
  obtain ⟨weights, hlength, hweights⟩ := shortfallWeights_concat n urgencyBps
  have hbase : ∀ w ∈ weights, 10000 ≤ w := by
    intro w hw
    have hmem : w ∈ shortfallWeights (n + 1) urgencyBps := hweights ▸ List.mem_append_left _ hw
    exact (shortfallWeights_le hurgency hmem).1
  rw [hweights]
  generalize htotal : (weights ++ [10000]).sum = total
  have htotalPos : 0 < total := by
    rw [← htotal, List.sum_append, List.sum_singleton]
    omega
  have hle : ((weights ++ [10000]).map fun (w : ℕ) => quantityTicks * w / (total : Int)).sum ≤
      quantityTicks := sum_floors_le hpos.le _ htotalPos htotal.le
  have hlt : quantityTicks < ((weights ++ [10000]).map fun (w : ℕ) =>
      quantityTicks * w / ((weights ++ [10000]).sum : ℕ)).sum + (weights ++ [10000]).length :=
    lt_sum_floors (htotal ▸ htotalPos)
  rw [htotal, List.length_append, List.length_singleton] at hlt
  rw [← htotal, proportional_eq hpos.le hfits (htotal ▸ htotalPos) rfl, htotal, List.map_append,
    List.map_singleton]
  rw [List.map_append, List.map_singleton] at hle hlt
  generalize hfloors : weights.map (fun (w : ℕ) => quantityTicks * w / (total : Int)) = floors
    at hle hlt ⊢
  have hcount : floors.length = weights.length := by rw [← hfloors, List.length_map]
  rw [handOut_concat _ _ (by omega) (by omega)]
  have hlast : total ≤ 10000 * quantityTicks ↔ 0 < quantityTicks * (10000 : ℕ) / (total : Int) := by
    rw [← Int.add_one_le_iff, zero_add, Int.le_ediv_iff_mul_le (by omega)]
    push_cast
    omega
  rw [hlast]
  constructor
  · rintro ⟨quantities, h⟩
    by_contra hneg
    rw [if_pos (.inr (List.any_eq_true.mpr ⟨_, List.mem_append_right _ List.mem_cons_self,
      decide_eq_true (by omega)⟩))] at h
    cases h
  · intro hpositive
    refine ⟨_, if_neg ?_⟩
    rintro (hleft | hany)
    · exact hleft rfl
    · obtain ⟨q, hq, hneg⟩ := List.any_eq_true.mp hany
      have hneg := of_decide_eq_true hneg
      rcases List.mem_append.mp hq with hq | hq
      · obtain ⟨q', hq', hle', -⟩ := mem_handOut hq
        rw [← hfloors] at hq'
        obtain ⟨w, hw, rfl⟩ := List.mem_map.mp hq'
        have hshare : quantityTicks * (10000 : ℕ) / (total : Int) ≤ quantityTicks * w / total :=
          Int.ediv_le_ediv (by omega)
            (mul_le_mul_of_nonneg_left (by exact_mod_cast hbase w hw) hpos.le)
        omega
      · rw [List.mem_singleton.mp hq] at hneg
        omega

/-- A proportional split by descending weights has as many parts, in descending order. -/
theorem proportional_pairwise (hpos : 0 ≤ quantityTicks) (hfits : Fits 64 quantityTicks)
    {weights : List ℕ} {quantities : List Int} (htotal : 0 < weights.sum)
    (hweights : weights.Pairwise (· ≥ ·))
    (h : proportional quantityTicks weights weights.sum = some quantities) :
    quantities.length = weights.length ∧ quantities.Pairwise (· ≥ ·) := by
  rw [proportional_eq hpos hfits htotal rfl] at h
  split at h
  · cases h
  · cases h
    refine ⟨by rw [handOut_length, List.length_map], handOut_pairwise (List.pairwise_map.mpr ?_)⟩
    exact hweights.imp fun {w w'} hle => Int.ediv_le_ediv (by omega)
      (mul_le_mul_of_nonneg_left (by exact_mod_cast hle) hpos)

/-- **A front-loaded schedule** plans as many children as it has slices, each of a tick or more and
in descending order, exactly when ten thousand times its quantity reaches the sum of the weights,
and the slices can be numbered. -/
theorem shortfall_planned_iff {intervalNs : ℕ} (hfits : Fits 64 intent.quantityTicks)
    (hslices : 1 ≤ slices) (hle : (slices : Int) ≤ intent.quantityTicks) (hinterval : 0 < intervalNs)
    (hdue : intervalNs * (slices - 1) ≤ u64Max) (hurgency : urgencyBps ≤ 10000) :
    (∃ children, planChildren intent (.implementationShortfall slices intervalNs urgencyBps) =
        .ok children ∧ children.length = slices ∧ (∀ child ∈ children, 1 ≤ child.quantityTicks) ∧
        (children.map (·.quantityTicks)).Pairwise (· ≥ ·)) ↔
      ((10000 * slices + ∑ j ∈ Finset.range slices, urgencyBps * j / slices : ℕ) : Int) ≤
          10000 * intent.quantityTicks ∧ slices < 2 ^ 32 := by
  have hschedule : scheduleQuantities intent.quantityTicks
      (.implementationShortfall slices intervalNs urgencyBps) =
        (proportional intent.quantityTicks (shortfallWeights slices urgencyBps)
          (shortfallWeights slices urgencyBps).sum).map (·, intervalNs) := if_neg (by omega)
  have htotal : 0 < (shortfallWeights slices urgencyBps).sum := by
    rw [sum_shortfallWeights hslices]
    omega
  rw [← sum_shortfallWeights hslices,
    ← proportional_shortfall_iff (by omega) hfits hslices hurgency]
  constructor
  · rintro ⟨children, hplan, -, -, -⟩
    obtain ⟨-, selected, quantities, interval, hselected, hquantities, hnumbered⟩ :=
      planChildren_eq_ok.mp hplan
    cases hselected
    rw [hschedule] at hquantities
    obtain ⟨quantities', hsplit, heq⟩ := Option.map_eq_some_iff.mp hquantities
    cases heq
    have hlength := (proportional_pairwise (by omega) hfits htotal
      (shortfallWeights_pairwise slices urgencyBps) hsplit).1
    rw [length_shortfallWeights] at hlength
    have hlast := (numberChildren_iff.mp ⟨children, hnumbered⟩ (slices - 1) (by omega)).1
    exact ⟨⟨quantities, hsplit⟩, by omega⟩
  · rintro ⟨⟨quantities, hsplit⟩, hcount⟩
    obtain ⟨hlength, hpairwise⟩ := proportional_pairwise (by omega) hfits htotal
      (shortfallWeights_pairwise slices urgencyBps) hsplit
    rw [length_shortfallWeights] at hlength
    obtain ⟨children, hnumbered⟩ : ∃ children, numberChildren intent intervalNs 0 quantities =
        .ok children := numberChildren_iff.mpr fun i hi => by
      rw [hlength] at hi
      exact ⟨by omega, (Nat.mul_le_mul_left intervalNs (by omega : 0 + i ≤ slices - 1)).trans hdue⟩
    have htaken := (numberChildren_eq_ok hnumbered).1
    refine ⟨children, planChildren_eq_ok.mpr ⟨by omega, _, quantities, intervalNs, rfl, ?_,
      hnumbered⟩, ?_, fun child hchild => ?_, htaken ▸ hpairwise⟩
    · rw [hschedule, hsplit, Option.map_some]
    · rw [← hlength, ← htaken, List.length_map]
    · exact (proportional_whole hsplit).2 _ (htaken ▸ List.mem_map_of_mem hchild)

end FrontLoading

namespace Sample

/-- A purchase of so many ticks. -/
def parentOf (quantityTicks : Int) : OrderIntent := { parent with quantityTicks }

end Sample

/-- Slices that all have capacity: ten ticks are split in four and six. -/
theorem pov_within_loud : (planChildren Sample.parent (.pov 1000 5 [40, 90])).toOption =
      some [Sample.childOf 1 4 0, Sample.childOf 2 6 5] ∧
    ∀ child ∈ [Sample.childOf 1 4 0, Sample.childOf 2 6 5],
      WithinParticipation 1000 5 [40, 90] child :=
  ⟨by decide, (pov_within_iff (rfl : planChildren Sample.parent _ = _)).mpr (by decide)⟩

/-- The first slice is quiet, and the child of the second one is due in it. -/
theorem pov_exceeds_quiet :
    planChildren Sample.parent (.pov 1000 5 [5, 1000]) = .ok [Sample.childOf 1 10 0] ∧
      ¬WithinParticipation 1000 5 [5, 1000] (Sample.childOf 1 10 0) := by
  refine ⟨by decide, fun hwithin => ?_⟩
  obtain ⟨volume, hvolume, hle⟩ := hwithin 0 rfl
  cases hvolume
  exact absurd hle (by decide)

/-- Ten ticks in three slices at full urgency. -/
theorem shortfall_planned_ten :
    (∃ children, planChildren Sample.parent (.implementationShortfall 3 5 10000) = .ok children ∧
      children.length = 3 ∧ (∀ child ∈ children, 1 ≤ child.quantityTicks) ∧
      (children.map (·.quantityTicks)).Pairwise (· ≥ ·)) ∧
    Sample.parent.quantityTicks = 10 :=
  ⟨(shortfall_planned_iff (by decide) (by decide) (by decide) (by decide) (by decide)
    (by decide)).mpr (by decide), rfl⟩

/-- Three ticks in three slices at full urgency: the last share is zero. -/
theorem shortfall_fails_three :
    planChildren (Sample.parentOf 3) (.implementationShortfall 3 5 10000) =
      .error .invalidSchedule ∧ ((3 : ℕ) : Int) ≤ (Sample.parentOf 3).quantityTicks :=
  ⟨by decide, by decide⟩

end InsiderTrader
