import Mathlib.Algebra.Order.BigOperators.Group.List
import Mathlib.Algebra.Order.Group.Nat
import Std.Data.String.ToNat
import Mathlib.Data.List.Nodup
import InsiderTrader.ChildPlan

/-!
# The quantities of the children

Every schedule splits the quantity of the parent by its own integer divisions
and remainders. Whatever it splits comes out whole, in positive parts, and no
sum, product or difference on the way leaves the range of its machine type.

## Main definitions

- `Schedule.InRange` — the numbers of a schedule are in the ranges of their types
- `planChildrenChecked` — the planning, with every overflow checked

## Main results

- `scheduleQuantities_whole` — the quantities are positive and sum to the parent's
- `numberChildren_eq_ok` — the numbers, ids and due times of the children
- `planChildrenChecked_eq` — no overflow
- `children_conserve_quantity` — all of it, of the planned children
-/

namespace InsiderTrader

open MachineInt

-- Conservation

section Conservation

variable {quantityTicks : Int} {quantities : List Int}

/-- What is handed out is taken from the remainder. -/
theorem handOut_sum (remainder : Int) (quantities : List Int) :
    (handOut remainder quantities).1.sum + (handOut remainder quantities).2 =
      quantities.sum + remainder := by
  induction quantities generalizing remainder with
  | nil => rfl
  | cons q qs ih =>
    unfold handOut
    split
    · next hzero => rw [hzero]
    · have ih := ih (remainder - 1)
      show ((q + 1) :: (handOut (remainder - 1) qs).1).sum + (handOut (remainder - 1) qs).2 = _
      rw [List.sum_cons, List.sum_cons]
      omega

/-- **A proportional split** is whole, and in positive parts. -/
theorem proportional_whole {weights : List ℕ} {totalWeight : ℕ}
    (h : proportional quantityTicks weights totalWeight = some quantities) :
    quantities.sum = quantityTicks ∧ ∀ q ∈ quantities, 0 < q := by
  unfold proportional at h
  obtain ⟨floors, -, h⟩ := Option.bind_eq_some_iff.mp h
  have hsum := handOut_sum (quantityTicks - floors.sum) floors
  dsimp only at h
  split at h
  · cases h
  · next hvalid =>
    cases h
    push Not at hvalid
    obtain ⟨hleft, hpositive⟩ := hvalid
    refine ⟨by omega, fun q hq => ?_⟩
    by_contra hneg
    exact hpositive (List.any_eq_true.mpr ⟨q, hq, decide_eq_true (by omega)⟩)

/-- **A split by observed volume** takes positive parts from what remains. -/
theorem povQuantities_whole {participationBps : ℕ} {remaining left : Int} {volumes : List Int}
    (h : povQuantities participationBps remaining volumes = some (quantities, left))
    (hremaining : 0 ≤ remaining) : quantities.sum + left = remaining ∧ ∀ q ∈ quantities, 0 < q := by
  induction volumes generalizing remaining quantities with
  | nil =>
    cases h
    exact ⟨by simp, by simp⟩
  | cons volume volumes ih =>
    unfold povQuantities at h
    split at h
    · next hzero =>
      cases h
      exact ⟨by simp [hzero], by simp⟩
    · next hnonzero =>
      obtain ⟨capacity, -, h⟩ := Option.bind_eq_some_iff.mp h
      split at h
      · exact ih h hremaining
      · next hcapacity =>
        obtain ⟨⟨rest, left'⟩, hrest, h⟩ := Option.bind_eq_some_iff.mp h
        cases h
        obtain ⟨hsum, hpositive⟩ := ih hrest (by omega)
        refine ⟨?_, List.forall_mem_cons.mpr ⟨by omega, hpositive⟩⟩
        rw [List.sum_cons]
        omega

/-- The first slices get one tick more. -/
theorem sum_slices (base remainder : Int) (slices : ℕ) :
    ((List.range slices).map fun (index : ℕ) =>
      base + if (index : Int) < remainder then 1 else 0).sum =
        base * slices + max 0 (min remainder slices) := by
  induction slices with
  | zero => simp
  | succ n ih =>
    rw [List.range_succ, List.map_append, List.sum_append, ih, List.map_singleton,
      List.sum_singleton, Nat.cast_succ, mul_add, mul_one]
    split <;> omega

/-- **Equal slices** are whole, and positive. -/
theorem slices_whole {slices : ℕ} (hslices : slices ≠ 0) (hle : (slices : Int) ≤ quantityTicks) :
    ((List.range slices).map fun (index : ℕ) => quantityTicks.tdiv slices +
        if (index : Int) < quantityTicks.tmod slices then 1 else 0).sum = quantityTicks ∧
      ∀ q ∈ (List.range slices).map fun (index : ℕ) => quantityTicks.tdiv slices +
        if (index : Int) < quantityTicks.tmod slices then 1 else 0, 0 < q := by
  have hpos : 0 < (slices : Int) := by omega
  have hquantity : 0 ≤ quantityTicks := by omega
  rw [Int.tdiv_eq_ediv_of_nonneg hquantity, Int.tmod_eq_emod_of_nonneg hquantity]
  have hdivision := Int.mul_ediv_add_emod quantityTicks slices
  have hmod := Int.emod_nonneg quantityTicks hpos.ne'
  have hlt := Int.emod_lt_of_pos quantityTicks hpos
  have hbase : 1 ≤ quantityTicks / slices := Int.le_ediv_of_mul_le hpos (by omega)
  constructor
  · rw [sum_slices, mul_comm]
    omega
  · intro q hq
    obtain ⟨index, -, rfl⟩ := List.mem_map.mp hq
    split <;> omega

/-- **Whatever a schedule splits** comes out whole, in positive parts. -/
theorem scheduleQuantities_whole {schedule : Schedule} {intervalNs : ℕ} (hpos : 0 < quantityTicks)
    (h : scheduleQuantities quantityTicks schedule = some (quantities, intervalNs)) :
    quantities.sum = quantityTicks ∧ ∀ q ∈ quantities, 0 < q := by
  cases schedule with
  | immediate =>
    cases h
    exact ⟨by simp, by simpa using hpos⟩
  | twap slices intervalNs =>
    simp only [scheduleQuantities] at h
    split at h
    · cases h
    · next hvalid =>
      cases h
      push Not at hvalid
      exact slices_whole hvalid.1 hvalid.2.2
  | vwap weights =>
    simp only [scheduleQuantities] at h
    split at h
    · cases h
    · split at h
      · cases h
      · obtain ⟨quantities', hsplit, heq⟩ := Option.map_eq_some_iff.mp h
        cases heq
        exact proportional_whole hsplit
  | pov participationBps intervalNs volumes =>
    simp only [scheduleQuantities] at h
    split at h
    · cases h
    · obtain ⟨⟨quantities', remaining⟩, hsplit, h⟩ := Option.bind_eq_some_iff.mp h
      dsimp only at h
      split at h
      · cases h
      · next hleft =>
        cases h
        obtain ⟨hsum, hpositive⟩ := povQuantities_whole hsplit hpos.le
        exact ⟨by omega, hpositive⟩
  | implementationShortfall slices intervalNs urgencyBps =>
    simp only [scheduleQuantities] at h
    split at h
    · cases h
    · obtain ⟨quantities', hsplit, heq⟩ := Option.map_eq_some_iff.mp h
      cases heq
      exact proportional_whole hsplit
  | adaptive => cases h

end Conservation

-- Numbers, ids and due times

section Numbers

variable {intent : OrderIntent} {intervalNs index : ℕ} {quantities : List Int}
  {children : List ChildOrder}

/-- The id of a child. -/
def childId (intent : OrderIntent) (sequence : ℕ) : String :=
  intent.clientOrderId ++ "-child-" ++ toString sequence

theorem childId_injective (intent : OrderIntent) : (childId intent).Injective := by
  intro n m h
  exact Nat.repr_injective (String.append_right_inj _ |>.mp h)

/-- **The children** take the quantities in turn, with the next numbers and due times. -/
theorem numberChildren_eq_ok (h : numberChildren intent intervalNs index quantities = .ok children) :
    children.map (·.quantityTicks) = quantities ∧
      children.map (·.childSequence) = List.range' (index + 1) quantities.length ∧
      children.map (·.clientOrderId) =
        (List.range' (index + 1) quantities.length).map (childId intent) ∧
      children.map (·.dueAfterNs) =
        (List.range' index quantities.length).map (intervalNs * ·) := by
  induction quantities generalizing index children with
  | nil =>
    cases h
    exact ⟨rfl, rfl, rfl, rfl⟩
  | cons q qs ih =>
    unfold numberChildren at h
    cases hchild : childOrder intent intervalNs index q with
    | error e =>
      rw [hchild] at h
      cases h
    | ok child =>
      cases hrest : numberChildren intent intervalNs (index + 1) qs with
      | error e =>
        rw [hchild, hrest] at h
        cases h
      | ok rest =>
        rw [hchild, hrest] at h
        cases h
        obtain ⟨hquantities, hsequences, hids, hdue⟩ := ih hrest
        unfold childOrder at hchild
        split at hchild
        · cases hchild
        · cases hchild
          rw [List.map_cons, List.map_cons, List.map_cons, List.map_cons, List.length_cons,
            List.range'_succ, List.range'_succ, List.map_cons, List.map_cons, hquantities,
            hsequences, hids, hdue]
          exact ⟨rfl, rfl, rfl, rfl⟩

end Numbers

-- Overflow

/-- Failure of the planning with checked arithmetic: an operation of the source that overflows
its type, or an error that the source returns. -/
inductive CheckedError where
  | overflow
  | plan (e : PlanError)
  deriving DecidableEq

/-- The result of an `i64` operation. -/
def i64 (x : Int) : Except CheckedError Int := if Fits 64 x then .ok x else .error .overflow

/-- The result of a `u128` operation. -/
def u128 (x : Int) : Except CheckedError Int :=
  if 0 ≤ x ∧ x < 2 ^ 128 then .ok x else .error .overflow

/-- A refusal of the source. -/
def orInvalid {α : Type} (o : Option α) : Except CheckedError α :=
  o.elim (.error (.plan .invalidSchedule)) .ok

/-- `handOut` with checked arithmetic. -/
def handOutChecked (remainder : Int) : List Int → Except CheckedError (List Int × Int)
  | [] => .ok ([], remainder)
  | q :: qs =>
    if remainder = 0 then .ok (q :: qs, 0)
    else do
      let child ← i64 (q + 1)
      let (rest, left) ← handOutChecked (← i64 (remainder - 1)) qs
      .ok (child :: rest, left)

/-- `proportional` with checked arithmetic. -/
def proportionalChecked (quantityTicks : Int) (weights : List ℕ) (totalWeight : ℕ) :
    Except CheckedError (List Int) := do
  let quantities ← weights.mapM fun (w : ℕ) => do
    let product ← u128 (quantityTicks * w)
    orInvalid (narrow 64 (product / totalWeight))
  let assigned ← quantities.foldlM (fun total q => i64 (total + q)) 0
  let remainder ← i64 (quantityTicks - assigned)
  let (quantities, remainder) ← handOutChecked remainder quantities
  if remainder ≠ 0 ∨ quantities.any (· ≤ 0) then .error (.plan .invalidSchedule)
  else .ok quantities

/-- `povQuantities` with checked arithmetic. -/
def povQuantitiesChecked (participationBps : ℕ) :
    Int → List Int → Except CheckedError (List Int × Int)
  | remaining, [] => .ok ([], remaining)
  | remaining, volume :: volumes =>
    if remaining = 0 then .ok ([], 0)
    else do
      let product ← u128 (volume * participationBps)
      let capacity ← orInvalid (narrow 64 (product / 10000))
      if capacity ≤ 0 then povQuantitiesChecked participationBps remaining volumes
      else
        let quantity := min capacity remaining
        let (rest, left) ←
          povQuantitiesChecked participationBps (← i64 (remaining - quantity)) volumes
        .ok (quantity :: rest, left)

/-- `scheduleQuantities` with checked arithmetic. -/
def scheduleQuantitiesChecked (quantityTicks : Int) :
    Schedule → Except CheckedError (List Int × ℕ)
  | .immediate => .ok ([quantityTicks], 0)
  | .twap slices intervalNs =>
    if slices = 0 ∨ intervalNs = 0 ∨ quantityTicks < slices then .error (.plan .invalidSchedule)
    else do
      let base ← i64 (quantityTicks.tdiv slices)
      let remainder ← i64 (quantityTicks.tmod slices)
      let values ← (List.range slices).mapM fun (index : ℕ) =>
        i64 (base + if (index : Int) < remainder then 1 else 0)
      .ok (values, intervalNs)
  | .vwap weights =>
    if weights.isEmpty ∨ weights.contains 0 then .error (.plan .invalidSchedule)
    else if u64Max < weights.sum then .error (.plan .invalidSchedule)
    else do
      let quantities ← proportionalChecked quantityTicks weights weights.sum
      .ok (quantities, 0)
  | .pov participationBps intervalNs volumes =>
    if participationBps = 0 ∨ 10000 < participationBps ∨ intervalNs = 0 ∨ volumes.isEmpty
        ∨ volumes.any (· ≤ 0) then .error (.plan .invalidSchedule)
    else do
      let (quantities, remaining) ← povQuantitiesChecked participationBps quantityTicks volumes
      if remaining ≠ 0 then .error (.plan .invalidSchedule) else .ok (quantities, intervalNs)
  | .implementationShortfall slices intervalNs urgencyBps =>
    if slices = 0 ∨ quantityTicks < slices ∨ intervalNs = 0 ∨ 10000 < urgencyBps then
      .error (.plan .invalidSchedule)
    else do
      let weights ← (List.range slices).mapM fun (index : ℕ) => do
        let product ← u128 (urgencyBps * (slices - index - 1 : ℕ))
        let weight ← u128 (10000 + product / max slices 1)
        .ok weight.toNat
      if 2 ^ 128 ≤ weights.sum then .error (.plan .invalidSchedule)
      else do
        let quantities ← proportionalChecked quantityTicks weights weights.sum
        .ok (quantities, intervalNs)
  | .adaptive .. => .error (.plan .invalidSchedule)

/-- `planChildren` with checked arithmetic; the numbers of the children are checked by the
source itself. -/
def planChildrenChecked (intent : OrderIntent) (schedule : Schedule) :
    Except CheckedError (List ChildOrder) :=
  if intent.quantityTicks ≤ 0 then .error (.plan .invalidSchedule)
  else do
    let selected ← orInvalid (selectSchedule intent.quantityTicks schedule)
    let (quantities, intervalNs) ← scheduleQuantitiesChecked intent.quantityTicks selected
    (numberChildren intent intervalNs 0 quantities).mapError .plan

/-- The numbers of a schedule that the arithmetic uses are in the ranges of their types. -/
def Schedule.InRange : Schedule → Prop
  | .vwap weights => ∀ w ∈ weights, w < 2 ^ 32
  | .pov _ _ volumes => ∀ volume ∈ volumes, Fits 64 volume
  | .adaptive _ _ _ _ _ _ _ volumes => ∀ volume ∈ volumes, Fits 64 volume
  | _ => True

section Overflow

variable {quantityTicks : Int}

theorem i64_eq_ok {x : Int} (h : Fits 64 x) : i64 x = .ok x := if_pos h

theorem u128_eq_ok {x : Int} (hpos : 0 ≤ x) (hlt : x < 2 ^ 128) : u128 x = .ok x :=
  if_pos ⟨hpos, hlt⟩

theorem checked_ok_bind {α β : Type} (a : α) (f : α → Except CheckedError β) :
    (Except.ok a >>= f) = f a := rfl

/-- A traversal that succeeds everywhere is a map. -/
theorem mapM_eq_ok {α β : Type} {f : α → Except CheckedError β} {g : α → β} {l : List α}
    (h : ∀ a ∈ l, f a = .ok (g a)) : l.mapM f = .ok (l.map g) := by
  induction l with
  | nil => rfl
  | cons a l ih =>
    obtain ⟨ha, hl⟩ := List.forall_mem_cons.mp h
    rw [List.mapM_cons, ha, ih hl]
    rfl

theorem mapM_eq_some {α β : Type} {f : α → Option β} {g : α → β} {l : List α}
    (h : ∀ a ∈ l, f a = some (g a)) : l.mapM f = some (l.map g) := by
  induction l with
  | nil => rfl
  | cons a l ih =>
    obtain ⟨ha, hl⟩ := List.forall_mem_cons.mp h
    rw [List.mapM_cons, ha, ih hl]
    rfl

/-- Partial sums of shares stay below their total. -/
theorem foldlM_i64 {quantities : List Int} {total : Int} (hpos : ∀ q ∈ quantities, 0 ≤ q)
    (htotal : 0 ≤ total) (hbound : Fits 64 (total + quantities.sum)) :
    quantities.foldlM (fun total q => i64 (total + q)) total =
      .ok (total + quantities.sum) := by
  induction quantities generalizing total with
  | nil => simp; rfl
  | cons q qs ih =>
    obtain ⟨hq, hqs⟩ := List.forall_mem_cons.mp hpos
    have hsum := List.sum_nonneg hqs
    rw [List.sum_cons, ← add_assoc] at hbound ⊢
    rw [fits_64_iff] at hbound
    rw [List.foldlM_cons, i64_eq_ok (fits_64_iff.mpr (by omega))]
    exact ih hqs (by omega) (fits_64_iff.mpr hbound)

theorem handOutChecked_eq {quantities : List Int} {remainder : Int} (hremainder : 0 ≤ remainder)
    (hpos : ∀ q ∈ quantities, 0 ≤ q) (hbound : Fits 64 (quantities.sum + remainder)) :
    handOutChecked remainder quantities = .ok (handOut remainder quantities) := by
  induction quantities generalizing remainder with
  | nil => rfl
  | cons q qs ih =>
    unfold handOutChecked handOut
    split
    · rfl
    · next hnonzero =>
      obtain ⟨hq, hqs⟩ := List.forall_mem_cons.mp hpos
      have hsum := List.sum_nonneg hqs
      rw [List.sum_cons, fits_64_iff] at hbound
      rw [i64_eq_ok (fits_64_iff.mpr (by omega) : Fits 64 (q + 1)),
        i64_eq_ok (fits_64_iff.mpr (by omega) : Fits 64 (remainder - 1))]
      show (handOutChecked (remainder - 1) qs >>= _) = _
      rw [ih (by omega) hqs (fits_64_iff.mpr (by omega))]
      rfl

/-- The shares, each rounded down, do not exceed what is split. -/
theorem sum_floors_le (hpos : 0 ≤ quantityTicks) (weights : List ℕ) {totalWeight : ℕ}
    (htotal : 0 < totalWeight) (hle : weights.sum ≤ totalWeight) :
    (weights.map fun (w : ℕ) => quantityTicks * w / totalWeight).sum ≤ quantityTicks := by
  have hshares : ∀ weights : List ℕ, totalWeight *
      (weights.map fun (w : ℕ) => quantityTicks * w / totalWeight).sum ≤
        quantityTicks * (weights.sum : ℕ) := by
    intro weights
    induction weights with
    | nil => simp
    | cons w weights ih =>
      have hfloor := Int.mul_ediv_self_le (x := quantityTicks * w) (k := (totalWeight : Int))
        (by omega)
      rw [List.map_cons, List.sum_cons, List.sum_cons, mul_add, Nat.cast_add, mul_add]
      exact add_le_add hfloor ih
  have hmul : quantityTicks * (weights.sum : ℕ) ≤ totalWeight * quantityTicks := by
    rw [mul_comm (totalWeight : Int)]
    exact mul_le_mul_of_nonneg_left (by omega) hpos
  exact le_of_mul_le_mul_left ((hshares weights).trans hmul) (by omega)

/-- A share, rounded down, is part of what is split. -/
theorem share_bounds (hpos : 0 ≤ quantityTicks) (hfits : Fits 64 quantityTicks) {weights : List ℕ}
    (htotal : 0 < weights.sum) {w : ℕ} (hw : w ∈ weights) :
    0 ≤ quantityTicks * w / weights.sum ∧ Fits 64 (quantityTicks * w / weights.sum) := by
  have hnonneg : 0 ≤ quantityTicks * w / weights.sum :=
    Int.ediv_nonneg (mul_nonneg hpos (by omega)) (by omega)
  have hle : quantityTicks * w / weights.sum ≤ quantityTicks := by
    refine Int.ediv_le_of_le_mul (by omega) (mul_le_mul_of_nonneg_left ?_ hpos)
    exact_mod_cast List.le_sum_of_mem hw
  rw [fits_64_iff] at hfits
  exact ⟨hnonneg, fits_64_iff.mpr ⟨by omega, by omega⟩⟩

/-- **A proportional split** of a quantity in range does not overflow. -/
theorem proportionalChecked_eq (hpos : 0 ≤ quantityTicks) (hfits : Fits 64 quantityTicks)
    {weights : List ℕ} (htotal : 0 < weights.sum) (hweights : ∀ w ∈ weights, w ≤ 2 ^ 32) :
    proportionalChecked quantityTicks weights weights.sum =
      orInvalid (proportional quantityTicks weights weights.sum) := by
  have hfloors := sum_floors_le hpos weights htotal le_rfl
  have hproducts : ∀ w ∈ weights, 0 ≤ quantityTicks * w ∧ quantityTicks * w < 2 ^ 128 := by
    intro w hw
    have hproduct : quantityTicks * w ≤ quantityTicks * 2 ^ 32 :=
      mul_le_mul_of_nonneg_left (by exact_mod_cast hweights w hw) hpos
    rw [fits_64_iff] at hfits
    exact ⟨mul_nonneg hpos (by omega), by omega⟩
  have hchecked : weights.mapM (fun (w : ℕ) => do
      let product ← u128 (quantityTicks * w)
      orInvalid (narrow 64 (product / weights.sum))) =
        .ok (weights.map fun (w : ℕ) => quantityTicks * w / weights.sum) := by
    refine mapM_eq_ok fun w hw => ?_
    obtain ⟨hnonneg, hlt⟩ := hproducts w hw
    rw [u128_eq_ok hnonneg hlt]
    show orInvalid (narrow 64 (quantityTicks * w / weights.sum)) = _
    rw [narrow_of_fits (share_bounds hpos hfits htotal hw).2]
    rfl
  have hplain : weights.mapM (fun (w : ℕ) => narrow 64 (quantityTicks * w / weights.sum)) =
      some (weights.map fun (w : ℕ) => quantityTicks * w / weights.sum) :=
    mapM_eq_some fun w hw => narrow_of_fits (share_bounds hpos hfits htotal hw).2
  have hnonneg : ∀ q ∈ weights.map fun (w : ℕ) => quantityTicks * w / weights.sum, 0 ≤ q := by
    intro q hq
    obtain ⟨w, hw, rfl⟩ := List.mem_map.mp hq
    exact (share_bounds hpos hfits htotal hw).1
  rw [proportionalChecked, proportional, hchecked, hplain]
  generalize weights.map (fun (w : ℕ) => quantityTicks * w / weights.sum) = floors
    at hfloors hnonneg
  have hsum := List.sum_nonneg hnonneg
  rw [fits_64_iff] at hfits
  have hassigned := foldlM_i64 hnonneg le_rfl (fits_64_iff.mpr (by omega))
  rw [zero_add] at hassigned
  show (floors.foldlM (fun total q => i64 (total + q)) 0 >>= _) = _
  rw [hassigned]
  show (i64 (quantityTicks - floors.sum) >>= _) = _
  rw [i64_eq_ok (fits_64_iff.mpr (by omega))]
  show (handOutChecked (quantityTicks - floors.sum) floors >>= _) = _
  rw [handOutChecked_eq (by omega) hnonneg (fits_64_iff.mpr (by omega))]
  show (if _ then _ else _) = orInvalid (if _ then _ else _)
  split <;> rfl

/-- **A split by observed volume** does not overflow. -/
theorem povQuantitiesChecked_eq {participationBps : ℕ} (hbps : participationBps ≤ 10000)
    {volumes : List Int} (hvolumes : ∀ volume ∈ volumes, 0 < volume ∧ Fits 64 volume)
    {remaining : Int} (hremaining : 0 ≤ remaining) (hfits : Fits 64 remaining) :
    povQuantitiesChecked participationBps remaining volumes =
      orInvalid (povQuantities participationBps remaining volumes) := by
  induction volumes generalizing remaining with
  | nil => rfl
  | cons volume volumes ih =>
    obtain ⟨⟨hvolume, hrange⟩, hvolumes⟩ := List.forall_mem_cons.mp hvolumes
    rw [fits_64_iff] at hrange hfits
    have hproduct : volume * participationBps ≤ volume * 10000 :=
      mul_le_mul_of_nonneg_left (by exact_mod_cast hbps) hvolume.le
    have hnonneg : 0 ≤ volume * participationBps := mul_nonneg hvolume.le (by omega)
    have hcapacity : Fits 64 (volume * participationBps / 10000) :=
      fits_64_iff.mpr (by omega)
    unfold povQuantitiesChecked povQuantities
    split
    · rfl
    · next hnonzero =>
      rw [u128_eq_ok hnonneg (by omega)]
      show (orInvalid (narrow 64 (volume * participationBps / 10000)) >>= _) = _
      rw [narrow_of_fits hcapacity]
      show (if volume * participationBps / 10000 ≤ 0 then _ else _) =
        orInvalid (if volume * participationBps / 10000 ≤ 0 then _ else _)
      split
      · exact ih hvolumes hremaining (fits_64_iff.mpr hfits)
      · next hpositive =>
        rw [i64_eq_ok (fits_64_iff.mpr (by omega))]
        show (povQuantitiesChecked participationBps _ volumes >>= _) = _
        rw [ih hvolumes (by omega) (fits_64_iff.mpr (by omega))]
        cases povQuantities participationBps
          (remaining - min (volume * participationBps / 10000) remaining) volumes with
        | none => rfl
        | some split => rfl

/-- The weights of an implementation shortfall, from the front to the back. -/
def shortfallWeights (slices urgencyBps : ℕ) : List ℕ :=
  (List.range slices).map fun index =>
    10000 + urgencyBps * (slices - index - 1) / max slices 1

theorem shortfallWeights_le {slices urgencyBps w : ℕ} (hurgency : urgencyBps ≤ 10000)
    (hw : w ∈ shortfallWeights slices urgencyBps) : 10000 ≤ w ∧ w ≤ 20000 := by
  obtain ⟨index, hindex, rfl⟩ := List.mem_map.mp hw
  have hlt := List.mem_range.mp hindex
  have hquotient : urgencyBps * (slices - index - 1) / max slices 1 ≤ urgencyBps := by
    refine Nat.div_le_of_le_mul ?_
    rw [mul_comm]
    exact Nat.mul_le_mul_right _ (by omega)
  generalize urgencyBps * (slices - index - 1) / max slices 1 = quotient at hquotient
  omega

theorem sum_shortfallWeights_le {slices urgencyBps : ℕ} (hurgency : urgencyBps ≤ 10000) :
    (shortfallWeights slices urgencyBps).sum ≤ slices * 20000 := by
  have hsum := List.sum_le_card_nsmul (shortfallWeights slices urgencyBps) 20000
    fun w hw => (shortfallWeights_le hurgency hw).2
  have hlength : (shortfallWeights slices urgencyBps).length = slices := by
    rw [shortfallWeights, List.length_map, List.length_range]
  rwa [hlength, nsmul_eq_mul, Nat.cast_id] at hsum

/-- The weights of an implementation shortfall do not overflow. -/
theorem shortfallWeights_checked {slices urgencyBps : ℕ} (hslices : slices < 2 ^ 64)
    (hurgency : urgencyBps ≤ 10000) :
    ((List.range slices).mapM fun (index : ℕ) => do
        let product ← u128 (urgencyBps * (slices - index - 1 : ℕ))
        let weight ← u128 (10000 + product / max slices 1)
        .ok weight.toNat) = .ok (shortfallWeights slices urgencyBps) := by
  refine mapM_eq_ok fun index hindex => ?_
  have hproduct : urgencyBps * (slices - index - 1) ≤ 10000 * slices :=
    Nat.mul_le_mul hurgency (by omega)
  have hweight := shortfallWeights_le hurgency (List.mem_map_of_mem hindex)
  have hcast : (10000 : Int) + (urgencyBps * (slices - index - 1 : ℕ) : Int) /
      ((max slices 1 : ℕ) : Int) =
        ((10000 + urgencyBps * (slices - index - 1) / max slices 1 : ℕ) : Int) := by
    push_cast
    rfl
  have hnonneg : 0 ≤ (urgencyBps : Int) * (slices - index - 1 : ℕ) :=
    mul_nonneg (by omega) (by omega)
  have hlt : (urgencyBps : Int) * (slices - index - 1 : ℕ) < 2 ^ 128 := by
    rw [← Nat.cast_mul]
    omega
  have hchecked : u128 (10000 + (urgencyBps : Int) * (slices - index - 1 : ℕ) /
      (max slices 1 : ℕ)) =
        .ok (10000 + urgencyBps * (slices - index - 1) / max slices 1 : ℕ) := by
    rw [hcast]
    exact u128_eq_ok (by omega) (by omega)
  rw [u128_eq_ok hnonneg hlt, checked_ok_bind, hchecked, checked_ok_bind, Int.toNat_natCast]

/-- Equal slices do not overflow. -/
theorem slices_checked {slices : ℕ} (hslices : slices ≠ 0) (hle : (slices : Int) ≤ quantityTicks)
    (hfits : Fits 64 quantityTicks) :
    ((List.range slices).mapM fun (index : ℕ) => i64 (quantityTicks.tdiv slices +
        if (index : Int) < quantityTicks.tmod slices then 1 else 0)) =
      .ok ((List.range slices).map fun (index : ℕ) => quantityTicks.tdiv slices +
        if (index : Int) < quantityTicks.tmod slices then 1 else 0) := by
  obtain ⟨hsum, hpositive⟩ := slices_whole hslices hle
  refine mapM_eq_ok fun index hindex => i64_eq_ok ?_
  -- a slice is one of the positive parts of the quantity
  have hmem := List.mem_map_of_mem (f := fun (index : ℕ) => quantityTicks.tdiv slices +
    if (index : Int) < quantityTicks.tmod slices then 1 else 0) hindex
  have hpart := List.single_le_sum (fun q hq => (hpositive q hq).le) _ hmem
  have hpos := hpositive _ hmem
  rw [hsum] at hpart
  rw [fits_64_iff] at hfits ⊢
  omega

/-- **No schedule overflows**: with its arithmetic checked it splits the same. -/
theorem scheduleQuantitiesChecked_eq {schedule : Schedule} (hpos : 0 < quantityTicks)
    (hfits : Fits 64 quantityTicks) (hrange : schedule.InRange) :
    scheduleQuantitiesChecked quantityTicks schedule =
      orInvalid (scheduleQuantities quantityTicks schedule) := by
  cases schedule with
  | immediate => rfl
  | twap slices intervalNs =>
    simp only [scheduleQuantitiesChecked, scheduleQuantities]
    split
    · rfl
    · next hvalid =>
      push Not at hvalid
      obtain ⟨hslices, -, hle⟩ := hvalid
      have hslicesPos : 0 < (slices : Int) := by omega
      have hbase : Fits 64 (quantityTicks.tdiv slices) := by
        rw [Int.tdiv_eq_ediv_of_nonneg hpos.le]
        have hquotient := Int.ediv_le_self (slices : Int) hpos.le
        have hnonneg := Int.ediv_nonneg hpos.le hslicesPos.le
        rw [fits_64_iff] at hfits ⊢
        omega
      have hremainder : Fits 64 (quantityTicks.tmod slices) := by
        rw [Int.tmod_eq_emod_of_nonneg hpos.le]
        have hnonneg := Int.emod_nonneg quantityTicks hslicesPos.ne'
        have hlt := Int.emod_lt_of_pos quantityTicks hslicesPos
        rw [fits_64_iff] at hfits ⊢
        omega
      rw [i64_eq_ok hbase, i64_eq_ok hremainder]
      show ((List.range slices).mapM (fun (index : ℕ) => i64 (quantityTicks.tdiv slices +
        if (index : Int) < quantityTicks.tmod slices then 1 else 0)) >>= _) = _
      rw [slices_checked hslices hle hfits]
      rfl
  | vwap weights =>
    simp only [scheduleQuantitiesChecked, scheduleQuantities]
    split
    · rfl
    · next hvalid =>
      split
      · rfl
      · push Not at hvalid
        obtain ⟨hnonempty, hnonzero⟩ := hvalid
        have htotal : 0 < weights.sum := by
          obtain ⟨w, hw⟩ := List.exists_mem_of_ne_nil weights (by simpa using hnonempty)
          have hle := List.le_sum_of_mem hw
          have hne : w ≠ 0 := fun h => hnonzero (by simpa [h] using hw)
          omega
        rw [proportionalChecked_eq hpos.le hfits htotal fun w hw => (hrange w hw).le]
        cases proportional quantityTicks weights weights.sum with
        | none => rfl
        | some quantities => rfl
  | pov participationBps intervalNs volumes =>
    simp only [scheduleQuantitiesChecked, scheduleQuantities]
    split
    · rfl
    · next hvalid =>
      push Not at hvalid
      obtain ⟨-, hbps, -, -, hpositive⟩ := hvalid
      have hvolumes : ∀ volume ∈ volumes, 0 < volume ∧ Fits 64 volume := by
        intro volume hvolume
        refine ⟨?_, hrange volume hvolume⟩
        by_contra hneg
        exact hpositive (List.any_eq_true.mpr ⟨volume, hvolume, decide_eq_true (by omega)⟩)
      rw [povQuantitiesChecked_eq hbps hvolumes hpos.le hfits]
      cases povQuantities participationBps quantityTicks volumes with
      | none => rfl
      | some split =>
        obtain ⟨quantities, remaining⟩ := split
        show (if remaining ≠ 0 then _ else _) = orInvalid (if remaining ≠ 0 then _ else _)
        split <;> rfl
  | implementationShortfall slices intervalNs urgencyBps =>
    simp only [scheduleQuantitiesChecked, scheduleQuantities]
    split
    · rfl
    · next hvalid =>
      push Not at hvalid
      obtain ⟨hslices, hle, -, hurgency⟩ := hvalid
      rw [fits_64_iff] at hfits
      have hsum : (shortfallWeights slices urgencyBps).sum ≤ slices * 20000 :=
        sum_shortfallWeights_le hurgency
      have hfront := List.exists_mem_of_ne_nil (shortfallWeights slices urgencyBps) (by
        intro hnil
        have hlength := congrArg List.length hnil
        rw [shortfallWeights, List.length_map, List.length_range] at hlength
        exact hslices hlength)
      have htotal : 0 < (shortfallWeights slices urgencyBps).sum := by
        obtain ⟨w, hw⟩ := hfront
        have hle := List.le_sum_of_mem hw
        have hge := (shortfallWeights_le hurgency hw).1
        omega
      rw [shortfallWeights_checked (by omega) hurgency]
      show (if 2 ^ 128 ≤ (shortfallWeights slices urgencyBps).sum then _ else _) = _
      rw [if_neg (by omega), proportionalChecked_eq hpos.le (fits_64_iff.mpr hfits) htotal
        fun w hw => (shortfallWeights_le hurgency hw).2.trans (by omega)]
      show _ = orInvalid ((proportional quantityTicks (shortfallWeights slices urgencyBps)
        (shortfallWeights slices urgencyBps).sum).map _)
      cases proportional quantityTicks (shortfallWeights slices urgencyBps)
        (shortfallWeights slices urgencyBps).sum with
      | none => rfl
      | some quantities => rfl
  | adaptive => rfl

/-- An adaptive schedule selects one of the same volumes. -/
theorem selectSchedule_inRange {schedule selected : Schedule} (hrange : schedule.InRange)
    (h : selectSchedule quantityTicks schedule = some selected) : selected.InRange := by
  cases schedule with
  | adaptive =>
    simp only [selectSchedule] at h
    split at h
    · cases h
    · split at h
      · cases h
        exact hrange
      · cases h
        trivial
  | _ =>
    cases h
    exact hrange

/-- **No overflow**: the planning with its arithmetic checked is the planning. -/
theorem planChildrenChecked_eq {intent : OrderIntent} {schedule : Schedule}
    (hfits : Fits 64 intent.quantityTicks) (hrange : schedule.InRange) :
    planChildrenChecked intent schedule = (planChildren intent schedule).mapError .plan := by
  unfold planChildrenChecked planChildren
  split
  · rfl
  · next hpos =>
    cases hselected : selectSchedule intent.quantityTicks schedule with
    | none => rfl
    | some selected =>
      show (scheduleQuantitiesChecked intent.quantityTicks selected >>= _) = _
      rw [scheduleQuantitiesChecked_eq (by omega) hfits (selectSchedule_inRange hrange hselected),
        Option.bind_some]
      cases scheduleQuantities intent.quantityTicks selected with
      | none => rfl
      | some split => rfl

end Overflow

/-- Whatever a schedule plans for a parent conserves its quantity in positive children, numbers
them from one in order, names each of them once, orders them by due time, and overflows nowhere. -/
theorem children_conserve_quantity {intent : OrderIntent} {schedule : Schedule}
    {children : List ChildOrder} (hfits : Fits 64 intent.quantityTicks) (hrange : schedule.InRange)
    (h : planChildren intent schedule = .ok children) :
    (∀ child ∈ children, 0 < child.quantityTicks) ∧
      (children.map (·.quantityTicks)).sum = intent.quantityTicks ∧
      children.map (·.childSequence) = List.range' 1 children.length ∧
      (children.map (·.clientOrderId)).Nodup ∧
      (children.map (·.dueAfterNs)).Pairwise (· ≤ ·) ∧
      planChildrenChecked intent schedule = .ok children := by
  have hchecked := planChildrenChecked_eq hfits hrange
  rw [h] at hchecked
  unfold planChildren at h
  split at h
  · cases h
  · next hpos =>
    cases hsplit : (selectSchedule intent.quantityTicks schedule).bind
        (scheduleQuantities intent.quantityTicks) with
    | none =>
      rw [hsplit] at h
      cases h
    | some split =>
      obtain ⟨quantities, intervalNs⟩ := split
      rw [hsplit] at h
      obtain ⟨selected, -, hquantities⟩ := Option.bind_eq_some_iff.mp hsplit
      obtain ⟨hsum, hpositive⟩ := scheduleQuantities_whole (by omega) hquantities
      obtain ⟨htaken, hsequences, hids, hdue⟩ := numberChildren_eq_ok h
      have hlength : quantities.length = children.length := by rw [← htaken, List.length_map]
      refine ⟨fun child hchild => ?_, ?_, ?_, ?_, ?_, hchecked⟩
      · refine hpositive _ ?_
        rw [← htaken]
        exact List.mem_map_of_mem hchild
      · rw [htaken, hsum]
      · rw [hsequences, hlength]
      · rw [hids]
        exact List.Nodup.map (childId_injective intent) List.nodup_range'
      · rw [hdue]
        exact List.pairwise_map.mpr
          ((List.pairwise_le_range' _).imp fun hle => Nat.mul_le_mul_left _ hle)

namespace Sample

/-- A purchase of ten. -/
def parent : OrderIntent :=
  ⟨"i-1", 1, 7, "o-1", .buy, 10, .market, none, .day, .riskApproved, 1⟩

/-- A child of the purchase. -/
def childOf (sequence : ℕ) (quantityTicks : Int) (dueAfterNs : ℕ) : ChildOrder :=
  ⟨"o-1", sequence, "o-1-child-" ++ toString sequence, quantityTicks, dueAfterNs, .buy, .market,
    none⟩

end Sample

/-- A wide spread loads the front of three slices: five, three and two. -/
theorem children_conserve_adaptive :
    planChildrenChecked Sample.parent (.adaptive 3 5 2000 4 2 100 500 [30]) =
      .ok [Sample.childOf 1 5 0, Sample.childOf 2 3 5, Sample.childOf 3 2 10] :=
  (children_conserve_quantity (by decide : Fits 64 Sample.parent.quantityTicks) (by
    intro volume hvolume
    rw [List.mem_singleton.mp hvolume]
    decide) (by decide)).2.2.2.2.2

end InsiderTrader
