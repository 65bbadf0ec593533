import Mathlib.Algebra.Order.Ring.Int

/-!
# Checked machine integers

Signed and unsigned machine integers are modelled by `Int` and `Nat`; every
operation whose result may leave the range of its width narrows it explicitly.

## Main definitions

- `Fits` — a value is in the range of signed integers of a width
- `narrow` — the value, when it fits
- `saturatingNeg` — negation, clamped to the range
-/

namespace MachineInt

/-- `x` is representable as a signed integer of `w` bits. -/
def Fits (w : Nat) (x : Int) : Prop := -2 ^ (w - 1) ≤ x ∧ x < 2 ^ (w - 1)

instance (w : Nat) (x : Int) : Decidable (Fits w x) := by
  unfold Fits
  infer_instance

/-- `x` as a signed integer of `w` bits, when it is representable. -/
def narrow (w : Nat) (x : Int) : Option Int := if Fits w x then some x else none

/-- Negation of a signed integer of `w` bits; the least value goes to the greatest. -/
def saturatingNeg (w : Nat) (x : Int) : Int :=
  if x = -2 ^ (w - 1) then 2 ^ (w - 1) - 1 else -x

theorem narrow_eq_some {w : Nat} {x y : Int} : narrow w x = some y ↔ Fits w x ∧ y = x := by
  unfold narrow
  split <;> simp_all [eq_comm]

theorem narrow_of_fits {w : Nat} {x : Int} (h : Fits w x) : narrow w x = some x := if_pos h

theorem narrow_of_not_fits {w : Nat} {x : Int} (h : ¬Fits w x) : narrow w x = none := if_neg h

theorem fits_64_iff {x : Int} :
    Fits 64 x ↔ -9223372036854775808 ≤ x ∧ x ≤ 9223372036854775807 := by
  show -9223372036854775808 ≤ x ∧ x < 9223372036854775808 ↔ _
  omega

theorem fits_128_iff {x : Int} :
    Fits 128 x ↔ -170141183460469231731687303715884105728 ≤ x ∧
      x ≤ 170141183460469231731687303715884105727 := by
  show -170141183460469231731687303715884105728 ≤ x ∧
    x < 170141183460469231731687303715884105728 ↔ _
  omega

theorem fits_of_between {w : Nat} {x y z : Int} (hx : Fits w x) (hz : Fits w z)
    (hxy : x ≤ y) (hyz : y ≤ z) : Fits w y :=
  ⟨le_trans hx.1 hxy, lt_of_le_of_lt hyz hz.2⟩

/-- A product lies between the bounds of its factors, one of which is a magnitude. -/
theorem mul_between {a b bound lo hi : Int} (ha : 0 ≤ a) (habound : a ≤ bound) (hlo : lo ≤ b)
    (hhi : b ≤ hi) (hlo0 : lo ≤ 0) (hhi0 : 0 ≤ hi) : bound * lo ≤ a * b ∧ a * b ≤ bound * hi := by
  constructor
  · calc bound * lo ≤ a * lo := Int.mul_le_mul_of_nonpos_right habound hlo0
      _ ≤ a * b := Int.mul_le_mul_of_nonneg_left hlo ha
  · calc a * b ≤ a * hi := Int.mul_le_mul_of_nonneg_left hhi ha
      _ ≤ bound * hi := Int.mul_le_mul_of_nonneg_right habound hhi0

/-- A truncated quotient lies between the bounds of the exact one. -/
theorem tdiv_between {x n lo hi : Int} (hn : 0 < n) (hlo : n * lo ≤ x) (hhi : x ≤ n * hi)
    (hlo0 : lo ≤ 0) (hhi0 : 0 ≤ hi) : lo ≤ x.tdiv n ∧ x.tdiv n ≤ hi := by
  by_cases hx : 0 ≤ x
  · rw [Int.tdiv_eq_ediv_of_nonneg hx]
    refine ⟨le_trans hlo0 (Int.ediv_nonneg hx (Int.le_of_lt hn)), Int.ediv_le_of_le_mul hn ?_⟩
    rwa [Int.mul_comm]
  · have hneg : x = -(-x) := (Int.neg_neg x).symm
    have hpos : 0 ≤ -x := by omega
    rw [hneg, Int.neg_tdiv, Int.tdiv_eq_ediv_of_nonneg hpos]
    have hquotient : 0 ≤ -x / n := Int.ediv_nonneg hpos (Int.le_of_lt hn)
    have hbound : -x / n ≤ -lo := by
      refine Int.ediv_le_of_le_mul hn ?_
      rw [Int.neg_mul, Int.mul_comm]
      omega
    constructor <;> omega

end MachineInt
