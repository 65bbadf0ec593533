import Mathlib.Logic.Function.Iterate
import Mathlib.Data.List.GetD

/-!
# Cyclic redundancy checks

The reflected form of a cyclic redundancy check: a register is shifted towards
its low end, and a polynomial is added whenever a set bit falls out. The check
is linear in the register and the bits fed to it together, and one step can be
undone; so no burst as short as the register goes unseen.

## Main definitions

- `Crc.step` — one shift of the register
- `Crc.feed` — the register after some bits

## Main results

- `Crc.feed_xor` — the check is linear
- `Crc.step_iterate_xor` — bits added to the register at once or one by one
- `Crc.feed_ne_zero_of_burst` — a burst within the width of the register leaves a trace
-/

namespace Crc

variable {w : ℕ}

/-- One shift of the register. -/
def step (poly c : BitVec w) : BitVec w :=
  if c.getLsbD 0 then (c >>> 1) ^^^ poly else c >>> 1

/-- A register that holds one bit. -/
def bit (b : Bool) : BitVec w := if b then 1#w else 0#w

/-- The register after some bits. -/
def feed (poly c : BitVec w) (bits : List Bool) : BitVec w :=
  bits.foldl (fun c b => step poly (c ^^^ bit b)) c

variable {poly : BitVec w}

theorem feed_cons (c : BitVec w) (b : Bool) (bits : List Bool) :
    feed poly c (b :: bits) = feed poly (step poly (c ^^^ bit b)) bits := rfl

theorem feed_append (c : BitVec w) (bits more : List Bool) :
    feed poly c (bits ++ more) = feed poly (feed poly c bits) more := List.foldl_append

/-! ## Linearity -/

theorem xor_xor_xor_comm (a b c d : BitVec w) : a ^^^ b ^^^ (c ^^^ d) = a ^^^ c ^^^ (b ^^^ d) := by
  rw [BitVec.xor_assoc, ← BitVec.xor_assoc b, BitVec.xor_comm b c, BitVec.xor_assoc c,
    BitVec.xor_assoc]

theorem step_xor (c d : BitVec w) : step poly (c ^^^ d) = step poly c ^^^ step poly d := by
  unfold step
  rw [BitVec.getLsbD_xor, BitVec.ushiftRight_xor_distrib]
  cases c.getLsbD 0 <;> cases d.getLsbD 0
  case false.false => rfl
  case false.true =>
    show c >>> 1 ^^^ d >>> 1 ^^^ poly = c >>> 1 ^^^ (d >>> 1 ^^^ poly)
    exact BitVec.xor_assoc _ _ _
  case true.false =>
    show c >>> 1 ^^^ d >>> 1 ^^^ poly = c >>> 1 ^^^ poly ^^^ d >>> 1
    rw [BitVec.xor_assoc, BitVec.xor_assoc, BitVec.xor_comm poly]
  case true.true =>
    -- the polynomial is added twice and cancels
    show _ = _ ^^^ poly ^^^ (_ ^^^ poly)
    rw [xor_xor_xor_comm, BitVec.xor_self, BitVec.xor_zero]
    rfl

theorem bit_xor (a b : Bool) : (bit (a ^^ b) : BitVec w) = bit a ^^^ bit b := by
  cases a <;> cases b <;> simp [bit]

/-- **The check is linear** in the register and the bits. -/
theorem feed_xor (poly : BitVec w) {bits errors : List Bool} (h : bits.length = errors.length) (c d : BitVec w) :
    feed poly (c ^^^ d) (List.zipWith (· ^^ ·) bits errors) =
      feed poly c bits ^^^ feed poly d errors := by
  induction bits generalizing errors c d with
  | nil =>
    rw [List.length_eq_zero_iff.mp h.symm]
    rfl
  | cons b bits ih =>
    obtain ⟨e, errors, rfl⟩ := List.exists_cons_of_length_eq_add_one h.symm
    rw [List.zipWith_cons_cons, feed_cons, feed_cons, feed_cons, bit_xor, xor_xor_xor_comm,
      step_xor]
    exact ih (Nat.succ_inj.mp h) _ _

theorem step_zero : step poly 0#w = 0#w := by simp [step]

/-- Clear bits only shift. -/
theorem feed_clear {bits : List Bool} (h : ∀ b ∈ bits, b = false) (c : BitVec w) :
    feed poly c bits = (step poly)^[bits.length] c := by
  induction bits generalizing c with
  | nil => rfl
  | cons b bits ih =>
    obtain ⟨rfl, hbits⟩ := List.forall_mem_cons.mp h
    rw [feed_cons, bit, if_neg Bool.false_ne_true, BitVec.xor_zero, ih hbits]
    rfl

/-! ## Bits at once -/

theorem getLsbD_bit (hw : 0 < w) (b : Bool) : (bit b : BitVec w).getLsbD 0 = b := by
  cases b
  · exact BitVec.getLsbD_zero
  · rw [bit, if_pos rfl, BitVec.getLsbD_one, decide_eq_true hw]
    rfl

theorem bit_shift (b : Bool) : (bit b : BitVec w) >>> 1 = 0#w := by
  apply BitVec.eq_of_toNat_eq
  rw [BitVec.toNat_ushiftRight, Nat.shiftRight_eq_div_pow]
  cases b
  · rw [bit, if_neg Bool.false_ne_true, BitVec.toNat_ofNat, Nat.zero_mod, Nat.zero_div]
  · rw [bit, if_pos rfl, BitVec.toNat_ofNat, BitVec.toNat_ofNat, Nat.zero_mod]
    exact Nat.div_eq_of_lt (Nat.lt_of_le_of_lt (Nat.mod_le 1 _) (by decide))

/-- What lies above the lowest bit is only shifted. -/
theorem step_xor_eq (hw : 0 < w) (c x : BitVec w) :
    step poly (c ^^^ x) = step poly (c ^^^ bit (x.getLsbD 0)) ^^^ (x >>> 1) := by
  have hlow : (bit (x.getLsbD 0) ^^^ x).getLsbD 0 = false := by
    rw [BitVec.getLsbD_xor, getLsbD_bit hw, Bool.xor_self]
  have hshift : step poly (bit (x.getLsbD 0) ^^^ x) = x >>> 1 := by
    rw [step, if_neg (Bool.eq_false_iff.mp hlow), BitVec.ushiftRight_xor_distrib, bit_shift,
      BitVec.zero_xor]
  have hsplit : c ^^^ x = c ^^^ bit (x.getLsbD 0) ^^^ (bit (x.getLsbD 0) ^^^ x) := by
    rw [BitVec.xor_assoc, ← BitVec.xor_assoc (bit _), BitVec.xor_self, BitVec.zero_xor]
  rw [hsplit, step_xor, hshift]

/-- Bits added to the register at once are met one by one. -/
theorem step_iterate_xor (poly : BitVec w) (hw : 0 < w) (c x : BitVec w) (n : ℕ) :
    (step poly)^[n] (c ^^^ x) = feed poly c ((List.range n).map x.getLsbD) ^^^ (x >>> n) := by
  induction n with
  | zero => simp [feed]
  | succ n ih =>
    have hbit : (x >>> n).getLsbD 0 = x.getLsbD n := by simp
    rw [Function.iterate_succ_apply', ih, step_xor_eq hw, hbit, List.range_succ, List.map_append,
      feed_append, ← BitVec.shiftRight_add]
    rfl

/-! ## Bursts -/

/-- A polynomial with its last term makes a step that loses nothing. -/
theorem eq_zero_of_step (hpoly : poly.msb = true) {c : BitVec w} (h : step poly c = 0#w) :
    c = 0#w := by
  unfold step at h
  cases hlow : c.getLsbD 0
  case true =>
    -- the polynomial leaves a bit at the high end, where the shift has none
    rw [hlow, if_pos rfl, BitVec.xor_eq_zero_iff] at h
    have hmsb : (c >>> 1).msb = true := h ▸ hpoly
    rw [BitVec.msb_ushiftRight] at hmsb
    exact absurd hmsb (by simp)
  case false =>
    rw [hlow, if_neg Bool.false_ne_true] at h
    apply BitVec.eq_of_getLsbD_eq
    rintro (_ | i) hi
    · rw [hlow, BitVec.getLsbD_zero]
    · have hbit : (c >>> 1).getLsbD i = false := by rw [h, BitVec.getLsbD_zero]
      rw [BitVec.getLsbD_ushiftRight, Nat.add_comm] at hbit
      rw [hbit, BitVec.getLsbD_zero]

theorem eq_zero_of_iterate (hpoly : poly.msb = true) {n : ℕ} {c : BitVec w}
    (h : (step poly)^[n] c = 0#w) : c = 0#w := by
  induction n with
  | zero => exact h
  | succ n ih =>
    rw [Function.iterate_succ_apply'] at h
    exact ih (eq_zero_of_step hpoly h)

/-- Bits that fit in the register leave it clear only if they are clear. -/
theorem eq_false_of_feed_zero (hpoly : poly.msb = true) {bits : List Bool}
    (hlength : bits.length ≤ w) (h : feed poly 0#w bits = 0#w) : ∀ b ∈ bits, b = false := by
  have hw : 0 < w := by
    rcases Nat.eq_zero_or_pos w with rfl | hw
    · exact absurd hpoly (by simp [BitVec.msb])
    · exact hw
  let x : BitVec w := (BitVec.ofBoolListLE bits).setWidth w
  have hbit (i : ℕ) : x.getLsbD i = bits.getD i false := by
    rw [BitVec.getLsbD_setWidth, BitVec.getLsbD_ofBoolListLE]
    by_cases hi : i < w
    · rw [decide_eq_true hi, Bool.true_and]
    · rw [decide_eq_false hi, Bool.false_and, List.getD_eq_default _ _ (by omega)]
  have hbits : (List.range bits.length).map x.getLsbD = bits := by
    apply List.ext_getElem (by simp)
    intro i hi hi'
    rw [List.getElem_map, List.getElem_range, hbit, List.getD_eq_getElem _ _ hi']
  have hhigh : x >>> bits.length = 0#w := by
    apply BitVec.eq_of_getLsbD_eq
    intro i _
    rw [BitVec.getLsbD_ushiftRight, hbit, List.getD_eq_default _ _ (Nat.le_add_right _ _),
      BitVec.getLsbD_zero]
  have hiterate := step_iterate_xor poly hw 0#w x bits.length
  rw [hbits, h, hhigh, BitVec.zero_xor, BitVec.xor_zero] at hiterate
  have hzero := eq_zero_of_iterate hpoly hiterate
  intro b hb
  rw [← hbits] at hb
  obtain ⟨i, -, rfl⟩ := List.mem_map.mp hb
  rw [hzero, BitVec.getLsbD_zero]

/-- **A burst within the width of the register leaves a trace.** -/
theorem feed_ne_zero_of_burst (hpoly : poly.msb = true) {errors : List Bool} {offset : ℕ}
    (hburst : ∀ i, errors[i]? = some true → offset ≤ i ∧ i < offset + w)
    (herrors : true ∈ errors) : feed poly 0#w errors ≠ 0#w := by
  induction offset generalizing errors with
  | zero =>
    have hafter : ∀ b ∈ errors.drop w, b = false := by
      intro b hb
      obtain ⟨i, hi⟩ := List.mem_iff_getElem?.mp hb
      rw [List.getElem?_drop] at hi
      cases b
      · rfl
      · have hlt := (hburst _ hi).2
        omega
    intro h
    rw [← List.take_append_drop w errors, feed_append, feed_clear hafter] at h
    have hwindow := eq_false_of_feed_zero hpoly (List.length_take_le _ _)
      (eq_zero_of_iterate hpoly h)
    rw [← List.take_append_drop w errors, List.mem_append] at herrors
    rcases herrors with hmem | hmem
    · exact absurd (hwindow true hmem) (by decide)
    · exact absurd (hafter true hmem) (by decide)
  | succ offset ih =>
    cases errors with
    | nil => exact absurd herrors List.not_mem_nil
    | cons b errors =>
      cases b
      case true => exact absurd (hburst 0 rfl).1 (Nat.not_succ_le_zero offset)
      case false =>
        rw [feed_cons, bit, if_neg Bool.false_ne_true, BitVec.xor_zero, step_zero]
        refine ih (fun i hi => ?_) ((List.mem_cons.mp herrors).resolve_left (by decide))
        have hin := hburst (i + 1) hi
        omega

end Crc
