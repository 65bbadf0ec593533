import Mathlib.Algebra.Order.Ring.Int

/-!
# Little-endian integers

A natural number as a fixed number of bytes, the least significant one first.
Writing and reading are inverse to each other on the numbers that fit.

## Main results

- `LittleEndian.value_bytes` — reading what was written
- `LittleEndian.bytes_value` — writing what was read
-/

namespace LittleEndian

/-- The first `n` bytes of a number. -/
def bytes : ℕ → ℕ → List UInt8
  | 0, _ => []
  | n + 1, v => UInt8.ofNat (v % 256) :: bytes n (v / 256)

/-- The number that bytes stand for. -/
def value : List UInt8 → ℕ
  | [] => 0
  | b :: bs => b.toNat + 256 * value bs

@[simp] theorem bytes_length (n v : ℕ) : (bytes n v).length = n := by
  induction n generalizing v with
  | zero => rfl
  | succ n ih => rw [bytes, List.length_cons, ih]

theorem value_lt (bs : List UInt8) : value bs < 256 ^ bs.length := by
  induction bs with
  | nil => exact Nat.one_pos
  | cons b bs ih =>
    have hb : b.toNat < 256 := b.toNat_lt
    rw [value, List.length_cons, Nat.pow_succ]
    omega

/-- Reading gives back the low part of a number. -/
theorem value_bytes_mod (n v : ℕ) : value (bytes n v) = v % 256 ^ n := by
  induction n generalizing v with
  | zero => rw [Nat.pow_zero, Nat.mod_one, bytes, value]
  | succ n ih =>
    have hbyte : (UInt8.ofNat (v % 256)).toNat = v % 256 := UInt8.toNat_ofNat_of_lt' (by
      show v % 256 < 256
      omega)
    rw [bytes, value, ih, hbyte, Nat.pow_succ', Nat.mod_mul]

/-- **Reading** gives back a number that fits. -/
theorem value_bytes {n v : ℕ} (h : v < 256 ^ n) : value (bytes n v) = v := by
  rw [value_bytes_mod, Nat.mod_eq_of_lt h]

/-- The first bytes of a number are those of its low part. -/
theorem take_bytes (n k v : ℕ) : (bytes (n + k) v).take n = bytes n v := by
  induction n generalizing v with
  | zero => rfl
  | succ n ih => rw [Nat.succ_add, bytes, List.take_succ_cons, ih, bytes]

/-- **Writing** gives back the bytes. -/
theorem bytes_value (bs : List UInt8) : bytes bs.length (value bs) = bs := by
  induction bs with
  | nil => rfl
  | cons b bs ih =>
    have hb : b.toNat < 256 := b.toNat_lt
    have hlow : (b.toNat + 256 * value bs) % 256 = b.toNat := by omega
    have hhigh : (b.toNat + 256 * value bs) / 256 = value bs := by omega
    rw [List.length_cons, value, bytes, hlow, hhigh, ih, UInt8.ofNat_toNat]

theorem bytes_value_of_length {bs : List UInt8} {n : ℕ} (h : bs.length = n) :
    bytes n (value bs) = bs := by
  rw [← h, bytes_value]

theorem value_lt_of_length {bs : List UInt8} {n : ℕ} (h : bs.length = n) :
    value bs < 256 ^ n := by
  rw [← h]
  exact value_lt bs

end LittleEndian
