import InsiderTrader.Library.LittleEndian
import InsiderTrader.Library.MachineInt
import InsiderTrader.Library.Wire

/-!
# Numbers and counted lists of a wire format

A number has a width in bytes, and a number that is too great for it is written
as the greatest one. A list stands after the count of its elements, which the
reader bounds: it reads a list within the bound element by element, and refuses
any other.

## Main definitions

- `Wire.number` — read a number of a width
- `Wire.cappedBytes` — a number, or the greatest one of the width
- `Wire.signedBytes`, `Wire.signed` — a signed number, written and read
- `Wire.listBytes`, `Wire.listOf` — a counted list, written and read

## Main results

- `Wire.reads_number`, `Wire.reads_capped`, `Wire.reads_signed` — a number is read back
- `Wire.reads_listOf` — the outcome of a counted list
- `Wire.listed_eq_ok_iff` — which lists are read back
-/

namespace Wire

open Reader

variable {ε α γ : Type}

/-- A little-endian number of a width in bytes. -/
def number (short : ε) (width : ℕ) : Reader ε ℕ := do
  let bytes ← take short width
  pure (LittleEndian.value bytes)

/-- A number of a width in bytes; one that is too great becomes the greatest one. -/
def cappedBytes (width n : ℕ) : List UInt8 := LittleEndian.bytes width (min n (256 ^ width - 1))

theorem reads_number (short : ε) (width : ℕ) {v : ℕ} (h : v < 256 ^ width) :
    Reads (number short width) (LittleEndian.bytes width v) (.ok v) := by
  have hread := (reads_take_of_length short (LittleEndian.bytes_length width v)).bind_pure
    (g := LittleEndian.value)
  rwa [ok_bind, LittleEndian.value_bytes h] at hread

theorem reads_capped (short : ε) (width n : ℕ) :
    Reads (number short width) (cappedBytes width n) (.ok (min n (256 ^ width - 1))) := by
  have hpos : 0 < 256 ^ width := Nat.pow_pos (by decide)
  exact reads_number short width (by omega)

/-- A signed number of a width in bytes, by its bits. -/
def signedBytes (width : ℕ) (x : Int) : List UInt8 :=
  LittleEndian.bytes width (x % 256 ^ width).toNat

/-- The signed number with the bits of a number of a width in bytes. -/
def ofBits (width v : ℕ) : Int := if 2 * v < 256 ^ width then v else v - 256 ^ width

/-- Read a signed number of a width in bytes. -/
def signed (short : ε) (width : ℕ) : Reader ε Int := do
  let v ← number short width
  pure (ofBits width v)

/-- Half of the numbers of a width are not negative. -/
theorem two_mul_half {width : ℕ} (h : 0 < width) : 2 * 2 ^ (8 * width - 1) = 256 ^ width := by
  rw [← Nat.pow_succ', Nat.succ_eq_add_one, Nat.sub_add_cancel (by omega), Nat.pow_mul]

theorem ofBits_emod {width : ℕ} {x : Int} (hwidth : 0 < width) (h : MachineInt.Fits (8 * width) x) :
    ofBits width (x % 256 ^ width).toNat = x := by
  have hhalf : (2 : Int) * 2 ^ (8 * width - 1) = 256 ^ width := by
    exact_mod_cast two_mul_half hwidth
  have hcast : ((256 ^ width : ℕ) : Int) = 256 ^ width := by push_cast; rfl
  obtain ⟨hlow, hhigh⟩ := h
  unfold ofBits
  obtain hneg | hpos := lt_or_ge x 0
  · have hmod : x % 256 ^ width = x + 256 ^ width := by
      rw [← Int.add_emod_right, Int.emod_eq_of_lt (by omega) (by omega)]
    rw [hmod, if_neg (by omega)]
    omega
  · rw [Int.emod_eq_of_lt hpos (by omega), if_pos (by omega)]
    omega

/-- **A signed number** is read back. -/
theorem reads_signed (short : ε) {width : ℕ} {x : Int} (hwidth : 0 < width)
    (h : MachineInt.Fits (8 * width) x) : Reads (signed short width) (signedBytes width x) (.ok x) := by
  have hpos : (0 : Int) < 256 ^ width := Int.pow_pos (by decide)
  have hcast : ((256 ^ width : ℕ) : Int) = 256 ^ width := by push_cast; rfl
  have hlt := Int.emod_lt_of_pos x hpos
  have hread := (reads_number short width (v := (x % 256 ^ width).toNat) (by omega)).bind_pure
    (g := ofBits width)
  rwa [ok_bind, ofBits_emod hwidth h] at hread

theorem reads_byte (short : ε) (b : UInt8) : Reads (number short 1) [b] (.ok b.toNat) := by
  have hbytes : LittleEndian.bytes 1 b.toNat = [b] := by
    rw [LittleEndian.bytes, LittleEndian.bytes, Nat.mod_eq_of_lt b.toNat_lt, UInt8.ofNat_toNat]
  rw [← hbytes]
  exact reads_number short 1 b.toNat_lt

/-- A list after the count of its elements. -/
def listBytes (width : ℕ) (w : γ → List UInt8) (l : List γ) : List UInt8 :=
  cappedBytes width l.length ++ l.flatMap w

/-- Read a counted list within a bound. -/
def listOf (short tooMany : ε) (width maximum : ℕ) (r : Reader ε α) : Reader ε (List α) := do
  let count ← number short width
  require (count ≤ maximum) tooMany
  times r count

/-- A list as it arrives. -/
def listed (tooMany : ε) (maximum : ℕ) (o : γ → Except ε α) (l : List γ) : Except ε (List α) :=
  if l.length ≤ maximum then l.mapM o else .error tooMany

/-- **A counted list** arrives element by element, when it is within the bound. -/
theorem reads_listOf {short tooMany : ε} {width maximum : ℕ} {r : Reader ε α}
    {w : γ → List UInt8} {o : γ → Except ε α} {l : List γ} (hmax : maximum < 256 ^ width - 1)
    (h : ∀ x ∈ l, Reads r (w x) (o x)) :
    Reads (listOf short tooMany width maximum r) (listBytes width w l)
      (listed tooMany maximum o l) := by
  apply Reads.ok_bind (reads_capped short width l.length)
  have hiff : min l.length (256 ^ width - 1) ≤ maximum ↔ l.length ≤ maximum := by omega
  have helements : Reads (require (min l.length (256 ^ width - 1) ≤ maximum) tooMany >>= fun _ =>
      times r (min l.length (256 ^ width - 1))) (l.flatMap w)
      (if min l.length (256 ^ width - 1) ≤ maximum then l.mapM o else .error tooMany) :=
    Reads.require fun hcount => by
      rw [min_eq_left (by omega)]
      exact reads_times h
  rwa [if_congr hiff rfl rfl] at helements

/-- A list whose elements arrive only as they are arrives only as it is. -/
theorem listed_eq_ok_iff {tooMany : ε} {maximum : ℕ} {o : α → Except ε α} {P : α → Prop}
    {l sent : List α} (h : ∀ x ∈ l, ∀ y, o x = .ok y ↔ y = x ∧ P x) :
    listed tooMany maximum o l = .ok sent ↔ sent = l ∧ l.length ≤ maximum ∧ ∀ x ∈ l, P x := by
  have hparts : l.mapM o = .ok sent ↔ sent = l ∧ ∀ x ∈ l, P x := by
    induction l generalizing sent with
    | nil => exact ⟨fun h => ⟨(Except.ok.inj h).symm, by simp⟩, fun h => by rw [h.1]; rfl⟩
    | cons x l ih =>
      obtain ⟨hx, hl⟩ := List.forall_mem_cons.mp h
      rw [List.mapM_cons, bind_eq_ok, List.forall_mem_cons]
      constructor
      · rintro ⟨y, hy, hrest⟩
        obtain ⟨ys, hys, hsent⟩ := bind_eq_ok.mp hrest
        obtain ⟨rfl, hPx⟩ := (hx y).mp hy
        obtain ⟨rfl, hPl⟩ := (ih hl).mp hys
        exact ⟨(Except.ok.inj hsent).symm, hPx, hPl⟩
      · rintro ⟨rfl, hPx, hPl⟩
        exact ⟨x, (hx x).mpr ⟨rfl, hPx⟩, bind_eq_ok.mpr ⟨l, (ih hl).mpr ⟨rfl, hPl⟩, rfl⟩⟩
  unfold listed
  split
  · next hlength => rw [hparts, and_iff_right hlength]
  · next hlength => exact iff_of_false nofun fun h => hlength h.2.1

end Wire
