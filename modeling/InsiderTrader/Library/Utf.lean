import Mathlib.Data.List.Chain
import Mathlib.Data.Nat.Notation

/-!
# Characters in UTF-8 and UTF-16

The first character of some bytes, and the code units of a character. Bytes that
start with a character start with no other one, and a text is decoded from its
units.

## Main definitions

- `Utf.decodeChar` — the character that some bytes start with
- `Utf.Aligned` — after an ASCII byte another character starts
- `Utf.units` — the UTF-16 code units of a character
- `Utf.decodeUnits` — the characters of some code units

## Main results

- `Utf.decodeChar_append`, `Utf.exists_append_of_decodeChar` — the first character of some bytes
- `Utf.decodeUnits_append` — a text is decoded from its units
-/

namespace Utf

-- UTF-8

/-- The character that some bytes start with. -/
def decodeChar (bytes : List UInt8) : Option Char := ByteArray.utf8DecodeChar? ⟨bytes.toArray⟩ 0

theorem toByteArray_eq (bytes : List UInt8) : bytes.toByteArray = ⟨bytes.toArray⟩ := by
  apply ByteArray.ext
  rw [List.data_toByteArray]

/-- Bytes start with the character whose bytes they start with. -/
theorem decodeChar_append (c : Char) (rest : List UInt8) :
    decodeChar (String.utf8EncodeChar c ++ rest) = some c := by
  rw [decodeChar, ← toByteArray_eq, List.toByteArray_append]
  exact ByteArray.utf8DecodeChar?_utf8EncodeChar_append

/-- Bytes that start with a character start with its bytes. -/
theorem exists_append_of_decodeChar {bytes : List UInt8} {c : Char}
    (h : decodeChar bytes = some c) : ∃ rest, bytes = String.utf8EncodeChar c ++ rest := by
  obtain ⟨rest, hrest⟩ := ByteArray.exists_of_utf8DecodeChar?_eq_some h
  refine ⟨rest.data.toList, ?_⟩
  have hdata := congrArg (fun b : ByteArray => b.data.toList) hrest
  simpa using hdata

/-- The bytes of a text are those of its characters. -/
theorem toList_toByteArray (s : String) :
    s.toByteArray.data.toList = s.toList.flatMap String.utf8EncodeChar := by
  rw [← String.utf8Encode_toList, List.utf8Encode, List.data_toByteArray]

theorem utf8EncodeChar_inj {c d : Char} {r s : List UInt8}
    (h : String.utf8EncodeChar c ++ r = String.utf8EncodeChar d ++ s) : c = d ∧ r = s := by
  have hchar := decodeChar_append c r
  rw [h, decodeChar_append] at hchar
  cases hchar
  exact ⟨rfl, List.append_cancel_left h⟩

/-- A character beyond the ASCII ones starts with a byte beyond them. -/
theorem exists_cons_utf8EncodeChar {c : Char} (h : 0x80 ≤ c.toNat) :
    ∃ b rest, String.utf8EncodeChar c = b :: rest ∧ 0xC0 ≤ b.toNat := by
  have hval : 0x80 ≤ c.val.toNat := h
  unfold String.utf8EncodeChar
  dsimp only
  have hsmall {n : ℕ} (hn : n < 256) : (UInt8.ofNat n).toNat = n := UInt8.toNat_ofNat_of_lt' hn
  rw [if_neg (by omega)]
  split
  · exact ⟨_, _, rfl, by rw [hsmall (by omega)]; omega⟩
  · split
    · exact ⟨_, _, rfl, by rw [hsmall (by omega)]; omega⟩
    · exact ⟨_, _, rfl, by rw [hsmall (by omega)]; omega⟩

/-- A character beyond the ASCII ones has no ASCII byte. -/
theorem le_of_mem_utf8EncodeChar {c : Char} (h : 0x80 ≤ c.toNat) {b : UInt8}
    (hb : b ∈ String.utf8EncodeChar c) : 0x80 ≤ b.toNat := by
  have hval : 0x80 ≤ c.val.toNat := h
  have hsmall {n : ℕ} (hn : n < 256) : (UInt8.ofNat n).toNat = n := UInt8.toNat_ofNat_of_lt' hn
  unfold String.utf8EncodeChar at hb
  dsimp only at hb
  rw [if_neg (by omega)] at hb
  split at hb
  · simp only [List.mem_cons, List.not_mem_nil, or_false] at hb
    obtain rfl | rfl := hb <;> rw [hsmall (by omega)] <;> omega
  · split at hb
    · simp only [List.mem_cons, List.not_mem_nil, or_false] at hb
      obtain rfl | rfl | rfl := hb <;> rw [hsmall (by omega)] <;> omega
    · simp only [List.mem_cons, List.not_mem_nil, or_false] at hb
      obtain rfl | rfl | rfl | rfl := hb <;> rw [hsmall (by omega)] <;> omega

theorem utf8EncodeChar_of_ascii {c : Char} (h : c.toNat < 0x80) :
    String.utf8EncodeChar c = [UInt8.ofNat c.toNat] := by
  have hval : c.val.toNat ≤ 0x7f := Nat.le_of_lt_succ h
  exact if_pos hval

/-- After an ASCII byte another character starts. -/
def Aligned (bytes : List UInt8) : Prop :=
  List.IsChain (fun a b : UInt8 => a.toNat < 0x80 → b.toNat < 0x80 ∨ 0xC0 ≤ b.toNat) bytes

theorem Aligned.suffix {bytes rest : List UInt8} (h : Aligned bytes) (hrest : rest <:+ bytes) :
    Aligned rest := List.IsChain.suffix h hrest

/-- A character starts with an ASCII byte or with one of those that start longer ones. -/
theorem starts_of_flatMap {cs : List Char} {b : UInt8}
    (h : (cs.flatMap String.utf8EncodeChar).head? = some b) : b.toNat < 0x80 ∨ 0xC0 ≤ b.toNat := by
  cases cs with
  | nil => cases h
  | cons c cs =>
    rw [List.flatMap_cons] at h
    by_cases hwide : 0x80 ≤ c.toNat
    · obtain ⟨b', tail, hbytes, hb'⟩ := exists_cons_utf8EncodeChar hwide
      rw [hbytes] at h
      cases h
      exact .inr hb'
    · have hascii := Nat.not_le.mp hwide
      rw [utf8EncodeChar_of_ascii hascii] at h
      cases h
      left
      rw [UInt8.toNat_ofNat_of_lt' (Nat.lt_trans hascii (by decide))]
      exact hascii

/-- **A text** is aligned. -/
theorem aligned_flatMap (cs : List Char) : Aligned (cs.flatMap String.utf8EncodeChar) := by
  induction cs with
  | nil => exact List.isChain_nil
  | cons c cs ih =>
    rw [List.flatMap_cons]
    refine List.isChain_append.mpr ⟨?_, ih, ?_⟩
    · by_cases hwide : 0x80 ≤ c.toNat
      · refine (List.pairwise_of_forall_mem_list ?_).isChain
        intro a ha b _ hlt
        exact absurd (le_of_mem_utf8EncodeChar hwide ha) (Nat.not_le.mpr hlt)
      · rw [utf8EncodeChar_of_ascii (Nat.not_le.mp hwide)]
        exact List.isChain_singleton _
    · intro a _ b hb _
      exact starts_of_flatMap hb

/-- The bytes of some characters. -/
def IsText (bytes : List UInt8) : Prop := ∃ cs : List Char, bytes = cs.flatMap String.utf8EncodeChar

theorem isText_char (c : Char) : IsText (String.utf8EncodeChar c) :=
  ⟨[c], by rw [List.flatMap_cons, List.flatMap_nil, List.append_nil]⟩

theorem IsText.append {a b : List UInt8} (ha : IsText a) (hb : IsText b) : IsText (a ++ b) := by
  obtain ⟨cs, rfl⟩ := ha
  obtain ⟨ds, rfl⟩ := hb
  exact ⟨cs ++ ds, List.flatMap_append.symm⟩

/-- A code point that is valid is that of its character. -/
theorem toNat_ofNat {n : ℕ} (h : n.isValidChar) : (Char.ofNat n).toNat = n := by
  rw [Char.ofNat, dif_pos h]
  rfl

theorem IsText.cons {b : UInt8} {bytes : List UInt8} (h : IsText bytes) (hb : b.toNat < 0x80) :
    IsText (b :: bytes) := by
  have hvalid : b.toNat.isValidChar := .inl (by omega)
  have hchar : (Char.ofNat b.toNat).toNat = b.toNat := toNat_ofNat hvalid
  have hbyte : String.utf8EncodeChar (Char.ofNat b.toNat) = [b] := by
    rw [utf8EncodeChar_of_ascii (by omega), hchar, UInt8.ofNat_toNat]
  rw [← List.singleton_append, ← hbyte]
  exact (isText_char _).append h

/-- ASCII bytes are a text. -/
theorem isText_ascii {bytes : List UInt8} (h : ∀ b ∈ bytes, b.toNat < 0x80) : IsText bytes := by
  induction bytes with
  | nil => exact ⟨[], rfl⟩
  | cons b bytes ih =>
    exact (ih fun c hc => h c (List.mem_cons_of_mem b hc)).cons (h b List.mem_cons_self)

-- UTF-16

/-- The code units of a character. -/
def units (c : Char) : List ℕ :=
  if c.toNat < 0x10000 then [c.toNat]
  else [0xD800 + (c.toNat - 0x10000) / 0x400, 0xDC00 + (c.toNat - 0x10000) % 0x400]

/-- The character of a code unit on its own. -/
def ofUnit (u : ℕ) : Char := if u.isValidChar then Char.ofNat u else '\uFFFD'

/-- The characters of some code units. -/
def decodeUnits : List ℕ → List Char
  | [] => []
  | [u] => [ofUnit u]
  | u :: v :: rest =>
    if 0xD800 ≤ u ∧ u < 0xDC00 ∧ 0xDC00 ≤ v ∧ v < 0xE000 then
      Char.ofNat (0x10000 + (u - 0xD800) * 0x400 + (v - 0xDC00)) :: decodeUnits rest
    else ofUnit u :: decodeUnits (v :: rest)

theorem ofUnit_toNat (c : Char) : ofUnit c.toNat = c := by
  have hvalid : c.toNat.isValidChar := c.valid
  rw [ofUnit, if_pos hvalid, Char.ofNat_toNat]

/-- **A text** is decoded from the units of its characters. -/
theorem decodeUnits_append (c : Char) (rest : List ℕ) :
    decodeUnits (units c ++ rest) = c :: decodeUnits rest := by
  have hvalid : c.toNat < 0xD800 ∨ 0xDFFF < c.toNat ∧ c.toNat < 0x110000 := c.valid
  unfold units
  split
  · rw [List.singleton_append]
    cases rest with
    | nil => exact congrArg (fun d => [d]) (ofUnit_toNat c)
    | cons v rest => rw [decodeUnits, if_neg (by omega), ofUnit_toNat]
  · have hchar : 0x10000 + (0xD800 + (c.toNat - 0x10000) / 0x400 - 0xD800) * 0x400 +
        (0xDC00 + (c.toNat - 0x10000) % 0x400 - 0xDC00) = c.toNat := by omega
    rw [List.cons_append, List.singleton_append, decodeUnits, if_pos (by omega), hchar,
      Char.ofNat_toNat]

theorem decodeUnits_flatMap (cs : List Char) : decodeUnits (cs.flatMap units) = cs := by
  induction cs with
  | nil => rfl
  | cons c cs ih => rw [List.flatMap_cons, decodeUnits_append, ih]

end Utf
