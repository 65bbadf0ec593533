import InsiderTrader.NewsJson

/-!
# The strings that the JSON reader accepts

The texts of the reader are those of a dialect of its own: it skips form feeds, takes
numbers that only its conversion knows, does not look at the byte that opens the name
of a member, and knows neither all escapes nor the characters that two of them spell.

## Main definitions

- `NewsProviders.rfcJson` — the texts of the standard, with the bounds of the reader
- `NewsProviders.readerJson` — the texts of the reader
- `NewsProviders.Json.ofTree` — the value that a text spells

## Main results

- `NewsProviders.Parser.string_of_chars`, `NewsProviders.Parser.exists_chars` — strings
-/

namespace InsiderTrader

open JsonText

namespace NewsProviders

-- Dialects

/-- White space of the standard. -/
def RfcBlank (b : UInt8) : Prop := b.toNat ∈ [0x20, 0x09, 0x0A, 0x0D]

instance : DecidablePred RfcBlank := fun _ => inferInstanceAs (Decidable (_ ∈ _))

/-- A piece of a string of the standard: no control character stands for itself. -/
def RfcItem (piece : List UInt8) : Prop := ∀ b, piece = [b] → 0x20 ≤ b.toNat

/-- **The texts of the standard**. -/
def rfcJson : Dialect where
  blank := RfcBlank
  numeral := Numeral
  item := RfcItem
  opens b := b = 0x22
  count _ := True
  names _ := True
  white_of_blank b h := by
    simp only [RfcBlank, White, List.mem_cons, List.not_mem_nil, or_false] at *
    omega
  numberText_of_numeral _ h := h.numberText
  dark_of_opens b h := by
    subst h
    decide

/-- A piece of a string of the reader. -/
structure ReaderItem (piece : List UInt8) : Prop where
  raw : ∀ b, piece = [b] → 0x20 ≤ b.toNat ∧ b ≠ 0x7F
  escape : ∀ e, piece = [0x5C, e] → (Parser.unescaped e).isSome
  unicode : ∀ a b c d u, piece = [0x5C, 0x75, a, b, c, d] → hexUnit a b c d = some u → u.isValidChar

/-- The names of the members of an object, as texts. -/
def nameText (units : List ℕ) : String := String.ofList (Utf.decodeUnits units)

/-- Every one of some members finds fewer than 256 names before it, of which some are there from
the start. -/
def RoomFor (names : List String) : List (List ℕ) → Prop
  | [] => True
  | key :: keys =>
    names.length < 256 ∧ RoomFor (names.filter (· ≠ nameText key) ++ [nameText key]) keys

/-- **The texts of the reader**. -/
def readerJson : Dialect where
  blank := White
  numeral text := NumberText text ∧ LooseNumeral text
  item := ReaderItem
  opens b := ¬White b
  count n := n ≤ 1000
  names := RoomFor []
  white_of_blank _ h := h
  numberText_of_numeral _ h := h.1
  dark_of_opens _ h := h

-- Values

mutual

/-- The value that a text spells. The last member of a name is the one that an object has. -/
def Json.ofTree : JsonText.Tree F64 → Json
  | .null => .null
  | .bool _ => .bool
  | .number value => .number value
  | .string units => .string (nameText units)
  | .array items => .array (ofTrees items)
  | .object members => .object (ofMembers [] members)

def Json.ofTrees : List (JsonText.Tree F64) → List Json
  | [] => []
  | item :: items => ofTree item :: ofTrees items

def Json.ofMembers (done : List (String × Json)) :
    List (List ℕ × JsonText.Tree F64) → List (String × Json)
  | [] => done
  | (name, item) :: members =>
    ofMembers (Parser.insert done (nameText name) (ofTree item)) members

end

-- Characters

namespace Parser

theorem hexCode_four (a b c d : UInt8) : hexCode [a, b, c, d] = hexUnit a b c d := by
  simp only [hexCode, hexUnit, List.foldlM_cons, List.foldlM_nil]
  cases hexValue a <;> cases hexValue b <;> cases hexValue c <;> cases hexValue d <;> simp

theorem hexValue_lt {d : UInt8} {v : ℕ} (h : hexValue d = some v) : v < 16 := by
  unfold hexValue at h
  split at h
  · cases h
    omega
  · split at h
    · cases h
      omega
    · split at h
      · cases h
        omega
      · cases h

theorem hexUnit_lt {a b c d : UInt8} {u : ℕ} (h : hexUnit a b c d = some u) : u < 0x10000 := by
  obtain ⟨va, ha, h⟩ := Option.bind_eq_some_iff.mp h
  obtain ⟨vb, hb, h⟩ := Option.bind_eq_some_iff.mp h
  obtain ⟨vc, hc, h⟩ := Option.bind_eq_some_iff.mp h
  obtain ⟨vd, hd, h⟩ := Option.bind_eq_some_iff.mp h
  cases h
  have := hexValue_lt ha
  have := hexValue_lt hb
  have := hexValue_lt hc
  have := hexValue_lt hd
  omega

theorem units_ofNat {u : ℕ} (hvalid : u.isValidChar) (hlt : u < 0x10000) :
    Utf.units (Char.ofNat u) = [u] := by
  rw [Utf.units, Utf.toNat_ofNat hvalid, if_pos hlt]

/-- The characters that the reader has for escapes are those of the standard. -/
theorem escapeUnit_of_unescaped {e : UInt8} {c : Char} (h : unescaped e = some c) :
    escapeUnit e = some c.toNat ∧ Utf.units c = [c.toNat] ∧ e ≠ 0x75 := by
  have htable : ∀ x ∈ [(0x22, '"'), (0x5C, '\\'), (0x2F, '/'), (0x6E, '\n'), (0x72, '\r'),
      (0x74, '\t')], escapeUnit (UInt8.ofNat x.1) = some x.2.toNat ∧
        Utf.units x.2 = [x.2.toNat] ∧ UInt8.ofNat x.1 ≠ 0x75 := by decide
  obtain ⟨x, hx, rfl⟩ := Option.map_eq_some_iff.mp h
  have hfound := htable x (List.mem_of_find?_eq_some hx)
  have hbyte : x.1 = e.toNat :=
    of_decide_eq_true (List.find?_some (p := fun y : ℕ × Char => decide (y.1 = e.toNat)) hx)
  rwa [hbyte, UInt8.ofNat_toNat] at hfound

theorem readerItem_raw {b : UInt8} (hspace : 0x20 ≤ b.toNat) (hdelete : b ≠ 0x7F) :
    ReaderItem [b] where
  raw _ heq := by
    cases heq
    exact ⟨hspace, hdelete⟩
  escape _ heq := by cases heq
  unicode _ _ _ _ _ heq := by cases heq

theorem readerItem_escape {e : UInt8} (h : (unescaped e).isSome) : ReaderItem [0x5C, e] where
  raw _ heq := by cases heq
  escape _ heq := by
    cases heq
    exact h
  unicode _ _ _ _ _ heq := by cases heq

theorem readerItem_unicode {a b c d : UInt8} {u : ℕ} (hu : hexUnit a b c d = some u)
    (hvalid : u.isValidChar) : ReaderItem [0x5C, 0x75, a, b, c, d] where
  raw _ heq := by cases heq
  escape _ heq := by cases heq
  unicode _ _ _ _ _ heq hv := by
    cases heq
    cases hu.symm.trans hv
    exact hvalid

theorem readerItem_wide {c : Char} (h : 0x80 ≤ c.toNat) :
    ReaderItem (String.utf8EncodeChar c) := by
  obtain ⟨b, tail, hbytes, hb⟩ := Utf.exists_cons_utf8EncodeChar h
  rw [hbytes]
  have hslash {bytes : List UInt8} (heq : b :: tail = 0x5C :: bytes) : False := by
    cases heq
    exact absurd hb (by decide)
  refine ⟨?_, fun _ heq => (hslash heq).elim, fun _ _ _ _ _ heq => (hslash heq).elim⟩
  intro _ heq
  cases heq
  refine ⟨by omega, ?_⟩
  rintro rfl
  exact absurd hb (by decide)

theorem exists_four {rest : List UInt8} (h : ¬rest.length < 4) :
    ∃ a b c d tail, rest = a :: b :: c :: d :: tail := by
  obtain _ | ⟨a, _ | ⟨b, _ | ⟨c, _ | ⟨d, tail⟩⟩⟩⟩ := rest
  · exact absurd (by decide) h
  · exact absurd (by simp) h
  · exact absurd (by simp) h
  · exact absurd (by simp) h
  · exact ⟨a, b, c, d, tail, rfl⟩

theorem fail_ne_ok {α : Type} {message : String} {rest : List UInt8} {a : α × List UInt8} :
    fail message rest ≠ .ok a := by
  intro h
  cases h

theorem unicodeEscape_eq_ok {rest r : List UInt8} {ch : Char} :
    unicodeEscape rest = .ok (ch, r) ↔ ∃ a b c d u, rest = a :: b :: c :: d :: r ∧
      hexUnit a b c d = some u ∧ u.isValidChar ∧ ch = Char.ofNat u := by
  unfold unicodeEscape
  constructor
  · intro h
    split at h
    · exact absurd h fail_ne_ok
    · next hlen =>
      obtain ⟨a, b, c, d, tail, rfl⟩ := exists_four hlen
      split at h
      · exact absurd h fail_ne_ok
      · next u hu =>
        split at h
        · next hvalid =>
          cases h
          exact ⟨a, b, c, d, u, rfl, (hexCode_four a b c d).symm.trans hu, hvalid, rfl⟩
        · exact absurd h fail_ne_ok
  · rintro ⟨a, b, c, d, u, rfl, hu, hvalid, rfl⟩
    rw [if_neg (by simp)]
    have hcode : hexCode ((a :: b :: c :: d :: r).take 4) = some u :=
      (hexCode_four a b c d).trans hu
    rw [hcode]
    exact if_pos hvalid

theorem escape_cons (e : UInt8) (rest : List UInt8) :
    escape (e :: rest) = if e = 0x75 then unicodeEscape rest
      else match unescaped e with
        | some character => .ok (character, rest)
        | none => fail "unsupported JSON escape" rest := rfl

theorem toNat_ofNat_ascii {n : ℕ} (h : n < 0x80) : (UInt8.ofNat n).toNat = n :=
  UInt8.toNat_ofNat_of_lt' (Nat.lt_trans h (by decide))

/-- An ASCII character is one unit, that of its byte. -/
theorem units_ascii {c : Char} (h : c.toNat < 0x80) :
    Utf.units c = [(UInt8.ofNat c.toNat).toNat] := by
  rw [toNat_ofNat_ascii h, Utf.units, if_pos (by omega)]

/-- **A character** of the reader is a piece of a string of its dialect. -/
theorem exists_item {byte : UInt8} {rest r : List UInt8} {ch : Char} (hquote : byte ≠ 0x22)
    (h : character byte rest = .ok (ch, r)) :
    ∃ piece, byte :: rest = piece ++ r ∧ Item piece (Utf.units ch) ∧ ReaderItem piece := by
  unfold character at h
  split at h
  · next hslash =>
    subst hslash
    cases rest with
    | nil => cases h
    | cons e rest =>
      rw [escape_cons] at h
      split at h
      · next hu =>
        subst hu
        obtain ⟨a, b, c, d, u, rfl, hu, hvalid, rfl⟩ := unicodeEscape_eq_ok.mp h
        rw [units_ofNat hvalid (hexUnit_lt hu)]
        exact ⟨[0x5C, 0x75, a, b, c, d], rfl, .unicode hu, readerItem_unicode hu hvalid⟩
      · split at h
        · next c hc =>
          cases h
          obtain ⟨hunit, hunits, -⟩ := escapeUnit_of_unescaped hc
          rw [hunits]
          exact ⟨[0x5C, e], rfl, .escape hunit, readerItem_escape (Option.isSome_of_eq_some hc)⟩
        · exact absurd h fail_ne_ok
  · next hslash =>
    split at h
    · exact absurd h fail_ne_ok
    · next hcontrol =>
      rw [not_or] at hcontrol
      split at h
      · next c hc =>
        obtain ⟨tail, htail⟩ := Utf.exists_append_of_decodeChar hc
        rw [htail, List.drop_left] at h
        cases h
        refine ⟨String.utf8EncodeChar ch, htail, ?_⟩
        by_cases hwide : 0x80 ≤ ch.toNat
        · exact ⟨.wide hwide, readerItem_wide hwide⟩
        · have hascii := Nat.not_le.mp hwide
          rw [Utf.utf8EncodeChar_of_ascii hascii] at htail ⊢
          obtain ⟨hbyte, -⟩ := List.cons.inj htail
          rw [units_ascii hascii, ← hbyte]
          refine ⟨.ascii ?_ hquote hslash, readerItem_raw (by omega) hcontrol.2⟩
          rw [hbyte, toNat_ofNat_ascii hascii]
          exact hascii
      · exact absurd h fail_ne_ok

theorem ne_of_lt_toNat {b c : UInt8} (h : c.toNat < b.toNat) : b ≠ c := by
  rintro rfl
  exact absurd h (Nat.lt_irrefl _)

/-- **A piece** of a string of the reader's dialect is a character of the reader. -/
theorem character_of_item {piece : List UInt8} {us : List ℕ} (hpiece : Item piece us)
    (hitem : ReaderItem piece) (r : List UInt8) :
    ∃ byte rest ch, piece ++ r = byte :: rest ∧ byte ≠ 0x22 ∧ us = Utf.units ch ∧
      character byte rest = .ok (ch, r) := by
  cases hpiece with
  | @ascii b hascii hquote hslash =>
    obtain ⟨hspace, hdelete⟩ := hitem.raw b rfl
    have hchar : (Char.ofNat b.toNat).toNat = b.toNat := Utf.toNat_ofNat (.inl (by omega))
    have hbyte : String.utf8EncodeChar (Char.ofNat b.toNat) = [b] := by
      rw [Utf.utf8EncodeChar_of_ascii (by omega), hchar, UInt8.ofNat_toNat]
    refine ⟨b, r, Char.ofNat b.toNat, rfl, hquote, ?_, ?_⟩
    · rw [Utf.units, hchar, if_pos (by omega)]
    · have hdecode := Utf.decodeChar_append (Char.ofNat b.toNat) r
      rw [hbyte] at hdecode
      rw [character, if_neg hslash, if_neg (by simp [hdelete, hspace]), ← List.singleton_append,
        hdecode]
      simp only [hbyte, List.length_singleton, List.singleton_append, List.drop_one, List.tail_cons]
  | @wide c hwide =>
    obtain ⟨b, tail, hbytes, hb⟩ := Utf.exists_cons_utf8EncodeChar hwide
    have hne {n : UInt8} (hn : n.toNat < 0x80) : b ≠ n := ne_of_lt_toNat (by omega)
    refine ⟨b, tail ++ r, c, by rw [hbytes, List.cons_append], hne (by decide), rfl, ?_⟩
    rw [character, if_neg (hne (by decide)),
      if_neg (not_or.mpr ⟨by omega, hne (by decide)⟩), ← List.cons_append, ← hbytes,
      Utf.decodeChar_append]
    simp only [List.drop_left]
  | @escape e u hu =>
    obtain ⟨c, hc⟩ := Option.isSome_iff_exists.mp (hitem.escape e rfl)
    obtain ⟨hunit, hunits, hne⟩ := escapeUnit_of_unescaped hc
    cases hu.symm.trans hunit
    refine ⟨0x5C, e :: r, c, rfl, by decide, hunits.symm, ?_⟩
    rw [character, if_pos rfl, escape_cons, if_neg hne, hc]
  | @unicode a b c d u hu =>
    have hvalid := hitem.unicode a b c d u rfl hu
    refine ⟨0x5C, 0x75 :: a :: b :: c :: d :: r, Char.ofNat u, rfl, by decide,
      (units_ofNat hvalid (hexUnit_lt hu)).symm, ?_⟩
    rw [character, if_pos rfl, escape_cons, if_pos rfl]
    exact unicodeEscape_eq_ok.mpr ⟨a, b, c, d, u, rfl, hu, hvalid, rfl⟩

-- Strings

theorem units_inj {c c' : Char} (h : Utf.units c = Utf.units c') : c = c' := by
  have hdecode := Utf.decodeUnits_append c []
  rw [h, Utf.decodeUnits_append] at hdecode
  exact (List.cons.inj hdecode).1.symm

theorem push_append (s : String) (c : Char) (cs : List Char) :
    s.push c ++ String.ofList cs = s ++ String.ofList (c :: cs) := by
  apply String.ext
  simp

theorem exists_chars_of_characters {fuel : ℕ} {output s : String} {rest r : List UInt8}
    (h : characters fuel output rest = .ok (s, r)) :
    ∃ body cs, rest = body ++ 0x22 :: r ∧ Chars ReaderItem body (cs.flatMap Utf.units) ∧
      s = output ++ String.ofList cs := by
  induction fuel generalizing output rest with
  | zero => exact absurd h fail_ne_ok
  | succ fuel ih =>
    cases rest with
    | nil => exact absurd h fail_ne_ok
    | cons byte rest =>
      unfold characters at h
      split at h
      · next hquote =>
        cases h
        exact ⟨[], [], by rw [hquote, List.nil_append], .nil, (String.append_empty).symm⟩
      · next hquote =>
        split at h
        · next ch tail hch =>
          obtain ⟨piece, hpiece, hitem, hreader⟩ := exists_item hquote hch
          obtain ⟨body, cs, rfl, hbody, rfl⟩ := ih h
          refine ⟨piece ++ body, ch :: cs, ?_, .cons hitem hreader hbody, push_append output ch cs⟩
          rw [hpiece, List.append_assoc]
        · cases h

/-- **A string** of the reader. -/
theorem exists_chars {rest r : List UInt8} {s : String} (h : string rest = .ok (s, r)) :
    ∃ body cs, rest.drop 1 = body ++ 0x22 :: r ∧ Chars ReaderItem body (cs.flatMap Utf.units) ∧
      s = String.ofList cs := by
  obtain ⟨body, cs, hrest, hbody, hs⟩ := exists_chars_of_characters h
  exact ⟨body, cs, hrest, hbody, hs.trans String.empty_append⟩

theorem characters_of_chars {body : List UInt8} {units : List ℕ}
    (h : Chars ReaderItem body units) : ∃ cs, units = cs.flatMap Utf.units ∧
      ∀ fuel output r, body.length < fuel →
        characters fuel output (body ++ 0x22 :: r) = .ok (output ++ String.ofList cs, r) := by
  induction h with
  | nil =>
    refine ⟨[], rfl, ?_⟩
    intro fuel output r hfuel
    obtain ⟨fuel, rfl⟩ := Nat.exists_eq_succ_of_ne_zero (Nat.ne_of_gt hfuel)
    exact congrArg (fun s => Except.ok (s, r)) (String.append_empty).symm
  | @cons piece us rest units hpiece hitem _ ih =>
    obtain ⟨cs, rfl, ih⟩ := ih
    obtain ⟨-, -, ch, -, -, rfl, -⟩ := character_of_item hpiece hitem []
    refine ⟨ch :: cs, rfl, ?_⟩
    intro fuel output r hfuel
    obtain ⟨byte, tail, ch', hbytes, hquote, hunits, hch⟩ :=
      character_of_item hpiece hitem (rest ++ 0x22 :: r)
    obtain rfl := units_inj hunits
    obtain ⟨fuel, rfl⟩ := Nat.exists_eq_succ_of_ne_zero (Nat.ne_of_gt (Nat.zero_lt_of_lt hfuel))
    have hpos : 0 < piece.length := by
      obtain ⟨b, rest, rfl, -⟩ := hpiece.head_ne
      exact Nat.succ_pos _
    rw [List.append_assoc, hbytes, characters, if_neg hquote, hch]
    rw [List.length_append] at hfuel
    exact (ih fuel (output.push ch) r (by omega)).trans
      (congrArg (fun s => Except.ok (s, r)) (push_append output ch cs))

/-- **A string** of the reader's dialect, after any byte that opens it. -/
theorem string_of_chars {body : List UInt8} {units : List ℕ} (h : Chars ReaderItem body units)
    (o : UInt8) (r : List UInt8) :
    string (o :: (body ++ 0x22 :: r)) = .ok (nameText units, r) := by
  obtain ⟨cs, rfl, hread⟩ := characters_of_chars h
  have hlen : body.length < (body ++ 0x22 :: r).length := by
    rw [List.length_append, List.length_cons]
    omega
  rw [nameText, Utf.decodeUnits_flatMap]
  exact (hread _ "" r hlen).trans (congrArg (fun s => Except.ok (s, r)) String.empty_append)

end Parser

end NewsProviders

end InsiderTrader
