import InsiderTrader.NewsJsonTexts

/-!
# The failures of the JSON reader

Every failure has one of a few texts, and no slice cuts a character: the only slices are
those of numbers, which start and end next to ASCII bytes, and in a text a character
starts after each of them. Every part leaves an end of its bytes, so that what is left
is aligned like the text.

## Main definitions

- `NewsProviders.parseTexts` — the texts of the failures
- `NewsProviders.Parser.Safe` — a part that fails with a text only, on aligned bytes

## Main results

- `NewsProviders.parseJson_error` — the reader fails with one of its texts
- `NewsProviders.parseJson_ne_outOfRange` — the reader cuts no character
-/

namespace InsiderTrader

open JsonText

namespace NewsProviders

/-- The texts of the failures. -/
def parseTexts : List String :=
  ["provider response is not UTF-8", "trailing JSON data", "JSON nesting exceeds bound",
    "unexpected JSON EOF", "invalid JSON value", "invalid JSON literal", "truncated JSON escape",
    "truncated unicode escape", "invalid unicode escape", "invalid unicode scalar",
    "unsupported JSON escape", "control character in JSON string", "invalid UTF-8 JSON string",
    "unterminated JSON string", "JSON array exceeds bound", "invalid JSON array",
    "JSON object exceeds bound", "invalid JSON object", "invalid JSON number"]

/-- A failure with one of the texts. -/
def ParseError.Known (e : ParseError) : Prop := ∃ text ∈ parseTexts, e = .failed text

namespace Parser

variable {α β : Type} {p : Parser α} {f : α → Parser β} {bytes : List UInt8} {float : FloatArith}
  {item : Parser Json} {message : String}

/-- On some bytes a part fails with one of the texts, or leaves an end of the bytes. -/
def SafeAt (p : Parser α) (bytes : List UInt8) : Prop :=
  (∀ e, p bytes = .error e → e.Known) ∧ ∀ a rest, p bytes = .ok (a, rest) → rest <:+ bytes

/-- On aligned bytes a part fails with one of the texts: no slice cuts a character. -/
def Safe (p : Parser α) : Prop := ∀ bytes, Utf.Aligned bytes → SafeAt p bytes

theorem safeAt_of_error {e : ParseError} (h : p bytes = .error e) (he : e.Known) :
    SafeAt p bytes := by
  constructor
  · intro e' herror
    cases h.symm.trans herror
    exact he
  · intro a rest hok
    cases h.symm.trans hok

theorem safeAt_of_ok {a : α} {rest : List UInt8} (h : p bytes = .ok (a, rest))
    (hrest : rest <:+ bytes) : SafeAt p bytes := by
  constructor
  · intro e herror
    cases h.symm.trans herror
  · intro b rest' hok
    cases h.symm.trans hok
    exact hrest

theorem SafeAt.bind (hp : SafeAt p bytes)
    (hf : ∀ a rest, p bytes = .ok (a, rest) → SafeAt (f a) rest) : SafeAt (p >>= f) bytes := by
  constructor
  · intro e herror
    cases hread : p bytes with
    | error e' =>
      rw [Wire.Reader.bind_of_error hread] at herror
      cases herror
      exact hp.1 e hread
    | ok pair =>
      obtain ⟨a, rest⟩ := pair
      rw [Wire.Reader.bind_of_ok hread] at herror
      exact (hf a rest hread).1 e herror
  · intro b rest hok
    obtain ⟨a, mid, hread, hnext⟩ := Wire.Reader.bind_eq_ok.mp hok
    exact ((hf a mid hread).2 b rest hnext).trans (hp.2 a mid hread)

theorem Safe.bind (hp : Safe p) (hf : ∀ a, Safe (f a)) : Safe (p >>= f) := by
  intro bytes hbytes
  refine (hp bytes hbytes).bind ?_
  intro a rest hread
  exact hf a rest (hbytes.suffix ((hp bytes hbytes).2 a rest hread))

theorem safe_pure (a : α) : Safe (pure a) := fun _ _ => safeAt_of_ok rfl List.suffix_rfl

theorem safe_fail (h : message ∈ parseTexts) : Safe (fail message : Parser α) :=
  fun _ _ => safeAt_of_error rfl ⟨message, h, rfl⟩

theorem safe_skip (n : ℕ) : Safe (skip n) := fun bytes _ => safeAt_of_ok rfl (bytes.drop_suffix n)

theorem safe_peek : Safe peek := fun _ _ => safeAt_of_ok rfl List.suffix_rfl

theorem safe_ws : Safe ws := fun _ _ => safeAt_of_ok rfl (List.dropWhile_suffix _)

theorem safe_require {c : Prop} [Decidable c] (h : message ∈ parseTexts) :
    Safe (require c message) := by
  unfold require Wire.Reader.require
  split
  · exact safe_pure ()
  · exact safe_fail h

theorem safe_ite {c : Prop} [Decidable c] {q : Parser α} (hp : Safe p) (hq : Safe q) :
    Safe (if c then p else q) := by
  split
  · exact hp
  · exact hq

theorem safe_expect (text : String) : Safe (expect text) := by
  intro bytes hbytes
  by_cases htake : bytes.take (ascii text).length = ascii text
  · exact safeAt_of_ok (if_pos htake) (bytes.drop_suffix _)
  · exact safeAt_of_error (if_neg htake) ⟨_, by decide, rfl⟩

/-- A character fails with a text. -/
theorem character_error {byte : UInt8} {rest : List UInt8} {e : ParseError}
    (h : character byte rest = .error e) : e.Known := by
  have hfail {text : String} {x : List UInt8} (htext : text ∈ parseTexts)
      (h : (fail text : Parser Char) x = .error e) : e.Known := by
    cases h
    exact ⟨text, htext, rfl⟩
  unfold character at h
  split at h
  · cases rest with
    | nil => exact hfail (by decide) h
    | cons b rest =>
      rw [escape_cons] at h
      split at h
      · unfold unicodeEscape at h
        split at h
        · exact hfail (by decide) h
        · split at h
          · exact hfail (by decide) h
          · split at h
            · cases h
            · exact hfail (by decide) h
      · split at h
        · cases h
        · exact hfail (by decide) h
  · split at h
    · exact hfail (by decide) h
    · split at h
      · cases h
      · exact hfail (by decide) h

theorem characters_error {fuel : ℕ} {output : String} {rest : List UInt8} {e : ParseError}
    (h : characters fuel output rest = .error e) : e.Known := by
  induction fuel generalizing output rest with
  | zero =>
    cases h
    exact ⟨_, by decide, rfl⟩
  | succ fuel ih =>
    cases rest with
    | nil =>
      cases h
      exact ⟨_, by decide, rfl⟩
    | cons byte rest =>
      unfold characters at h
      split at h
      · cases h
      · split at h
        · exact ih h
        · next e' hcharacter =>
          cases h
          exact character_error hcharacter

theorem safe_string : Safe string := by
  intro bytes _
  cases hread : string bytes with
  | error e =>
    exact safeAt_of_error hread (characters_error hread)
  | ok pair =>
    obtain ⟨s, rest⟩ := pair
    obtain ⟨o, body, units, rfl, -⟩ := string_sound hread
    refine safeAt_of_ok hread ⟨o :: (body ++ [0x22]), ?_⟩
    rw [List.cons_append, List.append_assoc, List.singleton_append]

-- Numbers

theorem numberByte_ascii {b : UInt8} (h : NumberByte b) : b.toNat < 0x80 := by
  obtain hdigit | hmark := h
  · exact Nat.lt_of_le_of_lt hdigit.2 (by decide)
  · simp only [List.mem_cons, List.not_mem_nil, or_false] at hmark
    omega

/-- After the bytes of a number, of which there are some, another character starts. -/
theorem boundary_after {text after : List UInt8} (h : Utf.Aligned (text ++ after))
    (htext : ∀ b ∈ text, NumberByte b) (hne : text ≠ []) : boundary after = true := by
  cases after with
  | nil => rfl
  | cons c after =>
    obtain ⟨-, -, hnext⟩ := List.isChain_append.mp h
    have hlast := List.getLast?_eq_some_getLast hne
    exact decide_eq_true
      (hnext _ hlast c rfl (numberByte_ascii (htext _ (List.getLast_mem hne))))

theorem safe_number {byte : UInt8} {tail : List UInt8} (hbyte : NumberByte byte)
    (h : Utf.Aligned (byte :: tail)) : SafeAt (number float) (byte :: tail) := by
  have hsplit := List.takeWhile_append_dropWhile (p := fun b => decide (NumberByte b))
    (l := byte :: tail)
  have hne : ((byte :: tail).takeWhile fun b => decide (NumberByte b)) ≠ [] := by
    rw [List.takeWhile_cons_of_pos (by simpa using hbyte)]
    exact List.cons_ne_nil _ _
  have hafter : boundary ((byte :: tail).dropWhile fun b => decide (NumberByte b)) = true := by
    refine boundary_after ?_ (fun _ => of_mem_takeWhile) hne
    rwa [hsplit]
  have hstart : boundary (byte :: tail) = true := decide_eq_true (.inl (numberByte_ascii hbyte))
  cases hv : parseFloat float ((byte :: tail).takeWhile fun b => decide (NumberByte b)) with
  | none =>
    have hread : number float (byte :: tail) = .error (.failed "invalid JSON number") := by
      simp only [number, hstart, hafter, hv, and_self, if_true]
      rfl
    exact safeAt_of_error hread ⟨_, by decide, rfl⟩
  | some v =>
    have hread : number float (byte :: tail) =
        .ok (.number v, (byte :: tail).dropWhile fun b => decide (NumberByte b)) := by
      simp only [number, hstart, hafter, hv, and_self, if_true]
    exact safeAt_of_ok hread (List.dropWhile_suffix _)

-- Arrays and objects

theorem safe_elements (hitem : Safe item) (room : ℕ) (values : List Json) :
    Safe (elements item room values) := by
  induction room generalizing values with
  | zero => exact safe_fail (by decide)
  | succ room ih =>
    refine hitem.bind fun v => safe_ws.bind fun _ => safe_peek.bind fun byte => ?_
    refine safe_ite ?_ (safe_ite ?_ (safe_fail (by decide)))
    · exact (safe_skip 1).bind fun _ => ih _
    · exact (safe_skip 1).bind fun _ => safe_pure _

theorem safe_array (hitem : Safe item) : Safe (array item) := by
  refine (safe_skip 1).bind fun _ => safe_ws.bind fun _ => safe_peek.bind fun byte => ?_
  refine safe_ite ?_ (safe_elements hitem 1000 [])
  exact (safe_skip 1).bind fun _ => safe_pure _

theorem safe_members (hitem : Safe item) (fuel : ℕ) (done : List (String × Json)) :
    Safe (members item fuel done) := by
  induction fuel generalizing done with
  | zero => exact (safe_require (by decide)).bind fun _ => safe_fail (by decide)
  | succ fuel ih =>
    refine (safe_require (by decide)).bind fun _ => safe_ws.bind fun _ => safe_string.bind fun key => ?_
    refine safe_ws.bind fun _ => safe_peek.bind fun colon => (safe_require (by decide)).bind fun _ => ?_
    refine (safe_skip 1).bind fun _ => hitem.bind fun v => safe_ws.bind fun _ => ?_
    refine safe_peek.bind fun byte => safe_ite ?_ (safe_ite ?_ (safe_fail (by decide)))
    · exact (safe_skip 1).bind fun _ => ih _
    · exact (safe_skip 1).bind fun _ => safe_pure _

theorem safe_object (hitem : Safe item) : Safe (object item) := by
  refine (safe_skip 1).bind fun _ => safe_ws.bind fun _ => safe_peek.bind fun byte => ?_
  refine safe_ite ?_ fun bytes hbytes => safe_members hitem bytes.length [] bytes hbytes
  exact (safe_skip 1).bind fun _ => safe_pure _

-- Values

theorem safe_literal (text : String) (v : Json) :
    Safe (expect text >>= fun _ => (pure v : Parser Json)) :=
  (safe_expect text).bind fun _ => safe_pure v

theorem safe_dispatch (hitem : Safe item) {byte : UInt8} {tail : List UInt8}
    (h : Utf.Aligned (byte :: tail)) : SafeAt (dispatch float item byte) (byte :: tail) := by
  unfold dispatch
  split_ifs with hnull htrue hfalse hquote hbracket hbrace hnumber
  · exact safe_literal _ _ _ h
  · exact safe_literal _ _ _ h
  · exact safe_literal _ _ _ h
  · exact (safe_string.bind fun s => safe_pure (Json.string s)) _ h
  · exact safe_array hitem _ h
  · exact safe_object hitem _ h
  · refine safe_number ?_ h
    obtain rfl | hdigit := hnumber
    · exact .inr (by decide)
    · exact .inl hdigit
  · exact safe_fail (by decide) _ h

/-- **A value** is read without a cut character. -/
theorem safe_value (n : ℕ) : Safe (value float n) := by
  induction n with
  | zero => exact safe_ws.bind fun _ => safe_fail (by decide)
  | succ n ih =>
    refine safe_ws.bind fun _ => ?_
    intro bytes hbytes
    refine (safe_peek bytes hbytes).bind ?_
    intro byte rest hpeek
    cases hpeek
    cases bytes with
    | nil => exact safe_fail (by decide) _ hbytes
    | cons b tail => exact safe_dispatch ih hbytes

end Parser

/-- The bytes of a text are aligned. -/
theorem aligned_of_fromUtf8 {bytes : List UInt8} {s : String} (h : Wire.fromUtf8 bytes = some s) :
    Utf.Aligned bytes := by
  rw [← Wire.utf8_of_fromUtf8 h, Wire.utf8, Utf.toList_toByteArray]
  exact Utf.aligned_flatMap s.toList

/-- **The reader fails** with one of its texts, on any bytes. -/
theorem parseJson_error {float : FloatArith} {bytes : List UInt8} {e : ParseError}
    (h : parseJson float bytes = .error e) : e.Known := by
  unfold parseJson at h
  cases htext : Wire.fromUtf8 bytes with
  | none =>
    rw [htext] at h
    cases h
    exact ⟨_, by decide, rfl⟩
  | some s =>
    have hsafe : Parser.SafeAt (Parser.value float 33) bytes :=
      Parser.safe_value 33 bytes (aligned_of_fromUtf8 htext)
    rw [htext] at h
    dsimp only at h
    cases hvalue : Parser.value float 33 bytes with
    | error e' =>
      rw [hvalue] at h
      cases h
      exact hsafe.1 e hvalue
    | ok pair =>
      obtain ⟨v, rest⟩ := pair
      rw [hvalue, Wire.ok_bind] at h
      dsimp only [Parser.ws] at h
      rw [Wire.ok_bind] at h
      dsimp only at h
      split at h
      · cases h
      · cases h
        exact ⟨_, by decide, rfl⟩

/-- **The reader cuts no character**, on any bytes. -/
theorem parseJson_ne_outOfRange (float : FloatArith) (bytes : List UInt8) :
    parseJson float bytes ≠ .error .outOfRange := by
  intro h
  obtain ⟨text, -, htext⟩ := parseJson_error h
  cases htext

end NewsProviders

end InsiderTrader
