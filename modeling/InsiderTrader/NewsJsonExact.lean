import InsiderTrader.Library.JsonBytes
import InsiderTrader.NewsJsonComplete
import InsiderTrader.NewsJsonFailures
import InsiderTrader.Operation

/-!
# When the JSON reader accepts just JSON

The reader accepts the texts of its own dialect. A text of the standard is read unless a
string of it has a piece that the reader does not know; and some texts that are read are
not of the standard.

## Main definitions

- `NewsProviders.ReadsJson` — the reader accepts the bytes just when they are JSON
- `NewsProviders.PlainJson` — what the standard and the reader make of the bytes is the same

## Main results

- `NewsProviders.parseJson_iff` — the bytes that are read, and their value
- `NewsProviders.readsJson_iff` — when the reader accepts just JSON
-/

namespace InsiderTrader

open JsonText

namespace NewsProviders

/-- The texts of the standard with the bounds of the reader on arrays and objects. -/
def boundedJson : Dialect where
  __ := rfcJson
  count n := n ≤ 1000
  names keys := keys.length ≤ 256

/-- The texts of the standard, within those bounds, whose strings the reader knows. -/
def knownJson : Dialect where
  __ := boundedJson
  item piece := RfcItem piece ∧ ReaderItem piece

/-- The texts of the reader with the white space, the numbers and the names of the standard. -/
def strictJson : Dialect where
  __ := readerJson
  blank := RfcBlank
  numeral := Numeral
  opens b := b = 0x22
  white_of_blank := rfcJson.white_of_blank
  numberText_of_numeral := rfcJson.numberText_of_numeral
  dark_of_opens := rfcJson.dark_of_opens

/-- A text of a dialect, in any number of levels. -/
def IsJson (float : FloatArith) (d : Dialect) (tree : JsonText.Tree F64) (bytes : List UInt8) : Prop :=
  ∃ n, Text (Parser.parseFloat float) d n tree bytes

/-- **The reader accepts** bytes, within its bounds, just when they are JSON, with their value. -/
structure ReadsJson (float : FloatArith) (bytes : List UInt8) : Prop where
  accepts : ∀ tree, IsJson float boundedJson tree bytes → tree.nesting ≤ 32 →
    parseJson float bytes = .ok (Json.ofTree tree)
  only : ∀ value, parseJson float bytes = .ok value →
    ∃ tree, IsJson float rfcJson tree bytes ∧ value = Json.ofTree tree
  inRange : parseJson float bytes ≠ .error .outOfRange

/-- The strings of a JSON text are of pieces that the reader knows, and what is a text in 33
levels for the reader is one of the standard. -/
structure PlainJson (float : FloatArith) (bytes : List UInt8) : Prop where
  known : ∀ tree, IsJson float boundedJson tree bytes → tree.nesting ≤ 32 →
    IsJson float knownJson tree bytes
  strict : ∀ tree, (Wire.fromUtf8 bytes).isSome →
    Text (Parser.parseFloat float) readerJson 33 tree bytes → IsJson float strictJson tree bytes

variable {float : FloatArith} {bytes : List UInt8} {tree : JsonText.Tree F64}

theorem roomFor_of_length {names : List String} {keys : List (List ℕ)}
    (h : names.length + keys.length ≤ 256) : RoomFor names keys := by
  induction keys generalizing names with
  | nil => trivial
  | cons key keys ih =>
    rw [List.length_cons] at h
    refine ⟨by omega, ih ?_⟩
    have hfilter := List.length_filter_le (fun name => decide (name ≠ nameText key)) names
    rw [List.length_append, List.length_singleton]
    omega

theorem knownJson_within : knownJson.Within readerJson where
  blank b h := rfcJson.white_of_blank b h
  numeral _ h := ⟨h.numberText, h.loose⟩
  item _ h := h.2
  opens b h := rfcJson.dark_of_opens b h
  count _ h := h
  names _ h := roomFor_of_length (Nat.le_trans (Nat.zero_add _).le h)

theorem boundedJson_within : boundedJson.Within rfcJson :=
  ⟨fun _ => id, fun _ => id, fun _ => id, fun _ => id, fun _ _ => trivial, fun _ _ => trivial⟩

theorem strictJson_within : strictJson.Within rfcJson where
  blank _ h := h
  numeral _ h := h
  item _ h b hb := (h.raw b hb).1
  opens _ h := h
  count _ _ := trivial
  names _ _ := trivial

theorem isSome_fromUtf8 (h : IsJson float rfcJson tree bytes) : (Wire.fromUtf8 bytes).isSome := by
  obtain ⟨n, htext⟩ := h
  have hopens : ∀ b, rfcJson.opens b → b.toNat < 0x80 := by
    rintro b rfl
    decide
  obtain ⟨cs, rfl⟩ := htext.isText hopens
  have hutf8 : cs.flatMap String.utf8EncodeChar = Wire.utf8 (String.ofList cs) := by
    rw [Wire.utf8, Utf.toList_toByteArray, String.toList_ofList]
  rw [hutf8, Wire.fromUtf8_utf8]
  rfl

theorem meet_known : (boundedJson.meet readerJson).Within knownJson where
  blank _ h := h.1
  numeral _ h := h.1
  item _ h := h
  opens _ h := h.1
  count _ h := h.1
  names _ h := h.1

theorem meet_strict : (readerJson.meet rfcJson).Within strictJson where
  blank _ h := h.2
  numeral _ h := h.2
  item _ h := h.1
  opens _ h := h.2
  count _ h := h.1
  names _ h := h.1

/-- **The bytes that are read** are the texts of the dialect of the reader, with their value. -/
theorem parseJson_iff (hfloat : float.Decimal) {v : Json} : parseJson float bytes = .ok v ↔
    (Wire.fromUtf8 bytes).isSome ∧ ∃ tree,
      Text (Parser.parseFloat float) readerJson 33 tree bytes ∧ v = Json.ofTree tree := by
  unfold parseJson
  cases htext : Wire.fromUtf8 bytes with
  | none => simp
  | some s =>
    dsimp only
    constructor
    · intro h
      refine ⟨rfl, ?_⟩
      obtain ⟨⟨w, rest⟩, hvalue, hrest⟩ := Wire.bind_eq_ok.mp h
      obtain ⟨⟨u, after⟩, hws, hafter⟩ := Wire.bind_eq_ok.mp hrest
      obtain ⟨blanks, t, a, rfl, hblanks, ht, rfl⟩ := Parser.value_sound hfloat 33 hvalue
      obtain ⟨blanks', rfl, hblanks', -⟩ := Parser.ws_eq_ok hws
      dsimp only at hafter
      split at hafter
      · next hend =>
        subst hend
        cases hafter
        rw [List.append_nil]
        exact ⟨t, .mk hblanks ht hblanks', rfl⟩
      · cases hafter
    · rintro ⟨-, tree, htree, rfl⟩
      obtain ⟨blanks, a, blanks', rfl, hblanks, ht, hblanks'⟩ := htree.exists_append
      have hread := Parser.reads_of_spells ht blanks' (Parser.follow_blanks hblanks')
      have hws : Parser.ws blanks' = .ok ((), []) := by
        have h := Parser.ws_of_stops hblanks' stops_nil
        rwa [List.append_nil] at h
      rw [Parser.value_blanks hblanks, hread, Wire.ok_bind]
      dsimp only
      rw [hws, Wire.ok_bind]
      rfl

/-- **The reader accepts just JSON** where strings are of pieces that it knows and where the text
that it sees is one of the standard. -/
theorem readsJson_iff (hfloat : float.Decimal) : ReadsJson float bytes ↔ PlainJson float bytes := by
  constructor
  · intro h
    constructor
    · rintro tree ⟨n, htext⟩ hnesting
      obtain ⟨-, tree', hreader, -⟩ :=
        (parseJson_iff hfloat).mp (h.accepts tree ⟨n, htext⟩ hnesting)
      obtain ⟨-, hmeet⟩ := htext.meet hreader
      exact ⟨n, hmeet.mono meet_known⟩
    · intro tree hutf8 hreader
      have hread := (parseJson_iff hfloat).mpr ⟨hutf8, tree, hreader, rfl⟩
      obtain ⟨tree', ⟨n, hrfc⟩, -⟩ := h.only _ hread
      obtain ⟨-, hmeet⟩ := hreader.meet hrfc
      exact ⟨33, hmeet.mono meet_strict⟩
  · intro h
    constructor
    · intro tree htext hnesting
      obtain ⟨n, hknown⟩ := h.known tree htext hnesting
      obtain ⟨m, hbounded⟩ := htext
      have hutf8 := isSome_fromUtf8 ⟨m, hbounded.mono boundedJson_within⟩
      have hreader := (hknown.relevel (Nat.lt_succ_of_le hnesting)).mono knownJson_within
      exact (parseJson_iff hfloat).mpr ⟨hutf8, tree, hreader, rfl⟩
    · intro v hread
      obtain ⟨hutf8, tree, hreader, rfl⟩ := (parseJson_iff hfloat).mp hread
      obtain ⟨n, hstrict⟩ := h.strict tree hutf8 hreader
      exact ⟨tree, ⟨n, hstrict.mono strictJson_within⟩, rfl⟩
    · exact parseJson_ne_outOfRange float bytes

-- Texts that tell the reader from the standard

namespace Sample

/-- The bytes of an ASCII text. -/
def textBytes (s : String) : List UInt8 := s.toList.map fun c => UInt8.ofNat c.toNat

/-- Arithmetic on zero and one, with a conversion that accepts decimal numerals. -/
def decimals : FloatArith where
  __ := InsiderTrader.Sample.float
  parse s := if LooseNumeral (textBytes s) then
      some (if s = "0" then ⟨0⟩ else InsiderTrader.Sample.one)
    else none

theorem textBytes_ofAscii (text : List UInt8) : textBytes (Parser.ofAscii text) = text := by
  have hbyte (b : UInt8) : UInt8.ofNat (Char.ofNat b.toNat).toNat = b := by
    rw [Utf.toNat_ofNat (.inl (by have := b.toNat_lt; omega)), UInt8.ofNat_toNat]
  rw [textBytes, Parser.ofAscii, String.toList_ofList, List.map_map]
  exact List.map_id'' hbyte text

theorem decimals_decimal : decimals.Decimal := by
  intro text _
  simp only [Parser.parseFloat, decimals, textBytes_ofAscii]
  split
  · next h => exact ⟨fun _ => h, fun _ => rfl⟩
  · next h => exact ⟨fun hsome => absurd hsome (by simp), fun hloose => absurd hloose h⟩

/-- A string of a backspace, as an escape. -/
def backspace : List UInt8 := [0x22, 0x5C, 0x62, 0x22]

theorem backspace_isJson : IsJson decimals boundedJson (.string [8]) backspace := by
  have hitem : RfcItem [0x5C, 0x62] := by
    intro b hb
    cases hb
  have hbody : Chars RfcItem [0x5C, 0x62] [8] := .cons (.escape (by decide)) hitem .nil
  have hstring : Spells (Parser.parseFloat decimals) boundedJson 1 (.value (.string [8]))
      (0x22 :: ([0x5C, 0x62] ++ [0x22])) := .string hbody
  exact ⟨1, hstring.text⟩

theorem backspace_refused :
    parseJson decimals backspace = .error (.failed "unsupported JSON escape") := rfl

/-- A number after a form feed. -/
def formFeed : List UInt8 := [0x0C, 0x31]

theorem formFeed_read :
    parseJson decimals formFeed = .ok (.number InsiderTrader.Sample.one) := rfl

theorem formFeed_not_isJson (tree : JsonText.Tree F64) : ¬IsJson decimals rfcJson tree formFeed := by
  rintro ⟨n, htext⟩
  obtain ⟨ws, a, ws', hbytes, hws, hvalue, -⟩ := htext.exists_append
  cases ws with
  | nil =>
    obtain ⟨b, rest, rfl, hkind, -⟩ := hvalue.head
    injection hbytes with hb
    rw [← hb] at hkind
    cases hkind
  | cons b ws =>
    injection hbytes with hb
    have hblank : RfcBlank b := hws b List.mem_cons_self
    rw [← hb] at hblank
    exact absurd hblank (by decide)

/-- The reader refuses a JSON text and reads one that is not JSON. -/
theorem backspace_and_formFeed : ¬ReadsJson decimals backspace ∧ ¬ReadsJson decimals formFeed := by
  constructor
  · intro h
    have hread := h.accepts (.string [8]) backspace_isJson (Nat.zero_le 32)
    rw [backspace_refused] at hread
    cases hread
  · intro h
    obtain ⟨tree, htree, -⟩ := h.only _ formFeed_read
    exact formFeed_not_isJson tree htree

end Sample

/-- A text of one piece that the reader does not know is not plain. -/
theorem not_plainJson_backspace : ¬PlainJson Sample.decimals Sample.backspace := by
  intro h
  have hread := (readsJson_iff Sample.decimals_decimal).mpr h
  have hvalue := hread.accepts (.string [8]) Sample.backspace_isJson (Nat.zero_le 32)
  rw [Sample.backspace_refused] at hvalue
  cases hvalue

end NewsProviders

end InsiderTrader
