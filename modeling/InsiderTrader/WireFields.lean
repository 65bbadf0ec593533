import InsiderTrader.Library.LittleEndian
import InsiderTrader.Library.Wire

/-!
# Fields of the control-plane wire

The engine writes its responses field by field, and the terminal reads them
back. Numbers have a fixed width; a text has a length of 16 bits, so that a
longer one is cut; a collection has a count, which the terminal bounds.

## Main definitions

- `Terminal.Reader` — the terminal's reader of a response
- `Terminal.pushString`, `Terminal.sent` — a text as the engine writes it, and as it arrives
- `Terminal.Short` — a text that is not cut
- `Terminal.listBytes`, `Terminal.collection` — a counted list, written and read

## Main results

- `Terminal.sent_eq_self_iff` — a text arrives when it is not cut
- `Terminal.reads_collection` — a list arrives within its bound, when its parts do
-/

namespace InsiderTrader

namespace Terminal

open Wire

/-- The terminal reads a response from its bytes; an error is a text. -/
abbrev Reader (α : Type) : Type := Wire.Reader String α

/-- Amounts and identities of 128 bits. -/
abbrev Wide : Type := BitVec 128

/-- A 64-bit floating point value, by its bits. -/
abbrev FloatBits : Type := UInt64

/-- The exponent of a finite value is not the greatest one. -/
def isFinite (x : FloatBits) : Bool := x.toNat / 2 ^ 52 % 2 ^ 11 != 2 ^ 11 - 1

-- Numbers

def le16 (x : UInt16) : List UInt8 := LittleEndian.bytes 2 x.toNat

def le32 (x : UInt32) : List UInt8 := LittleEndian.bytes 4 x.toNat

def le64 (x : UInt64) : List UInt8 := LittleEndian.bytes 8 x.toNat

def leI64 (x : Int64) : List UInt8 := le64 x.toUInt64

def le128 (x : Wide) : List UInt8 := LittleEndian.bytes 16 x.toNat

/-- The byte of a condition. -/
def flag (b : Bool) : List UInt8 := [if b then 1 else 0]

def takeBytes (length : ℕ) : Reader (List UInt8) :=
  Wire.Reader.take "truncated engine response" length

/-- A little-endian number of a width in bytes. -/
def number (width : ℕ) : Reader ℕ := do
  let bytes ← takeBytes width
  pure (LittleEndian.value bytes)

def u8 : Reader UInt8 := do
  let value ← number 1
  pure (UInt8.ofNat value)

def u16 : Reader UInt16 := do
  let value ← number 2
  pure (UInt16.ofNat value)

def u32 : Reader UInt32 := do
  let value ← number 4
  pure (UInt32.ofNat value)

def u64 : Reader UInt64 := do
  let value ← number 8
  pure (UInt64.ofNat value)

def i64 : Reader Int64 := do
  let value ← u64
  pure value.toInt64

def u128 : Reader Wide := do
  let value ← number 16
  pure (BitVec.ofNat 128 value)

/-- A signed number, by its bits. -/
def i128 : Reader Wide := u128

/-- A finite floating point value. -/
def f64 : Reader FloatBits := do
  let value ← u64
  Wire.Reader.require (isFinite value) "non-finite wire number"
  pure value

theorem reads_number (width : ℕ) {v : ℕ} (h : v < 256 ^ width) :
    Reads (number width) (LittleEndian.bytes width v) (.ok v) := by
  have hread := (reads_take_of_length "truncated engine response"
    (LittleEndian.bytes_length width v)).bind_pure (g := LittleEndian.value)
  rwa [ok_bind, LittleEndian.value_bytes h] at hread

theorem reads_u8 (x : UInt8) : Reads u8 [x] (.ok x) := by
  have hbytes : LittleEndian.bytes 1 x.toNat = [x] := by
    rw [LittleEndian.bytes, LittleEndian.bytes, Nat.mod_eq_of_lt x.toNat_lt, UInt8.ofNat_toNat]
  have hread := (reads_number 1 x.toNat_lt).bind_pure (g := UInt8.ofNat)
  rwa [hbytes, ok_bind, UInt8.ofNat_toNat] at hread

theorem reads_u16 (x : UInt16) : Reads u16 (le16 x) (.ok x) := by
  have hread := (reads_number 2 x.toNat_lt).bind_pure (g := UInt16.ofNat)
  rwa [ok_bind, UInt16.ofNat_toNat] at hread

theorem reads_u64 (x : UInt64) : Reads u64 (le64 x) (.ok x) := by
  have hread := (reads_number 8 x.toNat_lt).bind_pure (g := UInt64.ofNat)
  rwa [ok_bind, UInt64.ofNat_toNat] at hread

theorem reads_i64 (x : Int64) : Reads i64 (leI64 x) (.ok x) := by
  have hread := (reads_u64 x.toUInt64).bind_pure (g := UInt64.toInt64)
  rwa [ok_bind, Int64.toInt64_toUInt64] at hread

theorem reads_u128 (x : Wide) : Reads u128 (le128 x) (.ok x) := by
  have hread := (reads_number 16 x.isLt).bind_pure (g := BitVec.ofNat 128)
  rwa [ok_bind, BitVec.ofNat_toNat, BitVec.setWidth_eq] at hread

/-- A floating point value as it arrives. -/
def sentFloat (x : FloatBits) : Except String FloatBits :=
  if isFinite x then .ok x else .error "non-finite wire number"

theorem reads_f64 (x : FloatBits) : Reads f64 (le64 x) (sentFloat x) := by
  have hread := (reads_u64 x).ok_bind (f := fun value => do
    Wire.Reader.require (isFinite value) "non-finite wire number"
    pure value) (Reads.require (c := isFinite x = true) fun _ => reads_pure x)
  rwa [List.append_nil] at hread

theorem sentFloat_eq_ok_iff {x y : FloatBits} : sentFloat x = .ok y ↔ isFinite x = true ∧ y = x := by
  unfold sentFloat
  split
  · next h =>
    constructor
    · rintro ⟨⟩
      exact ⟨h, rfl⟩
    · rintro ⟨-, rfl⟩
      rfl
  · next h => exact ⟨nofun, fun hy => absurd hy.1 h⟩

-- Texts

/-- A text after its length; what exceeds the greatest length is cut. -/
def pushString (value : String) : List UInt8 :=
  LittleEndian.bytes 2 (min (utf8 value).length 65535) ++ (utf8 value).take 65535

def string : Reader String := do
  let length ← u16
  Wire.Reader.require (length.toNat ≤ 1048576) "wire string exceeds bound"
  let bytes ← takeBytes length.toNat
  match fromUtf8 bytes with
  | some value => pure value
  | none => Wire.Reader.fail "wire string is not UTF-8"

/-- A text as it arrives. -/
def sent (value : String) : Except String String :=
  match fromUtf8 ((utf8 value).take 65535) with
  | some value => .ok value
  | none => .error "wire string is not UTF-8"

/-- A text that is not cut. -/
def Short (value : String) : Prop := (utf8 value).length ≤ 65535

/-- A text that is not cut inside a character. -/
def Cuttable (value : String) : Prop := ∃ cut, fromUtf8 ((utf8 value).take 65535) = some cut

theorem sent_of_short {value : String} (h : Short value) : sent value = .ok value := by
  rw [sent, List.take_of_length_le h, fromUtf8_utf8]

theorem length_of_sent {value cut : String} (h : sent value = .ok cut) :
    (utf8 cut).length = min 65535 (utf8 value).length := by
  unfold sent at h
  split at h
  · next _ hcut =>
    cases h
    rw [utf8_of_fromUtf8 hcut, List.length_take]
  · cases h

/-- **A text arrives** when it is not cut. -/
theorem sent_eq_self_iff {value : String} : sent value = .ok value ↔ Short value := by
  refine ⟨fun h => ?_, sent_of_short⟩
  have hlength := length_of_sent h
  show (utf8 value).length ≤ 65535
  omega

theorem exists_sent_iff {value : String} : (∃ cut, sent value = .ok cut) ↔ Cuttable value := by
  unfold sent Cuttable
  cases fromUtf8 ((utf8 value).take 65535) with
  | none => exact ⟨fun ⟨_, h⟩ => (nomatch h), fun ⟨_, h⟩ => (nomatch h)⟩
  | some cut => exact iff_of_true ⟨cut, rfl⟩ ⟨cut, rfl⟩

theorem Short.cuttable {value : String} (h : Short value) : Cuttable value :=
  exists_sent_iff.mp ⟨value, sent_of_short h⟩

theorem short_empty : Short "" := by
  show (utf8 "").length ≤ 65535
  decide

theorem reads_string (value : String) : Reads string (pushString value) (sent value) := by
  have hlength : min (utf8 value).length 65535 < 2 ^ 16 := by omega
  have htake : ((utf8 value).take 65535).length = min (utf8 value).length 65535 := by
    rw [List.length_take, Nat.min_comm]
  have hcount := (reads_number 2 hlength).bind_pure (g := UInt16.ofNat)
  rw [ok_bind] at hcount
  have hvalue : (UInt16.ofNat (min (utf8 value).length 65535)).toNat =
      min (utf8 value).length 65535 := UInt16.toNat_ofNat_of_lt' hlength
  apply Reads.ok_bind hcount
  have hbound : (UInt16.ofNat (min (utf8 value).length 65535)).toNat ≤ 1048576 := by
    rw [hvalue]
    omega
  rw [hvalue]
  have htext : Reads (takeBytes (min (utf8 value).length 65535) >>= fun bytes =>
      match fromUtf8 bytes with
      | some value => (pure value : Reader String)
      | none => Wire.Reader.fail "wire string is not UTF-8")
      ((utf8 value).take 65535 ++ []) (sent value) := by
    apply Reads.ok_bind (reads_take_of_length _ htake)
    unfold sent
    cases fromUtf8 ((utf8 value).take 65535) with
    | none => exact reads_fail _
    | some cut => exact reads_pure cut
  rw [List.append_nil] at htext
  have hchecked := Reads.require (e := "wire string exceeds bound")
    (c := min (utf8 value).length 65535 ≤ 1048576) (k := fun _ => _) fun _ => htext
  rwa [if_pos (by omega)] at hchecked

-- Options

/-- An optional number: a mark, and the number or a zero. -/
def optionBytes {α : Type} (w : α → List UInt8) (zero : α) (x : Option α) : List UInt8 :=
  flag x.isSome ++ w (x.getD zero)

/-- The value behind a mark. -/
def optional {α : Type} (marker : UInt8) (value : α) : Reader (Option α) :=
  if marker = 0 then pure none
  else if marker = 1 then pure (some value)
  else Wire.Reader.fail "invalid optional field marker"

def optionalOf {α : Type} (r : Reader α) : Reader (Option α) := do
  let marker ← u8
  let value ← r
  optional marker value

/-- An optional number arrives when its number does. -/
theorem reads_optionalOf {α : Type} {r : Reader α} {w : α → List UInt8} {o : α → Except String α}
    (zero : α) (hzero : o zero = .ok zero) (hr : ∀ a, Reads r (w a) (o a)) (x : Option α) :
    Reads (optionalOf r) (optionBytes w zero x) (x.mapM o) := by
  apply Reads.ok_bind (reads_u8 _)
  have hmarked : ∀ a, o (x.getD zero) = .ok a →
      Reads (optional (if x.isSome then 1 else 0) a) [] (.ok (x.map fun _ => a)) := by
    intro a _
    cases x with
    | none => exact reads_pure none
    | some b => exact reads_pure (some a)
  have hoption := (hr (x.getD zero)).bind hmarked
  rw [List.append_nil] at hoption
  cases x with
  | none =>
    rw [Option.getD_none, hzero] at hoption
    exact hoption
  | some a => exact hoption

/-- An optional number arrives. -/
theorem reads_optional {α : Type} {r : Reader α} {w : α → List UInt8} (zero : α)
    (hr : ∀ a, Reads r (w a) (.ok a)) (x : Option α) :
    Reads (optionalOf r) (optionBytes w zero x) (.ok x) := by
  have hoption := reads_optionalOf zero rfl hr x
  cases x <;> exact hoption

/-- An optional text: a mark, and the text when there is one. -/
def optionalStringBytes : Option String → List UInt8
  | none => flag false
  | some value => flag true ++ pushString value

def optionalString : Reader (Option String) := do
  let marker ← u8
  if marker = 0 then pure none
  else if marker = 1 then do
    let value ← string
    pure (some value)
  else Wire.Reader.fail "invalid optional string marker"

theorem reads_optionalString (x : Option String) :
    Reads optionalString (optionalStringBytes x) (x.mapM sent) := by
  cases x with
  | none =>
    show Reads optionalString ([0] ++ []) (.ok none)
    exact Reads.ok_bind (reads_u8 0) (reads_pure none)
  | some value => exact Reads.ok_bind (reads_u8 1) ((reads_string value).bind_pure (g := some))

-- Names and nested bytes

/-- The name at a code; a code without a name is refused. -/
def label (values : List String) : Reader String := do
  let value ← u8
  match values[value.toNat]?.filter (!·.isEmpty) with
  | some name => pure name
  | none => Wire.Reader.fail s!"invalid wire enum {value}"

theorem reads_label {values : List String} {value : UInt8} {name : String}
    (h : values[value.toNat]?.filter (!·.isEmpty) = some name) :
    Reads (label values) [value] (.ok name) := by
  apply Reads.ok_bind (reads_u8 value)
  rw [h]
  exact reads_pure name

/-- Bytes after a count of 32 bits. -/
def nestedBytes (bytes : List UInt8) : List UInt8 :=
  LittleEndian.bytes 4 (min bytes.length (2 ^ 32 - 1)) ++ bytes

/-- Some bytes, within a bound. -/
def byteVec (max : ℕ) : Reader (List UInt8) := do
  let length ← u32
  Wire.Reader.require (¬(length.toNat = 0 ∨ length.toNat > max)) "wire byte field exceeds bound"
  takeBytes length.toNat

/-- Bytes as they arrive, within a bound. -/
def receivedBytes (max : ℕ) (bytes : List UInt8) : Except String (List UInt8) :=
  if bytes.length = 0 ∨ bytes.length > max then .error "wire byte field exceeds bound"
  else .ok bytes

theorem reads_byteVec {max : ℕ} (hmax : max < 2 ^ 32 - 1) (bytes : List UInt8) :
    Reads (byteVec max) (nestedBytes bytes) (receivedBytes max bytes) := by
  have hlt : min bytes.length (2 ^ 32 - 1) < 2 ^ 32 := by omega
  have hcount := (reads_number 4 hlt).bind_pure (g := UInt32.ofNat)
  rw [ok_bind] at hcount
  have hvalue : (UInt32.ofNat (min bytes.length (2 ^ 32 - 1))).toNat =
      min bytes.length (2 ^ 32 - 1) := UInt32.toNat_ofNat_of_lt' hlt
  apply hcount.ok_bind
  rw [hvalue, receivedBytes]
  by_cases hbound : bytes.length = 0 ∨ bytes.length > max
  · have hrefused : ¬¬(min bytes.length (2 ^ 32 - 1) = 0 ∨
        min bytes.length (2 ^ 32 - 1) > max) := by omega
    rw [if_pos hbound]
    intro rest
    rw [Wire.Reader.require, if_neg hrefused]
    rfl
  · rw [if_neg hbound, Nat.min_eq_left (by omega)]
    have hchecked := Reads.require (c := ¬(bytes.length = 0 ∨ bytes.length > max))
      (e := "wire byte field exceeds bound") (k := fun _ => takeBytes bytes.length)
      fun _ => reads_take _ bytes
    rwa [if_pos hbound] at hchecked

-- Collections

section Collections

variable {α γ : Type}

/-- The bytes of a list after a count of 32 bits. -/
def listBytes (w : γ → List UInt8) (l : List γ) : List UInt8 :=
  LittleEndian.bytes 4 (min l.length (2 ^ 32 - 1)) ++ l.flatMap w

def count (max : ℕ) : Reader ℕ := do
  let value ← u32
  Wire.Reader.require (value.toNat ≤ max) "wire collection exceeds bound"
  pure value.toNat

/-- As many values as the count says, within a bound. -/
def collection (max : ℕ) (r : Reader α) : Reader (List α) := do
  let n ← count max
  times r n

/-- A list as it arrives, within a bound. -/
def received (max : ℕ) (e : String) (l : List γ) (o : γ → Except String α) :
    Except String (List α) :=
  if l.length ≤ max then l.mapM o else .error e

/-- The bytes of some of a list after a count of 16 bits. -/
def shortListBytes (w : γ → List UInt8) (length : ℕ) (l : List γ) : List UInt8 :=
  LittleEndian.bytes 2 (min length 65535) ++ l.flatMap w

/-- As many values as the short count says, within a bound. -/
def shortCollection (max : ℕ) (e : String) (r : Reader α) : Reader (List α) := do
  let length ← u16
  Wire.Reader.require (length.toNat ≤ max) e
  times r length.toNat

variable {r : Reader α} {w : γ → List UInt8} {o : γ → Except String α} {l : List γ} {max : ℕ}

/-- A count, within its bound or not. -/
theorem reads_count {n : ℕ} (hmax : max < 2 ^ 32 - 1) :
    Reads (count max) (LittleEndian.bytes 4 (min n (2 ^ 32 - 1)))
      (if n ≤ max then .ok n else .error "wire collection exceeds bound") := by
  have hlt : min n (2 ^ 32 - 1) < 2 ^ 32 := by omega
  have hcount := (reads_number 4 hlt).bind_pure (g := UInt32.ofNat)
  rw [ok_bind] at hcount
  have hvalue : (UInt32.ofNat (min n (2 ^ 32 - 1))).toNat = min n (2 ^ 32 - 1) :=
    UInt32.toNat_ofNat_of_lt' hlt
  have hchecked := hcount.ok_bind (f := fun value => do
    Wire.Reader.require (value.toNat ≤ max) "wire collection exceeds bound"
    pure value.toNat) (Reads.require fun _ => reads_pure _)
  rw [List.append_nil, hvalue] at hchecked
  by_cases hn : n ≤ max
  · rw [if_pos hn, Nat.min_eq_left (by omega)]
    rwa [if_pos (by omega), Nat.min_eq_left (by omega)] at hchecked
  · rw [if_neg hn]
    rwa [if_neg (by omega)] at hchecked

/-- **A list arrives** within its bound, when its parts do. -/
theorem reads_collection (hmax : max < 2 ^ 32 - 1) (h : ∀ x ∈ l, Reads r (w x) (o x)) :
    Reads (collection max r) (listBytes w l)
      (received max "wire collection exceeds bound" l o) := by
  have hn := reads_count hmax (n := l.length)
  by_cases hlength : l.length ≤ max
  · rw [if_pos hlength] at hn
    rw [received, if_pos hlength]
    exact hn.ok_bind (reads_times h)
  · rw [if_neg hlength] at hn
    rw [received, if_neg hlength]
    exact hn.bind (p := fun _ => .error "wire collection exceeds bound") nofun

/-- **A list with a short count** arrives within its bound, when all of it is written. -/
theorem reads_shortCollection {e : String} {written : List γ} (hmax : max < 65535)
    (hwritten : l.length ≤ max → written = l) (h : ∀ x ∈ l, Reads r (w x) (o x)) :
    Reads (shortCollection max e r) (shortListBytes w l.length written)
      (received max e l o) := by
  have hlt : min l.length 65535 < 2 ^ 16 := by omega
  have hcount := (reads_number 2 hlt).bind_pure (g := UInt16.ofNat)
  rw [ok_bind] at hcount
  have hvalue : (UInt16.ofNat (min l.length 65535)).toNat = min l.length 65535 :=
    UInt16.toNat_ofNat_of_lt' hlt
  by_cases hlength : l.length ≤ max
  · rw [received, if_pos hlength, hwritten hlength]
    apply hcount.ok_bind
    rw [hvalue, Nat.min_eq_left (by omega)]
    have hchecked := Reads.require (c := l.length ≤ max) (e := e)
      (k := fun _ => times r l.length) fun _ => reads_times h
    rwa [if_pos hlength] at hchecked
  · rw [received, if_neg hlength]
    apply hcount.ok_bind
    rw [hvalue]
    have hexceeds : ¬min l.length 65535 ≤ max := by omega
    have hrefused : min l.length 65535 ≤ max →
        Reads (times r (min l.length 65535)) (written.flatMap w) (.error e) :=
      fun hle => absurd hle hexceeds
    have hchecked := Reads.require (e := e) (k := fun _ => _) hrefused
    rwa [if_neg hexceeds] at hchecked

theorem received_eq_ok_map_iff {e : String} {v : γ → α} :
    received max e l o = .ok (l.map v) ↔ l.length ≤ max ∧ ∀ x ∈ l, o x = .ok (v x) := by
  unfold received
  split
  · next h => rw [mapM_eq_ok_map_iff, and_iff_right h]
  · next h => exact iff_of_false nofun fun hl => h hl.1

theorem exists_received_iff {e : String} :
    (∃ as, received max e l o = .ok as) ↔ l.length ≤ max ∧ ∀ x ∈ l, ∃ a, o x = .ok a := by
  unfold received
  split
  · next h => rw [exists_mapM_eq_ok_iff, and_iff_right h]
  · next h => exact iff_of_false (fun ⟨_, hl⟩ => nomatch hl) fun hl => h hl.1

end Collections

end Terminal

end InsiderTrader
