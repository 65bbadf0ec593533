import InsiderTrader.Library.JsonNumerals
import InsiderTrader.Library.Wire
import InsiderTrader.Strategy

/-!
# The JSON reader of the news providers

A small bounded reader of provider responses: the bytes are left to right what is
still to be read, and the offset of the source is where they start.

## Main definitions

- `NewsProviders.Json` — a value of a response
- `NewsProviders.Parser` — the reader, part by part
- `NewsProviders.parseJson` — the value of a response
-/

namespace InsiderTrader

open JsonText

namespace NewsProviders

/-- A value of a response. The members of an object have different names. -/
inductive Json where
  | null
  | bool
  | number (value : F64)
  | string (value : String)
  | array (items : List Json)
  | object (members : List (String × Json))

/-- What ends the reader: a failure with its text, or a slice that cuts a character. -/
inductive ParseError where
  | failed (message : String)
  | outOfRange
  deriving DecidableEq

/-- A part of the reader, on the bytes from its offset on. -/
abbrev Parser (α : Type) : Type := Wire.Reader ParseError α

namespace Parser

def fail {α : Type} (message : String) : Parser α := Wire.Reader.fail (.failed message)

def require (c : Prop) [Decidable c] (message : String) : Parser Unit :=
  Wire.Reader.require c (.failed message)

/-- The offset, some bytes on. -/
def skip (n : ℕ) : Parser Unit := fun rest => .ok ((), rest.drop n)

/-- The byte at the offset. -/
def peek : Parser (Option UInt8) := fun rest => .ok (rest.head?, rest)

/-- Skip ASCII white space. -/
def ws : Parser Unit := fun rest => .ok ((), rest.dropWhile fun b => decide (White b))

/-- Skip a literal. -/
def expect (value : String) : Parser Unit := fun rest =>
  if rest.take (ascii value).length = ascii value then skip (ascii value).length rest
  else fail "invalid JSON literal" rest

-- Strings

/-- The value of hexadecimal digits; four of them are in the range of the source's integer. -/
def hexCode (digits : List UInt8) : Option ℕ :=
  digits.foldlM (fun value digit => (hexValue digit).map (value * 16 + ·)) 0

/-- The character of a unicode escape, after its mark. -/
def unicodeEscape : Parser Char := fun rest =>
  if rest.length < 4 then fail "truncated unicode escape" rest
  else
    match hexCode (rest.take 4) with
    | none => fail "invalid unicode escape" rest
    | some code =>
      if code.isValidChar then .ok (Char.ofNat code, rest.drop 4)
      else fail "invalid unicode scalar" rest

/-- The character of an escape of one character. -/
def unescaped (byte : UInt8) : Option Char :=
  ([(0x22, '"'), (0x5C, '\\'), (0x2F, '/'), (0x6E, '\n'), (0x72, '\r'), (0x74, '\t')].find?
    (·.1 = byte.toNat)).map (·.2)

/-- The character of an escape, after its backslash. -/
def escape : Parser Char
  | [] => fail "truncated JSON escape" []
  | escaped :: rest =>
    if escaped = 0x75 then unicodeEscape rest
    else
      match unescaped escaped with
      | some character => .ok (character, rest)
      | none => fail "unsupported JSON escape" rest

/-- The next character of a string; no character starts off a boundary of the text. -/
def character (byte : UInt8) (rest : List UInt8) : Except ParseError (Char × List UInt8) :=
  if byte = 0x5C then escape rest
  else if byte.toNat < 0x20 ∨ byte = 0x7F then fail "control character in JSON string" rest
  else
    match Utf.decodeChar (byte :: rest) with
    | some c => .ok (c, (byte :: rest).drop (String.utf8EncodeChar c).length)
    | none => fail "invalid UTF-8 JSON string" rest

/-- The characters of a string up to its closing quote; each takes a byte at least of what is
left, of which there are no more than the fuel. -/
def characters : ℕ → String → Parser String
  | 0, _, rest => fail "unterminated JSON string" rest
  | _ + 1, _, [] => fail "unterminated JSON string" []
  | fuel + 1, output, byte :: rest =>
    if byte = 0x22 then .ok (output, rest)
    else
      match character byte rest with
      | .ok (c, rest) => characters fuel (output.push c) rest
      | .error e => .error e

/-- Read a string. The byte that opens it is not looked at. -/
def string : Parser String := do
  skip 1
  fun rest => characters rest.length "" rest

-- Numbers

/-- Whether a slice may start or end in front of some bytes of a text. -/
def boundary : List UInt8 → Bool
  | [] => true
  | b :: _ => b.toNat < 0x80 ∨ 0xC0 ≤ b.toNat

/-- The text of ASCII bytes. -/
def ofAscii (bytes : List UInt8) : String := String.ofList (bytes.map fun b => Char.ofNat b.toNat)

/-- The number of a text. -/
def parseFloat (float : FloatArith) (text : List UInt8) : Option F64 := float.parse (ofAscii text)

/-- Read a number. -/
def number (float : FloatArith) : Parser Json := fun rest =>
  let text := rest.takeWhile fun b => decide (NumberByte b)
  let after := rest.dropWhile fun b => decide (NumberByte b)
  if boundary rest ∧ boundary after then
    match parseFloat float text with
    | some value => .ok (.number value, after)
    | none => fail "invalid JSON number" after
  else .error .outOfRange

-- Arrays and objects

/-- The elements of an array, with the number of those that are allowed still. -/
def elements (value : Parser Json) : ℕ → List Json → Parser Json
  | 0, _ => fail "JSON array exceeds bound"
  | room + 1, values => do
    let item ← value
    ws
    let byte ← peek
    if byte = some 0x2C then do
      skip 1
      elements value room (values ++ [item])
    else if byte = some 0x5D then do
      skip 1
      pure (.array (values ++ [item]))
    else fail "invalid JSON array"

/-- Read an array. -/
def array (value : Parser Json) : Parser Json := do
  skip 1
  ws
  let byte ← peek
  if byte = some 0x5D then do
    skip 1
    pure (.array [])
  else elements value 1000 []

/-- Put a member into an object, in place of one of the same name. -/
def insert (members : List (String × Json)) (key : String) (item : Json) : List (String × Json) :=
  members.filter (·.1 ≠ key) ++ [(key, item)]

/-- The members of an object; each takes a byte at least of what is left, of which there are no
more than the fuel. Without any byte left the name of a member has no end. -/
def members (value : Parser Json) : ℕ → List (String × Json) → Parser Json
  | 0, values => do
    require (values.length < 256) "JSON object exceeds bound"
    fail "unterminated JSON string"
  | fuel + 1, values => do
    require (values.length < 256) "JSON object exceeds bound"
    ws
    let key ← string
    ws
    let colon ← peek
    require (colon = some 0x3A) "invalid JSON object"
    skip 1
    let item ← value
    ws
    let byte ← peek
    if byte = some 0x2C then do
      skip 1
      members value fuel (insert values key item)
    else if byte = some 0x7D then do
      skip 1
      pure (.object (insert values key item))
    else fail "invalid JSON object"

/-- The members of an object from the first one on. -/
def allMembers (value : Parser Json) : Parser Json := fun rest => members value rest.length [] rest

/-- Read an object. -/
def object (value : Parser Json) : Parser Json := do
  skip 1
  ws
  let byte ← peek
  if byte = some 0x7D then do
    skip 1
    pure (.object [])
  else allMembers value

/-- Read the value that starts with a byte. -/
def dispatch (float : FloatArith) (value : Parser Json) (byte : UInt8) : Parser Json :=
  if byte = 0x6E then do
    expect "null"
    pure .null
  else if byte = 0x74 then do
    expect "true"
    pure .bool
  else if byte = 0x66 then do
    expect "false"
    pure .bool
  else if byte = 0x22 then do
    let s ← string
    pure (.string s)
  else if byte = 0x5B then array value
  else if byte = 0x7B then object value
  else if byte = 0x2D ∨ Digit byte then number float
  else fail "invalid JSON value"

/-- Read a value, with the number of levels that are allowed still: 33 less the depth. -/
def value (float : FloatArith) : ℕ → Parser Json
  | 0 => do
    ws
    fail "JSON nesting exceeds bound"
  | level + 1 => do
    ws
    let byte ← peek
    match byte with
    | none => fail "unexpected JSON EOF"
    | some byte => dispatch float (value float level) byte

end Parser

/-- The value of a response. -/
def parseJson (float : FloatArith) (bytes : List UInt8) : Except ParseError Json :=
  match Wire.fromUtf8 bytes with
  | none => .error (.failed "provider response is not UTF-8")
  | some _ => do
    let (value, rest) ← Parser.value float 33 bytes
    let ((), rest) ← Parser.ws rest
    if rest = [] then .ok value else .error (.failed "trailing JSON data")

end NewsProviders

end InsiderTrader
