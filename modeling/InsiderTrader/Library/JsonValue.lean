import Mathlib.Algebra.Order.Ring.Int

/-!
# JSON values

Parsed JSON and the accessors through which a program reads it. A number is an
integer when its text has neither a fraction nor an exponent, and a double
otherwise; what a double is worth is left to the program that reads it.

## Main definitions

- `JsonValue` — a parsed value
- `JsonValue.field` — the member of an object
- `JsonValue.asInt64`, `JsonValue.asNat64` — a number as a 64-bit integer
-/

/-- A JSON number: an integer, or a double by its bits. -/
inductive JsonNumber where
  | integer (value : Int)
  | double (bits : ℕ)
  deriving DecidableEq

/-- A parsed JSON value; an object has a key at most once. -/
inductive JsonValue where
  | null
  | bool (value : Bool)
  | number (value : JsonNumber)
  | string (text : String)
  | array (items : List JsonValue)
  | object (members : List (String × JsonValue))

namespace JsonValue

/-- The member of an object with a key; other values have no members. -/
def field (key : String) : JsonValue → Option JsonValue
  | object members => (members.find? (·.1 = key)).map (·.2)
  | _ => none

/-- The first of the keys that an object has. -/
def fieldAmong (keys : List String) (value : JsonValue) : Option JsonValue :=
  keys.findSome? fun key => value.field key

def asBool : JsonValue → Option Bool
  | bool value => some value
  | _ => none

def asString : JsonValue → Option String
  | string text => some text
  | _ => none

def asArray : JsonValue → Option (List JsonValue)
  | array items => some items
  | _ => none

def asNumber : JsonValue → Option JsonNumber
  | number value => some value
  | _ => none

/-- An integer that fits signed 64 bits. -/
def asInt64 : JsonValue → Option Int
  | number (.integer value) => if -2 ^ 63 ≤ value ∧ value < 2 ^ 63 then some value else none
  | _ => none

/-- An integer that fits unsigned 64 bits. -/
def asNat64 : JsonValue → Option ℕ
  | number (.integer value) =>
    if 0 ≤ value ∧ value < 2 ^ 64 then some value.toNat else none
  | _ => none

@[simp] theorem field_object (key : String) (members : List (String × JsonValue)) :
    (object members).field key = (members.find? (·.1 = key)).map (·.2) := rfl

@[simp] theorem asArray_array (items : List JsonValue) : (array items).asArray = some items := rfl

@[simp] theorem asString_string (text : String) : (string text).asString = some text := rfl

end JsonValue
