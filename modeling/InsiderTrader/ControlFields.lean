import InsiderTrader.Library.Text
import InsiderTrader.Library.WireList
import InsiderTrader.Strategy
import InsiderTrader.WireFields

/-!
# Fields of the command payloads

The payload of a command is written field by field after a mark. Numbers are
little-endian with the width of their type.

## Main definitions

- `Control.mark` — the mark of a payload
- `Control.u16`, `Control.u32`, `Control.u64`, `Control.u128` — numbers
-/

namespace InsiderTrader

namespace Control

open Wire

/-- The mark of a payload. -/
def mark (name : String) : List UInt8 := utf8 name ++ [0]

def u16 (n : ℕ) : List UInt8 := LittleEndian.bytes 2 n

def u32 (n : ℕ) : List UInt8 := LittleEndian.bytes 4 n

def u64 (n : ℕ) : List UInt8 := LittleEndian.bytes 8 n

def u128 (n : ℕ) : List UInt8 := LittleEndian.bytes 16 n

def i64 (x : Int) : List UInt8 := signedBytes 8 x

def i128 (x : Int) : List UInt8 := signedBytes 16 x

def f64 (x : F64) : List UInt8 := u64 x.bits

end Control

end InsiderTrader
