import Mathlib.Algebra.Order.Ring.Int

/-!
# Text

The string operations the program relies on, on lists of characters: trimming
at Unicode white space, splitting at the last separator and reading numbers.

## Main definitions

- `Text.isBlank` — nothing is left after trimming
- `Text.trim`, `Text.words` — leave out white space
- `Text.stripPrefix`, `Text.splitOnce`, `Text.afterLast` — cut a text
- `Text.contains` — search a text
- `Text.parseRadix` — read an unsigned number in a radix
- `Text.parseSigned` — read a signed decimal number
-/

namespace Text

/-- The characters with the Unicode property White_Space. -/
def isWhiteSpace (c : Char) : Bool :=
  c.toNat ∈ [0x09, 0x0A, 0x0B, 0x0C, 0x0D, 0x20, 0x85, 0xA0, 0x1680, 0x2000, 0x2001, 0x2002,
    0x2003, 0x2004, 0x2005, 0x2006, 0x2007, 0x2008, 0x2009, 0x200A, 0x2028, 0x2029, 0x202F,
    0x205F, 0x3000]

/-- The text is empty after trimming. -/
def isBlank (s : String) : Bool := s.toList.all isWhiteSpace

theorem isBlank_append (s t : String) : isBlank (s ++ t) = (isBlank s && isBlank t) := by
  rw [isBlank, String.toList_append, List.all_append, isBlank, isBlank]

/-- The text without white space at its ends. -/
def trim (s : String) : String :=
  String.ofList ((s.toList.dropWhile isWhiteSpace).reverse.dropWhile isWhiteSpace).reverse

/-- The parts of a text between white space. -/
def words (s : String) : List String :=
  ((s.toList.splitOnP isWhiteSpace).filter (!·.isEmpty)).map String.ofList

/-- The text after `lead`, when it starts with it. -/
def stripPrefix (lead : List Char) (s : List Char) : Option (List Char) :=
  if lead.isPrefixOf s then some (s.drop lead.length) else none

/-- The texts before and after the first occurrence of a separator. -/
def splitOnce (sep : List Char) : List Char → Option (List Char × List Char)
  | [] => if sep.isEmpty then some ([], []) else none
  | c :: cs =>
    if sep.isPrefixOf (c :: cs) then some ([], (c :: cs).drop sep.length)
    else (splitOnce sep cs).map fun parts => (c :: parts.1, parts.2)

/-- The text after the last occurrence of `sep`. -/
def afterLast (sep : Char) (s : List Char) : Option (List Char) :=
  if sep ∈ s then some (s.reverse.takeWhile (· != sep)).reverse else none

/-- After the last separator stands what has none. -/
theorem afterLast_append {sep : Char} {lead tail : List Char} (h : sep ∉ tail) :
    afterLast sep (lead ++ sep :: tail) = some tail := by
  have hkept : ∀ c ∈ tail.reverse, (c != sep) = true := by
    intro c hc
    exact bne_iff_ne.mpr fun heq => h (heq ▸ List.mem_reverse.mp hc)
  rw [afterLast, if_pos (by simp), List.reverse_append, List.reverse_cons, List.append_assoc,
    List.takeWhile_append_of_pos hkept, List.singleton_append, List.takeWhile_cons_of_neg (by simp),
    List.append_nil, List.reverse_reverse]

theorem stripPrefix_append (lead s : List Char) : stripPrefix lead (lead ++ s) = some s := by
  rw [stripPrefix, if_pos (List.isPrefixOf_iff_prefix.mpr (List.prefix_append lead s)),
    List.drop_left]

/-- A word occurs in a text. -/
def contains (word : List Char) : List Char → Bool
  | [] => word.isEmpty
  | c :: cs => word.isPrefixOf (c :: cs) || contains word cs

/-- The value of a digit in a radix up to sixteen. -/
def digitValue (radix : ℕ) (c : Char) : Option ℕ :=
  let v := if '0' ≤ c ∧ c ≤ '9' then c.toNat - '0'.toNat
    else if 'a' ≤ c ∧ c ≤ 'f' then c.toNat - 'a'.toNat + 10
    else if 'A' ≤ c ∧ c ≤ 'F' then c.toNat - 'A'.toNat + 10
    else radix
  if v < radix then some v else none

/-- Read an unsigned number below `bound`; a leading plus sign is allowed. -/
def parseRadix (radix bound : ℕ) (s : List Char) : Option ℕ :=
  let digits := match s with
    | '+' :: rest => rest
    | _ => s
  if digits.isEmpty then none
  else digits.foldlM (fun total c => do
    let v ← digitValue radix c
    let next := total * radix + v
    if next < bound then some next else none) 0

theorem digitValue_digitChar {n : ℕ} (h : n < 16) : digitValue 16 (Nat.digitChar n) = some n := by
  have htable : ∀ k < 16, digitValue 16 (Nat.digitChar k) = some k := by decide
  exact htable n h

/-- Digits without a sign are read from the first on. -/
theorem parseRadix_of_unsigned {radix bound : ℕ} {digits : List Char} (hne : digits ≠ [])
    (hunsigned : '+' ∉ digits) :
    parseRadix radix bound digits = digits.foldlM (fun total c => do
      let v ← digitValue radix c
      let next := total * radix + v
      if next < bound then some next else none) 0 := by
  cases digits with
  | nil => exact absurd rfl hne
  | cons c cs =>
    unfold parseRadix
    split
    · next rest heq =>
      cases heq
      exact absurd List.mem_cons_self hunsigned
    · rfl

/-- Read a signed number of a width; one sign is allowed. -/
def parseSigned (width : ℕ) : List Char → Option Int
  | '-' :: '+' :: _ => none
  | '-' :: rest => (parseRadix 10 (2 ^ (width - 1) + 1) rest).map fun value => -value
  | s => (parseRadix 10 (2 ^ (width - 1)) s).map Int.ofNat

end Text
