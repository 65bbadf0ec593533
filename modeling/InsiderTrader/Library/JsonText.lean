import InsiderTrader.Library.Utf

/-!
# The grammar of JSON texts

Texts as bytes, with the value that they spell. Dialects differ in their white
space, numerals, escapes, the byte that opens the name of a member, and their
bounds. Whatever two dialects, a text spells one value in one way, so that one
that is in both is in their intersection.

## Main definitions

- `JsonText.Tree` — what a text spells
- `JsonText.Item`, `JsonText.Chars` — the pieces of a string and their UTF-16 units
- `JsonText.Dialect` — what is allowed in a text
- `JsonText.Spells` — the grammar of values, elements and members
- `JsonText.Text` — a value between white space

## Main results

- `JsonText.Item.unique`, `JsonText.Chars.meet` — a string spells one text in one way
- `JsonText.Spells.mono`, `JsonText.Text.mono` — a text of a dialect is one of every wider dialect
- `JsonText.Spells.relevel` — the levels of a text are those of its nesting
-/

namespace JsonText

/-- What a text spells: strings by their UTF-16 units, members in their order. -/
inductive Tree (F : Type) where
  | null
  | bool (value : Bool)
  | number (value : F)
  | string (units : List ℕ)
  | array (items : List (Tree F))
  | object (members : List (List ℕ × Tree F))

/-- The bytes of ASCII characters. -/
def ascii (s : String) : List UInt8 := s.toList.map fun c => UInt8.ofNat c.toNat

-- Strings

/-- The unit that an escape of one character stands for. -/
def escapeUnit (e : UInt8) : Option ℕ :=
  ([(0x22, 0x22), (0x5C, 0x5C), (0x2F, 0x2F), (0x62, 8), (0x66, 12), (0x6E, 10), (0x72, 13),
    (0x74, 9)].find? (·.1 = e.toNat)).map (·.2)

/-- The value of a hexadecimal digit. -/
def hexValue (d : UInt8) : Option ℕ :=
  if 0x30 ≤ d.toNat ∧ d.toNat ≤ 0x39 then some (d.toNat - 0x30)
  else if 0x61 ≤ d.toNat ∧ d.toNat ≤ 0x66 then some (d.toNat - 0x61 + 10)
  else if 0x41 ≤ d.toNat ∧ d.toNat ≤ 0x46 then some (d.toNat - 0x41 + 10)
  else none

/-- The unit of four hexadecimal digits. -/
def hexUnit (a b c d : UInt8) : Option ℕ := do
  let a ← hexValue a
  let b ← hexValue b
  let c ← hexValue c
  let d ← hexValue d
  pure (((a * 16 + b) * 16 + c) * 16 + d)

/-- A piece of a string and its units: an ASCII character, another character, or an escape. -/
inductive Item : List UInt8 → List ℕ → Prop where
  | ascii {b : UInt8} (hascii : b.toNat < 0x80) (hquote : b ≠ 0x22) (hslash : b ≠ 0x5C) :
      Item [b] [b.toNat]
  | wide {c : Char} (h : 0x80 ≤ c.toNat) : Item (String.utf8EncodeChar c) (Utf.units c)
  | escape {e : UInt8} {u : ℕ} (h : escapeUnit e = some u) : Item [0x5C, e] [u]
  | unicode {a b c d : UInt8} {u : ℕ} (h : hexUnit a b c d = some u) :
      Item [0x5C, 0x75, a, b, c, d] [u]

/-- What stands between the quotes of a string, of the pieces that are allowed. -/
inductive Chars (item : List UInt8 → Prop) : List UInt8 → List ℕ → Prop where
  | nil : Chars item [] []
  | cons {piece : List UInt8} {us : List ℕ} {rest : List UInt8} {units : List ℕ}
      (hpiece : Item piece us) (hitem : item piece) (hrest : Chars item rest units) :
      Chars item (piece ++ rest) (us ++ units)

/-- A piece does not start with a quote. -/
theorem Item.head_ne {piece : List UInt8} {us : List ℕ} (h : Item piece us) :
    ∃ b rest, piece = b :: rest ∧ b ≠ 0x22 := by
  cases h with
  | ascii hascii hquote hslash => exact ⟨_, _, rfl, hquote⟩
  | wide hwide =>
    obtain ⟨b, rest, heq, hb⟩ := Utf.exists_cons_utf8EncodeChar hwide
    refine ⟨b, rest, heq, ?_⟩
    rintro rfl
    exact absurd hb (by decide)
  | escape h => exact ⟨_, _, rfl, by decide⟩
  | unicode h => exact ⟨_, _, rfl, by decide⟩

theorem escapeUnit_u : escapeUnit 0x75 = none := by decide

/-- **A piece** is told apart from every other one by its bytes, whatever follows them. -/
theorem Item.unique {a b r s : List UInt8} {us vs : List ℕ} (ha : Item a us) (hb : Item b vs)
    (h : a ++ r = b ++ s) : a = b ∧ us = vs ∧ r = s := by
  have hwide {c : Char} {x : UInt8} {t t' : List UInt8} (hc : 0x80 ≤ c.toNat) (hx : x.toNat < 0x80)
      (heq : String.utf8EncodeChar c ++ t = x :: t') : False := by
    obtain ⟨y, rest, hy, hle⟩ := Utf.exists_cons_utf8EncodeChar hc
    rw [hy, List.cons_append] at heq
    cases heq
    omega
  cases ha with
  | ascii hascii hquote hslash =>
    cases hb with
    | ascii =>
      cases h
      exact ⟨rfl, rfl, rfl⟩
    | wide hc => exact (hwide hc hascii h.symm).elim
    | escape =>
      cases h
      exact absurd rfl hslash
    | unicode =>
      cases h
      exact absurd rfl hslash
  | wide hc =>
    cases hb with
    | ascii hascii => exact (hwide hc hascii h).elim
    | wide =>
      obtain ⟨rfl, rfl⟩ := Utf.utf8EncodeChar_inj h
      exact ⟨rfl, rfl, rfl⟩
    | escape => exact (hwide hc (by decide) h).elim
    | unicode => exact (hwide hc (by decide) h).elim
  | escape he =>
    cases hb with
    | ascii _ _ hslash =>
      cases h
      exact absurd rfl hslash
    | wide hc => exact (hwide hc (by decide) h.symm).elim
    | escape he' =>
      cases h
      cases he.symm.trans he'
      exact ⟨rfl, rfl, rfl⟩
    | unicode =>
      cases h
      cases he.symm.trans escapeUnit_u
  | unicode hu =>
    cases hb with
    | ascii _ _ hslash =>
      cases h
      exact absurd rfl hslash
    | wide hc => exact (hwide hc (by decide) h.symm).elim
    | escape he =>
      cases h
      cases he.symm.trans escapeUnit_u
    | unicode hu' =>
      cases h
      cases hu.symm.trans hu'
      exact ⟨rfl, rfl, rfl⟩

/-- **What stands between quotes** is told apart by its bytes up to the closing one. -/
theorem Chars.meet {item item' : List UInt8 → Prop} {a b r s : List UInt8} {us vs : List ℕ}
    (ha : Chars item a us) (hb : Chars item' b vs) (h : a ++ 0x22 :: r = b ++ 0x22 :: s) :
    a = b ∧ us = vs ∧ r = s ∧ Chars (fun piece => item piece ∧ item' piece) a us := by
  induction ha generalizing b vs with
  | nil =>
    cases hb with
    | nil =>
      cases h
      exact ⟨rfl, rfl, rfl, .nil⟩
    | cons hpiece =>
      obtain ⟨x, rest, rfl, hx⟩ := hpiece.head_ne
      cases h
      exact absurd rfl hx
  | cons hpiece hitem _ ih =>
    cases hb with
    | nil =>
      obtain ⟨x, rest, rfl, hx⟩ := hpiece.head_ne
      cases h
      exact absurd rfl hx
    | cons hpiece' hitem' hrest' =>
      rw [List.append_assoc, List.append_assoc] at h
      obtain ⟨rfl, rfl, h⟩ := hpiece.unique hpiece' h
      obtain ⟨rfl, rfl, rfl, hrest⟩ := ih hrest' h
      exact ⟨rfl, rfl, rfl, .cons hpiece ⟨hitem, hitem'⟩ hrest⟩

theorem Chars.mono {item item' : List UInt8 → Prop} {a : List UInt8} {us : List ℕ}
    (h : Chars item a us) (himp : ∀ piece, item piece → item' piece) : Chars item' a us := by
  induction h with
  | nil => exact .nil
  | cons hpiece hitem _ ih => exact .cons hpiece (himp _ hitem) ih

-- Dialects

/-- White space of any dialect. -/
def White (b : UInt8) : Prop := b.toNat ∈ [0x20, 0x09, 0x0A, 0x0C, 0x0D]

instance : DecidablePred White := fun _ => inferInstanceAs (Decidable (_ ∈ _))

def Digit (b : UInt8) : Prop := 0x30 ≤ b.toNat ∧ b.toNat ≤ 0x39

instance : DecidablePred Digit := fun _ => inferInstanceAs (Decidable (_ ∧ _))

/-- A byte of a number: a digit, a sign, a point or the mark of an exponent. -/
def NumberByte (b : UInt8) : Prop := Digit b ∨ b.toNat ∈ [0x2B, 0x2D, 0x2E, 0x45, 0x65]

instance : DecidablePred NumberByte := fun _ => inferInstanceAs (Decidable (_ ∨ _))

/-- The form of a number in any dialect. -/
structure NumberText (text : List UInt8) : Prop where
  starts : ∃ b rest, text = b :: rest ∧ (b = 0x2D ∨ Digit b)
  bytes : ∀ b ∈ text, NumberByte b

/-- What is allowed in a text. -/
structure Dialect where
  blank : UInt8 → Prop
  numeral : List UInt8 → Prop
  item : List UInt8 → Prop
  /-- the byte that opens the name of a member -/
  opens : UInt8 → Prop
  /-- the number of elements of an array -/
  count : ℕ → Prop
  /-- the names of the members of an object -/
  names : List (List ℕ) → Prop
  white_of_blank : ∀ b, blank b → White b
  numberText_of_numeral : ∀ text, numeral text → NumberText text
  dark_of_opens : ∀ b, opens b → ¬White b

/-- White space. -/
def Dialect.Blanks (d : Dialect) (ws : List UInt8) : Prop := ∀ b ∈ ws, d.blank b

/-- What two dialects allow. -/
def Dialect.meet (d d' : Dialect) : Dialect where
  blank b := d.blank b ∧ d'.blank b
  numeral text := d.numeral text ∧ d'.numeral text
  item piece := d.item piece ∧ d'.item piece
  opens b := d.opens b ∧ d'.opens b
  count n := d.count n ∧ d'.count n
  names keys := d.names keys ∧ d'.names keys
  white_of_blank b h := d.white_of_blank b h.1
  numberText_of_numeral text h := d.numberText_of_numeral text h.1
  dark_of_opens b h := d.dark_of_opens b h.1

/-- Everything that one dialect allows is allowed in another. -/
structure Dialect.Within (d d' : Dialect) : Prop where
  blank : ∀ b, d.blank b → d'.blank b
  numeral : ∀ text, d.numeral text → d'.numeral text
  item : ∀ piece, d.item piece → d'.item piece
  opens : ∀ b, d.opens b → d'.opens b
  count : ∀ n, d.count n → d'.count n
  names : ∀ keys, d.names keys → d'.names keys

-- The grammar

/-- A phrase of the grammar: a value, the elements of an array with its closing bracket, or the
members of an object with its closing brace, from the first or from a later one on. -/
inductive Phrase (F : Type) where
  | value (tree : Tree F)
  | elements (trees : List (Tree F))
  | members (first : Bool) (members : List (List ℕ × Tree F))

variable {F : Type}

section Grammar

variable (conv : List UInt8 → Option F) (d : Dialect)

/-- **The grammar**: the bytes that spell a phrase, with values in a number of levels at most. The
first member of an object does not open with the brace that would close it. -/
inductive Spells : ℕ → Phrase F → List UInt8 → Prop where
  | null {n : ℕ} : Spells (n + 1) (.value .null) (ascii "null")
  | boolTrue {n : ℕ} : Spells (n + 1) (.value (.bool true)) (ascii "true")
  | boolFalse {n : ℕ} : Spells (n + 1) (.value (.bool false)) (ascii "false")
  | number {n : ℕ} {text : List UInt8} {f : F} (hnumeral : d.numeral text)
      (hvalue : conv text = some f) : Spells (n + 1) (.value (.number f)) text
  | string {n : ℕ} {body : List UInt8} {units : List ℕ} (hbody : Chars d.item body units) :
      Spells (n + 1) (.value (.string units)) (0x22 :: (body ++ [0x22]))
  | emptyArray {n : ℕ} {ws : List UInt8} (hws : d.Blanks ws) :
      Spells (n + 1) (.value (.array [])) (0x5B :: (ws ++ [0x5D]))
  | array {n : ℕ} {items : List (Tree F)} {body : List UInt8} (hcount : d.count items.length)
      (hbody : Spells n (.elements items) body) :
      Spells (n + 1) (.value (.array items)) (0x5B :: body)
  | emptyObject {n : ℕ} {ws : List UInt8} (hws : d.Blanks ws) :
      Spells (n + 1) (.value (.object [])) (0x7B :: (ws ++ [0x7D]))
  | object {n : ℕ} {members : List (List ℕ × Tree F)} {body : List UInt8}
      (hnames : d.names (members.map (·.1))) (hbody : Spells n (.members true members) body) :
      Spells (n + 1) (.value (.object members)) (0x7B :: body)
  | lastElement {n : ℕ} {ws a ws' : List UInt8} {item : Tree F} (hws : d.Blanks ws)
      (hitem : Spells n (.value item) a) (hws' : d.Blanks ws') :
      Spells n (.elements [item]) (ws ++ (a ++ (ws' ++ [0x5D])))
  | element {n : ℕ} {ws a ws' rest : List UInt8} {item : Tree F} {items : List (Tree F)}
      (hws : d.Blanks ws) (hitem : Spells n (.value item) a) (hws' : d.Blanks ws')
      (hrest : Spells n (.elements items) rest) :
      Spells n (.elements (item :: items)) (ws ++ (a ++ (ws' ++ 0x2C :: rest)))
  | lastMember {n : ℕ} {first : Bool} {o : UInt8} {ws key ws₁ ws₂ a ws₃ : List UInt8}
      {name : List ℕ} {item : Tree F} (hws : d.Blanks ws) (ho : d.opens o)
      (hfirst : first = true → o ≠ 0x7D) (hkey : Chars d.item key name) (hws₁ : d.Blanks ws₁)
      (hws₂ : d.Blanks ws₂) (hitem : Spells n (.value item) a) (hws₃ : d.Blanks ws₃) :
      Spells n (.members first [(name, item)])
        (ws ++ o :: (key ++ 0x22 :: (ws₁ ++ 0x3A :: (ws₂ ++ (a ++ (ws₃ ++ [0x7D]))))))
  | member {n : ℕ} {first : Bool} {o : UInt8} {ws key ws₁ ws₂ a ws₃ rest : List UInt8}
      {name : List ℕ} {item : Tree F} {members : List (List ℕ × Tree F)} (hws : d.Blanks ws)
      (ho : d.opens o) (hfirst : first = true → o ≠ 0x7D) (hkey : Chars d.item key name)
      (hws₁ : d.Blanks ws₁) (hws₂ : d.Blanks ws₂) (hitem : Spells n (.value item) a)
      (hws₃ : d.Blanks ws₃) (hrest : Spells n (.members false members) rest) :
      Spells n (.members first ((name, item) :: members))
        (ws ++ o :: (key ++ 0x22 :: (ws₁ ++ 0x3A :: (ws₂ ++ (a ++ (ws₃ ++ 0x2C :: rest))))))

/-- **A text**: a value between white space, with values in a number of levels at most. -/
inductive Text (n : ℕ) (tree : Tree F) : List UInt8 → Prop where
  | mk {ws a ws' : List UInt8} (hws : d.Blanks ws) (hvalue : Spells conv d n (.value tree) a)
      (hws' : d.Blanks ws') : Text n tree (ws ++ (a ++ ws'))

end Grammar

variable {conv : List UInt8 → Option F} {d d' : Dialect}

theorem Dialect.Blanks.mono {ws : List UInt8} (h : d.Blanks ws) (hd : d.Within d') :
    d'.Blanks ws := fun b hb => hd.blank b (h b hb)

/-- A phrase of a dialect is one of every wider dialect. -/
theorem Spells.mono {n : ℕ} {p : Phrase F} {a : List UInt8} (h : Spells conv d n p a)
    (hd : d.Within d') : Spells conv d' n p a := by
  induction h with
  | null => exact .null
  | boolTrue => exact .boolTrue
  | boolFalse => exact .boolFalse
  | number hnumeral hvalue => exact .number (hd.numeral _ hnumeral) hvalue
  | string hbody => exact .string (hbody.mono hd.item)
  | emptyArray hws => exact .emptyArray (hws.mono hd)
  | array hcount _ ih => exact .array (hd.count _ hcount) ih
  | emptyObject hws => exact .emptyObject (hws.mono hd)
  | object hnames _ ih => exact .object (hd.names _ hnames) ih
  | lastElement hws _ hws' ih => exact .lastElement (hws.mono hd) ih (hws'.mono hd)
  | element hws _ hws' _ ih ihrest => exact .element (hws.mono hd) ih (hws'.mono hd) ihrest
  | lastMember hws ho hfirst hkey hws₁ hws₂ _ hws₃ ih =>
    exact .lastMember (hws.mono hd) (hd.opens _ ho) hfirst (hkey.mono hd.item) (hws₁.mono hd)
      (hws₂.mono hd) ih (hws₃.mono hd)
  | member hws ho hfirst hkey hws₁ hws₂ _ hws₃ _ ih ihrest =>
    exact .member (hws.mono hd) (hd.opens _ ho) hfirst (hkey.mono hd.item) (hws₁.mono hd)
      (hws₂.mono hd) ih (hws₃.mono hd) ihrest

theorem Text.mono {n : ℕ} {tree : Tree F} {a : List UInt8} (h : Text conv d n tree a)
    (hd : d.Within d') : Text conv d' n tree a := by
  obtain ⟨hws, hvalue, hws'⟩ := h
  exact .mk (hws.mono hd) (hvalue.mono hd) (hws'.mono hd)

theorem Dialect.blanks_nil (d : Dialect) : d.Blanks [] := by
  intro b hb
  cases hb

/-- A value is a text, without white space around it. -/
theorem Spells.text {n : ℕ} {tree : Tree F} {a : List UInt8}
    (h : Spells conv d n (.value tree) a) : Text conv d n tree a := by
  have htext := Text.mk d.blanks_nil h d.blanks_nil
  rwa [List.nil_append, List.append_nil] at htext

-- Nesting

mutual

/-- The number of arrays and objects that stand in one another. -/
def Tree.nesting : Tree F → ℕ
  | .array items => nestingAll items + 1
  | .object members => nestingMembers members + 1
  | _ => 0

def Tree.nestingAll : List (Tree F) → ℕ
  | [] => 0
  | item :: items => max (nesting item) (nestingAll items)

def Tree.nestingMembers : List (List ℕ × Tree F) → ℕ
  | [] => 0
  | (_, item) :: members => max (nesting item) (nestingMembers members)

end

/-- A number of levels that holds a phrase. -/
def Phrase.levels : Phrase F → ℕ
  | .value tree => tree.nesting + 1
  | .elements trees => Tree.nestingAll trees + 1
  | .members _ ms => Tree.nestingMembers ms + 1

theorem exists_level {tree : Tree F} {m : ℕ} (h : (Phrase.value tree).levels ≤ m) :
    ∃ m', m = m' + 1 ∧ tree.nesting ≤ m' := by
  obtain ⟨m', rfl⟩ := Nat.exists_eq_add_of_le' (Nat.le_of_add_left_le h)
  exact ⟨m', rfl, Nat.le_of_succ_le_succ h⟩

/-- **The levels** that a phrase takes are those of its nesting. -/
theorem Spells.relevel {n : ℕ} {p : Phrase F} {a : List UInt8} (h : Spells conv d n p a) {m : ℕ}
    (hm : p.levels ≤ m) : Spells conv d m p a := by
  induction h generalizing m with
  | null =>
    obtain ⟨m, rfl, -⟩ := exists_level hm
    exact .null
  | boolTrue =>
    obtain ⟨m, rfl, -⟩ := exists_level hm
    exact .boolTrue
  | boolFalse =>
    obtain ⟨m, rfl, -⟩ := exists_level hm
    exact .boolFalse
  | number hnumeral hvalue =>
    obtain ⟨m, rfl, -⟩ := exists_level hm
    exact .number hnumeral hvalue
  | string hbody =>
    obtain ⟨m, rfl, -⟩ := exists_level hm
    exact .string hbody
  | emptyArray hws =>
    obtain ⟨m, rfl, -⟩ := exists_level hm
    exact .emptyArray hws
  | array hcount _ ih =>
    obtain ⟨m, rfl, hnested⟩ := exists_level hm
    rw [Tree.nesting] at hnested
    exact .array hcount (ih hnested)
  | emptyObject hws =>
    obtain ⟨m, rfl, -⟩ := exists_level hm
    exact .emptyObject hws
  | object hnames _ ih =>
    obtain ⟨m, rfl, hnested⟩ := exists_level hm
    rw [Tree.nesting] at hnested
    exact .object hnames (ih hnested)
  | lastElement hws _ hws' ih =>
    rw [Phrase.levels, Tree.nestingAll, Tree.nestingAll, Nat.max_zero] at hm
    exact .lastElement hws (ih hm) hws'
  | element hws _ hws' _ ih ihrest =>
    rw [Phrase.levels, Tree.nestingAll, ← Nat.add_max_add_right] at hm
    exact .element hws (ih (Nat.le_trans (Nat.le_max_left _ _) hm)) hws'
      (ihrest (Nat.le_trans (Nat.le_max_right _ _) hm))
  | lastMember hws ho hfirst hkey hws₁ hws₂ _ hws₃ ih =>
    rw [Phrase.levels, Tree.nestingMembers, Tree.nestingMembers, Nat.max_zero] at hm
    exact .lastMember hws ho hfirst hkey hws₁ hws₂ (ih hm) hws₃
  | member hws ho hfirst hkey hws₁ hws₂ _ hws₃ _ ih ihrest =>
    rw [Phrase.levels, Tree.nestingMembers, ← Nat.add_max_add_right] at hm
    exact .member hws ho hfirst hkey hws₁ hws₂ (ih (Nat.le_trans (Nat.le_max_left _ _) hm)) hws₃
      (ihrest (Nat.le_trans (Nat.le_max_right _ _) hm))

theorem Text.relevel {n m : ℕ} {tree : Tree F} {a : List UInt8} (h : Text conv d n tree a)
    (hm : tree.nesting < m) : Text conv d m tree a := by
  obtain ⟨hws, hvalue, hws'⟩ := h
  exact .mk hws (hvalue.relevel hm) hws'

end JsonText
