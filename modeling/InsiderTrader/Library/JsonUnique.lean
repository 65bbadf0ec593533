import InsiderTrader.Library.JsonText
import Mathlib.Data.List.TakeWhile

/-!
# A JSON text spells one value in one way

Two derivations of bytes that start alike agree on where a phrase ends and on
what it spells, whatever two dialects they are in: white space and numbers end at
the first byte of another kind, and every other phrase is told by its first byte.

## Main definitions

- `JsonText.Stops` — the first byte is of another kind
- `JsonText.kindOf` — the kind of the values that start with a byte
- `JsonText.Phrase.Meets` — what a derivation says of every other one

## Main results

- `JsonText.Spells.meets` — two derivations of one phrase
- `JsonText.Text.meet` — two derivations of one text
-/

namespace JsonText

variable {F : Type} {conv : List UInt8 → Option F} {d d' : Dialect} {a : List UInt8}

-- Where a run of bytes ends

/-- The bytes are at their end, or the first of them is not one of `p`. -/
def Stops (p : UInt8 → Prop) (r : List UInt8) : Prop := ∀ b rest, r = b :: rest → ¬p b

theorem stops_cons {p : UInt8 → Prop} {b : UInt8} {rest : List UInt8} (h : ¬p b) :
    Stops p (b :: rest) := by
  intro _ _ heq
  cases heq
  exact h

/-- **A run of bytes of one kind** ends where they stop. -/
theorem span_unique {p : UInt8 → Prop} {a b r s : List UInt8} (ha : ∀ x ∈ a, p x)
    (hb : ∀ x ∈ b, p x) (hr : Stops p r) (hs : Stops p s) (h : a ++ r = b ++ s) :
    a = b ∧ r = s := by
  induction a generalizing b with
  | nil =>
    cases b with
    | nil => exact ⟨rfl, h⟩
    | cons y b => exact absurd (hb y List.mem_cons_self) (hr y (b ++ s) h)
  | cons x a ih =>
    cases b with
    | nil => exact absurd (ha x List.mem_cons_self) (hs x (a ++ r) h.symm)
    | cons y b =>
      injection h with hxy h
      obtain ⟨rfl, rfl⟩ := ih (fun z hz => ha z (List.mem_cons_of_mem x hz))
        (fun z hz => hb z (List.mem_cons_of_mem y hz)) h
      exact ⟨congrArg (· :: a) hxy, rfl⟩

section Scan

variable {p : UInt8 → Prop} [DecidablePred p] {a r : List UInt8}

theorem of_mem_takeWhile {l : List UInt8} {b : UInt8}
    (h : b ∈ l.takeWhile fun b => decide (p b)) : p b :=
  of_decide_eq_true (List.mem_takeWhile_imp (p := fun b => decide (p b)) h)

theorem stops_dropWhile (l : List UInt8) : Stops p (l.dropWhile fun b => decide (p b)) := by
  intro b tail htail
  have hstop := List.head?_dropWhile_not (fun b => decide (p b)) l
  rw [htail] at hstop
  simpa using hstop

/-- A scan takes a run of bytes of one kind up to where they stop. -/
theorem scan_append (ha : ∀ b ∈ a, p b) (hr : Stops p r) :
    ((a ++ r).takeWhile fun b => decide (p b)) = a ∧
      ((a ++ r).dropWhile fun b => decide (p b)) = r :=
  span_unique (fun _ => of_mem_takeWhile) ha (stops_dropWhile _) hr List.takeWhile_append_dropWhile

end Scan

theorem not_numberByte_of_white {b : UInt8} (h : White b) : ¬NumberByte b := by
  have htable : ∀ n ∈ [0x20, 0x09, 0x0A, 0x0C, 0x0D],
      ¬((0x30 ≤ n ∧ n ≤ 0x39) ∨ n ∈ [0x2B, 0x2D, 0x2E, 0x45, 0x65]) := by decide
  exact htable b.toNat h

theorem Dialect.Blanks.white {ws : List UInt8} (h : d.Blanks ws) : ∀ b ∈ ws, White b :=
  fun b hb => d.white_of_blank b (h b hb)

theorem Dialect.Blanks.append {ws ws' : List UInt8} (h : d.Blanks ws) (h' : d.Blanks ws') :
    d.Blanks (ws ++ ws') := by
  intro b hb
  obtain hb | hb := List.mem_append.mp hb
  · exact h b hb
  · exact h' b hb

/-- A number stops at white space and at a byte that is not one of a number. -/
theorem Dialect.Blanks.stops {ws : List UInt8} (h : d.Blanks ws) {c : UInt8} (hc : ¬NumberByte c)
    (rest : List UInt8) : Stops NumberByte (ws ++ c :: rest) := by
  cases ws with
  | nil => exact stops_cons hc
  | cons b ws => exact stops_cons (not_numberByte_of_white (h.white b List.mem_cons_self))

-- First bytes

/-- The kinds of values. -/
inductive Kind where
  | null
  | bool
  | number
  | string
  | array
  | object
  deriving DecidableEq

def Tree.kind : Tree F → Kind
  | null => .null
  | bool _ => .bool
  | number _ => .number
  | string _ => .string
  | array _ => .array
  | object _ => .object

/-- The kind of the values that start with a byte. -/
def kindOf (b : UInt8) : Option Kind :=
  if b = 0x6E then some .null
  else if b = 0x74 ∨ b = 0x66 then some .bool
  else if b = 0x22 then some .string
  else if b = 0x5B then some .array
  else if b = 0x7B then some .object
  else if b = 0x2D ∨ Digit b then some .number
  else none

theorem kindOf_digit {b : UInt8} (h : b = 0x2D ∨ Digit b) :
    kindOf b = some .number ∧ ¬White b := by
  obtain rfl | hdigit := h
  · exact ⟨rfl, by decide⟩
  · have htable : ∀ n < 10, kindOf (UInt8.ofNat (0x30 + n)) = some .number ∧
        ¬White (UInt8.ofNat (0x30 + n)) := by decide
    have hbyte := htable (b.toNat - 0x30) (by have := hdigit.2; omega)
    rwa [Nat.add_sub_cancel' hdigit.1, UInt8.ofNat_toNat] at hbyte

/-- **The first byte** of a value tells its kind, and is not white space. -/
theorem Spells.head {n : ℕ} {t : Tree F} {a : List UInt8} (h : Spells conv d n (.value t) a) :
    ∃ b rest, a = b :: rest ∧ kindOf b = some t.kind ∧ ¬White b := by
  cases h with
  | null => exact ⟨_, _, rfl, rfl, by decide⟩
  | boolTrue => exact ⟨_, _, rfl, rfl, by decide⟩
  | boolFalse => exact ⟨_, _, rfl, rfl, by decide⟩
  | number hnumeral =>
    obtain ⟨b, rest, rfl, hb⟩ := (d.numberText_of_numeral _ hnumeral).starts
    obtain ⟨hkind, hdark⟩ := kindOf_digit hb
    exact ⟨b, rest, rfl, hkind, hdark⟩
  | string => exact ⟨_, _, rfl, rfl, by decide⟩
  | emptyArray => exact ⟨_, _, rfl, rfl, by decide⟩
  | array => exact ⟨_, _, rfl, rfl, by decide⟩
  | emptyObject => exact ⟨_, _, rfl, rfl, by decide⟩
  | object => exact ⟨_, _, rfl, rfl, by decide⟩

theorem Spells.stops {n : ℕ} {t : Tree F} {a : List UInt8} (h : Spells conv d n (.value t) a)
    (rest : List UInt8) : Stops White (a ++ rest) := by
  obtain ⟨b, tail, rfl, -, hdark⟩ := h.head
  exact stops_cons hdark

/-- Values that start alike are of one kind. -/
theorem Spells.kind_eq {n m : ℕ} {t u : Tree F} {a b r s : List UInt8}
    (ha : Spells conv d n (.value t) a) (hb : Spells conv d' m (.value u) b)
    (h : a ++ r = b ++ s) : t.kind = u.kind := by
  obtain ⟨x, a', rfl, hx, -⟩ := ha.head
  obtain ⟨y, b', rfl, hy, -⟩ := hb.head
  injection h with hxy
  rw [← hxy, hx] at hy
  exact Option.some.inj hy

/-- Each member takes a byte at least. -/
theorem Spells.members_length {n : ℕ} {first : Bool} {ms : List (List ℕ × Tree F)}
    (h : Spells conv d n (.members first ms) a) : ms.length ≤ a.length := by
  generalize hp : Phrase.members first ms = p at h
  induction h generalizing first ms with
  | lastMember =>
    cases hp
    simp only [List.length_append, List.length_cons, List.length_nil]
    omega
  | member _ _ _ _ _ _ _ _ _ _ ihrest =>
    cases hp
    have hrest := ihrest rfl
    simp only [List.length_append, List.length_cons]
    omega
  | _ => cases hp

/-- **The first byte of the members** of an object is not the brace that would close it, and each
member takes a byte at least from there on. -/
theorem Spells.members_head {n : ℕ} {ms : List (List ℕ × Tree F)}
    (h : Spells conv d n (.members true ms) a) :
    ∃ ws o rest, a = ws ++ o :: rest ∧ d.Blanks ws ∧ ¬White o ∧ o ≠ 0x7D ∧
      ms.length ≤ (o :: rest).length := by
  cases h with
  | lastMember hws ho hfirst =>
    exact ⟨_, _, _, rfl, hws, d.dark_of_opens _ ho, hfirst rfl, Nat.succ_le_succ (Nat.zero_le _)⟩
  | member hws ho hfirst _ _ _ _ _ hrest =>
    refine ⟨_, _, _, rfl, hws, d.dark_of_opens _ ho, hfirst rfl, ?_⟩
    have hlen := hrest.members_length
    simp only [List.length_append, List.length_cons]
    omega

/-- The first byte of the elements of an array is not the bracket that would close it. -/
theorem Spells.elements_head {n : ℕ} {ts : List (Tree F)} {a : List UInt8}
    (h : Spells conv d n (.elements ts) a) :
    ∃ ws o rest, a = ws ++ o :: rest ∧ d.Blanks ws ∧ ¬White o ∧ o ≠ 0x5D := by
  have hclosed {t : Tree F} {ws v rest : List UInt8} (hws : d.Blanks ws)
      (hv : Spells conv d n (.value t) v) :
      ∃ ws' o rest', ws ++ (v ++ rest) = ws' ++ o :: rest' ∧ d.Blanks ws' ∧ ¬White o ∧ o ≠ 0x5D := by
    obtain ⟨b, tail, rfl, hkind, hdark⟩ := hv.head
    refine ⟨ws, b, tail ++ rest, rfl, hws, hdark, ?_⟩
    rintro rfl
    cases hkind
  cases h with
  | lastElement hws hitem => exact hclosed hws hitem
  | element hws hitem => exact hclosed hws hitem

/-- White space may stand in front of elements. -/
theorem Spells.blanks_elements {n : ℕ} {ts : List (Tree F)} {ws : List UInt8}
    (h : Spells conv d n (.elements ts) a) (hws : d.Blanks ws) :
    Spells conv d n (.elements ts) (ws ++ a) := by
  cases h with
  | lastElement hvs hitem hvs' =>
    rw [← List.append_assoc]
    exact .lastElement (hws.append hvs) hitem hvs'
  | element hvs hitem hvs' hrest =>
    rw [← List.append_assoc]
    exact .element (hws.append hvs) hitem hvs' hrest

/-- White space may stand in front of members. -/
theorem Spells.blanks_members {n : ℕ} {first : Bool} {ms : List (List ℕ × Tree F)}
    {ws : List UInt8} (h : Spells conv d n (.members first ms) a) (hws : d.Blanks ws) :
    Spells conv d n (.members first ms) (ws ++ a) := by
  cases h with
  | lastMember hvs ho hfirst hkey hvs₁ hvs₂ hitem hvs₃ =>
    rw [← List.append_assoc]
    exact .lastMember (hws.append hvs) ho hfirst hkey hvs₁ hvs₂ hitem hvs₃
  | member hvs ho hfirst hkey hvs₁ hvs₂ hitem hvs₃ hrest =>
    rw [← List.append_assoc]
    exact .member (hws.append hvs) ho hfirst hkey hvs₁ hvs₂ hitem hvs₃ hrest

-- Two derivations

/-- Phrases of one sort: two values, two elements or two members, from the same place on. -/
def Phrase.Alike : Phrase F → Phrase F → Prop
  | .value _, .value _ => True
  | .elements _, .elements _ => True
  | .members first _, .members first' _ => first = first'
  | _, _ => False

/-- What may follow a phrase: a value, which may be a number, is followed by no byte of one. -/
def Phrase.Follows : Phrase F → List UInt8 → Prop
  | .value _, r => Stops NumberByte r
  | _, _ => True

theorem Tree.eq_null {t : Tree F} (h : t.kind = .null) : t = .null := by
  cases t with
  | null => rfl
  | _ => cases h

theorem Tree.eq_bool {t : Tree F} (h : t.kind = .bool) : ∃ v, t = .bool v := by
  cases t with
  | bool v => exact ⟨v, rfl⟩
  | _ => cases h

theorem Tree.eq_number {t : Tree F} (h : t.kind = .number) : ∃ v, t = .number v := by
  cases t with
  | number v => exact ⟨v, rfl⟩
  | _ => cases h

theorem Tree.eq_string {t : Tree F} (h : t.kind = .string) : ∃ v, t = .string v := by
  cases t with
  | string v => exact ⟨v, rfl⟩
  | _ => cases h

theorem Tree.eq_array {t : Tree F} (h : t.kind = .array) : ∃ v, t = .array v := by
  cases t with
  | array v => exact ⟨v, rfl⟩
  | _ => cases h

theorem Tree.eq_object {t : Tree F} (h : t.kind = .object) : ∃ v, t = .object v := by
  cases t with
  | object v => exact ⟨v, rfl⟩
  | _ => cases h

/-- White space before a byte of another kind is told apart by its bytes. -/
theorem Dialect.Blanks.meet {ws ws' : List UInt8} {r s : List UInt8} (hws : d.Blanks ws)
    (hws' : d'.Blanks ws') (hr : Stops White r) (hs : Stops White s) (h : ws ++ r = ws' ++ s) :
    ws = ws' ∧ r = s ∧ (d.meet d').Blanks ws := by
  obtain ⟨rfl, rfl⟩ := span_unique hws.white hws'.white hr hs h
  exact ⟨rfl, rfl, fun b hb => ⟨hws b hb, hws' b hb⟩⟩

/-- What the derivation of a phrase says of every other one of bytes that start alike. -/
def Phrase.Meets (conv : List UInt8 → Option F) (d d' : Dialect) (n : ℕ) (p : Phrase F)
    (a : List UInt8) : Prop :=
  ∀ {m : ℕ} {q : Phrase F} {b r s : List UInt8}, Spells conv d' m q b → p.Alike q →
    p.Follows r → p.Follows s → a ++ r = b ++ s →
    a = b ∧ p = q ∧ r = s ∧ Spells conv (d.meet d') n p a

theorem Phrase.Meets.value {n m : ℕ} {t u : Tree F} {a b r s : List UInt8}
    (h : (Phrase.value t).Meets conv d d' n a) (hb : Spells conv d' m (.value u) b)
    (hr : Stops NumberByte r) (hs : Stops NumberByte s) (heq : a ++ r = b ++ s) :
    a = b ∧ t = u ∧ r = s ∧ Spells conv (d.meet d') n (.value t) a := by
  obtain ⟨rfl, hvalue, hrest, hspells⟩ := h hb trivial hr hs heq
  cases hvalue
  exact ⟨rfl, rfl, hrest, hspells⟩

/-- A byte that ends a value: neither white space nor one of a number. -/
def Ends (c : UInt8) : Prop := ¬White c ∧ ¬NumberByte c

instance : DecidablePred Ends := fun _ => inferInstanceAs (Decidable (_ ∧ _))

/-- **A value between white space**, up to the byte that ends it. -/
theorem Phrase.Meets.item {n m : ℕ} {t u : Tree F} {ws a ws' vs b vs' r s : List UInt8}
    {c c' : UInt8} (hmeets : (Phrase.value t).Meets conv d d' n a)
    (ha : Spells conv d n (.value t) a) (hws : d.Blanks ws) (hws' : d.Blanks ws')
    (hc : Ends c) (hb : Spells conv d' m (.value u) b) (hvs : d'.Blanks vs)
    (hvs' : d'.Blanks vs') (hc' : Ends c')
    (h : ws ++ (a ++ (ws' ++ c :: r)) = vs ++ (b ++ (vs' ++ c' :: s))) :
    ws = vs ∧ a = b ∧ t = u ∧ ws' = vs' ∧ c = c' ∧ r = s ∧
      (d.meet d').Blanks ws ∧ (d.meet d').Blanks ws' ∧ Spells conv (d.meet d') n (.value t) a := by
  obtain ⟨rfl, h, hblanks⟩ := hws.meet hvs (ha.stops _) (hb.stops _) h
  obtain ⟨rfl, rfl, h, hspells⟩ := hmeets.value hb (hws'.stops hc.2 r) (hvs'.stops hc'.2 s) h
  obtain ⟨rfl, h, hblanks'⟩ := hws'.meet hvs' (stops_cons hc.1) (stops_cons hc'.1) h
  injection h with hcc hrs
  exact ⟨rfl, rfl, rfl, rfl, hcc, hrs, hblanks, hblanks', hspells⟩

/-- **The name of a member** between white space, up to its colon. -/
theorem Chars.meet_name {ws key ws' vs key' vs' r s : List UInt8} {name name' : List ℕ}
    {o o' : UInt8} (hkey : Chars d.item key name) (hws : d.Blanks ws) (hws' : d.Blanks ws')
    (ho : d.opens o) (hkey' : Chars d'.item key' name') (hvs : d'.Blanks vs)
    (hvs' : d'.Blanks vs') (ho' : d'.opens o')
    (h : ws ++ o :: (key ++ 0x22 :: (ws' ++ 0x3A :: r)) =
      vs ++ o' :: (key' ++ 0x22 :: (vs' ++ 0x3A :: s))) :
    ws = vs ∧ o = o' ∧ key = key' ∧ name = name' ∧ ws' = vs' ∧ r = s ∧
      (d.meet d').Blanks ws ∧ (d.meet d').opens o ∧ Chars (d.meet d').item key name ∧
      (d.meet d').Blanks ws' := by
  obtain ⟨rfl, hopen, hblanks⟩ := hws.meet hvs (stops_cons (d.dark_of_opens o ho))
    (stops_cons (d'.dark_of_opens o' ho')) h
  injection hopen with hoo hbody
  subst hoo
  have hcolon : ¬White 0x3A := by decide
  obtain ⟨rfl, rfl, hafter, hchars⟩ := hkey.meet hkey' hbody
  obtain ⟨rfl, hvalue, hblanks'⟩ :=
    hws'.meet hvs' (stops_cons hcolon) (stops_cons hcolon) hafter
  injection hvalue with _ hrs
  exact ⟨rfl, rfl, rfl, rfl, rfl, hrs, hblanks, ⟨ho, ho'⟩, hchars, hblanks'⟩

/-- Empty brackets hold nothing. -/
theorem not_closed {ws vs r s : List UInt8} {c o : UInt8} (hws : d.Blanks ws) (hvs : d'.Blanks vs)
    (hc : ¬White c) (ho : ¬White o) (hne : o ≠ c) : ws ++ c :: r ≠ vs ++ o :: s := by
  intro h
  obtain ⟨-, h, -⟩ := hws.meet hvs (stops_cons hc) (stops_cons ho) h
  injection h with hco
  exact hne hco.symm

theorem ascii_null : ascii "null" = [0x6E, 0x75, 0x6C, 0x6C] := by decide

theorem ascii_true : ascii "true" = [0x74, 0x72, 0x75, 0x65] := by decide

theorem ascii_false : ascii "false" = [0x66, 0x61, 0x6C, 0x73, 0x65] := by decide

theorem ends_comma : Ends 0x2C := by decide

theorem ends_bracket : Ends 0x5D := by decide

theorem ends_brace : Ends 0x7D := by decide

theorem Phrase.alike_value {t : Tree F} {q : Phrase F} (h : (Phrase.value t).Alike q) :
    ∃ u, q = .value u := by
  cases q with
  | value u => exact ⟨u, rfl⟩
  | _ => cases h

theorem Phrase.alike_elements {ts : List (Tree F)} {q : Phrase F}
    (h : (Phrase.elements ts).Alike q) : ∃ us, q = .elements us := by
  cases q with
  | elements us => exact ⟨us, rfl⟩
  | _ => cases h

theorem Phrase.alike_members {first : Bool} {ms : List (List ℕ × Tree F)} {q : Phrase F}
    (h : (Phrase.members first ms).Alike q) : ∃ ns, q = .members first ns := by
  cases q with
  | members first' ns =>
    cases h
    exact ⟨ns, rfl⟩
  | _ => cases h

/-- A value without parts meets every other one. -/
theorem Spells.meets_null {n : ℕ} (ha : Spells conv d n (.value .null) a) :
    (Phrase.value .null).Meets conv d d' n a := by
  intro m q b r s hb halike _ _ h
  obtain ⟨u, rfl⟩ := Phrase.alike_value halike
  obtain rfl := Tree.eq_null (ha.kind_eq hb h).symm
  cases ha
  cases hb
  exact ⟨rfl, rfl, List.append_cancel_left h, .null⟩

theorem Spells.meets_bool {n : ℕ} {v : Bool} (ha : Spells conv d n (.value (.bool v)) a) :
    (Phrase.value (.bool v)).Meets conv d d' n a := by
  intro m q b r s hb halike _ _ h
  obtain ⟨u, rfl⟩ := Phrase.alike_value halike
  obtain ⟨w, rfl⟩ := Tree.eq_bool (ha.kind_eq hb h).symm
  have hmixed {x y : List UInt8} : ascii "true" ++ x ≠ ascii "false" ++ y := by
    rw [ascii_true, ascii_false]
    intro heq
    cases heq
  cases ha with
  | boolTrue =>
    cases hb with
    | boolTrue => exact ⟨rfl, rfl, List.append_cancel_left h, .boolTrue⟩
    | boolFalse => exact (hmixed h).elim
  | boolFalse =>
    cases hb with
    | boolTrue => exact (hmixed h.symm).elim
    | boolFalse => exact ⟨rfl, rfl, List.append_cancel_left h, .boolFalse⟩

theorem Spells.meets_number {n : ℕ} {f : F} (ha : Spells conv d n (.value (.number f)) a) :
    (Phrase.value (.number f)).Meets conv d d' n a := by
  intro m q b r s hb halike hr hs h
  obtain ⟨u, rfl⟩ := Phrase.alike_value halike
  obtain ⟨g, rfl⟩ := Tree.eq_number (ha.kind_eq hb h).symm
  cases ha with
  | number hnumeral hvalue =>
    cases hb with
    | number hnumeral' hvalue' =>
      obtain ⟨rfl, rfl⟩ := span_unique (d.numberText_of_numeral a hnumeral).bytes
        (d'.numberText_of_numeral b hnumeral').bytes hr hs h
      cases hvalue.symm.trans hvalue'
      exact ⟨rfl, rfl, rfl, .number ⟨hnumeral, hnumeral'⟩ hvalue⟩

theorem Spells.meets_string {n : ℕ} {units : List ℕ}
    (ha : Spells conv d n (.value (.string units)) a) :
    (Phrase.value (.string units)).Meets conv d d' n a := by
  intro m q b r s hb halike hr hs h
  obtain ⟨u, rfl⟩ := Phrase.alike_value halike
  obtain ⟨units', rfl⟩ := Tree.eq_string (ha.kind_eq hb h).symm
  cases ha with
  | string hbody =>
    cases hb with
    | string hbody' =>
      simp only [List.cons_append, List.append_assoc, List.nil_append, List.cons.injEq,
        true_and] at h
      obtain ⟨rfl, rfl, rfl, hchars⟩ := hbody.meet hbody' h
      exact ⟨rfl, rfl, rfl, .string hchars⟩

theorem Spells.meets_emptyArray {n : ℕ} {ws : List UInt8} (hws : d.Blanks ws) :
    (Phrase.value (F := F) (.array [])).Meets conv d d' (n + 1) (0x5B :: (ws ++ [0x5D])) := by
  intro m q b r s hb halike _ _ h
  obtain ⟨u, rfl⟩ := Phrase.alike_value halike
  have ha : Spells conv d (n + 1) (.value (.array [])) (0x5B :: (ws ++ [0x5D])) := .emptyArray hws
  obtain ⟨items, rfl⟩ := Tree.eq_array (ha.kind_eq hb h).symm
  cases hb with
  | emptyArray hws' =>
    simp only [List.cons_append, List.append_assoc, List.nil_append, List.cons.injEq,
      true_and] at h
    obtain ⟨rfl, hrest, hblanks⟩ :=
      hws.meet hws' (stops_cons ends_bracket.1) (stops_cons ends_bracket.1) h
    injection hrest with _ hrest
    exact ⟨rfl, rfl, hrest, .emptyArray hblanks⟩
  | array _ hbody =>
    obtain ⟨vs, o, rest, rfl, hvs, ho, hne⟩ := hbody.elements_head
    simp only [List.cons_append, List.append_assoc, List.nil_append, List.cons.injEq,
      true_and] at h
    exact (not_closed hws hvs ends_bracket.1 ho hne h).elim

theorem Spells.meets_array {n : ℕ} {items : List (Tree F)} {body : List UInt8}
    (hcount : d.count items.length) (hbody : Spells conv d n (.elements items) body)
    (ih : (Phrase.elements items).Meets conv d d' n body) :
    (Phrase.value (.array items)).Meets conv d d' (n + 1) (0x5B :: body) := by
  intro m q b r s hb halike _ _ h
  obtain ⟨u, rfl⟩ := Phrase.alike_value halike
  have ha : Spells conv d (n + 1) (.value (.array items)) (0x5B :: body) := .array hcount hbody
  obtain ⟨items', rfl⟩ := Tree.eq_array (ha.kind_eq hb h).symm
  cases hb with
  | emptyArray hws =>
    obtain ⟨vs, o, rest, rfl, hvs, ho, hne⟩ := hbody.elements_head
    simp only [List.cons_append, List.append_assoc, List.nil_append, List.cons.injEq,
      true_and] at h
    exact (not_closed hws hvs ends_bracket.1 ho hne h.symm).elim
  | array hcount' hbody' =>
    injection h with _ hbodies
    obtain ⟨rfl, hitems, hrest, hspells⟩ := ih hbody' trivial trivial trivial hbodies
    cases hitems
    exact ⟨rfl, rfl, hrest, .array ⟨hcount, hcount'⟩ hspells⟩

theorem Spells.meets_emptyObject {n : ℕ} {ws : List UInt8} (hws : d.Blanks ws) :
    (Phrase.value (F := F) (.object [])).Meets conv d d' (n + 1) (0x7B :: (ws ++ [0x7D])) := by
  intro m q b r s hb halike _ _ h
  obtain ⟨u, rfl⟩ := Phrase.alike_value halike
  have ha : Spells conv d (n + 1) (.value (.object [])) (0x7B :: (ws ++ [0x7D])) := .emptyObject hws
  obtain ⟨members, rfl⟩ := Tree.eq_object (ha.kind_eq hb h).symm
  cases hb with
  | emptyObject hws' =>
    simp only [List.cons_append, List.append_assoc, List.nil_append, List.cons.injEq,
      true_and] at h
    obtain ⟨rfl, hrest, hblanks⟩ :=
      hws.meet hws' (stops_cons ends_brace.1) (stops_cons ends_brace.1) h
    injection hrest with _ hrest
    exact ⟨rfl, rfl, hrest, .emptyObject hblanks⟩
  | object _ hbody =>
    obtain ⟨vs, o, rest, rfl, hvs, ho, hne, -⟩ := hbody.members_head
    simp only [List.cons_append, List.append_assoc, List.nil_append, List.cons.injEq,
      true_and] at h
    exact (not_closed hws hvs ends_brace.1 ho hne h).elim

theorem Spells.meets_object {n : ℕ} {members : List (List ℕ × Tree F)} {body : List UInt8}
    (hnames : d.names (members.map (·.1))) (hbody : Spells conv d n (.members true members) body)
    (ih : (Phrase.members true members).Meets conv d d' n body) :
    (Phrase.value (.object members)).Meets conv d d' (n + 1) (0x7B :: body) := by
  intro m q b r s hb halike _ _ h
  obtain ⟨u, rfl⟩ := Phrase.alike_value halike
  have ha : Spells conv d (n + 1) (.value (.object members)) (0x7B :: body) := .object hnames hbody
  obtain ⟨members', rfl⟩ := Tree.eq_object (ha.kind_eq hb h).symm
  cases hb with
  | emptyObject hws =>
    obtain ⟨vs, o, rest, rfl, hvs, ho, hne, -⟩ := hbody.members_head
    simp only [List.cons_append, List.append_assoc, List.nil_append, List.cons.injEq,
      true_and] at h
    exact (not_closed hws hvs ends_brace.1 ho hne h.symm).elim
  | object hnames' hbody' =>
    injection h with _ hbodies
    obtain ⟨rfl, hmembers, hrest, hspells⟩ := ih hbody' rfl trivial trivial hbodies
    cases hmembers
    exact ⟨rfl, rfl, hrest, .object ⟨hnames, hnames'⟩ hspells⟩

theorem comma_ne_bracket : (0x2C : UInt8) ≠ 0x5D := by decide

theorem comma_ne_brace : (0x2C : UInt8) ≠ 0x7D := by decide

theorem Spells.meets_lastElement {n : ℕ} {ws ws' : List UInt8} {item : Tree F}
    (hws : d.Blanks ws) (hitem : Spells conv d n (.value item) a) (hws' : d.Blanks ws')
    (ih : (Phrase.value item).Meets conv d d' n a) :
    (Phrase.elements [item]).Meets conv d d' n (ws ++ (a ++ (ws' ++ [0x5D]))) := by
  intro m q b r s hb halike _ _ h
  obtain ⟨us, rfl⟩ := Phrase.alike_elements halike
  cases hb with
  | lastElement hvs hitem' hvs' =>
    simp only [List.cons_append, List.append_assoc, List.nil_append] at h
    obtain ⟨rfl, rfl, rfl, rfl, -, rfl, hblanks, hblanks', hspells⟩ :=
      ih.item hitem hws hws' ends_bracket hitem' hvs hvs' ends_bracket h
    exact ⟨rfl, rfl, rfl, .lastElement hblanks hspells hblanks'⟩
  | element hvs hitem' hvs' =>
    simp only [List.cons_append, List.append_assoc, List.nil_append] at h
    obtain ⟨-, -, -, -, hcomma, -⟩ :=
      ih.item hitem hws hws' ends_bracket hitem' hvs hvs' ends_comma h
    exact absurd hcomma.symm comma_ne_bracket

theorem Spells.meets_element {n : ℕ} {ws ws' rest : List UInt8} {item : Tree F}
    {items : List (Tree F)} (hws : d.Blanks ws) (hitem : Spells conv d n (.value item) a)
    (hws' : d.Blanks ws') (ih : (Phrase.value item).Meets conv d d' n a)
    (ihrest : (Phrase.elements items).Meets conv d d' n rest) :
    (Phrase.elements (item :: items)).Meets conv d d' n (ws ++ (a ++ (ws' ++ 0x2C :: rest))) := by
  intro m q b r s hb halike _ _ h
  obtain ⟨us, rfl⟩ := Phrase.alike_elements halike
  cases hb with
  | lastElement hvs hitem' hvs' =>
    simp only [List.cons_append, List.append_assoc, List.nil_append] at h
    obtain ⟨-, -, -, -, hcomma, -⟩ :=
      ih.item hitem hws hws' ends_comma hitem' hvs hvs' ends_bracket h
    exact absurd hcomma comma_ne_bracket
  | element hvs hitem' hvs' hrest' =>
    simp only [List.cons_append, List.append_assoc] at h
    obtain ⟨rfl, rfl, rfl, rfl, -, hrests, hblanks, hblanks', hspells⟩ :=
      ih.item hitem hws hws' ends_comma hitem' hvs hvs' ends_comma h
    obtain ⟨rfl, hitems, hrest, hspells'⟩ := ihrest hrest' trivial trivial trivial hrests
    cases hitems
    exact ⟨rfl, rfl, hrest, .element hblanks hspells hblanks' hspells'⟩

theorem Spells.meets_lastMember {n : ℕ} {first : Bool} {o : UInt8}
    {ws key ws₁ ws₂ ws₃ : List UInt8} {name : List ℕ} {item : Tree F} (hws : d.Blanks ws)
    (ho : d.opens o) (hfirst : first = true → o ≠ 0x7D) (hkey : Chars d.item key name)
    (hws₁ : d.Blanks ws₁) (hws₂ : d.Blanks ws₂) (hitem : Spells conv d n (.value item) a)
    (hws₃ : d.Blanks ws₃) (ih : (Phrase.value item).Meets conv d d' n a) :
    (Phrase.members first [(name, item)]).Meets conv d d' n
      (ws ++ o :: (key ++ 0x22 :: (ws₁ ++ 0x3A :: (ws₂ ++ (a ++ (ws₃ ++ [0x7D])))))) := by
  intro m q b r s hb halike _ _ h
  obtain ⟨us, rfl⟩ := Phrase.alike_members halike
  cases hb with
  | lastMember hvs ho' _ hkey' hvs₁ hvs₂ hitem' hvs₃ =>
    simp only [List.cons_append, List.append_assoc, List.nil_append] at h
    obtain ⟨rfl, rfl, rfl, rfl, rfl, hvalue, hblanks, hopens, hchars, hblanks₁⟩ :=
      hkey.meet_name hws hws₁ ho hkey' hvs hvs₁ ho' h
    obtain ⟨rfl, rfl, rfl, rfl, -, rfl, hblanks₂, hblanks₃, hspells⟩ :=
      ih.item hitem hws₂ hws₃ ends_brace hitem' hvs₂ hvs₃ ends_brace hvalue
    exact ⟨rfl, rfl, rfl,
      .lastMember hblanks hopens hfirst hchars hblanks₁ hblanks₂ hspells hblanks₃⟩
  | member hvs ho' _ hkey' hvs₁ hvs₂ hitem' hvs₃ =>
    simp only [List.cons_append, List.append_assoc, List.nil_append] at h
    obtain ⟨-, -, -, -, -, hvalue, -⟩ := hkey.meet_name hws hws₁ ho hkey' hvs hvs₁ ho' h
    obtain ⟨-, -, -, -, hcomma, -⟩ :=
      ih.item hitem hws₂ hws₃ ends_brace hitem' hvs₂ hvs₃ ends_comma hvalue
    exact absurd hcomma.symm comma_ne_brace

theorem Spells.meets_member {n : ℕ} {first : Bool} {o : UInt8}
    {ws key ws₁ ws₂ ws₃ rest : List UInt8} {name : List ℕ} {item : Tree F}
    {members : List (List ℕ × Tree F)} (hws : d.Blanks ws) (ho : d.opens o)
    (hfirst : first = true → o ≠ 0x7D) (hkey : Chars d.item key name) (hws₁ : d.Blanks ws₁)
    (hws₂ : d.Blanks ws₂) (hitem : Spells conv d n (.value item) a) (hws₃ : d.Blanks ws₃)
    (ih : (Phrase.value item).Meets conv d d' n a)
    (ihrest : (Phrase.members false members).Meets conv d d' n rest) :
    (Phrase.members first ((name, item) :: members)).Meets conv d d' n
      (ws ++ o :: (key ++ 0x22 :: (ws₁ ++ 0x3A :: (ws₂ ++ (a ++ (ws₃ ++ 0x2C :: rest)))))) := by
  intro m q b r s hb halike _ _ h
  obtain ⟨us, rfl⟩ := Phrase.alike_members halike
  cases hb with
  | lastMember hvs ho' _ hkey' hvs₁ hvs₂ hitem' hvs₃ =>
    simp only [List.cons_append, List.append_assoc, List.nil_append] at h
    obtain ⟨-, -, -, -, -, hvalue, -⟩ := hkey.meet_name hws hws₁ ho hkey' hvs hvs₁ ho' h
    obtain ⟨-, -, -, -, hcomma, -⟩ :=
      ih.item hitem hws₂ hws₃ ends_comma hitem' hvs₂ hvs₃ ends_brace hvalue
    exact absurd hcomma comma_ne_brace
  | member hvs ho' _ hkey' hvs₁ hvs₂ hitem' hvs₃ hrest' =>
    simp only [List.cons_append, List.append_assoc] at h
    obtain ⟨rfl, rfl, rfl, rfl, rfl, hvalue, hblanks, hopens, hchars, hblanks₁⟩ :=
      hkey.meet_name hws hws₁ ho hkey' hvs hvs₁ ho' h
    obtain ⟨rfl, rfl, rfl, rfl, -, hrests, hblanks₂, hblanks₃, hspells⟩ :=
      ih.item hitem hws₂ hws₃ ends_comma hitem' hvs₂ hvs₃ ends_comma hvalue
    obtain ⟨rfl, hmembers, hrest, hspells'⟩ := ihrest hrest' rfl trivial trivial hrests
    cases hmembers
    exact ⟨rfl, rfl, hrest,
      .member hblanks hopens hfirst hchars hblanks₁ hblanks₂ hspells hblanks₃ hspells'⟩

/-- **Two derivations** of phrases of one sort, of bytes that start alike, are the same one, in
what both dialects allow. -/
theorem Spells.meets {n : ℕ} {p : Phrase F} (ha : Spells conv d n p a) :
    p.Meets conv d d' n a := by
  induction ha with
  | null => exact Spells.meets_null .null
  | boolTrue => exact Spells.meets_bool .boolTrue
  | boolFalse => exact Spells.meets_bool .boolFalse
  | number hnumeral hvalue => exact Spells.meets_number (.number hnumeral hvalue)
  | string hbody => exact Spells.meets_string (.string hbody)
  | emptyArray hws => exact Spells.meets_emptyArray hws
  | array hcount hbody ih => exact Spells.meets_array hcount hbody ih
  | emptyObject hws => exact Spells.meets_emptyObject hws
  | object hnames hbody ih => exact Spells.meets_object hnames hbody ih
  | lastElement hws hitem hws' ih => exact Spells.meets_lastElement hws hitem hws' ih
  | element hws hitem hws' _ ih ihrest => exact Spells.meets_element hws hitem hws' ih ihrest
  | lastMember hws ho hfirst hkey hws₁ hws₂ hitem hws₃ ih =>
    exact Spells.meets_lastMember hws ho hfirst hkey hws₁ hws₂ hitem hws₃ ih
  | member hws ho hfirst hkey hws₁ hws₂ hitem hws₃ _ ih ihrest =>
    exact Spells.meets_member hws ho hfirst hkey hws₁ hws₂ hitem hws₃ ih ihrest

theorem stops_nil {p : UInt8 → Prop} : Stops p [] := by
  intro _ _ heq
  cases heq

/-- White space at the end of a text stops a number. -/
theorem Dialect.Blanks.stops_end {ws : List UInt8} (h : d.Blanks ws) : Stops NumberByte ws := by
  cases ws with
  | nil => exact stops_nil
  | cons b ws => exact stops_cons (not_numberByte_of_white (h.white b List.mem_cons_self))

theorem Text.exists_append {n : ℕ} {t : Tree F} {text : List UInt8} (h : Text conv d n t text) :
    ∃ ws a ws', text = ws ++ (a ++ ws') ∧ d.Blanks ws ∧ Spells conv d n (.value t) a ∧
      d.Blanks ws' := by
  obtain ⟨hws, hvalue, hws'⟩ := h
  exact ⟨_, _, _, rfl, hws, hvalue, hws'⟩

/-- **A text** spells one value, and one of two dialects is one of what both allow. -/
theorem Text.meet {n m : ℕ} {t u : Tree F} {text : List UInt8} (ha : Text conv d n t text)
    (hb : Text conv d' m u text) : t = u ∧ Text conv (d.meet d') n t text := by
  obtain ⟨ws, a, ws', rfl, hws, hvalue, hws'⟩ := ha.exists_append
  obtain ⟨vs, b, vs', htext, hvs, hvalue', hvs'⟩ := hb.exists_append
  obtain ⟨rfl, hrest, hblanks⟩ := hws.meet hvs (hvalue.stops _) (hvalue'.stops _) htext
  have hmeets : (Phrase.value t).Meets conv d d' n a := hvalue.meets
  obtain ⟨rfl, rfl, rfl, hspells⟩ :=
    hmeets.value hvalue' hws'.stops_end hvs'.stops_end hrest
  exact ⟨rfl, .mk hblanks hspells fun b hb => ⟨hws' b hb, hvs' b hb⟩⟩

end JsonText
