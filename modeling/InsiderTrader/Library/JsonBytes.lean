import InsiderTrader.Library.JsonText

/-!
# The bytes of a JSON text

Where names open with ASCII bytes, the bytes of a JSON text are a text in UTF-8.

## Main results

- `JsonText.Text.isText` — the bytes of a JSON text are a text
-/

namespace JsonText

open Utf

variable {F : Type} {conv : List UInt8 → Option F} {d : Dialect} {a : List UInt8}

theorem escapeUnit_ascii {e : UInt8} {u : ℕ} (h : escapeUnit e = some u) : e.toNat < 0x80 := by
  obtain ⟨x, hx, -⟩ := Option.map_eq_some_iff.mp h
  have htable : ∀ y ∈ [(0x22, 0x22), (0x5C, 0x5C), (0x2F, 0x2F), (0x62, 8), (0x66, 12),
      (0x6E, 10), (0x72, 13), (0x74, 9)], (y : ℕ × ℕ).1 < 0x80 := by decide
  have hbyte : x.1 = e.toNat :=
    of_decide_eq_true (List.find?_some (p := fun y : ℕ × ℕ => decide (y.1 = e.toNat)) hx)
  rw [← hbyte]
  exact htable x (List.mem_of_find?_eq_some hx)

theorem hexValue_ascii {b : UInt8} {v : ℕ} (h : hexValue b = some v) : b.toNat < 0x80 := by
  unfold hexValue at h
  split_ifs at h <;> omega

theorem hexUnit_ascii {a b c d : UInt8} {u : ℕ} (h : hexUnit a b c d = some u) :
    ∀ x ∈ [a, b, c, d], x.toNat < 0x80 := by
  obtain ⟨va, ha, h⟩ := Option.bind_eq_some_iff.mp h
  obtain ⟨vb, hb, h⟩ := Option.bind_eq_some_iff.mp h
  obtain ⟨vc, hc, h⟩ := Option.bind_eq_some_iff.mp h
  obtain ⟨vd, hd, -⟩ := Option.bind_eq_some_iff.mp h
  intro x hx
  simp only [List.mem_cons, List.not_mem_nil, or_false] at hx
  obtain rfl | rfl | rfl | rfl := hx
  · exact hexValue_ascii ha
  · exact hexValue_ascii hb
  · exact hexValue_ascii hc
  · exact hexValue_ascii hd

theorem Item.isText {piece : List UInt8} {us : List ℕ} (h : Item piece us) : IsText piece := by
  have hslash : (0x5C : UInt8).toNat < 0x80 := by decide
  cases h with
  | ascii hascii => exact (isText_ascii (by simp)).cons hascii
  | wide => exact isText_char _
  | escape he => exact ((isText_ascii (by simp)).cons (escapeUnit_ascii he)).cons hslash
  | unicode hu => exact ((isText_ascii (hexUnit_ascii hu)).cons (by decide)).cons hslash

theorem Chars.isText {item : List UInt8 → Prop} {body : List UInt8} {units : List ℕ}
    (h : Chars item body units) : IsText body := by
  induction h with
  | nil => exact isText_ascii (by simp)
  | cons hpiece _ _ ih => exact hpiece.isText.append ih

theorem Dialect.Blanks.isText {ws : List UInt8} (h : d.Blanks ws) : IsText ws := by
  refine isText_ascii fun b hb => ?_
  have hwhite := d.white_of_blank b (h b hb)
  simp only [White, List.mem_cons, List.not_mem_nil, or_false] at hwhite
  omega

theorem NumberText.isText {text : List UInt8} (h : NumberText text) : IsText text := by
  refine isText_ascii fun b hb => ?_
  obtain hdigit | hmark := h.bytes b hb
  · exact Nat.lt_of_le_of_lt hdigit.2 (by decide)
  · simp only [List.mem_cons, List.not_mem_nil, or_false] at hmark
    omega

/-- A phrase is a text, where names open with ASCII bytes. -/
theorem Spells.isText (hopens : ∀ b, d.opens b → b.toNat < 0x80) {n : ℕ} {p : Phrase F}
    (h : Spells conv d n p a) : IsText a := by
  have hquote : (0x22 : UInt8).toNat < 0x80 := by decide
  have hcomma : (0x2C : UInt8).toNat < 0x80 := by decide
  have hcolon : (0x3A : UInt8).toNat < 0x80 := by decide
  have hbracket : IsText [0x5D] := isText_ascii (by simp)
  have hbrace : IsText [0x7D] := isText_ascii (by simp)
  induction h with
  | null => exact isText_ascii (by simp [ascii])
  | boolTrue => exact isText_ascii (by simp [ascii])
  | boolFalse => exact isText_ascii (by simp [ascii])
  | number hnumeral => exact (d.numberText_of_numeral _ hnumeral).isText
  | string hbody => exact (hbody.isText.append (isText_ascii (by simp))).cons hquote
  | emptyArray hws => exact (hws.isText.append hbracket).cons (by decide)
  | array _ _ ih => exact ih.cons (by decide)
  | emptyObject hws => exact (hws.isText.append hbrace).cons (by decide)
  | object _ _ ih => exact ih.cons (by decide)
  | lastElement hws _ hws' ih => exact hws.isText.append (ih.append (hws'.isText.append hbracket))
  | element hws _ hws' _ ih ihrest =>
    exact hws.isText.append (ih.append (hws'.isText.append (ihrest.cons hcomma)))
  | lastMember hws ho _ hkey hws₁ hws₂ _ hws₃ ih =>
    have hvalue := hws₂.isText.append (ih.append (hws₃.isText.append hbrace))
    have hname := hkey.isText.append ((hws₁.isText.append (hvalue.cons hcolon)).cons hquote)
    exact hws.isText.append (hname.cons (hopens _ ho))
  | member hws ho _ hkey hws₁ hws₂ _ hws₃ _ ih ihrest =>
    have hvalue := hws₂.isText.append (ih.append (hws₃.isText.append (ihrest.cons hcomma)))
    have hname := hkey.isText.append ((hws₁.isText.append (hvalue.cons hcolon)).cons hquote)
    exact hws.isText.append (hname.cons (hopens _ ho))

/-- **The bytes of a JSON text** are a text. -/
theorem Text.isText (hopens : ∀ b, d.opens b → b.toNat < 0x80) {n : ℕ} {tree : Tree F}
    (h : Text conv d n tree a) : IsText a := by
  obtain ⟨hws, hvalue, hws'⟩ := h
  exact hws.isText.append ((hvalue.isText hopens).append hws'.isText)

end JsonText
