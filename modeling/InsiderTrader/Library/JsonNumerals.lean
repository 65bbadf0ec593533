import InsiderTrader.Library.JsonText
import Mathlib.Data.List.TakeWhile

/-!
# Decimal numerals

The numbers of a JSON text, and those that a conversion of decimal text to floating
point accepts: any digits on one side of a point at least, and any sign.

## Main definitions

- `JsonText.Numeral` — `[-] (0 | digit1-9 digit*) [. digit+] [e [+-] digit+]`
- `JsonText.LooseNumeral` — `[+-] (digit+ | digit+ . digit* | digit* . digit+) [e [+-] digit+]`

## Main results

- `JsonText.Numeral.loose` — every number of a JSON text is converted
- `JsonText.Numeral.numberText` — its form
-/

namespace JsonText

/-- One digit at least, and nothing else. -/
def Digits (text : List UInt8) : Prop := text ≠ [] ∧ ∀ b ∈ text, Digit b

instance : DecidablePred Digits := fun text =>
  @instDecidableAnd _ _ _ (List.decidableBAll Digit text)

/-- A text without a sign in front of it. -/
def unsigned : List UInt8 → List UInt8
  | [] => []
  | b :: rest => if b = 0x2B ∨ b = 0x2D then rest else b :: rest

/-- A text without a minus in front of it. -/
def unminus : List UInt8 → List UInt8
  | [] => []
  | b :: rest => if b = 0x2D then rest else b :: rest

/-- An exponent, or nothing. -/
def Exponent : List UInt8 → Prop
  | [] => True
  | e :: rest => (e = 0x65 ∨ e = 0x45) ∧ Digits (unsigned rest)

instance : DecidablePred Exponent
  | [] => inferInstanceAs (Decidable True)
  | _ :: _ => inferInstanceAs (Decidable (_ ∧ _))

/-- The digits in front of a text. -/
def leading (text : List UInt8) : List UInt8 := text.takeWhile fun b => decide (Digit b)

/-- What follows the digits in front of a text. -/
def afterDigits (text : List UInt8) : List UInt8 := text.dropWhile fun b => decide (Digit b)

/-- The digits after a point, if there is one. -/
def fraction (rest : List UInt8) : List UInt8 :=
  if rest.head? = some 0x2E then leading rest.tail else []

/-- What follows a point and its digits, if there is one. -/
def afterFraction (rest : List UInt8) : List UInt8 :=
  if rest.head? = some 0x2E then afterDigits rest.tail else rest

/-- A number of a JSON text. -/
structure Numeral (text : List UInt8) : Prop where
  int : leading (unminus text) ≠ []
  zero : (leading (unminus text)).head? = some 0x30 → leading (unminus text) = [0x30]
  fraction : (afterDigits (unminus text)).head? = some 0x2E →
    fraction (afterDigits (unminus text)) ≠ []
  exponent : Exponent (afterFraction (afterDigits (unminus text)))

/-- A numeral that is converted to floating point. -/
structure LooseNumeral (text : List UInt8) : Prop where
  digits : leading (unsigned text) ≠ [] ∨ fraction (afterDigits (unsigned text)) ≠ []
  exponent : Exponent (afterFraction (afterDigits (unsigned text)))

instance : DecidablePred Numeral := fun text => decidable_of_iff
  (leading (unminus text) ≠ [] ∧
    ((leading (unminus text)).head? = some 0x30 → leading (unminus text) = [0x30]) ∧
    ((afterDigits (unminus text)).head? = some 0x2E →
      fraction (afterDigits (unminus text)) ≠ []) ∧
    Exponent (afterFraction (afterDigits (unminus text))))
  ⟨fun h => ⟨h.1, h.2.1, h.2.2.1, h.2.2.2⟩, fun h => ⟨h.int, h.zero, h.fraction, h.exponent⟩⟩

instance : DecidablePred LooseNumeral := fun text => decidable_of_iff
  ((leading (unsigned text) ≠ [] ∨ fraction (afterDigits (unsigned text)) ≠ []) ∧
    Exponent (afterFraction (afterDigits (unsigned text))))
  ⟨fun h => ⟨h.1, h.2⟩, fun h => ⟨h.digits, h.exponent⟩⟩

theorem leading_append_afterDigits (text : List UInt8) : leading text ++ afterDigits text = text :=
  List.takeWhile_append_dropWhile

theorem digit_of_mem_leading {text : List UInt8} {b : UInt8} (h : b ∈ leading text) : Digit b :=
  of_decide_eq_true (List.mem_takeWhile_imp (p := fun b => decide (Digit b)) h)

theorem leading_cons_of_not {b : UInt8} {rest : List UInt8} (h : ¬Digit b) :
    leading (b :: rest) = [] := List.takeWhile_cons_of_neg (by simpa using h)

theorem unsigned_cons (b : UInt8) (rest : List UInt8) :
    unsigned (b :: rest) = if b = 0x2B ∨ b = 0x2D then rest else b :: rest := rfl

theorem unminus_cons (b : UInt8) (rest : List UInt8) :
    unminus (b :: rest) = if b = 0x2D then rest else b :: rest := rfl

/-- A text that digits lead without its minus has them without any sign. -/
theorem unsigned_eq_unminus {text : List UInt8} (h : leading (unminus text) ≠ []) :
    unsigned text = unminus text := by
  cases text with
  | nil => rfl
  | cons b rest =>
    rw [unminus_cons] at h
    rw [unsigned_cons, unminus_cons]
    by_cases hminus : b = 0x2D
    · rw [if_pos (Or.inr hminus), if_pos hminus]
    · rw [if_neg hminus] at h
      rw [if_neg hminus, if_neg]
      rintro (rfl | rfl)
      · exact h (leading_cons_of_not (by decide))
      · exact hminus rfl

/-- **Every number of a JSON text** is converted. -/
theorem Numeral.loose {text : List UInt8} (h : Numeral text) : LooseNumeral text := by
  have hsign := unsigned_eq_unminus h.int
  constructor
  · rw [hsign]
    exact .inl h.int
  · rw [hsign]
    exact h.exponent

theorem numberByte_of_mem_unsigned {text : List UInt8} {b : UInt8}
    (h : ∀ c ∈ unsigned text, NumberByte c) (hb : b ∈ text) : NumberByte b := by
  cases text with
  | nil => cases hb
  | cons c rest =>
    rw [unsigned_cons] at h
    split at h
    · next hsign =>
      cases hb with
      | head =>
        obtain rfl | rfl := hsign
        · exact .inr (by decide)
        · exact .inr (by decide)
      | tail _ hb => exact h b hb
    · exact h b hb

theorem Exponent.bytes {text : List UInt8} (h : Exponent text) : ∀ b ∈ text, NumberByte b := by
  intro b hb
  cases text with
  | nil => cases hb
  | cons e rest =>
    cases hb with
    | head =>
      obtain rfl | rfl := h.1
      · exact .inr (by decide)
      · exact .inr (by decide)
    | tail _ hb =>
      exact numberByte_of_mem_unsigned (fun c hc => .inl (h.2.2 c hc)) hb

theorem afterFraction_bytes {rest : List UInt8} (h : Exponent (afterFraction rest)) :
    ∀ b ∈ rest, NumberByte b := by
  intro b hb
  unfold afterFraction at h
  split at h
  · next hpoint =>
    cases rest with
    | nil => cases hb
    | cons c rest =>
      cases hpoint
      cases hb with
      | head => exact .inr (by decide)
      | tail _ hb =>
        rw [← leading_append_afterDigits rest] at hb
        obtain hb | hb := List.mem_append.mp hb
        · exact .inl (digit_of_mem_leading hb)
        · exact h.bytes b hb
  · exact h.bytes b hb

theorem LooseNumeral.bytes {text : List UInt8} (h : LooseNumeral text) :
    ∀ b ∈ text, NumberByte b := by
  intro b hb
  refine numberByte_of_mem_unsigned (fun c hc => ?_) hb
  rw [← leading_append_afterDigits (unsigned text)] at hc
  obtain hc | hc := List.mem_append.mp hc
  · exact .inl (digit_of_mem_leading hc)
  · exact afterFraction_bytes h.exponent c hc

/-- **The form** of a number of a JSON text. -/
theorem Numeral.numberText {text : List UInt8} (h : Numeral text) : NumberText text where
  bytes := h.loose.bytes
  starts := by
    cases text with
    | nil => exact absurd rfl h.int
    | cons b rest =>
      refine ⟨b, rest, rfl, ?_⟩
      have hint := h.int
      rw [unminus_cons] at hint
      by_cases hminus : b = 0x2D
      · exact .inl hminus
      · rw [if_neg hminus] at hint
        by_cases hdigit : Digit b
        · exact .inr hdigit
        · exact absurd (leading_cons_of_not hdigit) hint

/-- Numerals of a JSON text, and some that are converted all the same. -/
example : Numeral (ascii "-0.5e+10") ∧ Numeral (ascii "120") ∧
    ∀ text ∈ ["01", "1.", "-.5", "1e", "-"], ¬Numeral (ascii text) := by decide

example : (∀ text ∈ ["01", "1.", "-.5", "+1"], LooseNumeral (ascii text)) ∧
    ∀ text ∈ ["1e", "-", ".", "1.5.2"], ¬LooseNumeral (ascii text) := by decide

end JsonText
