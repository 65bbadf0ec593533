import Mathlib.Data.List.Basic

/-!
# Lines

A text of lines, each of which ends with a separator, and the lines of a text.

## Main definitions

- `Lines.unlines` — the text of some lines
- `Lines.lines` — the lines of a text

## Main results

- `Lines.lines_unlines` — lines without a separator are read back
- `Lines.append_inj_of_forall` — two parts told apart by their elements
-/

namespace Lines

variable {α : Type} {sep : α}

/-- The text of some lines. -/
def unlines (sep : α) (ls : List (List α)) : List α := ls.flatMap (· ++ [sep])

/-- The lines of a text; the last one may lack its separator. -/
def lines [DecidableEq α] (sep : α) (text : List α) : List (List α) :=
  let parts := text.splitOn sep
  if parts.getLast? = some [] then parts.dropLast else parts

@[simp] theorem unlines_nil : unlines sep [] = [] := rfl

@[simp] theorem unlines_cons (l : List α) (ls : List (List α)) :
    unlines sep (l :: ls) = l ++ sep :: unlines sep ls := by
  simp [unlines]

variable [DecidableEq α]

theorem splitOn_unlines {ls : List (List α)} (h : ∀ l ∈ ls, sep ∉ l) :
    (unlines sep ls).splitOn sep = ls ++ [[]] := by
  induction ls with
  | nil => rfl
  | cons l ls ih =>
    obtain ⟨hl, hls⟩ := List.forall_mem_cons.mp h
    rw [unlines_cons, List.splitOn_append_cons_self_of_not_mem hl, ih hls]
    rfl

/-- **The lines of a text of lines.** -/
theorem lines_unlines {ls : List (List α)} (h : ∀ l ∈ ls, sep ∉ l) :
    lines sep (unlines sep ls) = ls := by
  rw [lines, splitOn_unlines h]
  simp

/-- A text of lines has them only one way. -/
theorem unlines_inj {ls ls' : List (List α)} (h : ∀ l ∈ ls, sep ∉ l) (h' : ∀ l ∈ ls', sep ∉ l)
    (htext : unlines sep ls = unlines sep ls') : ls = ls' := by
  rw [← lines_unlines h, htext, lines_unlines h']

/-- Two parts of a list are found again by a property of the elements of the first that no element
of the second has. -/
theorem append_inj_of_forall {β : Type} (p : β → Bool) {xs xs' ys ys' : List β}
    (hxs : ∀ x ∈ xs, p x = true) (hxs' : ∀ x ∈ xs', p x = true)
    (hys : ∀ y ∈ ys, p y = false) (hys' : ∀ y ∈ ys', p y = false)
    (h : xs ++ ys = xs' ++ ys') : xs = xs' ∧ ys = ys' := by
  have hfilter : ∀ {zs ws : List β}, (∀ z ∈ zs, p z = true) → (∀ w ∈ ws, p w = false) →
      (zs ++ ws).filter p = zs := by
    intro zs ws hzs hws
    rw [List.filter_append, List.filter_eq_self.mpr hzs, List.filter_eq_nil_iff.mpr fun w hw =>
      Bool.eq_false_iff.mp (hws w hw), List.append_nil]
  have hparts := congrArg (List.filter p) h
  rw [hfilter hxs hys, hfilter hxs' hys'] at hparts
  subst hparts
  exact ⟨rfl, List.append_cancel_left h⟩

end Lines
