import Mathlib.Data.List.Induction
import Mathlib.Order.Lattice

/-!
# The last greatest element

Among the elements of a list with the greatest key, the last one. It depends
only on the elements of each key in their order, so that a stable sort leaves
it alone, and so does taking out an element that is not the one found.

## Main definitions

- `LastMax.lastMaxBy` — the last of the elements with the greatest key
- `LastMax.sortByKey` — the stable sort
- `LastMax.IsLastMax` — what it means to be the last greatest element

## Main results

- `LastMax.lastMaxBy_eq_some_iff` — the search finds the last greatest element
- `LastMax.lastMaxBy_filter_sortByKey` — a stable sort changes no search
- `LastMax.lastMaxBy_remove` — an element that was not found changes no search
-/

namespace LastMax

variable {α κ : Type} [LinearOrder κ]

/-- The last of the elements with the greatest key. -/
def lastMaxBy (key : α → κ) (l : List α) : Option α :=
  l.foldl (fun best x => best.elim (some x) fun b => if key x < key b then some b else some x) none

/-- Sort by a key; the elements of one key keep their order. -/
def sortByKey (key : α → κ) (l : List α) : List α := l.mergeSort fun x y => key x ≤ key y

/-- `e` has the greatest key of the list, and is the last element with that key. -/
structure IsLastMax (key : α → κ) (l : List α) (e : α) : Prop where
  greatest : ∀ x ∈ l, key x ≤ key e
  last : (l.filter (key · = key e)).getLast? = some e

variable {key : α → κ} {l l' l₁ l₂ : List α} {e x : α}

theorem lastMaxBy_append_singleton (l : List α) (x : α) :
    lastMaxBy key (l ++ [x]) =
      (lastMaxBy key l).elim (some x) fun b => if key x < key b then some b else some x := by
  rw [lastMaxBy, List.foldl_append]
  rfl

theorem IsLastMax.mem (h : IsLastMax key l e) : e ∈ l :=
  (List.mem_filter.mp (List.mem_of_getLast? h.last)).1

theorem IsLastMax.unique (h : IsLastMax key l e) (hx : IsLastMax key l x) : x = e := by
  have hkey : key x = key e := le_antisymm (h.greatest x hx.mem) (hx.greatest e h.mem)
  have hlast := hx.last
  rw [hkey, h.last] at hlast
  exact (Option.some.inj hlast).symm

/-- One step of the search. -/
theorem IsLastMax.append_singleton (h : IsLastMax key l e) :
    IsLastMax key (l ++ [x]) (if key x < key e then e else x) := by
  split
  · next hlt =>
    constructor
    · intro y hy
      rcases List.mem_append.mp hy with hy | hy
      · exact h.greatest y hy
      · rw [List.mem_singleton.mp hy]
        exact le_of_lt hlt
    · rw [List.filter_append, List.filter_cons_of_neg (by simpa using ne_of_lt hlt),
        List.filter_nil, List.append_nil, h.last]
  · next hge =>
    have hle : key e ≤ key x := not_lt.mp hge
    constructor
    · intro y hy
      rcases List.mem_append.mp hy with hy | hy
      · exact le_trans (h.greatest y hy) hle
      · rw [List.mem_singleton.mp hy]
    · rw [List.filter_append, List.filter_cons_of_pos (by simp), List.filter_nil,
        List.getLast?_concat]

/-- **The search** finds the last greatest element, in every list that has elements. -/
theorem lastMaxBy_cases (key : α → κ) (l : List α) :
    (l = [] ∧ lastMaxBy key l = none) ∨ ∃ e, lastMaxBy key l = some e ∧ IsLastMax key l e := by
  induction l using List.reverseRecOn with
  | nil => exact .inl ⟨rfl, rfl⟩
  | append_singleton l x ih =>
    right
    rw [lastMaxBy_append_singleton]
    rcases ih with ⟨rfl, hnone⟩ | ⟨b, hsome, hb⟩
    · rw [hnone]
      exact ⟨x, rfl, by simp, by simp⟩
    · rw [hsome]
      refine ⟨_, ?_, hb.append_singleton⟩
      rw [Option.elim_some]
      split <;> rfl

theorem lastMaxBy_eq_some_iff : lastMaxBy key l = some e ↔ IsLastMax key l e := by
  rcases lastMaxBy_cases key l with ⟨rfl, hnone⟩ | ⟨b, hsome, hb⟩
  · rw [hnone]
    exact ⟨nofun, fun h => absurd h.mem List.not_mem_nil⟩
  · rw [hsome]
    constructor
    · rintro ⟨⟩
      exact hb
    · intro h
      rw [h.unique hb]

/-- The search sees only the elements of each key, in their order. -/
theorem lastMaxBy_congr (h : ∀ m, l.filter (key · = m) = l'.filter (key · = m)) :
    lastMaxBy key l = lastMaxBy key l' := by
  have himp : ∀ {l l' : List α}, (∀ m, l.filter (key · = m) = l'.filter (key · = m)) →
      ∀ {e}, IsLastMax key l e → IsLastMax key l' e := by
    intro l l' h e he
    constructor
    · intro x hx
      have hmem : x ∈ l'.filter (key · = key x) := List.mem_filter.mpr ⟨hx, by simp⟩
      rw [← h] at hmem
      exact he.greatest x (List.mem_filter.mp hmem).1
    · rw [← h]
      exact he.last
  ext e
  rw [lastMaxBy_eq_some_iff, lastMaxBy_eq_some_iff]
  exact ⟨himp h, himp fun m => (h m).symm⟩

/-- **Stability**: sorting keeps the order of the elements of one key. -/
theorem filter_sortByKey (l : List α) (m : κ) :
    (sortByKey key l).filter (key · = m) = l.filter (key · = m) := by
  have hpairwise : (l.filter (key · = m)).Pairwise fun x y => decide (key x ≤ key y) = true := by
    refine List.pairwise_of_forall_mem_list fun x hx y hy => decide_eq_true ?_
    have hxm := of_decide_eq_true (List.mem_filter.mp hx).2
    have hym := of_decide_eq_true (List.mem_filter.mp hy).2
    rw [hxm, hym]
  have htrans : ∀ a b c : α, decide (key a ≤ key b) = true → decide (key b ≤ key c) = true →
      decide (key a ≤ key c) = true := fun a b c hab hbc =>
    decide_eq_true (le_trans (of_decide_eq_true hab) (of_decide_eq_true hbc))
  have htotal : ∀ a b : α, (decide (key a ≤ key b) || decide (key b ≤ key a)) = true := by
    intro a b
    rw [Bool.or_eq_true, decide_eq_true_iff, decide_eq_true_iff]
    exact le_total (key a) (key b)
  have hsub := (List.sublist_mergeSort htrans htotal hpairwise List.filter_sublist).filter (key · = m)
  rw [List.filter_filter, List.filter_congr (fun x _ => Bool.and_self _)] at hsub
  refine (hsub.eq_of_length ?_).symm
  exact ((List.mergeSort_perm l _).filter _).length_eq.symm

theorem lastMaxBy_filter_sortByKey (p : α → Bool) (l : List α) :
    lastMaxBy key ((sortByKey key l).filter p) = lastMaxBy key (l.filter p) := by
  apply lastMaxBy_congr
  intro m
  have hcomm : ∀ l : List α, (l.filter p).filter (key · = m) =
      (l.filter (key · = m)).filter p := by
    intro l
    rw [List.filter_filter, List.filter_filter]
    exact List.filter_congr fun x _ => Bool.and_comm _ _
  rw [hcomm, hcomm, filter_sortByKey]

/-- **Removal**: an element that is not the one found may be taken out. -/
theorem lastMaxBy_remove (h : lastMaxBy key (l₁ ++ x :: l₂) ≠ some x) :
    lastMaxBy key (l₁ ++ l₂) = lastMaxBy key (l₁ ++ x :: l₂) := by
  rcases lastMaxBy_cases key (l₁ ++ x :: l₂) with ⟨hnil, -⟩ | ⟨e, hsome, he⟩
  · simp at hnil
  · rw [hsome, lastMaxBy_eq_some_iff]
    have hne : e ≠ x := fun heq => h (by rw [hsome, heq])
    have hlast := he.last
    constructor
    · intro y hy
      refine he.greatest y ?_
      rw [List.mem_append, List.mem_cons]
      rcases List.mem_append.mp hy with hy | hy
      · exact .inl hy
      · exact .inr (.inr hy)
    · rw [List.filter_append] at hlast ⊢
      by_cases hx : key x = key e
      · rw [List.filter_cons_of_pos (by simpa using hx), List.getLast?_append,
          List.getLast?_cons] at hlast
        rw [List.getLast?_append]
        -- the element found stands behind the one that is taken out
        cases hafter : (l₂.filter (key · = key e)).getLast? with
        | none =>
          rw [hafter] at hlast
          exact absurd (Option.some.inj hlast).symm hne
        | some b =>
          rw [hafter] at hlast
          exact hlast
      · rwa [List.filter_cons_of_neg (by simpa using hx)] at hlast

end LastMax
