import Mathlib.Algebra.BigOperators.Group.List.Basic
import Mathlib.Algebra.Order.BigOperators.Group.List
import Std.Data.TreeMap

/-!
# Sums over the entries of a map

A quantity that is added up over the entries of an ordered map changes, when
one key is written, by the entry that is new less the entry it replaces.

## Main definitions

- `MapSum.total` — a function added up over the entries

## Main results

- `MapSum.total_insert`, `MapSum.total_erase` — the total after writing or removing one key
- `MapSum.total_values` — a total of the values only
- `MapSum.total_congr`, `MapSum.total_nonneg` — what the entries determine
-/

namespace MapSum

open Std

variable {α β A : Type} {cmp : α → α → Ordering} [AddCommMonoid A]

/-- `f` added up over the entries of `m`. -/
def total (f : α → β → A) (m : TreeMap α β cmp) : A :=
  (m.toList.map fun e => f e.1 e.2).sum

@[simp] theorem total_empty (f : α → β → A) : total f (∅ : TreeMap α β cmp) = 0 := rfl

/-- The values of a map are those of its entries, in order. -/
theorem values_eq_map (m : TreeMap α β cmp) : m.values = m.toList.map Prod.snd := by
  calc m.values = m.foldr (fun _ v values => v :: values) [] := rfl
    _ = m.toList.foldr (fun e values => e.2 :: values) [] := TreeMap.foldr_eq_foldr_toList
    _ = m.toList.map Prod.snd := by rw [List.map_eq_foldr]

/-- A total of the values only. -/
theorem total_values (f : β → A) (m : TreeMap α β cmp) :
    total (fun _ v => f v) m = (m.values.map f).sum := by
  rw [values_eq_map, List.map_map]
  rfl

/-- The entries of a map have distinct keys. -/
theorem distinct_toList [TransCmp cmp] [LawfulEqCmp cmp] (m : TreeMap α β cmp) :
    m.toList.Pairwise fun e e' => e.1 ≠ e'.1 :=
  TreeMap.distinct_keys_toList.imp fun hne heq => hne (by rw [heq]; exact ReflCmp.compare_self)

/-- Maps with the same entries have the same totals. -/
theorem total_congr [TransCmp cmp] [LawfulEqCmp cmp] (f : α → β → A)
    {m m' : TreeMap α β cmp} (h : ∀ k : α, m'[k]? = m[k]?) : total f m' = total f m := by
  have hequiv : m'.Equiv m := TreeMap.Equiv.of_forall_constGet?_eq h
  rw [total, total, hequiv.toList_eq]

/-- A total of entries that are not negative is not negative. -/
theorem total_nonneg [TransCmp cmp] [LawfulEqCmp cmp] [Preorder A] [AddLeftMono A] (f : α → β → A)
    {m : TreeMap α β cmp} (h : ∀ (k : α) v, m[k]? = some v → 0 ≤ f k v) : 0 ≤ total f m := by
  refine List.sum_nonneg fun x hx => ?_
  obtain ⟨e, he, rfl⟩ := List.mem_map.mp hx
  exact h e.1 e.2 (TreeMap.mem_toList_iff_getElem?_eq_some.mp he)

variable [BEq α] [LawfulBEq α]

/-- A list with distinct keys splits into the entry of one key and the others. -/
theorem sum_split (f : α → β → A) (k : α) {entries : List (α × β)} {v : Option β}
    (hdistinct : entries.Pairwise fun e e' => e.1 ≠ e'.1)
    (hv : ∀ w, (k, w) ∈ entries ↔ v = some w) :
    (entries.map fun e => f e.1 e.2).sum = v.elim 0 (f k) +
      ((entries.filter fun e => !(k == e.1)).map fun e => f e.1 e.2).sum := by
  induction entries generalizing v with
  | nil =>
    have hnone : v = none := Option.eq_none_iff_forall_ne_some.mpr fun w hw => by
      simpa using (hv w).mpr hw
    simp [hnone]
  | cons e entries ih =>
    obtain ⟨hfirst, hrest⟩ := List.pairwise_cons.mp hdistinct
    by_cases hk : k = e.1
    · -- the key is the first one and does not come again
      have hhead : v = some e.2 := (hv e.2).mp (by simp [hk])
      have hnone : ∀ w, (k, w) ∈ entries ↔ none = some w := fun w =>
        ⟨fun hw => absurd hk.symm (hfirst _ hw), fun hw => by cases hw⟩
      rw [List.map_cons, List.sum_cons, ih hrest hnone, hhead]
      simp [hk]
    · have htail : ∀ w, (k, w) ∈ entries ↔ v = some w := fun w => by
        rw [← hv w, List.mem_cons]
        refine ⟨.inr, ?_⟩
        rintro (heq | hw)
        · exact absurd (congrArg Prod.fst heq) hk
        · exact hw
      rw [List.map_cons, List.sum_cons, ih hrest htail]
      simp [hk, add_left_comm]

section Lawful

variable [TransCmp cmp] [LawfulEqCmp cmp]

/-- A total splits into the entry of one key and the others. -/
theorem total_split (f : α → β → A) (m : TreeMap α β cmp) (k : α) :
    total f m = (m[k]?).elim 0 (f k) +
      ((m.toList.filter fun e => !(k == e.1)).map fun e => f e.1 e.2).sum :=
  sum_split f k (distinct_toList m) fun w =>
    TreeMap.mem_toList_iff_getElem?_eq_some (t := m) (k := k) (v := w)

/-- Writing a key exchanges its entry. -/
theorem total_insert [LawfulBEqCmp cmp] (f : α → β → A) (m : TreeMap α β cmp) (k : α) (v : β) :
    total f (m.insert k v) + (m[k]?).elim 0 (f k) = total f m + f k v := by
  have hperm := (TreeMap.toList_insert_perm (t := m) (k := k) (v := v)).map fun e => f e.1 e.2
  rw [total_split f m k, total, hperm.sum_eq, List.map_cons, List.sum_cons]
  simp only [decide_not, Bool.decide_eq_true]
  rw [add_assoc, add_comm, add_comm ((m[k]?).elim 0 (f k))]

/-- Removing a key removes its entry. -/
theorem total_erase (f : α → β → A) (m : TreeMap α β cmp) (k : α) :
    total f (m.erase k) + (m[k]?).elim 0 (f k) = total f m := by
  have hnodup : ∀ m : TreeMap α β cmp, m.toList.Nodup := fun m =>
    (distinct_toList m).imp fun hne heq => hne (congrArg Prod.fst heq)
  have hperm : (m.erase k).toList.Perm (m.toList.filter fun e => !(k == e.1)) := by
    refine (List.perm_ext_iff_of_nodup (hnodup _) ((hnodup m).filter _)).mpr fun e => ?_
    obtain ⟨key, v⟩ := e
    rw [List.mem_filter, TreeMap.mem_toList_iff_getElem?_eq_some,
      TreeMap.mem_toList_iff_getElem?_eq_some, TreeMap.getElem?_erase]
    by_cases hk : k = key
    · simp [hk, ReflCmp.compare_self]
    · simp [hk]
  rw [total_split f m k, total, (hperm.map _).sum_eq, add_comm]

end Lawful

end MapSum
