import InsiderTrader.Library.MapSum

/-!
# Filtered entries of a map

The values of a map that pass a test, in the order of their keys, depend only on
the entries that pass it.

## Main results

- `MapFilter.mem_values` — the values are those the keys have
- `MapFilter.nodup_values` — values that name their keys name distinct ones
- `MapFilter.filter_values_congr` — maps that agree on the entries that pass a test
- `MapFilter.flatMap_values_congr` — maps that agree on what their values contribute to a list
-/

namespace MapFilter

open Std

variable {α β : Type} {cmp : α → α → Ordering} [TransCmp cmp] [LawfulEqCmp cmp]
  {m m' : TreeMap α β cmp}

theorem mem_values {v : β} : v ∈ m.values ↔ ∃ k : α, m[k]? = some v := by
  rw [MapSum.values_eq_map, List.mem_map]
  constructor
  · rintro ⟨⟨k, _⟩, hmem, rfl⟩
    exact ⟨k, TreeMap.mem_toList_iff_getElem?_eq_some.mp hmem⟩
  · rintro ⟨k, hk⟩
    exact ⟨(k, v), TreeMap.mem_toList_iff_getElem?_eq_some.mpr hk, rfl⟩

/-- Values that name their keys name distinct ones. -/
theorem nodup_values {key : β → α} (h : ∀ (k : α) v, m[k]? = some v → key v = k) :
    (m.values.map key).Nodup := by
  have hkeys : m.values.map key = m.keys := by
    rw [MapSum.values_eq_map, List.map_map, ← TreeMap.map_fst_toList_eq_keys]
    exact List.map_congr_left fun entry hentry =>
      h entry.1 entry.2 (TreeMap.mem_toList_iff_getElem?_eq_some.mp hentry)
  rw [hkeys]
  exact TreeMap.nodup_keys

/-- **The values that pass a test** are the same in maps that agree on them. -/
theorem filter_values_congr {p : β → Bool} (h : ∀ k : α, (m'[k]?).filter p = (m[k]?).filter p) :
    m'.values.filter p = m.values.filter p := by
  have hequiv : (m'.filter fun _ v => p v).Equiv (m.filter fun _ v => p v) :=
    TreeMap.Equiv.of_forall_constGet?_eq fun k => by
      rw [TreeMap.getElem?_filter', TreeMap.getElem?_filter']
      exact h k
  have hlist := hequiv.toList_eq
  rw [TreeMap.toList_filter, TreeMap.toList_filter] at hlist
  rw [MapSum.values_eq_map, MapSum.values_eq_map, List.filter_map, List.filter_map]
  exact congrArg (List.map Prod.snd) hlist

section Lists

variable {γ : Type} {h : β → List γ}

omit [TransCmp cmp] [LawfulEqCmp cmp] in
/-- What the values contribute to a list, without those that contribute nothing. -/
theorem flatMap_values_eq (h : β → List γ) (m : TreeMap α β cmp) :
    m.values.flatMap h =
      (m.filterMap fun _ v => some (h v) |>.filter (!·.isEmpty)).toList.flatMap Prod.snd := by
  rw [MapSum.values_eq_map, TreeMap.toList_filterMap]
  induction m.toList with
  | nil => rfl
  | cons entry entries ih =>
    rw [List.map_cons, List.flatMap_cons, ih]
    cases hlist : h entry.2 with
    | nil => rw [List.filterMap_cons_none (by rw [hlist]; rfl), List.nil_append]
    | cons x xs => rw [List.filterMap_cons_some (by rw [hlist]; rfl), List.flatMap_cons]

/-- **What the values contribute to a list** is the same in maps that agree on it. -/
theorem flatMap_values_congr (hcongr : ∀ k : α, (m'[k]?).elim [] h = (m[k]?).elim [] h) :
    m'.values.flatMap h = m.values.flatMap h := by
  have hpart : ∀ found : Option β, found.bind (fun v => (some (h v)).filter (!·.isEmpty)) =
      (some (found.elim [] h)).filter (!·.isEmpty) := by
    intro found
    cases found <;> rfl
  have hequiv : (m'.filterMap fun _ v => some (h v) |>.filter (!·.isEmpty)).Equiv
      (m.filterMap fun _ v => some (h v) |>.filter (!·.isEmpty)) :=
    TreeMap.Equiv.of_forall_constGet?_eq fun k => by
      rw [TreeMap.getElem?_filterMap', TreeMap.getElem?_filterMap', hpart, hpart, hcongr]
  rw [flatMap_values_eq, flatMap_values_eq, hequiv.toList_eq]

/-- What one key contributes, when no other one does. -/
theorem flatMap_values_of_key {k : α} {v : β} (hk : m[k]? = some v)
    (hother : ∀ (k' : α) v', m[k']? = some v' → k' ≠ k → h v' = []) :
    m.values.flatMap h = h v := by
  have hone : m.values.flatMap h = ((∅ : TreeMap α β cmp).insert k v).values.flatMap h := by
    refine flatMap_values_congr fun k' => ?_
    rw [TreeMap.getElem?_insert]
    by_cases heq : k = k'
    · rw [if_pos (LawfulEqCmp.compare_eq_iff_eq.mpr heq), ← heq, hk]
    · rw [if_neg fun h => heq (LawfulEqCmp.compare_eq_iff_eq.mp h), TreeMap.getElem?_emptyc]
      cases hfound : m[k']? with
      | none => rfl
      | some v' => exact hother k' v' hfound fun h => heq h.symm
  have hentry : ((∅ : TreeMap α β cmp).insert k v).values = [v] := rfl
  rw [hone, hentry, List.flatMap_singleton]

/-- Of elements that never pass together, one passes. -/
theorem filter_eq_singleton {p : γ → Bool} {l : List γ} {f : γ}
    (h : l.Pairwise fun e f => ¬(p e = true ∧ p f = true)) (hf : f ∈ l) (hp : p f = true) :
    l.filter p = [f] := by
  have hpairs := h.filter p
  have hmem : f ∈ l.filter p := List.mem_filter.mpr ⟨hf, hp⟩
  cases hlist : l.filter p with
  | nil =>
    rw [hlist] at hmem
    cases hmem
  | cons a rest =>
    rw [hlist] at hpairs hmem
    cases rest with
    | nil => rw [List.mem_singleton.mp hmem]
    | cons b rest =>
      have hall : ∀ x ∈ a :: b :: rest, p x = true := fun x hx =>
        (List.mem_filter.mp (hlist ▸ hx)).2
      exact absurd ⟨hall a (by simp), hall b (by simp)⟩
        ((List.pairwise_cons.mp hpairs).1 b (by simp))

/-- What one entry contributes, when no other one does. -/
theorem flatMap_toList_of_key {h : α × β → List γ} {k : α} {v : β} (hk : m[k]? = some v)
    (hother : ∀ (k' : α) v', m[k']? = some v' → k' ≠ k → h (k', v') = []) :
    m.toList.flatMap h = h (k, v) := by
  obtain ⟨before, after, hsplit⟩ :=
    List.append_of_mem (TreeMap.mem_toList_iff_getElem?_eq_some.mpr hk)
  have hkeys : (m.toList.map Prod.fst).Nodup := by
    rw [TreeMap.map_fst_toList_eq_keys]
    exact TreeMap.nodup_keys
  rw [hsplit, List.map_append, List.map_cons, List.nodup_append, List.nodup_cons] at hkeys
  obtain ⟨-, ⟨hafter, -⟩, hbefore⟩ := hkeys
  have hnil : ∀ entry ∈ m.toList, entry.1 ≠ k → h entry = [] := fun entry hentry =>
    hother entry.1 entry.2 (TreeMap.mem_toList_iff_getElem?_eq_some.mp hentry)
  have hfirst : before.flatMap h = [] := List.flatMap_eq_nil_iff.mpr fun entry hentry =>
    hnil entry (hsplit ▸ List.mem_append_left _ hentry) fun heq =>
      hbefore _ (List.mem_map_of_mem hentry) k (List.mem_cons_self ..) heq
  have hlast : after.flatMap h = [] := List.flatMap_eq_nil_iff.mpr fun entry hentry =>
    hnil entry (hsplit ▸ List.mem_append_right _ (List.mem_cons_of_mem _ hentry)) fun heq =>
      hafter (List.mem_map.mpr ⟨entry, hentry, heq⟩)
  rw [hsplit, List.flatMap_append, List.flatMap_cons, hfirst, hlast, List.append_nil,
    List.nil_append]

end Lists

end MapFilter
