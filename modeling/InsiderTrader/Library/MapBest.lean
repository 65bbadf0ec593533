import Mathlib.Order.Defs.Unbundled
import Mathlib.Tactic.SplitIfs
import Std.Data.TreeMap

/-!
# The best entry of a map, and maps that keep only good entries

A map is asked for its best entry only, and keeps a part of a larger one. It
answers for the larger map as long as every key of that map is matched by a
kept key that is at least as good.

## Main definitions

- `MapBest.IsBest` — an entry that no other key beats
- `MapBest.Covers` — a part of a map that matches every key of it
- `MapBest.Uncovers` — without one of its keys the part would not match the map

## Main results

- `MapBest.minEntry?_eq_some_iff`, `MapBest.maxEntry?_eq_some_iff` — the ends of a tree map
- `MapBest.Covers.isBest_iff` — a part that covers a map has its best entry
- `MapBest.Covers.erase_iff` — when a part still covers a map without one key
-/

namespace MapBest

open Std

variable {κ β : Type} {cmp : κ → κ → Ordering}

-- The ends of a tree map

theorem minEntry?_eq_head? (m : TreeMap κ β cmp) : m.minEntry? = m.toList.head? := by
  have hhead (t : DTreeMap.Internal.Impl κ fun _ => β) : DTreeMap.Internal.Impl.Const.minEntry? t =
      (t.toListModel.map fun e => (e.1, e.2)).head? := by
    fun_induction DTreeMap.Internal.Impl.Const.minEntry? t <;> simp_all
  refine (hhead _).trans ?_
  rw [← DTreeMap.Internal.Impl.Const.toList_eq_toListModel_map]
  rfl

theorem maxEntry?_eq_getLast? (m : TreeMap κ β cmp) : m.maxEntry? = m.toList.getLast? := by
  have hlast (t : DTreeMap.Internal.Impl κ fun _ => β) : DTreeMap.Internal.Impl.Const.maxEntry? t =
      (t.toListModel.map fun e => (e.1, e.2)).getLast? := by
    fun_induction DTreeMap.Internal.Impl.Const.maxEntry? t <;> simp_all [List.getLast?_cons]
  refine (hlast _).trans ?_
  rw [← DTreeMap.Internal.Impl.Const.toList_eq_toListModel_map]
  rfl

/-- A sorted list starts with the element that comes before every other. -/
theorem head?_eq_some_iff {α : Type} {r : α → α → Prop} (hasymm : ∀ x y, r x y → ¬r y x)
    {l : List α} {e : α} (hsorted : l.Pairwise r) :
    l.head? = some e ↔ e ∈ l ∧ ∀ x ∈ l, x = e ∨ r e x := by
  cases hsorted with
  | nil => simp
  | @cons first rest hfirst _ =>
    constructor
    · intro h
      obtain rfl := Option.some.inj h
      exact ⟨List.mem_cons_self, fun x hx => (List.mem_cons.mp hx).imp id (hfirst x)⟩
    · rintro ⟨hmem, hbefore⟩
      rcases List.mem_cons.mp hmem with rfl | hrest
      · rfl
      · rcases hbefore first List.mem_cons_self with rfl | hback
        · rfl
        · exact absurd hback (hasymm _ _ (hfirst e hrest))

section Ends

variable [TransCmp cmp] {m : TreeMap κ β cmp} {e : κ × β}

theorem toList_pairwise (m : TreeMap κ β cmp) : m.toList.Pairwise fun a b => cmp a.1 b.1 = .lt :=
  TreeMap.ordered_keys_toList

variable [LawfulEqCmp cmp]

/-- What holds of the keys of a map, said of its entries. -/
theorem forall_mem_iff_toList {p : κ → Prop} :
    (∀ k ∈ m, p k) ↔ ∀ e ∈ m.toList, p e.1 := by
  constructor
  · intro h e he
    exact h e.1 (TreeMap.mem_iff_isSome_getElem?.mpr
      (Option.isSome_iff_exists.mpr ⟨e.2, TreeMap.mem_toList_iff_getElem?_eq_some.mp he⟩))
  · intro h k hk
    obtain ⟨v, hv⟩ := Option.isSome_iff_exists.mp (TreeMap.mem_iff_isSome_getElem?.mp hk)
    exact h (k, v) (TreeMap.mem_toList_iff_getElem?_eq_some.mpr hv)

/-- Keys of one map that compare equal belong to one entry. -/
theorem eq_or_lt_iff {x : κ × β} (he : e ∈ m.toList) (hx : x ∈ m.toList) :
    x = e ∨ cmp e.1 x.1 = .lt ↔ (cmp e.1 x.1).isLE := by
  rw [Ordering.isLE_iff_eq_lt_or_eq_eq, or_comm]
  refine or_congr_right ⟨fun h => by rw [h]; exact ReflCmp.compare_self, fun h => ?_⟩
  have hkey : e.1 = x.1 := LawfulEqCmp.eq_of_compare h
  have hvalue : some e.2 = some x.2 := by
    rw [← TreeMap.mem_toList_iff_getElem?_eq_some.mp he, hkey,
      TreeMap.mem_toList_iff_getElem?_eq_some.mp hx]
  exact (Prod.ext hkey (Option.some.inj hvalue)).symm

/-- **The first entry** is the one with the least key. -/
theorem minEntry?_eq_some_iff :
    m.minEntry? = some e ↔ m[e.1]? = some e.2 ∧ ∀ k ∈ m, (cmp e.1 k).isLE := by
  have hasymm (x y : κ × β) (h : cmp x.1 y.1 = .lt) : ¬cmp y.1 x.1 = .lt :=
    OrientedCmp.not_lt_of_lt h
  rw [minEntry?_eq_head?, head?_eq_some_iff hasymm (toList_pairwise m),
    ← TreeMap.mem_toList_iff_getElem?_eq_some, forall_mem_iff_toList]
  exact and_congr_right fun he => forall₂_congr fun x hx => eq_or_lt_iff he hx

/-- **The last entry** is the one with the greatest key. -/
theorem maxEntry?_eq_some_iff :
    m.maxEntry? = some e ↔ m[e.1]? = some e.2 ∧ ∀ k ∈ m, (cmp k e.1).isLE := by
  have hasymm (x y : κ × β) (h : cmp y.1 x.1 = .lt) : ¬cmp x.1 y.1 = .lt :=
    OrientedCmp.not_lt_of_lt h
  rw [maxEntry?_eq_getLast?, ← List.head?_reverse,
    head?_eq_some_iff hasymm (List.pairwise_reverse.mpr (toList_pairwise m)),
    ← TreeMap.mem_toList_iff_getElem?_eq_some, forall_mem_iff_toList, List.mem_reverse]
  refine and_congr_right fun he => ?_
  simp only [List.mem_reverse]
  exact forall₂_congr fun x hx => by rw [← eq_or_lt_iff hx he, eq_comm]

end Ends

-- A part that answers for its map

variable (r : κ → κ → Prop)

/-- An entry of a map that is as good as every key of it. -/
def IsBest (m : TreeMap κ β cmp) (e : κ × β) : Prop :=
  m[e.1]? = some e.2 ∧ ∀ k ∈ m, r e.1 k

/-- A part of a map in which every key of the map meets one that is at least as good. -/
structure Covers (kept full : TreeMap κ β cmp) : Prop where
  agrees : ∀ (k : κ) v, kept[k]? = some v → full[k]? = some v
  best : ∀ k ∈ full, ∃ k' ∈ kept, r k' k

/-- A key of the map that the part lacks is better than what the part has besides one key. -/
def Uncovers (kept full : TreeMap κ β cmp) (k : κ) : Prop :=
  ∃ d ∈ full, d ∉ kept ∧ ∀ k' ∈ kept, k' ≠ k → ¬r k' d

variable {r}

section Covers

variable {kept full m : TreeMap κ β cmp} {k k' : κ} {v : β} {e : κ × β}

theorem Covers.refl [Std.Refl r] (m : TreeMap κ β cmp) : Covers r m m :=
  ⟨fun _ _ h => h, fun k hk => ⟨k, hk, Std.Refl.refl k⟩⟩

theorem Covers.trans [IsTrans κ r] (h : Covers r kept m) (h' : Covers r m full) :
    Covers r kept full := by
  refine ⟨fun k v hv => h'.agrees k v (h.agrees k v hv), fun k hk => ?_⟩
  obtain ⟨k', hk', hr'⟩ := h'.best k hk
  obtain ⟨k'', hk'', hr''⟩ := h.best k' hk'
  exact ⟨k'', hk'', IsTrans.trans _ _ _ hr'' hr'⟩

variable [TransCmp cmp]

theorem mem_of_getElem? (h : m[k]? = some v) : k ∈ m :=
  TreeMap.mem_iff_isSome_getElem?.mpr (by rw [h]; rfl)

/-- Writing a key in both keeps the cover. -/
theorem Covers.insert [Std.Refl r] (h : Covers r kept full) (k : κ) (v : β) :
    Covers r (kept.insert k v) (full.insert k v) := by
  constructor
  · intro k' v' hv
    rw [TreeMap.getElem?_insert] at hv ⊢
    split_ifs at hv ⊢
    · exact hv
    · exact h.agrees k' v' hv
  · intro k' hk'
    rcases TreeMap.mem_insert.mp hk' with heq | hk'
    · exact ⟨k', TreeMap.mem_insert.mpr (.inl heq), Std.Refl.refl k'⟩
    · obtain ⟨k'', hk'', hr⟩ := h.best k' hk'
      exact ⟨k'', TreeMap.mem_insert.mpr (.inr hk''), hr⟩

theorem Covers.mem (h : Covers r kept full) (hk : k ∈ kept) : k ∈ full := by
  obtain ⟨v, hv⟩ := Option.isSome_iff_exists.mp (TreeMap.mem_iff_isSome_getElem?.mp hk)
  exact mem_of_getElem? (h.agrees k v hv)

/-- **The best entry** of a part that covers a map is the best entry of the map. -/
theorem Covers.isBest_iff [IsTrans κ r] [Std.Antisymm r] (h : Covers r kept full) :
    IsBest r kept e ↔ IsBest r full e := by
  constructor
  · rintro ⟨hv, hbest⟩
    refine ⟨h.agrees _ _ hv, fun k hk => ?_⟩
    obtain ⟨k', hk', hr⟩ := h.best k hk
    exact IsTrans.trans _ _ _ (hbest k' hk') hr
  · rintro ⟨hv, hbest⟩
    obtain ⟨k, hk, hr⟩ := h.best e.1 (mem_of_getElem? hv)
    obtain ⟨v, hkept⟩ := Option.isSome_iff_exists.mp (TreeMap.mem_iff_isSome_getElem?.mp hk)
    have heq : k = e.1 := Std.Antisymm.antisymm _ _ hr (hbest k (h.mem hk))
    rw [heq] at hkept
    rw [h.agrees _ _ hkept] at hv
    obtain rfl := Option.some.inj hv
    exact ⟨hkept, fun k hk => hbest k (h.mem hk)⟩

variable [LawfulEqCmp cmp]

theorem mem_erase_iff : k' ∈ m.erase k ↔ k' ≠ k ∧ k' ∈ m := by
  rw [TreeMap.mem_erase]
  refine and_congr_left' (not_congr ⟨fun h => (LawfulEqCmp.eq_of_compare h).symm, ?_⟩)
  rintro rfl
  exact ReflCmp.compare_self

/-- A map is covered by itself without a key that another one matches. -/
theorem covers_erase_self [Std.Refl r] (hk' : k' ∈ m) (hne : k' ≠ k) (hr : r k' k) :
    Covers r (m.erase k) m := by
  constructor
  · intro k₀ v hv
    rw [TreeMap.getElem?_erase] at hv
    split at hv
    · cases hv
    · exact hv
  · intro k₀ hk₀
    by_cases heq : k₀ = k
    · rw [heq]
      exact ⟨k', mem_erase_iff.mpr ⟨hne, hk'⟩, hr⟩
    · exact ⟨k₀, mem_erase_iff.mpr ⟨heq, hk₀⟩, Std.Refl.refl k₀⟩

/-- **Without one key** a part still covers the map unless it uncovers a key it lacks. -/
theorem Covers.erase_iff [Std.Refl r] (h : Covers r kept full) :
    Covers r (kept.erase k) (full.erase k) ↔ ¬Uncovers r kept full k := by
  constructor
  · rintro herase ⟨d, hd, hlacks, hbest⟩
    have hne : d ≠ k := by
      rintro rfl
      obtain ⟨k', hk', hr⟩ := h.best d hd
      exact hbest k' hk' (fun heq => hlacks (heq ▸ hk')) hr
    obtain ⟨k', hk', hr⟩ := herase.best d (mem_erase_iff.mpr ⟨hne, hd⟩)
    obtain ⟨hne', hk'⟩ := mem_erase_iff.mp hk'
    exact hbest k' hk' hne' hr
  · intro hcovered
    constructor
    · intro k' v hv
      rw [TreeMap.getElem?_erase] at hv ⊢
      split_ifs at hv ⊢
      exact h.agrees k' v hv
    · intro d hd
      obtain ⟨hne, hd⟩ := mem_erase_iff.mp hd
      by_cases hkept : d ∈ kept
      · exact ⟨d, mem_erase_iff.mpr ⟨hne, hkept⟩, Std.Refl.refl d⟩
      · refine Classical.byContradiction fun hnone => hcovered ⟨d, hd, hkept, ?_⟩
        intro k' hk' hne' hr
        exact hnone ⟨k', mem_erase_iff.mpr ⟨hne', hk'⟩, hr⟩

end Covers

end MapBest
