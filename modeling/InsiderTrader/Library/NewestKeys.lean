import Mathlib.Data.List.Basic
import Std.Data.TreeMap

/-!
# Maps that keep their newest keys

A map of bounded size drops its least keys when it grows beyond the bound.
Whatever the order in which keys arrive, it holds the greatest ones of all keys
it was given.

## Main definitions

- `NewestKeys.insertNewest` — write a key and drop the least ones beyond a bound
- `NewestKeys.Keeps` — a map holds the greatest keys of a set

## Main results

- `NewestKeys.Keeps.insert`, `NewestKeys.Keeps.insertNewest` — one key more
- `NewestKeys.Keeps.keys_eq` — the keys kept, as the end of the sorted list of all
-/

namespace NewestKeys

open Std

variable {κ β : Type} {cmp : κ → κ → Ordering}

/-- Drop the least key. -/
def dropOldest (m : TreeMap κ β cmp) : TreeMap κ β cmp := m.minKey?.elim m m.erase

/-- Write a key and drop the least ones beyond the bound. -/
def insertNewest (n : ℕ) (m : TreeMap κ β cmp) (k : κ) (v : β) : TreeMap κ β cmp :=
  Nat.repeat dropOldest ((m.insert k v).size - n) (m.insert k v)

/-- A map of at most `n` keys holds the greatest keys of a set: what it lacks is less than what it
has, and it lacks a key only when it is full. -/
structure Keeps (n : ℕ) (S : κ → Prop) (m : TreeMap κ β cmp) : Prop where
  bounded : m.size ≤ n
  sound : ∀ k ∈ m, S k
  lacks : ∀ k, S k → k ∉ m → n ≤ m.size ∧ ∀ k' ∈ m, cmp k k' = .lt

variable {n : ℕ} {S : κ → Prop} {m : TreeMap κ β cmp} {k : κ} {v : β}

theorem keeps_empty : Keeps n (fun _ => False) (∅ : TreeMap κ β cmp) :=
  ⟨Nat.zero_le n, fun _ hk => absurd hk TreeMap.not_mem_emptyc, fun _ hk => absurd hk id⟩

theorem Keeps.congr {S' : κ → Prop} (h : Keeps n S m) (hS : ∀ k, S' k ↔ S k) : Keeps n S' m :=
  ⟨h.bounded, fun k hk => (hS k).mpr (h.sound k hk), fun k hk => h.lacks k ((hS k).mp hk)⟩

variable [TransCmp cmp] [LawfulEqCmp cmp]

theorem mem_insert_iff {k' : κ} : k' ∈ m.insert k v ↔ k' = k ∨ k' ∈ m := by
  rw [TreeMap.mem_insert, LawfulEqCmp.compare_eq_iff_eq, @eq_comm _ k]

/-- Writing a key the map has. -/
theorem Keeps.insert (h : Keeps n S m) (hk : k ∈ m) : Keeps n S (m.insert k v) := by
  have hmem (k' : κ) : k' ∈ m.insert k v ↔ k' ∈ m := by
    rw [mem_insert_iff, or_iff_right_of_imp]
    rintro rfl
    exact hk
  have hsize : (m.insert k v).size = m.size := by
    rw [TreeMap.size_insert, if_pos (TreeMap.mem_iff_contains.mp hk)]
  refine ⟨hsize ▸ h.bounded, fun k' hk' => h.sound k' ((hmem k').mp hk'), fun k' hS hk' => ?_⟩
  obtain ⟨hfull, hless⟩ := h.lacks k' hS fun hmem' => hk' ((hmem k').mpr hmem')
  exact ⟨hsize ▸ hfull, fun k'' hk'' => hless k'' ((hmem k'').mp hk'')⟩

theorem mem_erase_iff {k' : κ} : k' ∈ m.erase k ↔ k' ≠ k ∧ k' ∈ m := by
  rw [TreeMap.mem_erase, ne_eq, LawfulEqCmp.compare_eq_iff_eq, ne_eq, @eq_comm _ k]

/-- A key that is new to a map that is not full is added; otherwise the least key goes, which may
be the new one. -/
theorem insertNewest_cases (hbounded : m.size ≤ n) (hk : k ∉ m) :
    m.size < n ∧ insertNewest n m k v = m.insert k v ∨
      m.size = n ∧ ∃ w ∈ m.insert k v, (∀ k' ∈ m.insert k v, (cmp w k').isLE) ∧
        insertNewest n m k v = (m.insert k v).erase w := by
  have hsize : (m.insert k v).size = m.size + 1 := by
    rw [TreeMap.size_insert, if_neg (mt TreeMap.mem_iff_contains.mpr hk)]
  rw [insertNewest, hsize]
  rcases Nat.lt_or_eq_of_le hbounded with hlt | heq
  · left
    rw [Nat.sub_eq_zero_of_le hlt]
    exact ⟨hlt, rfl⟩
  · right
    obtain ⟨w, hw⟩ := Option.isSome_iff_exists.mp
      (TreeMap.isSome_minKey?_of_mem (mem_insert_iff.mpr (.inl rfl) : k ∈ m.insert k v))
    obtain ⟨hmem, hleast⟩ := TreeMap.minKey?_eq_some_iff_mem_and_forall.mp hw
    refine ⟨heq, w, hmem, hleast, ?_⟩
    rw [heq, Nat.add_sub_cancel_left]
    show dropOldest (m.insert k v) = _
    rw [dropOldest, hw]
    rfl

/-- **A new key** is kept when it is among the greatest ones. -/
theorem Keeps.insertNewest (h : Keeps n S m) (hk : k ∉ m) :
    Keeps n (fun k' => S k' ∨ k' = k) (insertNewest n m k v) := by
  have hsize : (m.insert k v).size = m.size + 1 := by
    rw [TreeMap.size_insert, if_neg (mt TreeMap.mem_iff_contains.mpr hk)]
  rcases insertNewest_cases h.bounded hk (v := v) with ⟨hlt, heq⟩ | ⟨hfull, w, hw, hleast, heq⟩
  · rw [heq]
    refine ⟨hsize ▸ hlt, fun k' hk' => ?_, fun k' hS hk' => ?_⟩
    · exact (mem_insert_iff.mp hk').symm.imp (h.sound k') id
    · -- a map that is not full lacks nothing
      rw [mem_insert_iff, not_or] at hk'
      have hlacks := h.lacks k' (hS.resolve_right hk'.1) hk'.2
      omega
  · rw [heq]
    have hsize' : ((m.insert k v).erase w).size = n := by
      rw [TreeMap.size_erase, if_pos (TreeMap.mem_iff_contains.mp hw), hsize, hfull]
      rfl
    refine ⟨Nat.le_of_eq hsize', fun k' hk' => ?_, fun k' hS hk' => ⟨Nat.le_of_eq hsize'.symm, fun k'' hk'' => ?_⟩⟩
    · exact (mem_insert_iff.mp (mem_erase_iff.mp hk').2).symm.imp (h.sound k') id
    · obtain ⟨hne, hk''⟩ := mem_erase_iff.mp hk''
      by_cases hkw : k' = w
      · -- the key that goes is the least one
        rw [hkw]
        refine (Ordering.isLE_iff_eq_lt_or_eq_eq.mp (hleast k'' hk'')).resolve_right fun heq => ?_
        exact hne (LawfulEqCmp.eq_of_compare heq).symm
      · rw [mem_erase_iff, mem_insert_iff, not_and, not_or] at hk'
        obtain ⟨hnew, hold⟩ := hk' hkw
        have hless := (h.lacks k' (hS.resolve_right hnew) hold).2
        rcases mem_insert_iff.mp hk'' with rfl | hk''
        · have hwm : w ∈ m := (mem_insert_iff.mp hw).resolve_left hne.symm
          exact TransCmp.lt_of_lt_of_isLE (hless w hwm) (hleast k'' (mem_insert_iff.mpr (.inl rfl)))
        · exact hless k'' hk''

/-- The entries after a new key: those before, and that of the key when none like it went before. -/
theorem Keeps.getElem?_insertNewest (h : Keeps n S m) (hk : k ∉ m) {k' : κ} {v' : β}
    (hv : (NewestKeys.insertNewest n m k v)[k']? = some v') :
    k' ≠ k ∧ m[k']? = some v' ∨ k' = k ∧ v' = v ∧ ¬S k := by
  have hinsert (hv : (m.insert k v)[k']? = some v') (hfresh : k' = k → ¬S k) :
      k' ≠ k ∧ m[k']? = some v' ∨ k' = k ∧ v' = v ∧ ¬S k := by
    rw [TreeMap.getElem?_insert] at hv
    split at hv
    · next heq =>
      have heq := (LawfulEqCmp.eq_of_compare heq).symm
      exact .inr ⟨heq, (Option.some.inj hv).symm, hfresh heq⟩
    · next hne =>
      refine .inl ⟨fun heq => hne ?_, hv⟩
      rw [heq]
      exact ReflCmp.compare_self
  rcases insertNewest_cases h.bounded hk (v := v) with ⟨hlt, heq⟩ | ⟨-, w, hw, hleast, heq⟩
  · rw [heq] at hv
    refine hinsert hv fun _ hS => ?_
    have hlacks := h.lacks k hS hk
    omega
  · rw [heq, TreeMap.getElem?_erase] at hv
    split at hv
    · cases hv
    · next hne =>
      refine hinsert hv fun heq hS => ?_
      have hwk : w ≠ k := by
        rintro rfl
        rw [heq] at hne
        exact hne ReflCmp.compare_self
      have hless := (h.lacks k hS hk).2 w ((mem_insert_iff.mp hw).resolve_left hwk)
      exact OrientedCmp.not_lt_of_isLE (hleast k (mem_insert_iff.mpr (.inl rfl))) hless

/-- **The keys kept** are the last ones of the sorted list of all keys. -/
theorem Keeps.keys_eq (h : Keeps n S m) {l : List κ} (hsorted : l.Pairwise fun k k' => cmp k k' = .lt)
    (hmem : ∀ k, k ∈ l ↔ S k) : m.keys = l.drop (l.length - n) := by
  have hkeys : m.keys.Pairwise fun k k' => cmp k k' = .lt := TreeMap.ordered_keys
  have hasymm (k k' : κ) (h : cmp k k' = .lt) (h' : cmp k' k = .lt) : k = k' :=
    absurd h' (OrientedCmp.not_lt_of_lt h)
  have hnodup {l : List κ} (hl : l.Pairwise fun k k' => cmp k k' = .lt) : l.Nodup :=
    hl.imp fun hlt heq => by
      rw [heq] at hlt
      exact OrientedCmp.not_lt_of_lt hlt hlt
  -- the keys that went, then the keys kept
  let gone := l.filter fun k => !m.contains k
  have hgone (k : κ) : k ∈ gone ↔ S k ∧ k ∉ m := by
    rw [List.mem_filter, hmem, Bool.not_eq_true', TreeMap.mem_iff_contains, Bool.not_eq_true]
  have hsplit : (gone ++ m.keys).Pairwise fun k k' => cmp k k' = .lt := by
    refine List.pairwise_append.mpr ⟨hsorted.filter _, hkeys, fun k hk k' hk' => ?_⟩
    obtain ⟨hS, hnot⟩ := (hgone k).mp hk
    exact (h.lacks k hS hnot).2 k' (TreeMap.mem_keys.mp hk')
  have hlist : l = gone ++ m.keys := by
    refine List.Perm.eq_of_pairwise (fun k k' _ _ => hasymm k k') hsorted hsplit ?_
    refine (List.perm_ext_iff_of_nodup (hnodup hsorted) (hnodup hsplit)).mpr fun k => ?_
    rw [hmem, List.mem_append, hgone, TreeMap.mem_keys]
    by_cases hk : k ∈ m
    · exact iff_of_true (h.sound k hk) (.inr hk)
    · rw [and_iff_left hk, or_iff_left hk]
  have hlength : m.keys.length = m.size := TreeMap.length_keys
  rw [hlist, List.length_append, hlength]
  rcases hcase : gone with _ | ⟨k, rest⟩
  · rw [List.nil_append, List.length_nil, Nat.zero_add, Nat.sub_eq_zero_of_le h.bounded]
    rfl
  · -- a key went, so the map is full
    obtain ⟨hS, hnot⟩ := (hgone k).mp (hcase ▸ List.mem_cons_self)
    have hfull : m.size = n := Nat.le_antisymm h.bounded (h.lacks k hS hnot).1
    rw [hfull, Nat.add_sub_cancel, List.drop_left]

end NewestKeys
