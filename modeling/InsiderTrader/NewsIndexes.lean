import Mathlib.Data.List.Nodup
import InsiderTrader.NewsStore
import InsiderTrader.Library.MapFilter

/-!
# The indexes of the news store

The store finds an article by its identity, by its address and by its content.
Insertions, corrections, the limit on versions and the eviction of old articles
all change these maps together.

## Main definitions

- `NewsStore.Indexed` — the indexes say just what is stored
- `NewsStore.Consistent` — and no more is stored than the capacity allows

## Main results

- `NewsStore.Indexed.evict`, `NewsStore.Indexed.store`, `NewsStore.Indexed.correct` — what the
  steps keep
- `NewsStore.consistent_after` — the store is consistent after every run
-/

namespace InsiderTrader

open Terminal

namespace NewsStore

variable {s : NewsStore} {item current : NewsItem}

/-- The versions of an article. -/
def versionsOf (s : NewsStore) (id : String) : List NewsItem := (s.versions[id]?).getD []

/-- The indexes say just what is stored: the current article is the last version, the addresses are
those of the current articles, and the contents are those of all versions, each once. -/
structure Indexed (s : NewsStore) : Prop extends s.WellFormed where
  current : ∀ (id : String) (item : NewsItem), s.byId[id]? = some item →
    (s.versionsOf id).getLast? = some item
  urls : ∀ url id : String, s.byUrl[url]? = some id ↔
    ∃ item, s.byId[id]? = some item ∧ item.canonicalUrl = url
  hashes : ∀ hash id : String, s.byHash[hash]? = some id ↔
    hash ∈ (s.versionsOf id).map (·.contentHash)
  once : ∀ id : String, ((s.versionsOf id).map (·.contentHash)).Nodup

/-- The indexes say just what is stored, and no more is stored than the capacity allows. -/
structure Consistent (s : NewsStore) : Prop extends s.Indexed where
  bounded : s.byId.size ≤ s.capacity

theorem indexed_withCapacity (capacity : ℕ) : (withCapacity capacity).Indexed where
  toWellFormed := WellFormed.withCapacity capacity
  current id item h := by simp [withCapacity] at h
  urls url id := by simp [withCapacity]
  hashes hash id := by simp [withCapacity, versionsOf]
  once id := by simp [withCapacity, versionsOf]

theorem getElem?_insert_eq {β : Type} (m : Std.TreeMap String β) (k k' : String) (v : β) :
    (m.insert k v)[k']? = if k' = k then some v else m[k']? := by
  rw [Std.TreeMap.getElem?_insert]
  by_cases hk : k' = k
  · rw [if_pos hk, if_pos (hk ▸ Std.ReflCmp.compare_self)]
  · rw [if_neg hk, if_neg fun heq => hk (Std.LawfulEqCmp.eq_of_compare heq).symm]

theorem getElem?_erase_eq {β : Type} (m : Std.TreeMap String β) (k k' : String) :
    (m.erase k)[k']? = if k' = k then none else m[k']? := by
  rw [Std.TreeMap.getElem?_erase]
  by_cases hk : k' = k
  · rw [if_pos hk, if_pos (hk ▸ Std.ReflCmp.compare_self)]
  · rw [if_neg hk, if_neg fun heq => hk (Std.LawfulEqCmp.eq_of_compare heq).symm]

theorem versionsOf_insert (capacity : ℕ) (byId : Std.TreeMap String NewsItem)
    (byUrl byHash : Std.TreeMap String String) (id : String) (versions : List NewsItem)
    (k : String) :
    versionsOf ⟨capacity, byId, byUrl, byHash, s.versions.insert id versions⟩ k =
      if k = id then versions else s.versionsOf k := by
  rw [versionsOf, getElem?_insert_eq]
  split <;> rfl

/-- Forgetting the contents of some versions of an article. -/
theorem getElem?_foldl_forgetHash (id : String) (versions : List NewsItem)
    (byHash : Std.TreeMap String String) (hash : String) :
    (versions.foldl (forgetHash id) byHash)[hash]? =
      if byHash[hash]? = some id ∧ hash ∈ versions.map (·.contentHash) then none
      else byHash[hash]? := by
  induction versions generalizing byHash with
  | nil => simp
  | cons version versions ih =>
    have hstep : (forgetHash id byHash version)[hash]? =
        if byHash[hash]? = some id ∧ hash = version.contentHash then none else byHash[hash]? := by
      unfold forgetHash
      by_cases howner : byHash[version.contentHash]? = some id
      · rw [if_pos howner, getElem?_erase_eq]
        by_cases hhash : hash = version.contentHash
        · rw [if_pos hhash, if_pos ⟨hhash ▸ howner, hhash⟩]
        · rw [if_neg hhash, if_neg fun h => hhash h.2]
      · rw [if_neg howner, if_neg (by rintro ⟨hown, rfl⟩; exact howner hown)]
    rw [List.foldl_cons, ih, hstep]
    simp only [List.map_cons, List.mem_cons]
    by_cases howner : byHash[hash]? = some id
    · by_cases hhash : hash = version.contentHash
      · simp [hhash]
      · simp [howner, hhash]
    · simp [howner]

theorem eq_some_of_forgotten {found : Option String} {id : String} {forgets : Prop}
    [Decidable forgets] :
    (if found = some id ∧ forgets then none else found) = some id ↔
      found = some id ∧ ¬forgets := by
  split
  · next h => exact iff_of_false (Option.some_ne_none id).symm fun h' => h'.2 h.2
  · next h => exact ⟨fun howner => ⟨howner, fun hf => h ⟨howner, hf⟩⟩, And.left⟩

theorem eq_some_of_other {found : Option String} {id k : String} {forgets : Prop}
    [Decidable forgets] (hk : k ≠ id) :
    (if found = some id ∧ forgets then none else found) = some k ↔ found = some k := by
  split
  · next h =>
    rw [h.1]
    exact iff_of_false (Option.some_ne_none k).symm fun heq => hk (Option.some_inj.mp heq).symm
  · rfl

/-! ## Eviction -/

/-- Removing a stored article. -/
theorem Indexed.evict (h : s.Indexed) {id : String} (hitem : s.byId[id]? = some item) :
    (s.evict id).Indexed := by
  have hwell := h.toWellFormed.evict id
  obtain ⟨versions, hversions⟩ : ∃ versions, s.versions[id]? = some versions := by
    have hversioned := h.versioned id
    rw [hitem] at hversioned
    exact Option.isSome_iff_exists.mp hversioned
  have hevict : s.evict id = { s with
      byId := s.byId.erase id
      byUrl := s.byUrl.erase item.canonicalUrl
      versions := s.versions.erase id
      byHash := versions.foldl (forgetHash id) s.byHash } := by
    rw [NewsStore.evict, hitem, hversions]
  have hof (k : String) : (s.evict id).versionsOf k = if k = id then [] else s.versionsOf k := by
    rw [hevict, versionsOf, getElem?_erase_eq]
    split <;> rfl
  have hown : s.versionsOf id = versions := by rw [versionsOf, hversions, Option.getD_some]
  constructor
  case toWellFormed => exact hwell
  case current =>
    intro k other hother
    rw [hevict, getElem?_erase_eq] at hother
    split at hother
    · cases hother
    · next hk =>
      rw [hof, if_neg hk]
      exact h.current k other hother
  case urls =>
    intro url k
    rw [hevict]
    simp only [getElem?_erase_eq]
    by_cases hk : k = id
    · subst hk
      simp only
      refine iff_of_false (fun hurl => ?_) fun hfound => ?_
      · split at hurl
        · cases hurl
        · next hne =>
          obtain ⟨other, hother, hurl⟩ := (h.urls url k).mp hurl
          rw [hitem] at hother
          cases hother
          exact hne hurl.symm
      · obtain ⟨other, hother, -⟩ := hfound
        cases hother
    · simp only [if_neg hk]
      by_cases hurl : url = item.canonicalUrl
      · rw [if_pos hurl]
        refine iff_of_false (fun h' => by cases h') fun hother => hk ?_
        -- the address is that of the evicted article alone
        have hmine := (h.urls url id).mpr ⟨item, hitem, hurl.symm⟩
        rw [(h.urls url k).mpr hother] at hmine
        exact Option.some_inj.mp hmine
      · rw [if_neg hurl]
        exact h.urls url k
  case hashes =>
    intro hash k
    have hmine := h.hashes hash id
    rw [hown] at hmine
    rw [hof, hevict, getElem?_foldl_forgetHash]
    by_cases hk : k = id
    · subst hk
      rw [if_pos rfl]
      refine iff_of_false (fun hhash => ?_) List.not_mem_nil
      split at hhash
      · cases hhash
      · next hnot => exact hnot ⟨hhash, hmine.mp hhash⟩
    · rw [if_neg hk, ← h.hashes hash k]
      split
      · next howner =>
        refine iff_of_false (fun h' => by cases h') fun hother => hk ?_
        rw [howner.1] at hother
        exact (Option.some_inj.mp hother).symm
      · rfl
  case once =>
    intro k
    rw [hof]
    split
    · exact List.nodup_nil
    · exact h.once k

theorem oldest_spec (items : List NewsItem) (best : Option NewsItem) :
    let found := items.foldl (fun best item => best.elim (some item) fun b =>
      if older item b then some item else some b) best
    (found = none → items = [] ∧ best = none) ∧ ∀ x, found = some x → x ∈ items ∨ best = some x := by
  induction items generalizing best with
  | nil => exact ⟨fun h => ⟨rfl, h⟩, fun x h => .inr h⟩
  | cons item items ih =>
    obtain ⟨hnone, hsome⟩ := ih (best.elim (some item) fun b =>
      if older item b then some item else some b)
    rw [List.foldl_cons]
    cases best with
    | none =>
      refine ⟨fun h => absurd (hnone h).2 (Option.some_ne_none item), fun x h => .inl ?_⟩
      rcases hsome x h with hx | hx
      · exact List.mem_cons_of_mem item hx
      · cases hx
        exact List.mem_cons_self
    | some b =>
      dsimp only [Option.elim_some] at hnone hsome
      dsimp only [Option.elim_some]
      by_cases holder : older item b = true
      · rw [if_pos holder] at hnone hsome ⊢
        refine ⟨fun h => absurd (hnone h).2 (Option.some_ne_none item), fun x h => .inl ?_⟩
        rcases hsome x h with hx | hx
        · exact List.mem_cons_of_mem item hx
        · cases hx
          exact List.mem_cons_self
      · rw [if_neg holder] at hnone hsome ⊢
        exact ⟨fun h => absurd (hnone h).2 (Option.some_ne_none b), fun x h =>
          (hsome x h).imp (List.mem_cons_of_mem item) id⟩

/-- **Evicting the oldest articles** ends within the capacity. -/
theorem Indexed.evictOldest (h : s.Indexed) (n : ℕ) :
    (NewsStore.evictOldest n s).Indexed ∧ (NewsStore.evictOldest n s).capacity = s.capacity ∧
      (s.byId.size ≤ n → (NewsStore.evictOldest n s).byId.size ≤ s.capacity) := by
  induction n generalizing s with
  | zero => exact ⟨h, rfl, fun hsize => (Nat.le_zero.mp hsize).trans_le (Nat.zero_le _)⟩
  | succ n ih =>
    rw [NewsStore.evictOldest]
    by_cases hfits : s.byId.size ≤ s.capacity
    · rw [if_pos hfits]
      exact ⟨h, rfl, fun _ => hfits⟩
    rw [if_neg hfits]
    obtain ⟨hnone, hsome⟩ := oldest_spec s.byId.values none
    change (oldest s.byId.values = none → _) at hnone
    change ∀ x, oldest s.byId.values = some x → _ at hsome
    cases holdest : oldest s.byId.values with
    | none =>
      have hempty := congrArg List.length (hnone holdest).1
      rw [MapSum.values_eq_map, List.length_map, Std.TreeMap.length_toList] at hempty
      exact absurd (hempty.trans_le (Nat.zero_le _)) hfits
    | some item =>
      have hmem : item ∈ s.byId.values :=
        (hsome item holdest).resolve_right fun hx => by cases hx
      obtain ⟨k, hk⟩ := MapFilter.mem_values.mp hmem
      have hitem : s.byId[item.id]? = some item := by rwa [h.ids k item hk]
      obtain ⟨hindexed, hcapacity, hsize⟩ := ih (h.evict hitem)
      have hevict : (s.evict item.id).byId = s.byId.erase item.id ∧
          (s.evict item.id).capacity = s.capacity := by
        rw [NewsStore.evict, hitem]
        exact ⟨rfl, rfl⟩
      have hin : s.byId.contains item.id = true :=
        Std.TreeMap.mem_iff_isSome_getElem?.mpr (by rw [hitem]; rfl)
      rw [hevict.1, hevict.2, Std.TreeMap.size_erase, if_pos hin] at hsize
      exact ⟨hindexed, hcapacity.trans hevict.2, fun hle => hsize (by omega)⟩

theorem Indexed.evictIfNeeded (h : s.Indexed) : s.evictIfNeeded.Consistent := by
  obtain ⟨hindexed, hcapacity, hsize⟩ := h.evictOldest s.byId.size
  exact ⟨hindexed, by rw [NewsStore.evictIfNeeded, hcapacity]; exact hsize le_rfl⟩

/-! ## Insertion -/

/-- The store with one article written, before eviction: the first `excess` of its versions are
dropped, and its address takes the place of the one before. -/
theorem Indexed.write (h : s.Indexed) (item : NewsItem) (excess : ℕ)
    (byUrl : Std.TreeMap String String)
    (hfew : (s.versionsOf item.id).length + 1 - excess ≤ maxVersionsPerItem)
    (hexcess : excess ≤ (s.versionsOf item.id).length)
    (hhash : s.byHash[item.contentHash]? = none)
    (hurl : ∀ url id : String, byUrl[url]? = some id ↔
      if id = item.id then url = item.canonicalUrl else s.byUrl[url]? = some id) :
    Indexed
      { s with
        byId := s.byId.insert item.id item
        byUrl := byUrl
        versions := s.versions.insert item.id ((s.versionsOf item.id ++ [item]).drop excess)
        byHash := ((s.versionsOf item.id ++ [item]).take excess).foldl (forgetHash item.id)
          (s.byHash.insert item.contentHash item.id) } := by
  have hdrop : (s.versionsOf item.id ++ [item]).drop excess =
      (s.versionsOf item.id).drop excess ++ [item] := List.drop_append_of_le_length hexcess
  -- the contents of the versions stay apart, since the new one was not known
  have hcontents : ((s.versionsOf item.id ++ [item]).map (·.contentHash)).Nodup := by
    rw [List.map_append]
    refine List.nodup_append.mpr ⟨h.once item.id, List.nodup_singleton _, ?_⟩
    rintro hash hmem _ hlast rfl
    cases List.mem_singleton.mp hlast
    rw [(h.hashes item.contentHash item.id).mpr hmem] at hhash
    cases hhash
  have hparts := List.take_append_drop excess (s.versionsOf item.id ++ [item])
  have hsplit := hcontents
  rw [← hparts, List.map_append] at hsplit
  have hkept (hash : String) :
      hash ∈ ((s.versionsOf item.id ++ [item]).drop excess).map (·.contentHash) ↔
        hash ∈ (s.versionsOf item.id ++ [item]).map (·.contentHash) ∧
          hash ∉ ((s.versionsOf item.id ++ [item]).take excess).map (·.contentHash) := by
    conv_rhs => enter [1]; rw [← hparts, List.map_append, List.mem_append]
    refine ⟨fun hmem => ⟨.inr hmem, fun htake => ?_⟩, fun hmem => hmem.1.resolve_left hmem.2⟩
    exact (List.nodup_append.mp hsplit).2.2 hash htake hash hmem rfl
  constructor
  case toWellFormed =>
    refine h.toWellFormed.written (fun version hversion => ?_) ?_
    · rcases List.mem_append.mp (List.mem_of_mem_drop hversion) with hold | hlast
      · exact h.getD_id item.id version hold
      · rw [List.mem_singleton.mp hlast]
    · rw [List.length_drop, List.length_append, List.length_singleton]
      exact hfew
  case current =>
    intro k other hother
    rw [getElem?_insert_eq] at hother
    rw [versionsOf_insert]
    by_cases hk : k = item.id
    · rw [if_pos hk] at hother ⊢
      rw [hdrop, List.getLast?_concat, hother]
    · rw [if_neg hk] at hother ⊢
      exact h.current k other hother
  case urls =>
    intro url k
    rw [hurl]
    simp only [getElem?_insert_eq]
    by_cases hk : k = item.id
    · simp only [if_pos hk, Option.some_inj]
      refine ⟨fun heq => ⟨item, rfl, heq.symm⟩, fun hfound => ?_⟩
      obtain ⟨other, rfl, heq⟩ := hfound
      exact heq.symm
    · simp only [if_neg hk]
      exact h.urls url k
  case hashes =>
    intro hash k
    rw [getElem?_foldl_forgetHash, getElem?_insert_eq, versionsOf_insert]
    by_cases hk : k = item.id
    · subst hk
      rw [if_pos rfl, hkept, List.map_append, List.mem_append, List.map_singleton,
        List.mem_singleton, ← h.hashes hash item.id]
      have hwritten : (if hash = item.contentHash then some item.id else s.byHash[hash]?) =
          some item.id ↔ s.byHash[hash]? = some item.id ∨ hash = item.contentHash := by
        split
        · next hnew => exact iff_of_true rfl (.inr hnew)
        · next hnew => rw [or_iff_left hnew]
      rw [← hwritten, eq_some_of_forgotten]
    · rw [if_neg hk, ← h.hashes hash k]
      have hother : some item.id ≠ some k := fun heq => hk (Option.some_inj.mp heq).symm
      by_cases hnew : hash = item.contentHash
      · subst hnew
        rw [if_pos rfl, hhash, eq_some_of_other hk]
        exact iff_of_false hother (Option.some_ne_none k).symm
      · rw [if_neg hnew, eq_some_of_other hk]
  case once =>
    intro k
    rw [versionsOf_insert]
    split
    · exact hcontents.sublist ((List.drop_sublist _ _).map _)
    · exact h.once k

/-- **A new article.** -/
theorem Indexed.store (h : s.Indexed) (hnew : s.known item = false) :
    (NewsStore.store item s).Consistent := by
  obtain ⟨⟨hid, hurl⟩, hhash⟩ : (s.byId.contains item.id = false ∧
      s.byUrl.contains item.canonicalUrl = false) ∧ s.byHash.contains item.contentHash = false := by
    simpa only [known, Bool.or_eq_false_iff] using hnew
  have hid := Std.TreeMap.getElem?_eq_none_of_contains_eq_false hid
  have hurl := Std.TreeMap.getElem?_eq_none_of_contains_eq_false hurl
  have hhash := Std.TreeMap.getElem?_eq_none_of_contains_eq_false hhash
  have hversions : s.versionsOf item.id = [] := by
    rw [versionsOf, h.toWellFormed.versions_of_new hid, Option.getD_none]
  refine (h.write item 0 (s.byUrl.insert item.canonicalUrl item.id) (by rw [hversions]; decide)
    (Nat.zero_le _) hhash fun url id => ?_).evictIfNeeded
  rw [getElem?_insert_eq]
  by_cases hmine : id = item.id
  · subst hmine
    rw [if_pos rfl]
    split
    · next heq => exact iff_of_true rfl heq
    · next hne =>
      refine iff_of_false (fun howner => ?_) hne
      obtain ⟨other, hother, -⟩ := (h.urls url item.id).mp howner
      rw [hid] at hother
      cases hother
  · rw [if_neg hmine]
    split
    · next heq =>
      rw [heq, hurl]
      exact iff_of_false (fun hother => hmine (Option.some_inj.mp hother).symm)
        (Option.some_ne_none id).symm
    · rfl

/-- **A correction.** -/
theorem Indexed.correct (h : s.Indexed) (hcurrent : s.byId[item.id]? = some current)
    (hnew : s.duplicates item = false) : (NewsStore.correct current item s).Consistent := by
  obtain ⟨⟨-, hhash⟩, hurl⟩ : (_ ∧ s.byHash.contains item.contentHash = false) ∧
      (s.byUrl[item.canonicalUrl]?).any (· ≠ item.id) = false := by
    simpa only [duplicates, Bool.or_eq_false_iff] using hnew
  have hhash := Std.TreeMap.getElem?_eq_none_of_contains_eq_false hhash
  have hfree : ∀ id, s.byUrl[item.canonicalUrl]? = some id → id = item.id := by
    intro id howner
    rw [howner] at hurl
    simpa using hurl
  have hold : s.byUrl[current.canonicalUrl]? = some item.id :=
    (h.urls current.canonicalUrl item.id).mpr ⟨current, hcurrent, rfl⟩
  have hmine (url : String) : s.byUrl[url]? = some item.id ↔ url = current.canonicalUrl := by
    rw [h.urls, hcurrent]
    simp [eq_comm]
  have hlength : (s.versionsOf item.id).length ≤ maxVersionsPerItem := by
    cases hversions : s.versions[item.id]? with
    | none => rw [versionsOf, hversions]; exact Nat.zero_le _
    | some versions => rw [versionsOf, hversions]; exact h.few item.id versions hversions
  have hmany : maxVersionsPerItem = 32 := rfl
  have hexcess : (s.versionsOf item.id ++ [item]).length - maxVersionsPerItem =
      (s.versionsOf item.id).length + 1 - 32 := by
    rw [List.length_append, List.length_singleton, hmany]
  -- of the other addresses, the one the article had is given up
  have hothers : ∀ url, url ≠ item.canonicalUrl →
      (if current.canonicalUrl ≠ item.canonicalUrl ∧ s.byUrl[current.canonicalUrl]? = some item.id
        then s.byUrl.erase current.canonicalUrl else s.byUrl)[url]? =
      if url = current.canonicalUrl then none else s.byUrl[url]? := by
    intro url hne
    by_cases hsame : current.canonicalUrl = item.canonicalUrl
    · have hkept : ¬(current.canonicalUrl ≠ item.canonicalUrl ∧
          s.byUrl[current.canonicalUrl]? = some item.id) := fun h' => h'.1 hsame
      have hother : url ≠ current.canonicalUrl := fun heq => hne (heq.trans hsame)
      rw [if_neg hkept, if_neg hother]
    · have hgiven : current.canonicalUrl ≠ item.canonicalUrl ∧
          s.byUrl[current.canonicalUrl]? = some item.id := ⟨hsame, hold⟩
      rw [if_pos hgiven, getElem?_erase_eq]
  refine (h.write item ((s.versionsOf item.id ++ [item]).length - maxVersionsPerItem)
    ((if current.canonicalUrl ≠ item.canonicalUrl ∧
        s.byUrl[current.canonicalUrl]? = some item.id then s.byUrl.erase current.canonicalUrl
      else s.byUrl).insert item.canonicalUrl item.id) (by omega) (by omega) hhash
    fun url id => ?_).evictIfNeeded
  rw [getElem?_insert_eq]
  by_cases hurl : url = item.canonicalUrl
  · rw [if_pos hurl]
    by_cases hid : id = item.id
    · rw [if_pos hid, hid]
      exact iff_of_true rfl hurl
    · rw [if_neg hid]
      exact iff_of_false (fun heq => hid (Option.some_inj.mp heq).symm)
        fun howner => hid (hfree id (hurl ▸ howner))
  · rw [if_neg hurl, hothers url hurl]
    by_cases hid : id = item.id
    · rw [if_pos hid, hid]
      refine iff_of_false (fun howner => ?_) hurl
      by_cases hgiven : url = current.canonicalUrl
      · rw [if_pos hgiven] at howner
        cases howner
      · rw [if_neg hgiven] at howner
        exact hgiven ((hmine url).mp howner)
    · rw [if_neg hid]
      by_cases hgiven : url = current.canonicalUrl
      · rw [if_pos hgiven, (hmine url).mpr hgiven]
        exact iff_of_false (Option.some_ne_none id).symm
          fun heq => hid (Option.some_inj.mp heq).symm
      · rw [if_neg hgiven]

/-! ## Runs -/

/-- An insertion finds the article known or stores it. -/
theorem insert_state (item : NewsItem) (s : NewsStore) :
    (insert item s).2 = s ∨ s.known item = false ∧ (insert item s).2 = s.store item := by
  cases hvalid : item.validate with
  | error e =>
    refine .inl ?_
    rw [insert, hvalid]
    rfl
  | ok _ =>
    have hrun : insert item s = (if s.known item then pure false else do
        Fallible.modify (store item)
        pure true : Fallible NewsStore NewsError Bool) s := by
      rw [insert, hvalid]
      rfl
    by_cases hknown : s.known item = true
    · rw [hrun, if_pos hknown]
      exact .inl rfl
    · rw [hrun, if_neg hknown]
      exact .inr ⟨Bool.eq_false_iff.mpr hknown, rfl⟩

/-- A versioned insertion changes nothing, stores the article or corrects the current one. -/
theorem insertVersioned_state (item : NewsItem) (s : NewsStore) :
    (insertVersioned item s).2 = s ∨
      (s.known item = false ∧ (insertVersioned item s).2 = s.store item) ∨
      ∃ current, s.byId[item.id]? = some current ∧ s.duplicates item = false ∧
        (insertVersioned item s).2 = s.correct current item := by
  cases hvalid : item.validate with
  | error e =>
    refine .inl ?_
    rw [insertVersioned, hvalid]
    rfl
  | ok _ =>
    rw [insertVersioned, hvalid, Fallible.bind_of_ok (Fallible.ofExcept_apply _ _),
      Fallible.reads_bind, id]
    by_cases hduplicate : s.duplicates item = true
    · rw [if_pos hduplicate]
      exact .inl rfl
    rw [if_neg hduplicate]
    cases hid : s.byId[item.id]? with
    | some current =>
      refine .inr (.inr ⟨current, rfl, Bool.eq_false_iff.mpr hduplicate, ?_⟩)
      rfl
    | none =>
      have hstate : ((insert item >>= fun _ => pure .new :
          Fallible NewsStore NewsError VersionInsert) s).2 = (insert item s).2 :=
        Fallible.bind_pure_snd _ _ _
      dsimp only
      rw [hstate]
      exact (insert_state item s).imp id .inl

/-- **One insertion** keeps the store consistent. -/
theorem Consistent.apply (h : s.Consistent) (op : Op) : (op.apply s).Consistent := by
  cases op with
  | insert item =>
    rw [Op.apply]
    obtain hsame | ⟨hnew, hstored⟩ := insert_state item s
    · rwa [hsame]
    · rw [hstored]
      exact h.toIndexed.store hnew
  | insertVersioned item =>
    rw [Op.apply]
    obtain hsame | ⟨hnew, hstored⟩ | ⟨current, hcurrent, hnew, hcorrected⟩ :=
      insertVersioned_state item s
    · rwa [hsame]
    · rw [hstored]
      exact h.toIndexed.store hnew
    · rw [hcorrected]
      exact h.toIndexed.correct hcurrent hnew

/-- An address or a content that two articles have is that of one article. -/
theorem Indexed.unique (h : s.Indexed) {id id' : String} :
    (∀ item item', s.byId[id]? = some item → s.byId[id']? = some item' →
      item.canonicalUrl = item'.canonicalUrl → id = id') ∧
    ∀ hash ∈ (s.versionsOf id).map (·.contentHash),
      hash ∈ (s.versionsOf id').map (·.contentHash) → id = id' := by
  constructor
  · intro item item' hitem hitem' hurl
    have hfirst := (h.urls item.canonicalUrl id).mpr ⟨item, hitem, rfl⟩
    rw [(h.urls item.canonicalUrl id').mpr ⟨item', hitem', hurl.symm⟩] at hfirst
    exact (Option.some_inj.mp hfirst).symm
  · intro hash hmem hmem'
    have hfirst := (h.hashes hash id).mpr hmem
    rw [(h.hashes hash id').mpr hmem'] at hfirst
    exact (Option.some_inj.mp hfirst).symm

/-- **The indexes stay consistent** along every run of insertions, whatever the capacity: no more
is stored than it allows, the indexes say just what is stored, and no address or content belongs to
two articles. -/
theorem consistent_after (capacity : ℕ) (ops : List Op) :
    let s := Runs.final Op.apply (withCapacity capacity) ops
    s.Consistent ∧ ∀ id id' : String,
      (∀ item item', s.byId[id]? = some item → s.byId[id']? = some item' →
        item.canonicalUrl = item'.canonicalUrl → id = id') ∧
      ∀ hash ∈ (s.versionsOf id).map (·.contentHash),
        hash ∈ (s.versionsOf id').map (·.contentHash) → id = id' := by
  intro s
  have hempty : (withCapacity capacity).Consistent :=
    ⟨indexed_withCapacity capacity, by simp [withCapacity]⟩
  have hfinal : s.Consistent :=
    Runs.final_of_step (A := fun _ => True) (fun op _ _ h => h.apply op) hempty fun _ _ => trivial
  exact ⟨hfinal, fun id id' => hfinal.toIndexed.unique⟩

end NewsStore

end InsiderTrader
