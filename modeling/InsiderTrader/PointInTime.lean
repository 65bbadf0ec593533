import InsiderTrader.Library.MapFilter
import InsiderTrader.NewsStore

/-!
# The news as of a time

What a query about a time before the receipt of an article answers, before and
after the article is inserted. A new article changes no such answer. A
correction takes the place of the article it corrects, so it hides what was
received before it from the feed, and when there are too many versions the
oldest ones are lost.

## Main definitions

- `NewsStore.SameBefore` — two stores answer the queries about earlier times the same
- `NewsStore.Rewrites` — an article takes the place of what was received before it

## Main results

- `NewsStore.SameBefore.of_visible` — the queries see only what was received by their time
- `NewsStore.history_stable_iff` — which insertions change no answer about earlier times
-/

namespace InsiderTrader.NewsStore

open Terminal

/-- Two stores answer every query about a time before `receivedAtMs` the same. -/
structure SameBefore (upper lower : String → String) (receivedAtMs : Int64) (s s' : NewsStore) :
    Prop where
  page : ∀ t < receivedAtMs, ∀ (afterId : Option String) (limit : ℕ),
    s'.allPageAt afterId limit t = s.allPageAt afterId limit t
  relevant : ∀ t < receivedAtMs, ∀ (symbol : String) (afterId : Option String) (limit : ℕ),
    relevantPage upper s' symbol t afterId limit = relevantPage upper s symbol t afterId limit
  detail : ∀ t < receivedAtMs, ∀ id : String, detailAt lower s' id t = detailAt lower s id t

/-- An article takes the place of a current one that was received before it, or makes the oldest
version go that was received before it. -/
def Rewrites (s : NewsStore) (item : NewsItem) : Prop :=
  ∃ current, s.byId[item.id]? = some current ∧
    (current.receivedAtMs < item.receivedAtMs ∨
      ∃ first rest, s.versions[item.id]? = some (first :: rest) ∧
        (first :: rest).length = maxVersionsPerItem ∧ first.receivedAtMs < item.receivedAtMs)

/-- The article of an insertion. -/
def Op.item : Op → NewsItem
  | .insert item => item
  | .insertVersioned item => item

/-- The store takes the article of an insertion. -/
def Op.Accepted : Op → NewsStore → Prop
  | .insert item, s => (NewsStore.insert item s).1 = .ok true
  | .insertVersioned item, s =>
    (NewsStore.insertVersioned item s).1 = .ok .new ∨
      (NewsStore.insertVersioned item s).1 = .ok .correction

variable {upper lower : String → String} {receivedAtMs t : Int64} {s s' : NewsStore}
  {item current first : NewsItem} {rest : List NewsItem}

@[refl] theorem SameBefore.refl (s : NewsStore) : SameBefore upper lower receivedAtMs s s :=
  ⟨fun _ _ _ _ => rfl, fun _ _ _ _ _ => rfl, fun _ _ _ => rfl⟩

-- What a query sees

theorem visible_eq_false (h : t < item.receivedAtMs) : item.visible t = false :=
  decide_eq_false (Int64.not_le.mpr h)

/-- A test that only visible articles pass sees only the visible articles. -/
theorem filter_eq_filter_visible {p : NewsItem → Bool} (hp : ∀ item, p item → item.visible t)
    (items : List NewsItem) : items.filter p = (items.filter (NewsItem.visible t)).filter p := by
  rw [List.filter_filter]
  refine List.filter_congr fun item _ => ?_
  cases hitem : p item with
  | false => rfl
  | true => rw [hp item hitem]; rfl

theorem filter_values_of_visible
    (hitems : ∀ k : String, (s'.byId[k]?).filter (NewsItem.visible t) =
      (s.byId[k]?).filter (NewsItem.visible t))
    {p : NewsItem → Bool} (hp : ∀ item, p item → item.visible t) :
    s'.byId.values.filter p = s.byId.values.filter p := by
  rw [filter_eq_filter_visible hp, MapFilter.filter_values_congr hitems,
    ← filter_eq_filter_visible hp]

/-- **The queries** see only the articles and the versions received by their time. -/
theorem SameBefore.of_visible
    (hitems : ∀ t < receivedAtMs, ∀ k : String, (s'.byId[k]?).filter (NewsItem.visible t) =
      (s.byId[k]?).filter (NewsItem.visible t))
    (hversions : ∀ t < receivedAtMs, ∀ k : String,
      ((s'.versions[k]?).getD []).filter (NewsItem.visible t) =
        ((s.versions[k]?).getD []).filter (NewsItem.visible t)) :
    SameBefore upper lower receivedAtMs s s' := by
  constructor
  · intro t ht afterId limit
    rw [allPageAt, allPageAt, filter_values_of_visible (hitems t ht) fun _ => id]
  · intro t ht symbol afterId limit
    rw [relevantPage, relevantPage, filter_values_of_visible (hitems t ht) fun item hitem =>
      (Bool.and_eq_true _ _ ▸ hitem : _ ∧ _).2]
  · intro t ht id
    simp only [detailAt, hversions t ht]
    refine congrArg _ (funext fun current => ?_)
    rw [filter_values_of_visible (hitems t ht) fun item hitem => ?_]
    rw [Bool.and_eq_true, Bool.and_eq_true] at hitem
    exact hitem.1.2

-- The insertions

theorem evictIfNeeded_of_le (h : s.byId.size ≤ s.capacity) : s.evictIfNeeded = s := by
  rw [evictIfNeeded]
  cases s.byId.size with
  | zero => rfl
  | succ n => rw [evictOldest, if_pos h]

theorem size_insert_le_capacity (hbelow : s.byId.size < s.capacity) (id : String)
    (item : NewsItem) : (s.byId.insert id item).size ≤ s.capacity :=
  le_trans Std.TreeMap.size_insert_le hbelow

theorem store_of_below (hbelow : s.byId.size < s.capacity) (item : NewsItem) :
    s.store item = { s with
      byUrl := s.byUrl.insert item.canonicalUrl item.id
      byHash := s.byHash.insert item.contentHash item.id
      versions := s.versions.insert item.id ((s.versions[item.id]?).getD [] ++ [item])
      byId := s.byId.insert item.id item } :=
  evictIfNeeded_of_le (size_insert_le_capacity hbelow item.id item)

theorem correct_of_below (hbelow : s.byId.size < s.capacity) (current item : NewsItem) :
    (s.correct current item).byId = s.byId.insert item.id item ∧
      (s.correct current item).versions = (s.addVersion item).versions := by
  rw [correct, evictIfNeeded_of_le (size_insert_le_capacity hbelow item.id item)]
  exact ⟨rfl, rfl⟩

/-- A map entry written over one that the query does not see, by one that it does not see. -/
theorem filter_insert_of_hidden {m : Std.TreeMap String NewsItem}
    (hold : (m[item.id]?).filter (NewsItem.visible t) = none) (hnew : item.visible t = false)
    (k : String) : ((m.insert item.id item)[k]?).filter (NewsItem.visible t) =
      (m[k]?).filter (NewsItem.visible t) := by
  rw [Std.TreeMap.getElem?_insert]
  split
  · next hk =>
    rw [← Std.LawfulEqOrd.eq_of_compare hk, hold, Option.filter_some, hnew]
    rfl
  · rfl

theorem filter_versions_of_hidden {m : Std.TreeMap String (List NewsItem)}
    {versions : List NewsItem}
    (h : versions.filter (NewsItem.visible t) =
      ((m[item.id]?).getD []).filter (NewsItem.visible t)) (k : String) :
    (((m.insert item.id versions)[k]?).getD []).filter (NewsItem.visible t) =
      ((m[k]?).getD []).filter (NewsItem.visible t) := by
  rw [Std.TreeMap.getElem?_insert]
  split
  · next hk =>
    rw [← Std.LawfulEqOrd.eq_of_compare hk]
    exact h
  · rfl

theorem filter_append_hidden (versions : List NewsItem) (h : item.visible t = false) :
    (versions ++ [item]).filter (NewsItem.visible t) = versions.filter (NewsItem.visible t) := by
  rw [List.filter_append, List.filter_cons_of_neg (by rw [h]; exact Bool.false_ne_true),
    List.filter_nil, List.append_nil]

/-- One more version that the query does not see, when it does not see the version that goes. -/
theorem filter_drop_hidden {versions : List NewsItem} (hfew : versions.length ≤ maxVersionsPerItem)
    (hnew : item.visible t = false)
    (hfirst : ∀ first rest, versions = first :: rest → versions.length = maxVersionsPerItem →
      first.visible t = false) :
    ((versions ++ [item]).drop ((versions ++ [item]).length - maxVersionsPerItem)).filter
      (NewsItem.visible t) = versions.filter (NewsItem.visible t) := by
  rw [List.length_append, List.length_singleton]
  rcases Nat.lt_or_eq_of_le hfew with hlt | hfull
  · rw [Nat.sub_eq_zero_of_le hlt, List.drop_zero, filter_append_hidden versions hnew]
  · rw [hfull, Nat.add_sub_cancel_left]
    cases versions with
    | nil => cases hfull
    | cons first rest =>
      rw [List.cons_append, List.drop_one, List.tail_cons, filter_append_hidden rest hnew,
        List.filter_cons_of_neg (by rw [hfirst first rest rfl hfull]; exact Bool.false_ne_true)]

/-- A new article changes no answer about the times before its receipt. -/
theorem SameBefore.store (hbelow : s.byId.size < s.capacity) (hnew : s.byId[item.id]? = none) :
    SameBefore upper lower item.receivedAtMs s (s.store item) := by
  rw [store_of_below hbelow]
  refine .of_visible (fun t ht k => ?_) fun t ht k => ?_
  · refine filter_insert_of_hidden ?_ (visible_eq_false ht) k
    rw [hnew]
    rfl
  · exact filter_versions_of_hidden (filter_append_hidden _ (visible_eq_false ht)) k

/-- A correction that takes the place of nothing received before it changes no such answer. -/
theorem SameBefore.correct (h : s.WellFormed) (hbelow : s.byId.size < s.capacity)
    (hcurrent : s.byId[item.id]? = some current) (hkeeps : ¬s.Rewrites item) :
    SameBefore upper lower item.receivedAtMs s (s.correct current item) := by
  have hreceived : item.receivedAtMs ≤ current.receivedAtMs :=
    Int64.not_lt.mp fun hlt => hkeeps ⟨current, hcurrent, .inl hlt⟩
  obtain ⟨hbyId, hversions⟩ := correct_of_below hbelow current item
  refine .of_visible (fun t ht k => ?_) fun t ht k => ?_
  · rw [hbyId]
    refine filter_insert_of_hidden ?_ (visible_eq_false ht) k
    rw [hcurrent, Option.filter_some, visible_eq_false (Int64.lt_of_lt_of_le ht hreceived)]
    rfl
  · rw [hversions]
    refine filter_versions_of_hidden (filter_drop_hidden ?_ (visible_eq_false ht) ?_) k
    · cases hold : s.versions[item.id]? with
      | none => exact Nat.zero_le _
      | some versions => exact h.few item.id versions hold
    · intro first rest hversions hfull
      refine visible_eq_false (Int64.lt_of_lt_of_le ht (Int64.not_lt.mp fun hlt => ?_))
      cases hold : s.versions[item.id]? with
      | none =>
        rw [hold] at hversions
        cases hversions
      | some versions =>
        rw [hold, Option.getD_some] at hversions hfull
        subst hversions
        exact hkeeps ⟨current, hcurrent, .inr ⟨first, rest, hold, hfull, hlt⟩⟩

-- What a correction hides

/-- The cursor of an article leads behind it. -/
theorem pageStart_last {init after : List NewsItem} {last : NewsItem}
    (hids : ((init ++ last :: after).map (·.id)).Nodup) :
    pageStart (init ++ last :: after) (some last.id) = init.length + 1 := by
  have hfresh : ∀ x ∈ init, ¬x.id = last.id := by
    intro x hx heq
    rw [List.map_append] at hids
    have hdisjoint := (List.nodup_append.mp hids).2.2
    exact hdisjoint x.id (List.mem_map_of_mem hx) last.id (by simp) heq
  have hindex : (init ++ last :: after).findIdx? (·.id = last.id) = some init.length := by
    rw [List.findIdx?_append, List.findIdx?_eq_none_iff.mpr]
    · rw [Option.none_or, List.findIdx?_cons, if_pos (decide_eq_true rfl), Option.map_some,
        Nat.zero_add]
    · intro x hx
      exact decide_eq_false (hfresh x hx)
  rw [pageStart, Option.bind_some, hindex]
  rfl

/-- A page of one article reaches every article of a list without repeated identities. -/
theorem exists_pageOf_eq {ordered : List NewsItem} (hids : (ordered.map (·.id)).Nodup)
    (hmem : item ∈ ordered) : ∃ afterId, (pageOf ordered afterId 1).1 = [item] := by
  obtain ⟨before, after, rfl⟩ := List.append_of_mem hmem
  rcases List.eq_nil_or_concat' before with rfl | ⟨init, last, rfl⟩
  · exact ⟨none, rfl⟩
  · -- the article of the cursor stands right before
    refine ⟨some last.id, ?_⟩
    have hlist : (init ++ [last]) ++ item :: after = init ++ last :: item :: after := by
      rw [List.append_assoc, List.singleton_append]
    have hlength : init.length + 1 = (init ++ [last]).length := by rw [List.length_append]; rfl
    rw [hlist] at hids
    rw [pageOf, hlist, pageStart_last hids, ← hlist, hlength, List.drop_left]
    rfl

theorem mem_of_mem_pageOf {ordered : List NewsItem} {afterId : Option String} {limit : ℕ}
    (h : item ∈ (pageOf ordered afterId limit).1) : item ∈ ordered :=
  List.mem_of_mem_drop (List.mem_of_mem_take h)

/-- Every article that a query of the feed can see is on a page. -/
theorem exists_allPageAt_eq (h : s.WellFormed) (hitem : s.byId[item.id]? = some item)
    (hvisible : item.visible t) : ∃ afterId, (s.allPageAt afterId 1 t).items = [item] := by
  have hordered := List.mergeSort_perm (s.byId.values.filter (NewsItem.visible t)) feedBefore
  refine exists_pageOf_eq ?_ (hordered.mem_iff.mpr ?_)
  · refine (hordered.map _).nodup_iff.mpr ?_
    exact (MapFilter.nodup_values h.ids).sublist (List.filter_sublist.map _)
  · exact List.mem_filter.mpr ⟨MapFilter.mem_values.mpr ⟨item.id, hitem⟩, hvisible⟩

/-- An article on a page is stored, and was received by the time of the query. -/
theorem of_mem_allPageAt (h : s.WellFormed) {afterId : Option String} {limit : ℕ}
    (hmem : item ∈ (s.allPageAt afterId limit t).items) :
    s.byId[item.id]? = some item ∧ item.visible t := by
  rw [allPageAt] at hmem
  split at hmem
  · cases hmem
  · obtain ⟨hvalue, hvisible⟩ :=
      List.mem_filter.mp ((List.mergeSort_perm _ _).mem_iff.mp (mem_of_mem_pageOf hmem))
    obtain ⟨k, hk⟩ := MapFilter.mem_values.mp hvalue
    rw [h.ids k item hk]
    exact ⟨hk, hvisible⟩

/-- The versions that the details of an article show. -/
theorem detailAt_versions (h : s.WellFormed) {id : String} {detail : NewsDetail}
    (hdetail : detailAt lower s id t = some detail) :
    detail.versions = ((s.versions[id]?).getD []).filter (NewsItem.visible t) := by
  obtain ⟨current, hcurrent, hshown⟩ := Option.bind_eq_some_iff.mp hdetail
  have hid : current.id = id := h.getD_id id current
    (List.mem_of_mem_filter (LastMax.lastMaxBy_eq_some_iff.mp hcurrent).mem)
  cases hshown
  rw [hid]

/-- An article with a version that a query can see has details. -/
theorem exists_detailAt_eq {id : String}
    (hmem : item ∈ ((s.versions[id]?).getD []).filter (NewsItem.visible t)) :
    ∃ detail, detailAt lower s id t = some detail := by
  rw [detailAt]
  rcases LastMax.lastMaxBy_cases (fun item : NewsItem => item.receivedAtMs.toInt)
    (((s.versions[id]?).getD []).filter (NewsItem.visible t)) with ⟨hnil, -⟩ | ⟨current, hcurrent, -⟩
  · rw [hnil] at hmem
    cases hmem
  · rw [hcurrent]
    exact ⟨_, rfl⟩

/-- A correction that takes the place of what was received before it changes an answer. -/
theorem not_sameBefore_correct (h : s.WellFormed) (hbelow : s.byId.size < s.capacity)
    (hcurrent : s.byId[item.id]? = some current) (hrewrites : s.Rewrites item) :
    ¬SameBefore upper lower item.receivedAtMs s (s.correct current item) := by
  intro hsame
  have hafter : (s.correct current item).WellFormed := h.correct current
  obtain ⟨hbyId, hversions⟩ := correct_of_below hbelow current item
  obtain ⟨_, hstored, hearlier | ⟨first, rest, hold, hfull, hearlier⟩⟩ := hrewrites
  · -- the feed had the article before, and has none of this identity after
    rw [hcurrent, Option.some_inj] at hstored
    subst hstored
    have hid : current.id = item.id := h.ids item.id current hcurrent
    obtain ⟨afterId, hpage⟩ := exists_allPageAt_eq (t := current.receivedAtMs) h (hid ▸ hcurrent)
      (decide_eq_true (Int64.le_refl _))
    rw [← hsame.page current.receivedAtMs hearlier] at hpage
    have hshown := of_mem_allPageAt hafter (hpage ▸ List.mem_singleton_self current)
    rw [hbyId, hid, Std.TreeMap.getElem?_insert_self, Option.some_inj] at hshown
    rw [hshown.1] at hearlier
    exact Int64.lt_irrefl hearlier
  · -- the details had one version more
    have hvisible : first.visible first.receivedAtMs := decide_eq_true (Int64.le_refl _)
    have hmem : first ∈ ((s.versions[item.id]?).getD []).filter
        (NewsItem.visible first.receivedAtMs) := by
      rw [hold]
      exact List.mem_filter.mpr ⟨List.mem_cons_self, hvisible⟩
    obtain ⟨detail, hdetail⟩ : ∃ detail, detailAt lower s item.id first.receivedAtMs = some detail :=
      exists_detailAt_eq hmem
    have hbefore := detailAt_versions h hdetail
    rw [← hsame.detail first.receivedAtMs hearlier] at hdetail
    have hshown := detailAt_versions hafter hdetail
    have hkept : ((s.correct current item).versions[item.id]?).getD [] = rest ++ [item] := by
      rw [hversions, addVersion, Std.TreeMap.getElem?_insert_self, hold, Option.getD_some,
        Option.getD_some, List.length_append, hfull, List.length_singleton,
        Nat.add_sub_cancel_left, List.cons_append, List.drop_one, List.tail_cons]
    rw [hbefore, hkept, hold, filter_append_hidden rest (visible_eq_false hearlier),
      Option.getD_some, List.filter_cons_of_pos hvisible] at hshown
    exact absurd (congrArg List.length hshown) (by simp)

-- Every insertion

/-- What an accepted insertion does: nothing, store a new article, or correct the current one. -/
theorem Op.Accepted.cases {op : Op} (h : op.Accepted s) :
    s.byId[op.item.id]? = none ∧ (op.apply s = s ∨ op.apply s = s.store op.item) ∨
      ∃ current, s.byId[op.item.id]? = some current ∧ op.apply s = s.correct current op.item := by
  cases op with
  | insert item =>
    rw [Op.Accepted] at h
    obtain ⟨-, hrefused⟩ | ⟨hnew, hstored⟩ := insert_cases item s
    · exact absurd h hrefused
    · exact .inl ⟨hnew, .inr (by rw [Op.apply, hstored]; rfl)⟩
  | insertVersioned item =>
    obtain ⟨hsame, hrefused, hnew⟩ | ⟨hnew, hstored⟩ | ⟨current, hcurrent, hcorrected⟩ :=
      insertVersioned_cases item s
    · exact .inl ⟨hnew (h.resolve_right hrefused), .inl hsame⟩
    · exact .inl ⟨hnew, .inr (by rw [Op.apply, hstored]; rfl)⟩
    · exact .inr ⟨current, hcurrent, by rw [Op.apply, hcorrected]; rfl⟩

theorem not_rewrites_of_new (hnew : s.byId[item.id]? = none) : ¬s.Rewrites item := by
  rintro ⟨current, hcurrent, -⟩
  rw [hnew] at hcurrent
  cases hcurrent

theorem sameBefore_apply_iff (h : s.WellFormed) (hbelow : s.byId.size < s.capacity) {op : Op}
    (haccepted : op.Accepted s) :
    SameBefore upper lower op.item.receivedAtMs s (op.apply s) ↔ ¬s.Rewrites op.item := by
  obtain ⟨hnew, hsame | hstored⟩ | ⟨current, hcurrent, hcorrected⟩ := haccepted.cases
  · rw [hsame]
    exact iff_of_true (.refl s) (not_rewrites_of_new hnew)
  · rw [hstored]
    exact iff_of_true (.store hbelow hnew) (not_rewrites_of_new hnew)
  · rw [hcorrected]
    exact ⟨fun hsame hrewrites => not_sameBefore_correct h hbelow hcurrent hrewrites hsame,
      .correct h hbelow hcurrent⟩

/-- **The answers about earlier times** survive the insertion of an article, below the capacity of
the store, exactly when it takes the place of nothing that was received before it. -/
theorem history_stable_iff (upper lower : String → String) (capacity : ℕ) (ops : List Op) (op : Op)
    (hbelow : (Runs.final Op.apply (withCapacity capacity) ops).byId.size <
      (Runs.final Op.apply (withCapacity capacity) ops).capacity)
    (haccepted : op.Accepted (Runs.final Op.apply (withCapacity capacity) ops)) :
    SameBefore upper lower op.item.receivedAtMs (Runs.final Op.apply (withCapacity capacity) ops)
        (op.apply (Runs.final Op.apply (withCapacity capacity) ops)) ↔
      ¬Rewrites (Runs.final Op.apply (withCapacity capacity) ops) op.item :=
  sameBefore_apply_iff (wellFormed_after capacity ops) hbelow haccepted

section Example

/-- An article about a symbol, with its identity, its content and its time of receipt. -/
private def article (id contentHash : String) (receivedAtMs : Int64) : NewsItem :=
  ⟨id, "wire", "https://a/" ++ id, "wire", id, none, some 500, receivedAtMs, .ofList ["ABC"],
    contentHash⟩

/-- The insertion of an article received at 1000. -/
private def firstInserted : List Op := [.insert (article "a" "h1" 1000)]

theorem history_stable_second_article :
    SameBefore id id 2000 (Runs.final Op.apply (withCapacity 10) firstInserted)
      (Op.apply (.insertVersioned (article "b" "h2" 2000))
        (Runs.final Op.apply (withCapacity 10) firstInserted)) :=
  (history_stable_iff id id 10 firstInserted (.insertVersioned (article "b" "h2" 2000))
    (by decide) (.inl (by decide))).mpr
    (not_rewrites_of_new (Std.TreeMap.getElem?_eq_none_of_contains_eq_false (by decide)))

/-- A correction received at 2000 hides from the feed of the time 1000 the article received then. -/
theorem history_rewritten : ¬∀ (upper lower : String → String) (capacity : ℕ) (ops : List Op)
    (op : Op), (Runs.final Op.apply (withCapacity capacity) ops).byId.size <
        (Runs.final Op.apply (withCapacity capacity) ops).capacity →
      op.Accepted (Runs.final Op.apply (withCapacity capacity) ops) →
      SameBefore upper lower op.item.receivedAtMs
        (Runs.final Op.apply (withCapacity capacity) ops)
        (op.apply (Runs.final Op.apply (withCapacity capacity) ops)) := by
  intro h
  have hbelow : (Runs.final Op.apply (withCapacity 10) firstInserted).byId.size <
      (Runs.final Op.apply (withCapacity 10) firstInserted).capacity := by decide
  have haccepted : Op.Accepted (.insertVersioned (article "a" "h2" 2000))
      (Runs.final Op.apply (withCapacity 10) firstInserted) := .inr (by decide)
  have hearlier : ((Runs.final Op.apply (withCapacity 10) firstInserted).byId["a"]?).any
      (·.receivedAtMs < 2000) = true := by decide
  obtain ⟨current, hcurrent, hlt⟩ := Option.any_eq_true _ _ |>.mp hearlier
  exact (sameBefore_apply_iff (wellFormed_after 10 firstInserted) hbelow haccepted).mp
    (h id id 10 firstInserted _ hbelow haccepted) ⟨current, hcurrent, .inl (of_decide_eq_true hlt)⟩

end Example

end InsiderTrader.NewsStore
