import InsiderTrader.PointInTime

/-!
# Paging through the news

A page of the feed, or of the articles of a symbol, names its last article as
the cursor of the next page as long as there is more. Following the cursors from
the beginning gives the whole listing, in its order and without repetition.

## Main definitions

- `NewsStore.feed`, `NewsStore.relevantListing` — the listings without a limit
- `NewsStore.followPages` — the pages from a cursor on

## Main results

- `NewsStore.followPages_from` — the pages from a place on hold the rest of a listing
- `NewsStore.paging_complete` — following the cursors gives the listing
-/

namespace InsiderTrader

open Terminal

namespace NewsStore

variable {s : NewsStore} {t : Int64}

/-- The articles that a query of the feed can see, in the order of the feed. -/
def feed (s : NewsStore) (asOfMs : Int64) : List NewsItem :=
  (s.byId.values.filter (NewsItem.visible asOfMs)).mergeSort feedBefore

/-- The articles of a symbol that a query can see, in the order of their relevance. -/
def relevantListing (upper : String → String) (s : NewsStore) (symbol : String) (nowMs : Int64) :
    List NewsItem :=
  (s.byId.values.filter fun item =>
    item.symbols.contains (upper (Text.trim symbol)) && item.visible nowMs).mergeSort
      (relevantBefore nowMs)

/-- The pages from a cursor on, each asked for with the cursor of the one before; `none` if they
have not ended after a number of them. -/
def followPages (page : Option String → NewsPage) : ℕ → Option String → Option (List NewsPage)
  | 0, _ => none
  | n + 1, cursor =>
    match (page cursor).nextCursor with
    | none => some [page cursor]
    | some next => (followPages page n (some next)).map (page cursor :: ·)

/-- The articles of some pages. -/
def articles (pages : List NewsPage) : List NewsItem := pages.flatMap (·.items)

/-- A listing without repetition of what a query selects, in its order. -/
structure IsListing (s : NewsStore) (selects : NewsItem → Bool)
    (before : NewsItem → NewsItem → Bool) (listing : List NewsItem) : Prop where
  mem : ∀ item, item ∈ listing ↔ s.byId[item.id]? = some item ∧ selects item = true
  once : (listing.map (·.id)).Nodup
  sorted : listing.Pairwise fun left right => before left right = true

-- The orders

theorem feedBefore_iff {left right : NewsItem} :
    feedBefore left right = true ↔
      right.publishedAtMs.elim (-2 ^ 63 - 1) Int64.toInt <
          left.publishedAtMs.elim (-2 ^ 63 - 1) Int64.toInt ∨
        left.publishedAtMs.elim (-2 ^ 63 - 1) Int64.toInt =
            right.publishedAtMs.elim (-2 ^ 63 - 1) Int64.toInt ∧
          (right.receivedAtMs.toInt < left.receivedAtMs.toInt ∨
            left.receivedAtMs.toInt = right.receivedAtMs.toInt ∧ left.id ≤ right.id) := by
  simp [feedBefore, Int64.lt_iff_toInt_lt, ← Int64.toInt_inj]

theorem relevantBefore_iff {left right : NewsItem} :
    relevantBefore t left right = true ↔
      recency t right < recency t left ∨
        recency t left = recency t right ∧ left.id ≤ right.id := by
  simp [relevantBefore]

theorem feedBefore_trans (a b c : NewsItem) (hab : feedBefore a b = true)
    (hbc : feedBefore b c = true) : feedBefore a c = true := by
  rw [feedBefore_iff] at *
  rcases hab with hab | ⟨hab, hab' | ⟨hab', hid⟩⟩
  · rcases hbc with hbc | ⟨hbc, -⟩ <;> exact .inl (by omega)
  · rcases hbc with hbc | ⟨hbc, hbc' | ⟨hbc', -⟩⟩
    · exact .inl (by omega)
    · exact .inr ⟨by omega, .inl (by omega)⟩
    · exact .inr ⟨by omega, .inl (by omega)⟩
  · rcases hbc with hbc | ⟨hbc, hbc' | ⟨hbc', hid'⟩⟩
    · exact .inl (by omega)
    · exact .inr ⟨by omega, .inl (by omega)⟩
    · exact .inr ⟨by omega, .inr ⟨by omega, String.le_trans hid hid'⟩⟩

theorem feedBefore_total (a b : NewsItem) : (feedBefore a b || feedBefore b a) = true := by
  rw [Bool.or_eq_true, feedBefore_iff, feedBefore_iff]
  rcases String.le_total a.id b.id with hid | hid <;> simp only [hid, and_true] <;> omega

theorem relevantBefore_trans (a b c : NewsItem) (hab : relevantBefore t a b = true)
    (hbc : relevantBefore t b c = true) : relevantBefore t a c = true := by
  rw [relevantBefore_iff] at *
  rcases hab with hab | ⟨hab, hid⟩
  · rcases hbc with hbc | ⟨hbc, -⟩ <;> exact .inl (by omega)
  · rcases hbc with hbc | ⟨hbc, hid'⟩
    · exact .inl (by omega)
    · exact .inr ⟨by omega, String.le_trans hid hid'⟩

theorem relevantBefore_total (a b : NewsItem) :
    (relevantBefore t a b || relevantBefore t b a) = true := by
  rw [Bool.or_eq_true, relevantBefore_iff, relevantBefore_iff]
  rcases String.le_total a.id b.id with hid | hid <;> simp only [hid, and_true] <;> omega

/-- Sorting what a query selects makes a listing. -/
theorem WellFormed.isListing (h : s.WellFormed) (selects : NewsItem → Bool)
    {before : NewsItem → NewsItem → Bool}
    (trans : ∀ a b c, before a b = true → before b c = true → before a c = true)
    (total : ∀ a b, (before a b || before b a) = true) :
    s.IsListing selects before ((s.byId.values.filter selects).mergeSort before) := by
  have hperm := List.mergeSort_perm (s.byId.values.filter selects) before
  constructor
  case mem =>
    intro item
    rw [hperm.mem_iff, List.mem_filter, MapFilter.mem_values]
    refine and_congr_left fun _ => ⟨fun hmem => ?_, fun hmem => ⟨item.id, hmem⟩⟩
    obtain ⟨k, hk⟩ := hmem
    rwa [h.ids k item hk]
  case once =>
    refine (hperm.map _).nodup_iff.mpr ?_
    exact (MapFilter.nodup_values h.ids).sublist (List.filter_sublist.map _)
  case sorted => exact List.pairwise_mergeSort trans total _

-- Pages of a listing

/-- **The pages from a place on** hold the rest of the listing. -/
theorem followPages_from {listing : List NewsItem} (hids : (listing.map (·.id)).Nodup)
    {limit : ℕ} (hlimit : 1 ≤ limit) {page : Option String → NewsPage}
    (hpage : ∀ cursor, ((page cursor).items, (page cursor).nextCursor) =
      pageOf listing cursor limit) (n : ℕ) {before rest : List NewsItem} {cursor : Option String}
    (hlisting : listing = before ++ rest) (hcursor : pageStart listing cursor = before.length)
    (hn : rest.length < n) :
    ∃ pages, followPages page n cursor = some pages ∧ articles pages = rest := by
  induction n generalizing before rest cursor with
  | zero => exact absurd hn (Nat.not_lt_zero _)
  | succ n ih =>
    have hdrop : listing.drop before.length = rest := by rw [hlisting, List.drop_left]
    have hitems : (page cursor).items = rest.take limit := by
      refine (congrArg Prod.fst (hpage cursor)).trans ?_
      rw [pageOf, hcursor, hdrop]
    have hnext : (page cursor).nextCursor =
        if before.length + (rest.take limit).length < listing.length then
          (rest.take limit).getLast?.map (·.id)
        else none := by
      refine (congrArg Prod.snd (hpage cursor)).trans ?_
      rw [pageOf, hcursor, hdrop]
    rw [hlisting, List.length_append, List.length_take] at hnext
    rw [followPages]
    by_cases hmore : limit < rest.length
    · -- the page is full, and its last article is the cursor of the rest
      have hne : rest.take limit ≠ [] := List.ne_nil_of_length_pos (by rw [List.length_take]; omega)
      obtain ⟨init, last, htake⟩ := (List.eq_nil_or_concat' (rest.take limit)).resolve_left hne
      have hsplit : listing = before ++ rest.take limit ++ rest.drop limit := by
        rw [List.append_assoc, List.take_append_drop, hlisting]
      have hlast : listing = (before ++ init) ++ last :: rest.drop limit := by
        rw [hsplit, htake]
        simp
      have hplace : pageStart listing (some last.id) = (before ++ rest.take limit).length := by
        rw [hlast, pageStart_last (hlast ▸ hids), htake]
        simp [Nat.add_assoc]
      rw [if_pos (by omega), htake, List.getLast?_concat, Option.map_some] at hnext
      have hshort : (rest.drop limit).length < n := by
        rw [List.length_drop]
        omega
      obtain ⟨pages, hpages, hrest⟩ := ih hsplit hplace hshort
      refine ⟨page cursor :: pages, ?_, ?_⟩
      · rw [hnext]
        dsimp only
        rw [hpages]
        rfl
      · rw [articles, List.flatMap_cons, hitems]
        exact (congrArg (rest.take limit ++ ·) hrest).trans (List.take_append_drop limit rest)
    · rw [if_neg (by omega)] at hnext
      refine ⟨[page cursor], by rw [hnext], ?_⟩
      rw [articles, List.flatMap_cons, hitems, List.take_of_length_le (not_lt.mp hmore)]
      exact List.append_nil rest

/-- Following the cursors of a listing from its beginning. -/
theorem followPages_all {listing : List NewsItem} (hids : (listing.map (·.id)).Nodup)
    {limit : ℕ} (hlimit : 1 ≤ limit) {page : Option String → NewsPage}
    (hpage : ∀ cursor, ((page cursor).items, (page cursor).nextCursor) =
      pageOf listing cursor limit) :
    ∃ n pages, followPages page n none = some pages ∧ articles pages = listing :=
  ⟨listing.length + 1, followPages_from hids hlimit hpage _ (List.nil_append listing).symm rfl
    (Nat.lt_succ_self _)⟩

/-- **Paging is complete.** Following the cursors from the beginning ends, and the pages together
are the whole listing: every article that the query selects once, in the order of the query. -/
theorem paging_complete (upper : String → String) (capacity : ℕ) (ops : List Op) (symbol : String)
    (asOfMs : Int64) {limit : ℕ} (hlimit : 1 ≤ limit) :
    let s := Runs.final Op.apply (withCapacity capacity) ops
    (∃ n pages, followPages (fun cursor => s.allPageAt cursor limit asOfMs) n none = some pages ∧
      articles pages = s.feed asOfMs) ∧
    (∃ n pages, followPages (fun cursor => relevantPage upper s symbol asOfMs cursor limit) n none =
        some pages ∧ articles pages = relevantListing upper s symbol asOfMs) ∧
    s.IsListing (NewsItem.visible asOfMs) feedBefore (s.feed asOfMs) ∧
    s.IsListing
      (fun item => item.symbols.contains (upper (Text.trim symbol)) && item.visible asOfMs)
      (relevantBefore asOfMs) (relevantListing upper s symbol asOfMs) := by
  intro s
  have hwell : s.WellFormed := wellFormed_after capacity ops
  have hfeed := hwell.isListing (NewsItem.visible asOfMs) feedBefore_trans feedBefore_total
  have hrelevant := hwell.isListing
    (fun item => item.symbols.contains (upper (Text.trim symbol)) && item.visible asOfMs)
    (relevantBefore_trans (t := asOfMs)) relevantBefore_total
  have hmax : 1 ≤ min limit maxPage := Nat.le_min.mpr ⟨hlimit, by decide⟩
  refine ⟨followPages_all hfeed.once hmax fun cursor => ?_,
    followPages_all hrelevant.once hmax fun cursor => rfl, hfeed, hrelevant⟩
  rw [allPageAt, if_neg (by omega)]

namespace Example

private def listed (id contentHash : String) (receivedAtMs : Int64) : Op :=
  .insert ⟨id, "p", "https://a.b/" ++ id, "s", "t", none, none, receivedAtMs, ∅, contentHash⟩

theorem paging_complete_two_pages :
    let s := Runs.final Op.apply (withCapacity 10) [listed "a" "h1" 1000, listed "b" "h2" 2000]
    s.byId.size = 2 ∧ ∃ n pages,
      followPages (fun cursor => s.allPageAt cursor 1 5000) n none = some pages ∧
        articles pages = s.feed 5000 :=
  ⟨by decide, (paging_complete id 10 [listed "a" "h1" 1000, listed "b" "h2" 2000] "A" 5000
    (show 1 ≤ 1 from Nat.le_refl 1)).1⟩

end Example

end NewsStore

end InsiderTrader
