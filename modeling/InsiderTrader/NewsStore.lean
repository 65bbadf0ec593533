import InsiderTrader.Library.Fallible
import InsiderTrader.Library.LastMax
import InsiderTrader.Library.Runs
import InsiderTrader.Library.Text
import InsiderTrader.Responses

/-!
# The news store

Articles by identity, with the versions that corrections left, and the two
indexes that recognize an article under another identity. Queries look at the
store as of a receipt time: the feed and the articles of a symbol at the current
items, the details of an article at its versions.

## Main definitions

- `NewsItem.validate` — the canonical form of an article
- `NewsStore.insert`, `NewsStore.insertVersioned` — a new article, a correction
- `NewsStore.allPageAt`, `NewsStore.relevantPage`, `NewsStore.detailAt` — the queries
- `NewsStore.WellFormed` — the maps agree on what is stored

## Main results

- `NewsStore.insert_cases`, `NewsStore.insertVersioned_cases` — what an insertion can do
- `NewsStore.wellFormed_after` — every store that insertions make is well formed
-/

namespace InsiderTrader

open Terminal

/-- Why an article is not in canonical form. -/
inductive NewsError where
  | emptyField (name : String)
  | fieldTooLarge (name : String)
  | invalidUrl
  | invalidTimestamp
  deriving DecidableEq

namespace Terminal.NewsItem

/-- The required texts of an article, with their names and bounds in bytes. -/
def requiredFields (item : NewsItem) : List (String × String × ℕ) :=
  [("id", item.id, 256), ("provider", item.provider, 64),
    ("canonical_url", item.canonicalUrl, 2048), ("source_name", item.sourceName, 512),
    ("title", item.title, 16384), ("content_hash", item.contentHash, 256)]

/-- The bound of a summary in bytes. -/
def maxSummaryBytes : ℕ := 131072

/-- The bound of the number of symbols. -/
def maxSymbols : ℕ := 256

/-- The bound of a symbol in bytes. -/
def maxSymbolBytes : ℕ := 32

/-- An address with the scheme `https` and a host. -/
def validUrl (url : List Char) : Bool :=
  match Text.stripPrefix "https://".toList url with
  | none => false
  | some authority =>
    let host := authority.takeWhile (· ∉ ['/', '?', '#'])
    !(authority.isEmpty || authority.head? = some '/' || host.isEmpty || host.contains '@' ||
      authority.any Text.isWhiteSpace)

/-- The checks of the canonical form, in their order. -/
def validate (item : NewsItem) : Except NewsError Unit :=
  match item.requiredFields.find? (Text.isBlank ·.2.1) with
  | some field => .error (.emptyField field.1)
  | none =>
    match item.requiredFields.find? fun field => field.2.2 < field.2.1.utf8ByteSize with
    | some field => .error (.fieldTooLarge field.1)
    | none =>
      if validUrl item.canonicalUrl.toList = false then .error .invalidUrl
      else if item.summaryText.any (maxSummaryBytes < ·.utf8ByteSize) then
        .error (.fieldTooLarge "summary_text")
      else if maxSymbols < item.symbols.size ∨
          item.symbols.toList.any fun s => s = "" ∨ maxSymbolBytes < s.utf8ByteSize then
        .error (.fieldTooLarge "symbols")
      else if item.receivedAtMs < 0 ∨ item.publishedAtMs.any (· < 0) then .error .invalidTimestamp
      else .ok ()

/-- The article was received by a time. -/
def visible (asOfMs : Int64) (item : NewsItem) : Bool := item.receivedAtMs ≤ asOfMs

end Terminal.NewsItem

/-- The article store. -/
structure NewsStore where
  capacity : ℕ
  byId : Std.TreeMap String NewsItem
  byUrl : Std.TreeMap String String
  byHash : Std.TreeMap String String
  versions : Std.TreeMap String (List NewsItem)

/-- The outcome of a versioned insertion. -/
inductive VersionInsert where
  | new
  | duplicate
  | correction
  deriving DecidableEq

namespace NewsStore

/-- The greatest number of articles. -/
def maxNewsItems : ℕ := 100000

/-- The greatest number of versions of an article. -/
def maxVersionsPerItem : ℕ := 32

def withCapacity (capacity : ℕ) : NewsStore := ⟨max 1 (min capacity maxNewsItems), ∅, ∅, ∅, ∅⟩

/-- The article was received earlier, or at the same time under a smaller identity. -/
def older (left right : NewsItem) : Bool :=
  left.receivedAtMs < right.receivedAtMs ||
    (left.receivedAtMs = right.receivedAtMs && left.id < right.id)

/-- The oldest of some articles. -/
def oldest (items : List NewsItem) : Option NewsItem :=
  items.foldl (fun best item => best.elim (some item) fun b =>
    if older item b then some item else some b) none

/-- Remove what the index of content has for a version of an article. -/
def forgetHash (id : String) (byHash : Std.TreeMap String String) (version : NewsItem) :
    Std.TreeMap String String :=
  if byHash[version.contentHash]? = some id then byHash.erase version.contentHash else byHash

/-- Remove the article with an identity and its versions. -/
def evict (id : String) (s : NewsStore) : NewsStore :=
  match s.byId[id]? with
  | none => s
  | some item =>
    { s with
      byId := s.byId.erase id
      byUrl := s.byUrl.erase item.canonicalUrl
      versions := s.versions.erase id
      byHash := match s.versions[id]? with
        | some versions => versions.foldl (forgetHash id) s.byHash
        | none => s.byHash.erase item.contentHash }

/-- Remove the oldest articles, at most a number of them, while there are too many. -/
def evictOldest : ℕ → NewsStore → NewsStore
  | 0, s => s
  | n + 1, s =>
    if s.byId.size ≤ s.capacity then s
    else
      match oldest s.byId.values with
      | none => s
      | some item => evictOldest n (s.evict item.id)

/-- Remove the oldest articles while there are too many. -/
def evictIfNeeded (s : NewsStore) : NewsStore := evictOldest s.byId.size s

/-- The article is known by its identity, its address or its content. -/
def known (s : NewsStore) (item : NewsItem) : Bool :=
  s.byId.contains item.id || s.byUrl.contains item.canonicalUrl ||
    s.byHash.contains item.contentHash

/-- Store an article under a new identity. -/
def store (item : NewsItem) (s : NewsStore) : NewsStore :=
  evictIfNeeded
    { s with
      byUrl := s.byUrl.insert item.canonicalUrl item.id
      byHash := s.byHash.insert item.contentHash item.id
      versions := s.versions.insert item.id ((s.versions[item.id]?).getD [] ++ [item])
      byId := s.byId.insert item.id item }

/-- Insert an article that nothing stored is like. -/
def insert (item : NewsItem) : Fallible NewsStore NewsError Bool := do
  Fallible.ofExcept item.validate
  let s ← Fallible.reads id
  if s.known item then pure false
  else do
    Fallible.modify (store item)
    pure true

/-- The content of an article is stored, or its address under another identity. -/
def duplicates (s : NewsStore) (item : NewsItem) : Bool :=
  (s.byId[item.id]?).any (·.contentHash = item.contentHash) || s.byHash.contains item.contentHash ||
    (s.byUrl[item.canonicalUrl]?).any (· ≠ item.id)

/-- The versions of an article with one more; the first ones go when there are too many. -/
def addVersion (item : NewsItem) (s : NewsStore) : NewsStore :=
  let versions := (s.versions[item.id]?).getD [] ++ [item]
  let excess := versions.length - maxVersionsPerItem
  { s with
    versions := s.versions.insert item.id (versions.drop excess)
    byHash := (versions.take excess).foldl (forgetHash item.id)
      (s.byHash.insert item.contentHash item.id) }

/-- Put a correction in the place of the current article. -/
def correct (current item : NewsItem) (s : NewsStore) : NewsStore :=
  let byUrl := if current.canonicalUrl ≠ item.canonicalUrl ∧
      s.byUrl[current.canonicalUrl]? = some item.id then s.byUrl.erase current.canonicalUrl
    else s.byUrl
  let s := addVersion item { s with byUrl := byUrl.insert item.canonicalUrl item.id }
  evictIfNeeded { s with byId := s.byId.insert item.id item }

/-- Insert an article, or a correction of a stored one. -/
def insertVersioned (item : NewsItem) : Fallible NewsStore NewsError VersionInsert := do
  Fallible.ofExcept item.validate
  let s ← Fallible.reads id
  if s.duplicates item then pure .duplicate
  else
    match s.byId[item.id]? with
    | some current =>
      Fallible.modify (correct current item)
      pure .correction
    | none =>
      let _ ← insert item
      pure .new

/-- A version of an article with this content is stored. -/
def containsVersion (s : NewsStore) (id contentHash : String) : Bool :=
  ((s.versions[id]?).getD []).any (·.contentHash = contentHash)

-- Queries

/-- Earlier in the feed: published later, or received later, or with a smaller identity. An article
without a publication time comes after those with one. -/
def feedBefore (left right : NewsItem) : Bool :=
  let published (item : NewsItem) : ℤ := item.publishedAtMs.elim (-2 ^ 63 - 1) Int64.toInt
  published right < published left ||
    (published left = published right &&
      (right.receivedAtMs < left.receivedAtMs ||
        (left.receivedAtMs = right.receivedAtMs && left.id ≤ right.id)))

/-- The place in an ordered list where a page starts: after the article of the cursor. -/
def pageStart (ordered : List NewsItem) (afterId : Option String) : ℕ :=
  ((afterId.bind fun cursor => ordered.findIdx? (·.id = cursor)).map (· + 1)).getD 0

/-- A page of an ordered list, and the cursor of the next one. -/
def pageOf (ordered : List NewsItem) (afterId : Option String) (limit : ℕ) :
    List NewsItem × Option String :=
  let start := pageStart ordered afterId
  let items := (ordered.drop start).take limit
  (items, if start + items.length < ordered.length then items.getLast?.map (·.id) else none)

/-- The greatest number of articles on a page. -/
def maxPage : ℕ := 500

/-- A page of the feed, as of a receipt time. -/
def allPageAt (s : NewsStore) (afterId : Option String) (limit : ℕ) (asOfMs : Int64) : NewsPage :=
  let limit := min limit maxPage
  if limit = 0 then ⟨[], none, ∅⟩
  else
    let ordered := (s.byId.values.filter (NewsItem.visible asOfMs)).mergeSort feedBefore
    let page := pageOf ordered afterId limit
    ⟨page.1, page.2, ∅⟩

/-- A day in milliseconds. -/
def dayMs : ℤ := 86400000

/-- Subtraction of signed 64-bit numbers, clamped to their range. -/
def saturatingSub (x y : ℤ) : ℤ := max (-2 ^ 63) (min (2 ^ 63 - 1) (x - y))

/-- What is left of the day after the publication of an article. -/
def remainingMs (nowMs : Int64) (published : Int64) : ℤ :=
  max (saturatingSub dayMs (max (saturatingSub nowMs.toInt published.toInt) 0)) 0

/-- The rank of an article. The program divides what is left of the day by its length, as floating
point numbers; on the whole numbers up to a day this keeps the order and tells all of them apart.
An article without a publication time is below all others. -/
def recency (nowMs : Int64) (item : NewsItem) : ℤ :=
  item.publishedAtMs.elim (-1) (remainingMs nowMs)

def relevantBefore (nowMs : Int64) (left right : NewsItem) : Bool :=
  recency nowMs right < recency nowMs left ||
    (recency nowMs left = recency nowMs right && left.id ≤ right.id)

/-- The score of an article in basis points. -/
def scoreBps (nowMs : Int64) (item : NewsItem) : UInt16 :=
  let remaining := item.publishedAtMs.elim 0 (remainingMs nowMs)
  UInt16.ofNat (max 0 (min (10000 * remaining / dayMs) 10000)).toNat

/-- A page of the articles of a symbol, as of a receipt time. -/
def relevantPage (upper : String → String) (s : NewsStore) (symbol : String) (nowMs : Int64)
    (afterId : Option String) (limit : ℕ) : NewsPage :=
  let normalized := upper (Text.trim symbol)
  let ranked := (s.byId.values.filter fun item =>
    item.symbols.contains normalized && item.visible nowMs).mergeSort (relevantBefore nowMs)
  let page := pageOf ranked afterId (min limit maxPage)
  ⟨page.1, page.2, .ofList (page.1.map fun item => (item.id, scoreBps nowMs item))⟩

/-- The words of a title in lower case. -/
def clusterOf (lower : String → String) (item : NewsItem) : String :=
  " ".intercalate ((Text.words item.title).map lower)

/-- An article with its versions and its cluster, as of a receipt time. -/
def detailAt (lower : String → String) (s : NewsStore) (id : String) (asOfMs : Int64) :
    Option NewsDetail := do
  let versions (id : String) := ((s.versions[id]?).getD []).filter (NewsItem.visible asOfMs)
  let current ← LastMax.lastMaxBy (fun item : NewsItem => item.receivedAtMs.toInt) (versions id)
  let clusterId := clusterOf lower current
  pure ⟨current, versions current.id, clusterId,
    (s.byId.values.filter fun item => item.id ≠ current.id && item.visible asOfMs &&
      clusterOf lower item = clusterId).map (·.id)⟩

-- What is stored

/-- The maps of articles and of their versions agree, and no article has too many versions. -/
structure WellFormed (s : NewsStore) : Prop where
  ids : ∀ (k : String) (item : NewsItem), s.byId[k]? = some item → item.id = k
  versionIds : ∀ (k : String) (versions : List NewsItem),
    s.versions[k]? = some versions → ∀ version ∈ versions, version.id = k
  versioned : ∀ k : String, (s.versions[k]?).isSome = (s.byId[k]?).isSome
  few : ∀ (k : String) (versions : List NewsItem),
    s.versions[k]? = some versions → versions.length ≤ maxVersionsPerItem

variable {s : NewsStore} {item : NewsItem}

theorem WellFormed.withCapacity (capacity : ℕ) : (NewsStore.withCapacity capacity).WellFormed := by
  constructor <;> simp [NewsStore.withCapacity]

theorem WellFormed.evict (h : s.WellFormed) (id : String) : (s.evict id).WellFormed := by
  rw [NewsStore.evict]
  split
  · exact h
  · next current hcurrent =>
    constructor
    · intro k item hitem
      rw [Std.TreeMap.getElem?_erase] at hitem
      split at hitem
      · cases hitem
      · exact h.ids k item hitem
    · intro k versions hversions
      rw [Std.TreeMap.getElem?_erase] at hversions
      split at hversions
      · cases hversions
      · exact h.versionIds k versions hversions
    · intro k
      rw [Std.TreeMap.getElem?_erase, Std.TreeMap.getElem?_erase]
      split
      · rfl
      · exact h.versioned k
    · intro k versions hversions
      rw [Std.TreeMap.getElem?_erase] at hversions
      split at hversions
      · cases hversions
      · exact h.few k versions hversions

theorem WellFormed.evictOldest (h : s.WellFormed) (n : ℕ) :
    (NewsStore.evictOldest n s).WellFormed := by
  induction n generalizing s with
  | zero => exact h
  | succ n ih =>
    rw [NewsStore.evictOldest]
    split
    · exact h
    · split
      · exact h
      · exact ih (h.evict _)

/-- The maps with one article and its versions written. -/
theorem WellFormed.written (h : s.WellFormed) {versions : List NewsItem}
    {byUrl byHash : Std.TreeMap String String} (hids : ∀ version ∈ versions, version.id = item.id)
    (hfew : versions.length ≤ maxVersionsPerItem) :
    WellFormed ⟨s.capacity, s.byId.insert item.id item, byUrl, byHash,
      s.versions.insert item.id versions⟩ := by
  constructor
  · intro k stored hstored
    rw [Std.TreeMap.getElem?_insert] at hstored
    split at hstored
    · next hk =>
      cases hstored
      exact Std.LawfulEqOrd.eq_of_compare hk
    · exact h.ids k stored hstored
  · intro k stored hstored
    rw [Std.TreeMap.getElem?_insert] at hstored
    split at hstored
    · next hk =>
      cases hstored
      rw [← Std.LawfulEqOrd.eq_of_compare hk]
      exact hids
    · exact h.versionIds k stored hstored
  · intro k
    rw [Std.TreeMap.getElem?_insert, Std.TreeMap.getElem?_insert]
    split
    · rfl
    · exact h.versioned k
  · intro k stored hstored
    rw [Std.TreeMap.getElem?_insert] at hstored
    split at hstored
    · cases hstored
      exact hfew
    · exact h.few k stored hstored

theorem WellFormed.getD_id (h : s.WellFormed) (id : String) :
    ∀ version ∈ (s.versions[id]?).getD [], version.id = id := by
  cases hversions : s.versions[id]? with
  | none => exact fun _ hmem => absurd hmem List.not_mem_nil
  | some versions => exact h.versionIds id versions hversions

theorem WellFormed.versions_of_new (h : s.WellFormed) (hnew : s.byId[item.id]? = none) :
    s.versions[item.id]? = none := by
  have hversioned := h.versioned item.id
  cases hversions : s.versions[item.id]? with
  | none => rfl
  | some versions =>
    rw [hnew, hversions] at hversioned
    cases hversioned

theorem WellFormed.store (h : s.WellFormed) (hnew : s.byId[item.id]? = none) :
    (NewsStore.store item s).WellFormed := by
  refine (h.written ?_ ?_).evictOldest _
  · rw [h.versions_of_new hnew]
    simp
  · rw [h.versions_of_new hnew]
    exact (by decide : 1 ≤ maxVersionsPerItem)

theorem WellFormed.correct (h : s.WellFormed) (current : NewsItem) :
    (NewsStore.correct current item s).WellFormed := by
  refine (h.written ?_ ?_).evictOldest _
  · intro version hversion
    rcases List.mem_append.mp (List.mem_of_mem_drop hversion) with hold | hlast
    · exact h.getD_id item.id version hold
    · rw [List.mem_singleton.mp hlast]
  · rw [List.length_drop]
    omega

/-- **An insertion** is refused, finds the article known, or stores it under a new identity. -/
theorem insert_cases (item : NewsItem) (s : NewsStore) :
    (insert item s).2 = s ∧ (insert item s).1 ≠ .ok true ∨
      s.byId[item.id]? = none ∧ insert item s = (.ok true, s.store item) := by
  cases hvalid : item.validate with
  | error e =>
    have hrun : insert item s = (.error e, s) := by
      rw [insert, hvalid]
      rfl
    exact .inl ⟨by rw [hrun], by simp [hrun]⟩
  | ok _ =>
    have hrun : insert item s = (if s.known item then pure false else do
        Fallible.modify (store item)
        pure true : Fallible NewsStore NewsError Bool) s := by
      rw [insert, hvalid]
      rfl
    by_cases hknown : s.known item = true
    · rw [if_pos hknown] at hrun
      exact .inl ⟨by rw [hrun]; rfl, by simp [hrun]⟩
    · rw [if_neg hknown] at hrun
      refine .inr ⟨?_, by rw [hrun]; rfl⟩
      obtain ⟨⟨hid, -⟩, -⟩ : (s.byId.contains item.id = false ∧ _) ∧ _ := by
        simpa only [known, Bool.or_eq_true, not_or, Bool.not_eq_true] using hknown
      exact Std.TreeMap.getElem?_eq_none_of_contains_eq_false hid

/-- **A versioned insertion** is refused, finds the article stored, stores it under a new identity,
or corrects the current article. -/
theorem insertVersioned_cases (item : NewsItem) (s : NewsStore) :
    ((insertVersioned item s).2 = s ∧ (insertVersioned item s).1 ≠ .ok .correction ∧
        ((insertVersioned item s).1 = .ok .new → s.byId[item.id]? = none)) ∨
      (s.byId[item.id]? = none ∧ insertVersioned item s = (.ok .new, s.store item)) ∨
      ∃ current, s.byId[item.id]? = some current ∧
        insertVersioned item s = (.ok .correction, s.correct current item) := by
  cases hvalid : item.validate with
  | error e =>
    have hrun : insertVersioned item s = (.error e, s) := by
      rw [insertVersioned, hvalid]
      rfl
    exact .inl ⟨by rw [hrun], by simp [hrun], by simp [hrun]⟩
  | ok _ =>
    have hrun : insertVersioned item s = (if s.duplicates item then pure .duplicate else
        match s.byId[item.id]? with
        | some current => do
          Fallible.modify (correct current item)
          pure .correction
        | none => do
          let _ ← insert item
          pure .new : Fallible NewsStore NewsError VersionInsert) s := by
      rw [insertVersioned, hvalid]
      rfl
    by_cases hduplicate : s.duplicates item = true
    · rw [if_pos hduplicate] at hrun
      exact .inl ⟨by rw [hrun]; rfl, by simp [hrun], by simp [hrun]⟩
    · rw [if_neg hduplicate] at hrun
      cases hid : s.byId[item.id]? with
      | some current =>
        rw [hid] at hrun
        exact .inr (.inr ⟨current, rfl, hrun⟩)
      | none =>
        rw [hid] at hrun
        have hthen : insertVersioned item s =
            (insert item >>= fun _ => pure .new : Fallible NewsStore NewsError VersionInsert) s :=
          hrun
        obtain ⟨hsame, -⟩ | ⟨-, hstored⟩ := insert_cases item s
        · refine .inl ?_
          rw [hthen, Fallible.bind_apply]
          cases hinsert : insert item s with
          | mk outcome s' =>
            rw [hinsert] at hsame
            cases outcome with
            | error e => exact ⟨hsame, by simp, fun _ => rfl⟩
            | ok _ => exact ⟨hsame, by simp, fun _ => rfl⟩
        · exact .inr (.inl ⟨rfl, hthen.trans (Fallible.bind_of_ok hstored)⟩)

/-- An insertion into the store. -/
inductive Op where
  | insert (item : NewsItem)
  | insertVersioned (item : NewsItem)

/-- The store after an insertion. -/
def Op.apply : Op → NewsStore → NewsStore
  | .insert item, s => (NewsStore.insert item s).2
  | .insertVersioned item, s => (NewsStore.insertVersioned item s).2

/-- **One insertion** keeps the store well formed. -/
theorem WellFormed.apply (h : s.WellFormed) (op : Op) : (op.apply s).WellFormed := by
  cases op with
  | insert item =>
    rw [Op.apply]
    obtain ⟨hsame, -⟩ | ⟨hnew, hstored⟩ := insert_cases item s
    · rwa [hsame]
    · rw [hstored]
      exact h.store hnew
  | insertVersioned item =>
    rw [Op.apply]
    obtain ⟨hsame, -⟩ | ⟨hnew, hstored⟩ | ⟨current, -, hcorrected⟩ := insertVersioned_cases item s
    · rwa [hsame]
    · rw [hstored]
      exact h.store hnew
    · rw [hcorrected]
      exact h.correct current

/-- **Every store** that insertions make is well formed. -/
theorem wellFormed_after (capacity : ℕ) (ops : List Op) :
    (Runs.final Op.apply (withCapacity capacity) ops).WellFormed :=
  Runs.final_of_step (A := fun _ => True) (fun op _ _ h => h.apply op)
    (WellFormed.withCapacity capacity) fun _ _ => trivial

end NewsStore

end InsiderTrader
