import InsiderTrader.ResponseReading

/-!
# Reading news back

A page of the feed and the detail of an article, as the terminal reads them.
An absent cursor and an absent summary are sent as empty texts, a summary
behind a mark; so an empty cursor is read as none.

## Main definitions

- `Terminal.NewsItem.PageReadable`, `Terminal.NewsItem.DetailReadable` — an article that fits
- `Terminal.NewsPage.Readable`, `Terminal.NewsDetail.Readable` — a response that fits

## Main results

- `Terminal.decodeNews_iff`, `Terminal.decodeNewsDetail_iff` — a response is read back exactly
  when it is readable
-/

namespace InsiderTrader

namespace Terminal

open Wire

-- Pages

namespace NewsItem

variable (page : NewsPage) (item : NewsItem)

def pageView : NewsView :=
  ⟨item.id, item.title, item.sourceName, item.canonicalUrl, item.receivedAtMs,
    item.symbols.toList, page.relevanceScoresBps[item.id]?.getD 0⟩

/-- The displayed texts are not cut. -/
structure PageReadable : Prop where
  id : Short item.id
  title : Short item.title
  sourceName : Short item.sourceName
  canonicalUrl : Short item.canonicalUrl
  symbols : item.symbols.toList.length ≤ 1024 ∧ ∀ s ∈ item.symbols.toList, Short s

def arrivesInPage : Except String NewsView := do
  let id ← sent item.id
  let title ← sent item.title
  let source ← sent item.sourceName
  let url ← sent item.canonicalUrl
  let symbols ← received 1024 "too many news symbols" item.symbols.toList sent
  pure ⟨id, title, source, url, item.receivedAtMs, symbols,
    page.relevanceScoresBps[item.id]?.getD 0⟩

theorem arrivesInPage_eq_view_iff :
    item.arrivesInPage page = .ok (item.pageView page) ↔ item.PageReadable := by
  simp only [arrivesInPage, bind_eq_ok]
  constructor
  · rintro ⟨_, hid, _, htitle, _, hsource, _, hurl, _, hsymbols, hview⟩
    cases hview
    exact ⟨sent_eq_self_iff.mp hid, sent_eq_self_iff.mp htitle, sent_eq_self_iff.mp hsource,
      sent_eq_self_iff.mp hurl, received_sent_eq_self_iff.mp hsymbols⟩
  · intro h
    exact ⟨_, sent_of_short h.id, _, sent_of_short h.title, _, sent_of_short h.sourceName,
      _, sent_of_short h.canonicalUrl, _, received_sent_eq_self_iff.mpr h.symbols, rfl⟩

theorem reads_newsView : Reads (newsView true) (encodeNewsItem page item)
    (item.arrivesInPage page) := by
  apply (reads_string _).next
  intro id _
  apply (reads_string _).next
  intro title _
  apply (reads_string _).next
  intro source _
  apply (reads_string _).next
  intro url _
  apply (reads_i64 _).value
  apply (reads_i64 _).value
  apply (reads_shortCollection (by omega) (fun _ => rfl) fun s _ => reads_string s).next
  intro symbols _
  exact (reads_u16 _).value (reads_pure _)

end NewsItem

namespace NewsPage

variable (page : NewsPage)

/-- Few articles, all readable, and a cursor that is not cut and not empty. -/
structure Readable : Prop where
  items : page.items.length ≤ 500 ∧ ∀ item ∈ page.items, item.PageReadable
  cursor : Short (page.nextCursor.getD "")
  nextCursor : page.nextCursor ≠ some ""

def arrives : Except String (List NewsView × Option String) := do
  let values ← received 500 "wire collection exceeds bound" page.items (·.arrivesInPage page)
  let next ← sent (page.nextCursor.getD "")
  pure (values, if next = "" then none else some next)

theorem reads_newsPage : Reads (newsPage true)
    [listBytes (encodeNewsItem page) page.items, pushString (page.nextCursor.getD "")].flatten
    page.arrives := by
  apply (reads_collection (by omega) fun item _ => item.reads_newsView page).next
  intro values _
  apply (reads_string _).next
  intro next _
  exact reads_pure _

/-- The cursor is read back when it is not cut and not empty. -/
theorem cursor_arrives_iff {cursor : Option String} :
    (∃ next, sent (cursor.getD "") = .ok next ∧ (if next = "" then none else some next) = cursor) ↔
      Short (cursor.getD "") ∧ cursor ≠ some "" := by
  cases cursor with
  | none => exact iff_of_true ⟨"", sent_of_short short_empty, rfl⟩ ⟨short_empty, nofun⟩
  | some cursor =>
    rw [Option.getD_some]
    constructor
    · rintro ⟨next, hsent, hnext⟩
      split at hnext
      · cases hnext
      · next hne =>
        cases hnext
        exact ⟨sent_eq_self_iff.mp hsent, fun h => hne (Option.some.inj h)⟩
    · rintro ⟨hshort, hne⟩
      refine ⟨cursor, sent_of_short hshort, if_neg fun h => hne ?_⟩
      rw [h]

end NewsPage

/-- **A page** is read back exactly when it is readable. -/
theorem decodeNews_iff {page : NewsPage} :
    decodeNews (encodeNewsPage page) = .ok (page.items.map (·.pageView page), page.nextCursor) ↔
      page.Readable := by
  have hmark : (utf8 "IT_CMD_NEWS_PAGE_V2\x00").isPrefixOf (encodeNewsPage page) = true := rfl
  have hitems : received 500 "wire collection exceeds bound" page.items (·.arrivesInPage page) =
      .ok (page.items.map (·.pageView page)) ↔ page.items.length ≤ 500 ∧
        ∀ item ∈ page.items, item.arrivesInPage page = .ok (item.pageView page) :=
    received_eq_ok_map_iff
  have harticles : ∀ item ∈ page.items,
      (item.arrivesInPage page = .ok (item.pageView page) ↔ item.PageReadable) :=
    fun item _ => item.arrivesInPage_eq_view_iff page
  rw [decodeNews, hmark, if_pos rfl, encodeNewsPage, afterMagic_eq page.reads_newsPage]
  simp only [NewsPage.arrives, bind_eq_ok]
  constructor
  · rintro ⟨values, hvalues, next, hnext, hview⟩
    have hpair := Prod.mk.inj (Except.ok.inj hview)
    rw [hpair.1] at hvalues
    obtain ⟨hlength, hall⟩ := hitems.mp hvalues
    obtain ⟨hshort, hne⟩ := NewsPage.cursor_arrives_iff.mp ⟨next, hnext, hpair.2⟩
    exact ⟨⟨hlength, (forall₂_congr harticles).mp hall⟩, hshort, hne⟩
  · intro h
    obtain ⟨next, hnext, hcursor⟩ := NewsPage.cursor_arrives_iff.mpr ⟨h.cursor, h.nextCursor⟩
    refine ⟨_, hitems.mpr ⟨h.items.1, (forall₂_congr harticles).mpr h.items.2⟩, next, hnext, ?_⟩
    rw [hcursor]
    rfl

-- Details

theorem option_sent_eq_self_iff {x : Option String} : x.mapM sent = .ok x ↔ Short (x.getD "") := by
  cases x with
  | none => exact iff_of_true rfl short_empty
  | some text =>
    rw [Option.getD_some, ← sent_eq_self_iff]
    show (some <$> sent text) = .ok (some text) ↔ _
    cases sent text with
    | error e => exact iff_of_false nofun nofun
    | ok cut =>
      constructor
      · intro h
        cases h
        rfl
      · intro h
        cases h
        rfl

theorem reads_newsSummary (x : Option String) :
    Reads newsSummary [flag x.isSome, pushString (x.getD "")].flatten (x.mapM sent) := by
  cases x with
  | none =>
    apply (reads_u8 0).value
    apply Reads.value (a := "")
    · rw [← sent_of_short short_empty]
      exact reads_string ""
    · exact Reads.require fun _ => reads_pure none
  | some text =>
    apply (reads_u8 1).value
    apply (reads_string text).next
    intro summary _
    exact reads_pure (some summary)

namespace NewsItem

variable (item : NewsItem)

def detailView : NewsItemDetailView :=
  ⟨item.id, item.provider, item.canonicalUrl, item.sourceName, item.title, item.summaryText,
    item.publishedAtMs, item.receivedAtMs, item.symbols.toList, item.contentHash⟩

/-- No text is cut. -/
structure DetailReadable : Prop where
  id : Short item.id
  provider : Short item.provider
  canonicalUrl : Short item.canonicalUrl
  sourceName : Short item.sourceName
  title : Short item.title
  summaryText : Short (item.summaryText.getD "")
  symbols : item.symbols.toList.length ≤ 1024 ∧ ∀ s ∈ item.symbols.toList, Short s
  contentHash : Short item.contentHash

def arrivesInDetail : Except String NewsItemDetailView := do
  let id ← sent item.id
  let provider ← sent item.provider
  let url ← sent item.canonicalUrl
  let source ← sent item.sourceName
  let title ← sent item.title
  let summary ← item.summaryText.mapM sent
  let symbols ← received 1024 "too many news detail symbols" item.symbols.toList sent
  let contentHash ← sent item.contentHash
  pure ⟨id, provider, url, source, title, summary, item.publishedAtMs, item.receivedAtMs, symbols,
    contentHash⟩

theorem arrivesInDetail_eq_view_iff :
    item.arrivesInDetail = .ok item.detailView ↔ item.DetailReadable := by
  simp only [arrivesInDetail, bind_eq_ok]
  constructor
  · rintro ⟨_, hid, _, hprovider, _, hurl, _, hsource, _, htitle, _, hsummary, _, hsymbols, _,
      hhash, hview⟩
    cases hview
    exact ⟨sent_eq_self_iff.mp hid, sent_eq_self_iff.mp hprovider, sent_eq_self_iff.mp hurl,
      sent_eq_self_iff.mp hsource, sent_eq_self_iff.mp htitle,
      option_sent_eq_self_iff.mp hsummary, received_sent_eq_self_iff.mp hsymbols,
      sent_eq_self_iff.mp hhash⟩
  · intro h
    exact ⟨_, sent_of_short h.id, _, sent_of_short h.provider, _, sent_of_short h.canonicalUrl,
      _, sent_of_short h.sourceName, _, sent_of_short h.title,
      _, option_sent_eq_self_iff.mpr h.summaryText,
      _, received_sent_eq_self_iff.mpr h.symbols, _, sent_of_short h.contentHash, rfl⟩

theorem reads_newsItemDetail :
    Reads newsItemDetail (encodeNewsItemDetail item) item.arrivesInDetail := by
  apply (reads_string _).next
  intro id _
  apply (reads_string _).next
  intro provider _
  apply (reads_string _).next
  intro url _
  apply (reads_string _).next
  intro source _
  apply (reads_string _).next
  intro title _
  apply (reads_newsSummary _).next
  intro summary _
  apply (reads_optional 0 reads_i64 _).value
  apply (reads_i64 _).value
  apply (reads_shortCollection (by omega) (fun _ => rfl) fun s _ => reads_string s).next
  intro symbols _
  apply (reads_string _).next
  intro contentHash _
  exact reads_pure _

end NewsItem

namespace NewsDetail

variable (detail : NewsDetail)

def view : NewsDetailView :=
  ⟨detail.current.detailView, detail.versions.map (·.detailView), detail.clusterId,
    detail.relatedItemIds⟩

/-- Few versions and related articles, and no text is cut. -/
structure Readable : Prop where
  current : detail.current.DetailReadable
  versions : detail.versions.length ≤ 1024 ∧ ∀ item ∈ detail.versions, item.DetailReadable
  clusterId : Short detail.clusterId
  related : detail.relatedItemIds.length ≤ 1024 ∧ ∀ s ∈ detail.relatedItemIds, Short s

def arrives : Except String (Option NewsDetailView) := do
  let current ← detail.current.arrivesInDetail
  let versions ← received 1024 "too many retained news versions" detail.versions
    (·.arrivesInDetail)
  let clusterId ← sent detail.clusterId
  let related ← received 1024 "too many related news items" detail.relatedItemIds sent
  pure (some ⟨current, versions, clusterId, related⟩)

theorem arrives_eq_view_iff : detail.arrives = .ok (some detail.view) ↔ detail.Readable := by
  have hversions : received 1024 "too many retained news versions" detail.versions
      (·.arrivesInDetail) = .ok (detail.versions.map (·.detailView)) ↔
      detail.versions.length ≤ 1024 ∧
        ∀ item ∈ detail.versions, item.arrivesInDetail = .ok item.detailView :=
    received_eq_ok_map_iff
  have harticles : ∀ item ∈ detail.versions,
      (item.arrivesInDetail = .ok item.detailView ↔ item.DetailReadable) :=
    fun item _ => item.arrivesInDetail_eq_view_iff
  simp only [arrives, bind_eq_ok]
  constructor
  · rintro ⟨_, hcurrent, _, hreceived, _, hcluster, _, hrelated, hview⟩
    cases hview
    obtain ⟨hlength, hall⟩ := hversions.mp hreceived
    exact ⟨detail.current.arrivesInDetail_eq_view_iff.mp hcurrent,
      ⟨hlength, (forall₂_congr harticles).mp hall⟩, sent_eq_self_iff.mp hcluster,
      received_sent_eq_self_iff.mp hrelated⟩
  · intro h
    exact ⟨_, detail.current.arrivesInDetail_eq_view_iff.mpr h.current,
      _, hversions.mpr ⟨h.versions.1, (forall₂_congr harticles).mpr h.versions.2⟩,
      _, sent_of_short h.clusterId, _, received_sent_eq_self_iff.mpr h.related, rfl⟩

end NewsDetail

theorem reads_newsDetailView (detail : NewsDetail) :
    Reads newsDetailView [flag true, encodeNewsItemDetail detail.current,
      shortListBytes encodeNewsItemDetail detail.versions.length detail.versions,
      pushString detail.clusterId,
      shortListBytes pushString detail.relatedItemIds.length detail.relatedItemIds].flatten
      detail.arrives := by
  apply (reads_u8 1).value
  apply detail.current.reads_newsItemDetail.next
  intro current _
  apply (reads_shortCollection (by omega) (fun _ => rfl)
    fun item _ => item.reads_newsItemDetail).next
  intro versions _
  apply (reads_string _).next
  intro clusterId _
  apply (reads_shortCollection (by omega) (fun _ => rfl) fun s _ => reads_string s).next
  intro related _
  exact reads_pure _

/-- **A detail** is read back exactly when it is readable. -/
theorem decodeNewsDetail_iff {detail : Option NewsDetail} :
    decodeNewsDetail (encodeNewsDetail detail) = .ok (detail.map (·.view)) ↔
      ∀ d ∈ detail, d.Readable := by
  cases detail with
  | none => exact iff_of_true (afterMagic_eq (reads_u8 0 |>.ok_bind (reads_pure none))) nofun
  | some detail =>
    rw [decodeNewsDetail, encodeNewsDetail, afterMagic_eq (reads_newsDetailView detail),
      Option.map_some, detail.arrives_eq_view_iff]
    constructor
    · rintro h _ ⟨⟩
      exact h
    · intro h
      exact h detail rfl

end Terminal

end InsiderTrader
