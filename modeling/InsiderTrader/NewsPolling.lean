import InsiderTrader.NewsStore

/-!
# Polling news feeds

A poll fetches one page of a provider, stores its articles, passes them to the
committer and then moves the cursor. The feeds here have a single page and no
cursor; the syndicated one is asked for conditionally, with the entity tag of
the page that was read last.

## Main definitions

- `NewsProviders.FeedProvider.fetchPage` — the page of a provider
- `NewsProviders.ingestCursorWithCommit` — one poll
- `NewsProviders.Honest` — a server that answers with the feed, or that it is unchanged
- `NewsProviders.Delivered` — every valid article of a feed was committed
- `NewsProviders.Takes` — a page that is received is also committed

## Main results

- `NewsProviders.polls_step` — what one poll keeps and answers
- `NewsProviders.polls_deliver` — the polls that lose no article
-/

namespace InsiderTrader

open Terminal Fallible

namespace NewsProviders

/-- A request without a body. -/
structure HttpRequest where
  method : String
  url : String
  headers : Std.TreeMap String String

/-- A response. -/
structure HttpResponse where
  status : ℕ
  headers : Std.TreeMap String String
  body : List UInt8

/-- Retry-relevant class of a failure. -/
inductive ProviderFailure where
  | authentication
  | rateLimited (retryAfterMs : ℕ)
  | transient
  | permanent
  deriving DecidableEq

/-- A failure of a provider. -/
structure ProviderError where
  failure : ProviderFailure
  message : String
  deriving DecidableEq

/-- A page and the cursor of the next one. -/
structure ProviderBatch where
  items : List NewsItem
  nextCursor : Option String

/-- Why a poll fails. -/
inductive IngestError where
  | provider (message : String)
  | pageTooLarge (received maximum : ℕ)
  | cursorCommit (message : String)
  | cursorStalled
  deriving DecidableEq

/-- Counts of one poll. -/
structure IngestReport where
  accepted : ℕ
  duplicates : ℕ
  rejected : ℕ
  deriving DecidableEq

/-- The article, received at a time. -/
def receivedAt (nowMs : Int64) (item : NewsItem) : NewsItem := { item with receivedAtMs := nowMs }

/-- What is used of the feed formats and of Unicode. The receipt time is a part of the articles that
nothing else depends on. -/
structure Formats where
  /-- the articles of a search response, with the query and the receipt time -/
  parseYahoo : List UInt8 → String → Int64 → Except String (List NewsItem)
  /-- the articles of a syndication feed, with their source, symbols and receipt time -/
  parseRss : List UInt8 → String → Std.TreeSet String → Int64 → Except String (List NewsItem)
  /-- a text in upper case -/
  upper : String → String
  yahoo_received : ∀ body query nowMs, parseYahoo body query nowMs =
    (parseYahoo body query 0).map (List.map (receivedAt nowMs))
  rss_received : ∀ body source symbols nowMs, parseRss body source symbols nowMs =
    (parseRss body source symbols 0).map (List.map (receivedAt nowMs))

-- Requests

/-- The bytes that stand for themselves in an address. -/
def unreserved (byte : UInt8) : Bool :=
  (Char.ofNat byte.toNat).isAlphanum ∨ Char.ofNat byte.toNat ∈ ['-', '_', '.']

/-- A digit in upper case. -/
def upperDigit (n : ℕ) : Char := "0123456789ABCDEF".toList.getD n '0'

/-- A text in an address. -/
def encode (value : String) : String :=
  String.ofList ((Wire.utf8 value).flatMap fun byte =>
    if unreserved byte then [Char.ofNat byte.toNat]
    else if byte = 0x20 then ['+']
    else ['%', upperDigit (byte.toNat / 16), upperDigit (byte.toNat % 16)])

/-- The bound of a response in bytes. -/
def maxResponseBytes : ℕ := 8 * 1024 * 1024

/-- The failure that a status stands for. -/
def classifyStatus (response : HttpResponse) : Except ProviderError Unit :=
  if 200 ≤ response.status ∧ response.status ≤ 299 then .ok ()
  else if response.status = 401 ∨ response.status = 403 then
    .error ⟨.authentication, "provider authentication rejected"⟩
  else if response.status = 429 then
    .error ⟨.rateLimited (((response.headers["retry-after"]?).bind fun value =>
      Text.parseRadix 10 (2 ^ 64) value.toList).getD 1000), "provider rate limit"⟩
  else if 500 ≤ response.status ∧ response.status ≤ 599 then
    .error ⟨.transient, "provider server status " ++ toString response.status⟩
  else .error ⟨.permanent, "provider status " ++ toString response.status⟩

/-- The search provider. -/
structure YahooFinanceNewsProvider where
  baseUrl : String
  query : String

/-- The syndication provider; the entity tag that it keeps is not part of it. -/
structure RssProvider where
  feedUrl : String
  sourceName : String
  symbols : Std.TreeSet String

def YahooFinanceNewsProvider.request (p : YahooFinanceNewsProvider) : HttpRequest :=
  ⟨"GET", p.baseUrl ++ "/v1/finance/search?q=" ++ encode p.query ++ "&quotesCount=0&newsCount=25",
    Std.TreeMap.empty.insert "accept" "application/json"⟩

/-- The request of a feed, unless it still has the entity tag. -/
def RssProvider.request (p : RssProvider) (etag : Option String) : HttpRequest :=
  let headers := Std.TreeMap.empty.insert "accept"
    "application/rss+xml, application/atom+xml, application/xml"
  ⟨"GET", p.feedUrl, etag.elim headers (headers.insert "if-none-match")⟩

/-- The page of the search provider. -/
def YahooFinanceNewsProvider.fetchPage (formats : Formats) (p : YahooFinanceNewsProvider)
    (send : HttpRequest → Except String HttpResponse) (nowMs : Int64) :
    Except String ProviderBatch := do
  let response ← (send p.request).mapError ("transport: " ++ ·)
  (classifyStatus response).mapError (·.message)
  if maxResponseBytes < response.body.length then .error "provider response exceeds bound"
  else
    let items ← formats.parseYahoo response.body p.query nowMs
    .ok ⟨items, none⟩

/-- The page of the syndication provider. The entity tag is kept before the page is used. -/
def RssProvider.fetchPage (formats : Formats) (p : RssProvider)
    (send : HttpRequest → Except String HttpResponse) (nowMs : Int64) :
    Fallible (Option String) String ProviderBatch := do
  let etag ← Fallible.reads id
  let response ← Fallible.ofExcept ((send (p.request etag)).mapError ("transport: " ++ ·))
  if response.status = 304 then pure ⟨[], none⟩
  else
    Fallible.ofExcept ((classifyStatus response).mapError (·.message))
    Fallible.require (response.body.length ≤ maxResponseBytes) "provider response exceeds bound"
    let items ← Fallible.ofExcept
      (formats.parseRss response.body p.sourceName p.symbols nowMs)
    Fallible.modify fun etag => (response.headers["etag"]?).or etag
    pure ⟨items, none⟩

/-- A provider whose feed has a single page; the cursor of a request is not used. -/
inductive FeedProvider where
  | yahooFinance (p : YahooFinanceNewsProvider)
  | rss (p : RssProvider)

namespace FeedProvider

def providerId : FeedProvider → String
  | yahooFinance _ => "yahoo_finance"
  | rss _ => "rss"

/-- The request, with the entity tag that is kept. -/
def request (etag : Option String) : FeedProvider → HttpRequest
  | yahooFinance p => p.request
  | rss p => p.request etag

/-- The articles of a body, received at a time. -/
def parse (formats : Formats) (body : List UInt8) (nowMs : Int64) :
    FeedProvider → Except String (List NewsItem)
  | yahooFinance p => formats.parseYahoo body p.query nowMs
  | rss p => formats.parseRss body p.sourceName p.symbols nowMs

/-- The entity tag that is kept after a page. -/
def keeps (response : HttpResponse) (etag : Option String) : FeedProvider → Option String
  | yahooFinance _ => etag
  | rss _ => (response.headers["etag"]?).or etag

def fetchPage (formats : Formats) (send : HttpRequest → Except String HttpResponse)
    (nowMs : Int64) : FeedProvider → Fallible (Option String) String ProviderBatch
  | yahooFinance p => Fallible.ofExcept (p.fetchPage formats send nowMs)
  | rss p => p.fetchPage formats send nowMs

end FeedProvider

-- One poll

/-- A text without the slashes at its end. -/
def trimSlashes (s : String) : String :=
  String.ofList (s.toList.reverse.dropWhile (· = '/')).reverse

/-- The canonical form of an article. -/
def normalize (upper : String → String) (providerId : String) (item : NewsItem) :
    Except NewsError NewsItem :=
  if Text.isBlank providerId then .error (.emptyField "provider")
  else
    let normalized := { item with
      provider := Text.trim providerId
      canonicalUrl := trimSlashes (Text.trim item.canonicalUrl)
      title := " ".intercalate (Text.words item.title)
      summaryText := item.summaryText.map fun summary => " ".intercalate (Text.words summary)
      symbols := .ofList ((item.symbols.toList.map fun symbol => upper (Text.trim symbol)).filter
        (· ≠ "")) }
    normalized.validate.map fun _ => normalized

/-- What became of the articles of a page so far. -/
structure Ingestion where
  report : IngestReport
  normalized : List NewsItem
  store : NewsStore

/-- Store one article; a malformed one is only counted. -/
def ingestItem (upper : String → String) (providerId : String) (done : Ingestion)
    (item : NewsItem) : Ingestion :=
  match normalize upper providerId item with
  | .error _ => { done with report.rejected := done.report.rejected + 1 }
  | .ok normalized =>
    let inserted := NewsStore.insert normalized done.store
    { report := match inserted.1 with
        | .ok true => { done.report with accepted := done.report.accepted + 1 }
        | .ok false => { done.report with duplicates := done.report.duplicates + 1 }
        | .error _ => { done.report with rejected := done.report.rejected + 1 }
      normalized := done.normalized ++ [normalized]
      store := inserted.2 }

/-- The progress of a provider: the entity tag it keeps, its cursor, the store, and the articles of
the pages that were committed. -/
structure Progress where
  etag : Option String
  cursor : Option String
  generation : ℕ
  store : NewsStore
  committed : List NewsItem

/-- A poll: the feed of the server, the answers of the server and of the committer, the time and the
greatest number of articles. -/
structure Poll where
  feed : List UInt8
  send : HttpRequest → Except String HttpResponse
  commitPage : String → ℕ → Option String → List NewsItem → Except String Unit
  nowMs : Int64
  maxItems : ℕ

/-- Ingest one page; the cursor moves after the page was committed. -/
def ingestCursorWithCommit (formats : Formats) (provider : FeedProvider) (poll : Poll) :
    Fallible Progress IngestError IngestReport :=
  if poll.maxItems = 0 then pure ⟨0, 0, 0⟩
  else do
    let batch ← Fallible.zoom (·.etag) ({ · with etag := · }) IngestError.provider
      (provider.fetchPage formats poll.send poll.nowMs)
    Fallible.require (batch.items.length ≤ poll.maxItems)
      (.pageTooLarge batch.items.length poll.maxItems)
    let s ← Fallible.reads id
    Fallible.require (¬(batch.items.isEmpty = false ∧ batch.nextCursor = s.cursor)) .cursorStalled
    let done := batch.items.foldl (ingestItem formats.upper provider.providerId)
      ⟨⟨0, 0, 0⟩, [], s.store⟩
    Fallible.modify ({ · with store := done.store })
    Fallible.ofExcept ((poll.commitPage provider.providerId s.generation batch.nextCursor
      done.normalized).mapError .cursorCommit)
    Fallible.modify fun s => { s with
      cursor := batch.nextCursor
      generation := min (s.generation + 1) u64Max
      committed := s.committed ++ done.normalized }
    pure done.report

/-- The progress after a poll. -/
def after (formats : Formats) (provider : FeedProvider) (poll : Poll) (s : Progress) : Progress :=
  (ingestCursorWithCommit formats provider poll s).2

/-- The poll returns a report. -/
def Returns (formats : Formats) (provider : FeedProvider) (poll : Poll) (s : Progress) : Prop :=
  ∃ report, (ingestCursorWithCommit formats provider poll s).1 = .ok report

-- What polls promise

/-- A server that answers that the feed is unchanged to the entity tag of its feed only, and else
with the feed, or with a failure. -/
structure Honest (tag : List UInt8 → Option String) (poll : Poll) : Prop where
  unchanged : ∀ request response, poll.send request = .ok response → response.status = 304 →
    ∃ t, request.headers["if-none-match"]? = some t ∧ tag poll.feed = some t
  full : ∀ request response, poll.send request = .ok response →
    200 ≤ response.status ∧ response.status ≤ 299 →
      response.body = poll.feed ∧ response.headers["etag"]? = tag poll.feed

/-- The articles in canonical form. -/
def canonical (formats : Formats) (provider : FeedProvider) (items : List NewsItem) :
    List NewsItem :=
  items.filterMap fun item => (normalize formats.upper provider.providerId item).toOption

/-- Every article of a feed that is valid at a time was committed, up to its receipt time. -/
def Delivered (formats : Formats) (provider : FeedProvider) (feed : List UInt8) (nowMs : Int64)
    (s : Progress) : Prop :=
  ∀ items, provider.parse formats feed nowMs = .ok items →
    ∀ item ∈ canonical formats provider items, ∃ ms, receivedAt ms item ∈ s.committed

/-- A poll receives a well-formed page with articles. -/
structure Receives (formats : Formats) (provider : FeedProvider) (poll : Poll) (s : Progress)
    (response : HttpResponse) (items : List NewsItem) : Prop where
  asks : poll.maxItems ≠ 0
  answered : poll.send (provider.request s.etag) = .ok response
  success : 200 ≤ response.status ∧ response.status ≤ 299
  bounded : response.body.length ≤ maxResponseBytes
  parsed : provider.parse formats response.body poll.nowMs = .ok items
  articles : items ≠ []

/-- The committer accepts the articles of a page. -/
def Accepts (formats : Formats) (provider : FeedProvider) (poll : Poll) (s : Progress)
    (items : List NewsItem) : Prop :=
  poll.commitPage provider.providerId s.generation none (canonical formats provider items) = .ok ()

/-- **The promise of a poll**: a report means that the articles of the feed were committed, and a
page with articles that the committer accepts is reported. -/
structure Promise (formats : Formats) (provider : FeedProvider) (poll : Poll) (s : Progress) :
    Prop where
  delivers : Returns formats provider poll s →
    Delivered formats provider poll.feed poll.nowMs (after formats provider poll s)
  reports : ∀ response items, Receives formats provider poll s response items →
    Accepts formats provider poll s items → Returns formats provider poll s

/-- **A page is taken**: a page that the committer accepts comes at a cursor and has no more
articles than were asked for, a page whose entity tag is kept is accepted and its articles are not
received before time zero, and no poll asks for nothing while the feed is not delivered. -/
structure Takes (formats : Formats) (provider : FeedProvider) (poll : Poll) (s : Progress) :
    Prop where
  accepted : ∀ response items, Receives formats provider poll s response items →
    Accepts formats provider poll s items → s.cursor ≠ none ∧ items.length ≤ poll.maxItems
  kept : ∀ response items, Receives formats provider poll s response items →
    provider.keeps response s.etag ≠ s.etag →
      Accepts formats provider poll s items ∧ 0 ≤ poll.nowMs
  asks : poll.maxItems = 0 → Delivered formats provider poll.feed poll.nowMs s

variable {formats : Formats} {provider : FeedProvider} {poll : Poll} {s : Progress}
  {tag : List UInt8 → Option String}

-- The page

theorem classifyStatus_of_success {response : HttpResponse}
    (h : 200 ≤ response.status ∧ response.status ≤ 299) : classifyStatus response = .ok () :=
  if_pos h

theorem classifyStatus_of_not_success {response : HttpResponse}
    (h : ¬(200 ≤ response.status ∧ response.status ≤ 299)) :
    ∃ e, classifyStatus response = .error e := by
  unfold classifyStatus
  rw [if_neg h]
  repeat' split
  all_goals exact ⟨_, rfl⟩

/-- What the search provider fetches: nothing, or its page. -/
theorem YahooFinanceNewsProvider.fetchPage_cases (formats : Formats) (p : YahooFinanceNewsProvider)
    (send : HttpRequest → Except String HttpResponse) (nowMs : Int64) :
    ((∃ e, p.fetchPage formats send nowMs = .error e) ∧
      ∀ response, send p.request = .ok response →
        200 ≤ response.status ∧ response.status ≤ 299 →
        response.body.length ≤ maxResponseBytes →
        ∀ items, formats.parseYahoo response.body p.query nowMs ≠ .ok items) ∨
    ∃ response items, send p.request = .ok response ∧
      (200 ≤ response.status ∧ response.status ≤ 299) ∧
      response.body.length ≤ maxResponseBytes ∧
      formats.parseYahoo response.body p.query nowMs = .ok items ∧
      p.fetchPage formats send nowMs = .ok ⟨items, none⟩ := by
  unfold YahooFinanceNewsProvider.fetchPage
  cases hsend : send p.request with
  | error e => exact .inl ⟨⟨_, rfl⟩, fun response hresponse => by cases hresponse⟩
  | ok response =>
    by_cases hstatus : 200 ≤ response.status ∧ response.status ≤ 299
    · by_cases hbound : maxResponseBytes < response.body.length
      · refine .inl ⟨⟨"provider response exceeds bound", ?_⟩, fun r hr _ hle => ?_⟩
        · simp only [Except.mapError, Wire.ok_bind, classifyStatus_of_success hstatus,
            if_pos hbound]
        · cases hr
          omega
      · cases hparse : formats.parseYahoo response.body p.query nowMs with
        | error e =>
          refine .inl ⟨⟨e, ?_⟩, fun r hr _ _ items hitems => ?_⟩
          · simp only [Except.mapError, Wire.ok_bind, classifyStatus_of_success hstatus,
              if_neg hbound, hparse]
            rfl
          · cases hr
            cases hparse.symm.trans hitems
        | ok items =>
          refine .inr ⟨response, items, rfl, hstatus, not_lt.mp hbound, hparse, ?_⟩
          simp only [Except.mapError, Wire.ok_bind, classifyStatus_of_success hstatus,
            if_neg hbound, hparse]
    · obtain ⟨e, he⟩ := classifyStatus_of_not_success hstatus
      refine .inl ⟨⟨e.message, ?_⟩, fun r hr hok => ?_⟩
      · simp only [Except.mapError, Wire.ok_bind, he]
        rfl
      · cases hr
        exact absurd hok hstatus

/-- What the syndication provider fetches: nothing, the news that the feed is unchanged, or its
page. -/
theorem RssProvider.fetchPage_cases (formats : Formats) (p : RssProvider)
    (send : HttpRequest → Except String HttpResponse) (nowMs : Int64) (etag : Option String) :
    ((∃ e, p.fetchPage formats send nowMs etag = (.error e, etag)) ∧
      ∀ response, send (p.request etag) = .ok response →
        200 ≤ response.status ∧ response.status ≤ 299 →
        response.body.length ≤ maxResponseBytes →
        ∀ items, formats.parseRss response.body p.sourceName p.symbols nowMs ≠ .ok items) ∨
    (p.fetchPage formats send nowMs etag = (.ok ⟨[], none⟩, etag) ∧
      ∃ response, send (p.request etag) = .ok response ∧ response.status = 304) ∨
    ∃ response items, send (p.request etag) = .ok response ∧
      (200 ≤ response.status ∧ response.status ≤ 299) ∧
      response.body.length ≤ maxResponseBytes ∧
      formats.parseRss response.body p.sourceName p.symbols nowMs = .ok items ∧
      p.fetchPage formats send nowMs etag =
        (.ok ⟨items, none⟩, (response.headers["etag"]?).or etag) := by
  unfold RssProvider.fetchPage
  rw [reads_bind, id]
  cases hsend : send (p.request etag) with
  | error e => exact .inl ⟨⟨_, rfl⟩, fun response hresponse => by cases hresponse⟩
  | ok response =>
    rw [ofExcept_bind_ok (show (Except.ok response : Except String HttpResponse).mapError
      ("transport: " ++ ·) = .ok response from rfl)]
    by_cases hsame : response.status = 304
    · rw [if_pos hsame]
      exact .inr (.inl ⟨rfl, response, rfl, hsame⟩)
    · rw [if_neg hsame]
      by_cases hstatus : 200 ≤ response.status ∧ response.status ≤ 299
      · rw [classifyStatus_of_success hstatus, ofExcept_bind_ok (show (Except.ok () :
          Except ProviderError Unit).mapError (·.message) = .ok () from rfl), require_bind]
        by_cases hbound : response.body.length ≤ maxResponseBytes
        · rw [if_pos hbound]
          cases hparse : formats.parseRss response.body p.sourceName p.symbols nowMs with
          | error e =>
            refine .inl ⟨⟨e, rfl⟩, fun r hr _ _ items hitems => ?_⟩
            cases hr
            cases hparse.symm.trans hitems
          | ok items => exact .inr (.inr ⟨response, items, rfl, hstatus, hbound, hparse, rfl⟩)
        · rw [if_neg hbound]
          refine .inl ⟨⟨_, rfl⟩, fun r hr _ hle => ?_⟩
          cases hr
          exact absurd hle hbound
      · obtain ⟨e, he⟩ := classifyStatus_of_not_success hstatus
        rw [he]
        refine .inl ⟨⟨e.message, rfl⟩, fun r hr hok => ?_⟩
        cases hr
        exact absurd hok hstatus

namespace FeedProvider

/-- What a provider fetches: nothing, the news that its feed is unchanged, or its page. -/
theorem fetchPage_cases (provider : FeedProvider) (formats : Formats)
    (send : HttpRequest → Except String HttpResponse) (nowMs : Int64) (etag : Option String) :
    ((∃ e, provider.fetchPage formats send nowMs etag = (.error e, etag)) ∧
      ∀ response, send (provider.request etag) = .ok response →
        200 ≤ response.status ∧ response.status ≤ 299 →
        response.body.length ≤ maxResponseBytes →
        ∀ items, provider.parse formats response.body nowMs ≠ .ok items) ∨
    (provider.fetchPage formats send nowMs etag = (.ok ⟨[], none⟩, etag) ∧
      ∃ response, send (provider.request etag) = .ok response ∧ response.status = 304) ∨
    ∃ response items, send (provider.request etag) = .ok response ∧
      (200 ≤ response.status ∧ response.status ≤ 299) ∧
      response.body.length ≤ maxResponseBytes ∧
      provider.parse formats response.body nowMs = .ok items ∧
      provider.fetchPage formats send nowMs etag =
        (.ok ⟨items, none⟩, provider.keeps response etag) := by
  cases provider with
  | rss p => exact p.fetchPage_cases formats send nowMs etag
  | yahooFinance p =>
    obtain ⟨⟨e, he⟩, hnone⟩ | ⟨response, items, hsend, hstatus, hbound, hparse, hpage⟩ :=
      p.fetchPage_cases formats send nowMs
    · exact .inl ⟨⟨e, Prod.ext he rfl⟩, hnone⟩
    · exact .inr (.inr ⟨response, items, hsend, hstatus, hbound, hparse, Prod.ext hpage rfl⟩)

/-- The entity tag that a request is conditional on is the one that is kept. -/
theorem request_ifNoneMatch {etag : Option String} {t : String}
    (h : (provider.request etag).headers["if-none-match"]? = some t) : etag = some t := by
  cases provider with
  | yahooFinance p => simp [request, YahooFinanceNewsProvider.request] at h
  | rss p =>
    cases etag with
    | none => simp [request, RssProvider.request] at h
    | some kept => simpa [request, RssProvider.request] using h

/-- A page leaves the entity tag, or replaces it by its own. -/
theorem keeps_cases (provider : FeedProvider) (response : HttpResponse) (etag : Option String) :
    provider.keeps response etag = etag ∨
      provider.keeps response etag = response.headers["etag"]? := by
  cases provider with
  | yahooFinance p => exact .inl rfl
  | rss p =>
    cases htag : response.headers["etag"]? with
    | none => exact .inl (congrArg (Option.or · etag) htag)
    | some t => exact .inr (congrArg (Option.or · etag) htag)

end FeedProvider

-- One poll

theorem ingestItem_normalized (upper : String → String) (providerId : String) (done : Ingestion)
    (item : NewsItem) :
    (ingestItem upper providerId done item).normalized =
      done.normalized ++ (normalize upper providerId item).toOption.toList := by
  unfold ingestItem
  cases normalize upper providerId item with
  | error e => exact (List.append_nil _).symm
  | ok normalized => rfl

/-- The articles of a page reach the committer in canonical form, in their order. -/
theorem foldl_ingestItem_normalized (upper : String → String) (providerId : String)
    (items : List NewsItem) (done : Ingestion) :
    (items.foldl (ingestItem upper providerId) done).normalized =
      done.normalized ++ items.filterMap fun item =>
        (normalize upper providerId item).toOption := by
  induction items generalizing done with
  | nil => simp
  | cons item items ih =>
    rw [List.foldl_cons, ih, ingestItem_normalized, List.append_assoc, List.filterMap_cons]
    cases (normalize upper providerId item).toOption <;> rfl

/-- A poll that fetches no page leaves the progress as it is. -/
theorem ingest_of_failure (hasks : poll.maxItems ≠ 0) {e : String}
    (hfetch : provider.fetchPage formats poll.send poll.nowMs s.etag = (.error e, s.etag)) :
    ingestCursorWithCommit formats provider poll s = (.error (.provider e), s) := by
  unfold ingestCursorWithCommit
  rw [if_neg hasks]
  exact bind_of_error (by rw [zoom_apply, hfetch]; rfl)

/-- A poll that asks for no article leaves the progress as it is. -/
theorem ingest_of_asks_none (hasks : poll.maxItems = 0) :
    ingestCursorWithCommit formats provider poll s = (.ok ⟨0, 0, 0⟩, s) := by
  unfold ingestCursorWithCommit
  rw [if_pos hasks]
  rfl

/-- **A fetched page** is committed if it is not too long, is empty or comes at a cursor, and is
accepted; else the poll fails, and only the entity tag and the store may have changed. -/
theorem ingest_of_page (hasks : poll.maxItems ≠ 0) {items : List NewsItem} {etag : Option String}
    (hfetch : provider.fetchPage formats poll.send poll.nowMs s.etag = (.ok ⟨items, none⟩, etag)) :
    (items.length ≤ poll.maxItems ∧ (items = [] ∨ s.cursor ≠ none) ∧
      Accepts formats provider poll s items ∧ ∃ report store,
        ingestCursorWithCommit formats provider poll s = (.ok report,
          ⟨etag, none, min (s.generation + 1) u64Max, store,
            s.committed ++ canonical formats provider items⟩)) ∨
    (¬(items.length ≤ poll.maxItems ∧ (items = [] ∨ s.cursor ≠ none) ∧
      Accepts formats provider poll s items) ∧ ∃ e store,
        ingestCursorWithCommit formats provider poll s =
          (.error e, { s with etag := etag, store := store })) := by
  have hbatch : Fallible.zoom (·.etag) ({ · with etag := · }) IngestError.provider
      (provider.fetchPage formats poll.send poll.nowMs) s =
        (.ok ⟨items, none⟩, { s with etag := etag }) := by
    rw [zoom_apply, hfetch]
    rfl
  unfold ingestCursorWithCommit
  rw [if_neg hasks, bind_of_ok hbatch, require_bind]
  by_cases hlength : items.length ≤ poll.maxItems
  · rw [if_pos hlength, reads_bind, id, require_bind]
    by_cases hstalled : items.isEmpty = false ∧ none = s.cursor
    · rw [if_neg (not_not.mpr hstalled)]
      refine .inr ⟨fun h => ?_, _, s.store, rfl⟩
      rcases h.2.1 with rfl | hcursor
      · cases hstalled.1
      · exact hcursor hstalled.2.symm
    · have hnormalized := foldl_ingestItem_normalized formats.upper provider.providerId items
        ⟨⟨0, 0, 0⟩, [], s.store⟩
      rw [if_pos hstalled, modify_bind]
      dsimp only at hnormalized ⊢
      generalize items.foldl (ingestItem formats.upper provider.providerId)
        ⟨⟨0, 0, 0⟩, [], s.store⟩ = done at hnormalized ⊢
      rw [List.nil_append] at hnormalized
      rw [hnormalized]
      cases hcommit : poll.commitPage provider.providerId s.generation none
          (canonical formats provider items) with
      | ok _ =>
        refine .inl ⟨hlength, ?_, hcommit, done.report, done.store,
          ofExcept_bind_ok (mapError_eq_ok.mpr hcommit) _ _⟩
        by_contra hpage
        rw [not_or, not_not] at hpage
        exact hstalled ⟨by simpa using hpage.1, hpage.2.symm⟩
      | error e =>
        refine .inr ⟨fun h => ?_, .cursorCommit e, done.store, bind_of_error ?_⟩
        · cases hcommit.symm.trans h.2.2
        · exact Prod.ext (congrArg (Except.mapError _) hcommit) rfl
  · rw [if_neg hlength]
    exact .inr ⟨fun h => hlength h.1, _, s.store, rfl⟩

-- Deliveries

theorem validate_eq_ok {item : NewsItem} : item.validate = .ok () ↔
    (item.requiredFields.find? (Text.isBlank ·.2.1) = none ∧
      item.requiredFields.find? (fun field => field.2.2 < field.2.1.utf8ByteSize) = none ∧
      NewsItem.validUrl item.canonicalUrl.toList ≠ false ∧
      ¬item.summaryText.any (NewsItem.maxSummaryBytes < ·.utf8ByteSize) ∧
      ¬(NewsItem.maxSymbols < item.symbols.size ∨
        item.symbols.toList.any fun s => s = "" ∨ NewsItem.maxSymbolBytes < s.utf8ByteSize) ∧
      ¬item.publishedAtMs.any (· < 0)) ∧ 0 ≤ item.receivedAtMs := by
  unfold NewsItem.validate
  rw [← Int64.not_lt]
  split
  · simp_all
  split
  · simp_all
  split_ifs <;> tauto

/-- What is valid at one time is valid at every time from zero on. -/
theorem normalize_receivedAt {upper : String → String} {providerId : String} {item n : NewsItem}
    {nowMs : Int64} (h : normalize upper providerId item = .ok n) (hnow : 0 ≤ nowMs) :
    normalize upper providerId (receivedAt nowMs item) = .ok (receivedAt nowMs n) := by
  unfold normalize at h ⊢
  split_ifs at h ⊢ with hblank
  obtain ⟨_, hvalid, rfl⟩ := map_eq_ok.mp h
  exact map_eq_ok.mpr ⟨(), validate_eq_ok.mpr ⟨(validate_eq_ok.mp hvalid).1, hnow⟩, rfl⟩

theorem FeedProvider.parse_receivedAt (formats : Formats) (body : List UInt8) (nowMs : Int64) :
    provider.parse formats body nowMs =
      (provider.parse formats body 0).map (List.map (receivedAt nowMs)) := by
  cases provider with
  | yahooFinance p => exact formats.yahoo_received body p.query nowMs
  | rss p => exact formats.rss_received body p.sourceName p.symbols nowMs

/-- A body that is well formed at one time has the same articles at every time. -/
theorem FeedProvider.parse_eq_ok {body : List UInt8} {nowMs : Int64} {items : List NewsItem}
    (h : provider.parse formats body nowMs = .ok items) :
    ∃ read : List NewsItem, items = read.map (receivedAt nowMs) ∧
      ∀ ms, provider.parse formats body ms = .ok (read.map (receivedAt ms)) := by
  rw [FeedProvider.parse_receivedAt] at h
  cases hread : provider.parse formats body 0 with
  | error e => rw [hread] at h; cases h
  | ok read =>
    rw [hread] at h
    cases h
    exact ⟨read, rfl, fun ms => by rw [FeedProvider.parse_receivedAt, hread]; rfl⟩

theorem Delivered.mono {feed : List UInt8} {nowMs : Int64} {s' : Progress}
    (h : Delivered formats provider feed nowMs s) (hsub : s.committed ⊆ s'.committed) :
    Delivered formats provider feed nowMs s' := by
  intro items hparse item hitem
  obtain ⟨ms, hms⟩ := h items hparse item hitem
  exact ⟨ms, hsub hms⟩

/-- A committed page is delivered at its own time. -/
theorem delivered_of_committed {feed : List UInt8} {nowMs : Int64} {items : List NewsItem}
    (hparse : provider.parse formats feed nowMs = .ok items)
    (hsub : canonical formats provider items ⊆ s.committed) :
    Delivered formats provider feed nowMs s := by
  intro items' hparse' item hitem
  cases hparse.symm.trans hparse'
  exact ⟨item.receivedAtMs, hsub hitem⟩

/-- A page that was committed at a time from zero on is delivered at every time. -/
theorem delivered_of_committed_at {feed : List UInt8} {nowMs : Int64} {items : List NewsItem}
    (hparse : provider.parse formats feed nowMs = .ok items) (hnow : 0 ≤ nowMs)
    (hsub : canonical formats provider items ⊆ s.committed) (nowMs' : Int64) :
    Delivered formats provider feed nowMs' s := by
  obtain ⟨read, rfl, hat⟩ := FeedProvider.parse_eq_ok hparse
  intro items hitems item hitem
  cases (hat nowMs').symm.trans hitems
  obtain ⟨_, hread, hnormalize⟩ := List.mem_filterMap.mp hitem
  obtain ⟨raw, hraw, rfl⟩ := List.mem_map.mp hread
  have hvalid := normalize_receivedAt (toOption_eq_some.mp hnormalize) hnow
  exact ⟨nowMs, hsub (List.mem_filterMap.mpr
    ⟨_, List.mem_map_of_mem hraw, toOption_eq_some.mpr hvalid⟩)⟩

/-- A page without articles is delivered at every time. -/
theorem delivered_of_empty {feed : List UInt8} {nowMs : Int64}
    (hparse : provider.parse formats feed nowMs = .ok []) (nowMs' : Int64) :
    Delivered formats provider feed nowMs' s := by
  obtain ⟨read, hread, hat⟩ := FeedProvider.parse_eq_ok hparse
  cases List.map_eq_nil_iff.mp hread.symm
  exact delivered_of_committed (hat nowMs') (List.nil_subset _)

/-- The feed that the kept entity tag stands for was delivered, at every time. -/
def Kept (formats : Formats) (provider : FeedProvider) (tag : List UInt8 → Option String)
    (s : Progress) : Prop :=
  ∀ feed t, s.etag = some t → tag feed = some t →
    ∀ nowMs, Delivered formats provider feed nowMs s

theorem Kept.mono {s' : Progress} (h : Kept formats provider tag s) (hetag : s'.etag = s.etag)
    (hsub : s.committed ⊆ s'.committed) : Kept formats provider tag s' :=
  fun feed t hkept hfeed nowMs => (h feed t (hetag ▸ hkept) hfeed nowMs).mono hsub

/-- A page keeps the entity tags of delivered feeds if its own feed is delivered when its tag is
new. -/
theorem Kept.page {s' : Progress} {response : HttpResponse} {feed : List UInt8}
    (htag : ∀ b b' t, tag b = some t → tag b' = some t → b = b')
    (h : Kept formats provider tag s) (hheader : response.headers["etag"]? = tag feed)
    (hetag : s'.etag = provider.keeps response s.etag) (hsub : s.committed ⊆ s'.committed)
    (hdelivered : provider.keeps response s.etag ≠ s.etag →
      ∀ nowMs, Delivered formats provider feed nowMs s') : Kept formats provider tag s' := by
  by_cases hsame : provider.keeps response s.etag = s.etag
  · exact h.mono (hetag.trans hsame) hsub
  · intro feed' t hkept hfeed'
    have hown := (provider.keeps_cases response s.etag).resolve_left hsame
    have hfeed : tag feed = some t := by rw [← hheader, ← hown, ← hetag, hkept]
    exact htag feed feed' t hfeed hfeed' ▸ hdelivered hsame

/-- A poll that fails returns no report. -/
theorem not_returns_of_error {e : IngestError}
    (h : (ingestCursorWithCommit formats provider poll s).1 = .error e) :
    ¬Returns formats provider poll s := by
  rintro ⟨report, hreport⟩
  cases h.symm.trans hreport

/-- **One poll** of an honest server that takes the page it receives keeps its promise, and the
entity tag that is kept afterwards is of a delivered feed. -/
theorem polls_step (htag : ∀ b b' t, tag b = some t → tag b' = some t → b = b')
    (hhonest : Honest tag poll) (hkept : Kept formats provider tag s)
    (htakes : Takes formats provider poll s) :
    Kept formats provider tag (after formats provider poll s) ∧
      Promise formats provider poll s := by
  by_cases hasks : poll.maxItems = 0
  · have hafter : after formats provider poll s = s := congrArg Prod.snd (ingest_of_asks_none hasks)
    rw [hafter]
    refine ⟨hkept, fun _ => ?_, fun response items hreceives _ => ?_⟩
    · rw [hafter]
      exact htakes.asks hasks
    · exact absurd hasks hreceives.asks
  obtain ⟨⟨e, hfetch⟩, hnone⟩ | ⟨hfetch, response, hsend, hunchanged⟩ |
      ⟨response, items, hsend, hstatus, hbound, hparse, hfetch⟩ :=
    provider.fetchPage_cases formats poll.send poll.nowMs s.etag
  · -- Nothing was fetched, and there was no page to fetch.
    have hpoll := ingest_of_failure hasks hfetch
    rw [after, hpoll]
    refine ⟨hkept, fun hreturns => ?_, fun response items hreceives _ => ?_⟩
    · exact absurd hreturns (not_returns_of_error (congrArg Prod.fst hpoll))
    · exact absurd hreceives.parsed
        (hnone response hreceives.answered hreceives.success hreceives.bounded items)
  · -- The feed is the one whose entity tag is kept.
    obtain ⟨t, hrequest, hfeed⟩ := hhonest.unchanged _ _ hsend hunchanged
    have hdelivered := hkept poll.feed t (FeedProvider.request_ifNoneMatch hrequest) hfeed
    have hafter : (after formats provider poll s).etag = s.etag ∧
        s.committed ⊆ (after formats provider poll s).committed := by
      obtain ⟨_, _, _, report, store, hpoll⟩ | ⟨_, e, store, hpoll⟩ := ingest_of_page hasks hfetch
      · rw [after, hpoll]
        exact ⟨rfl, List.subset_append_left _ _⟩
      · rw [after, hpoll]
        exact ⟨rfl, List.Subset.refl _⟩
    refine ⟨hkept.mono hafter.1 hafter.2, fun _ => (hdelivered poll.nowMs).mono hafter.2,
      fun response' items hreceives _ => ?_⟩
    have hsuccess := hreceives.success
    cases hsend.symm.trans hreceives.answered
    omega
  · -- A page was fetched.
    obtain ⟨hbody, hheader⟩ := hhonest.full _ _ hsend hstatus
    have hfeed : provider.parse formats poll.feed poll.nowMs = .ok items := hbody ▸ hparse
    obtain ⟨_, _, _, report, store, hpoll⟩ | ⟨hrefused, e, store, hpoll⟩ :=
      ingest_of_page hasks hfetch
    · have hcommitted : canonical formats provider items ⊆
          (after formats provider poll s).committed := by
        rw [after, hpoll]
        exact List.subset_append_right _ _
      refine ⟨hkept.page htag hheader ?_ ?_ fun hnew => ?_,
        fun _ => delivered_of_committed hfeed hcommitted,
        fun _ _ _ _ => ⟨report, congrArg Prod.fst hpoll⟩⟩
      · rw [after, hpoll]
      · rw [after, hpoll]
        exact List.subset_append_left _ _
      · by_cases hempty : items = []
        · exact delivered_of_empty (hempty ▸ hfeed)
        · exact delivered_of_committed_at hfeed (htakes.kept response items
            ⟨hasks, hsend, hstatus, hbound, hparse, hempty⟩ hnew).2 hcommitted
    · have hfails := not_returns_of_error (congrArg Prod.fst hpoll)
      refine ⟨hkept.page htag hheader ?_ ?_ fun hnew => ?_,
        fun hreturns => absurd hreturns hfails, fun response' items' hreceives haccepts => ?_⟩
      · rw [after, hpoll]
      · rw [after, hpoll]
        exact List.Subset.refl _
      · by_cases hempty : items = []
        · exact delivered_of_empty (hempty ▸ hfeed)
        · have hreceives : Receives formats provider poll s response items :=
            ⟨hasks, hsend, hstatus, hbound, hparse, hempty⟩
          have haccepts := (htakes.kept response items hreceives hnew).1
          obtain ⟨hcursor, hlength⟩ := htakes.accepted response items hreceives haccepts
          exact absurd ⟨hlength, .inr hcursor, haccepts⟩ hrefused
      · have htaken := htakes.accepted response' items' hreceives haccepts
        cases hsend.symm.trans hreceives.answered
        cases hparse.symm.trans hreceives.parsed
        exact absurd ⟨htaken.2, .inr htaken.1, haccepts⟩ hrefused

/-- **No article is lost** by the polls of an honest server that take the pages they receive, of a
provider that has read no feed before. -/
theorem polls_deliver (formats : Formats) (provider : FeedProvider)
    (tag : List UInt8 → Option String)
    (htag : ∀ b b' t, tag b = some t → tag b' = some t → b = b') (s : Progress)
    (hs : s.etag = none) (polls : List Poll) (hhonest : ∀ poll ∈ polls, Honest tag poll)
    (htakes : ∀ c ∈ Runs.calls (after formats provider) s polls,
      Takes formats provider c.2 c.1) :
    ∀ c ∈ Runs.calls (after formats provider) s polls, Promise formats provider c.2 c.1 := by
  have hstart : Kept formats provider tag s := by
    intro feed t hkept
    cases hs.symm.trans hkept
  exact (Runs.states_calls_of_step (A := fun poll _ => Honest tag poll)
    (fun poll s hhonest hkept htakes => polls_step htag hhonest hkept htakes) hstart
    (fun c hc => hhonest c.2 (Runs.mem_of_mem_calls hc)) htakes).2

-- One article

namespace Sample

/-- A feed with one article. -/
def rssBody : List UInt8 := Wire.utf8
  ("<rss><channel><item><title>AAPL rises</title>" ++
    "<link>https://example.test/item</link></item></channel></rss>")

/-- The article of the feed. -/
def rssArticle : NewsItem :=
  ⟨"540bbd1843db6538", "rss", "https://example.test/item", "Wire", "AAPL rises", none, none, 0,
    .ofList ["AAPL"], "18042b05c5b5301d"⟩

/-- The formats, on that feed. -/
def rssFormats : Formats where
  parseYahoo _ _ _ := .error "Yahoo news array missing"
  parseRss body _ _ nowMs := .ok (if body = rssBody then [receivedAt nowMs rssArticle] else [])
  upper := String.toUpper
  yahoo_received _ _ _ := rfl
  rss_received body _ _ nowMs := by
    split <;> rfl

/-- The provider of the feed. -/
def rssFeed : FeedProvider :=
  .rss ⟨"https://feed.example.test/rss", "Wire", .ofList ["AAPL"]⟩

/-- The entity tag of the feed. -/
def rssTag (body : List UInt8) : Option String := if body = rssBody then some "v1" else none

/-- The answer of the server of the feed. -/
def rssServer (request : HttpRequest) : HttpResponse :=
  if request.headers["if-none-match"]? = some "v1" then ⟨304, Std.TreeMap.empty, []⟩
  else ⟨200, Std.TreeMap.empty.insert "etag" "v1", rssBody⟩

/-- A poll whose articles are committed. -/
def rssPoll : Poll where
  feed := rssBody
  send request := .ok (rssServer request)
  commitPage _ _ _ _ := .ok ()
  nowMs := 1000
  maxItems := 10

/-- No feed was read, at a cursor. -/
def unread (cursor : Option String) : Progress := ⟨none, cursor, 0, .withCapacity 8, []⟩

/-- The server names its feed by an entity tag. -/
theorem rssTag_injective (b b' : List UInt8) (t : String) (hb : rssTag b = some t)
    (hb' : rssTag b' = some t) : b = b' := by
  unfold rssTag at hb hb'
  split_ifs at hb hb' with h h'
  exact h.trans h'.symm

theorem rssServer_cases (request : HttpRequest) :
    (request.headers["if-none-match"]? = some "v1" ∧
      rssServer request = ⟨304, Std.TreeMap.empty, []⟩) ∨
    rssServer request = ⟨200, Std.TreeMap.empty.insert "etag" "v1", rssBody⟩ := by
  by_cases h : request.headers["if-none-match"]? = some "v1"
  · exact .inl ⟨h, if_pos h⟩
  · exact .inr (if_neg h)

/-- The server is honest. -/
theorem honest_rssPoll : Honest rssTag rssPoll where
  unchanged request response hsend hstatus := by
    cases hsend
    obtain ⟨h, _⟩ | h := rssServer_cases request
    · exact ⟨"v1", h, if_pos rfl⟩
    · rw [h] at hstatus
      cases hstatus
  full request response hsend hstatus := by
    cases hsend
    obtain ⟨_, h⟩ | h := rssServer_cases request
    · rw [h] at hstatus
      exact absurd hstatus.2 (by decide)
    · rw [h]
      exact ⟨rfl, by decide +kernel⟩

/-- The page is taken at a cursor; once its tag is kept, the server answers that it is unchanged. -/
theorem takes_rssPoll {s : Progress} (h : s.etag = some "v1" ∨ s.cursor ≠ none) :
    Takes rssFormats rssFeed rssPoll s where
  accepted response items hreceives _ := by
    obtain ⟨_, hanswered, hsuccess, _, hparsed, _⟩ := hreceives
    cases hanswered
    cases hparsed
    rcases h with hetag | hcursor
    · have hunchanged : rssServer (rssFeed.request (some "v1")) = ⟨304, Std.TreeMap.empty, []⟩ :=
        if_pos (by decide +kernel)
      rw [hetag, hunchanged] at hsuccess
      exact absurd hsuccess.2 (by decide)
    · refine ⟨hcursor, ?_⟩
      split <;> decide
  kept _ _ _ _ := ⟨rfl, by decide⟩
  asks hasks := absurd hasks (by decide)

end Sample

open Sample

/-- Two polls from a cursor: the article is committed, and then the feed is unchanged. -/
theorem polls_deliver_one :
    (Runs.final (after rssFormats rssFeed) (unread (some "page-1"))
      [rssPoll, rssPoll]).committed.length = 1 ∧
    ∀ c ∈ Runs.calls (after rssFormats rssFeed) (unread (some "page-1")) [rssPoll, rssPoll],
      Promise rssFormats rssFeed c.2 c.1 := by
  refine ⟨by decide +kernel, polls_deliver rssFormats rssFeed rssTag rssTag_injective
    (unread (some "page-1")) rfl [rssPoll, rssPoll] (fun poll hpoll => ?_) fun c hc => ?_⟩
  · simp only [List.mem_cons, List.not_mem_nil, or_false, or_self] at hpoll
    exact hpoll ▸ honest_rssPoll
  · simp only [Runs.calls, List.mem_cons, List.not_mem_nil, or_false] at hc
    rcases hc with rfl | rfl
    · exact takes_rssPoll (.inr (by decide))
    · exact takes_rssPoll (.inl (by decide))

/-- Two polls without a cursor: the article is not committed although the committer accepts it, and
then the feed is unchanged. -/
theorem polls_lose_article :
    (∀ b b' t, rssTag b = some t → rssTag b' = some t → b = b') ∧ Honest rssTag rssPoll ∧
      ∀ c ∈ Runs.calls (after rssFormats rssFeed) (unread none) [rssPoll, rssPoll],
        ¬Promise rssFormats rssFeed c.2 c.1 := by
  refine ⟨rssTag_injective, honest_rssPoll, List.forall_mem_cons.mpr ⟨fun hpromise => ?_,
    List.forall_mem_singleton.mpr fun hpromise => ?_⟩⟩
  · obtain ⟨report, hreport⟩ := hpromise.reports
      ⟨200, Std.TreeMap.empty.insert "etag" "v1", rssBody⟩ [receivedAt 1000 rssArticle]
      ⟨by decide, congrArg Except.ok (if_neg (by decide)), by decide, by decide,
        congrArg Except.ok (if_pos rfl), List.cons_ne_nil _ _⟩ rfl
    have hstalled : (ingestCursorWithCommit rssFormats rssFeed rssPoll (unread none)).1.isOk =
        false := by decide
    rw [hreport] at hstalled
    cases hstalled
  · have hreturns : Returns rssFormats rssFeed rssPoll
        (after rssFormats rssFeed rssPoll (unread none)) :=
      ⟨⟨0, 0, 0⟩, toOption_eq_some.mp (by decide +kernel)⟩
    have hcanonical : (canonical rssFormats rssFeed [receivedAt 1000 rssArticle]).isEmpty =
        false := by
      decide +kernel
    obtain ⟨item, hitem⟩ := List.exists_mem_of_ne_nil (canonical rssFormats rssFeed
      [receivedAt 1000 rssArticle]) (fun hempty => by rw [hempty] at hcanonical; cases hcanonical)
    obtain ⟨ms, hms⟩ := hpromise.delivers hreturns [receivedAt 1000 rssArticle]
      (congrArg Except.ok (if_pos rfl)) item hitem
    have hcommitted : (after rssFormats rssFeed rssPoll (after rssFormats rssFeed rssPoll
        (unread none))).committed.length = 0 := by decide
    rw [List.length_eq_zero_iff.mp hcommitted] at hms
    cases hms

end NewsProviders

end InsiderTrader
