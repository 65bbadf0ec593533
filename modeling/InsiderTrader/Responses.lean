import InsiderTrader.Library.Text
import InsiderTrader.Llm
import InsiderTrader.WireFields

/-!
# Responses of the control plane

The engine encodes the answer of a query, and the terminal decodes it into a
view: the registries of strategies and metrics, the alerts, the hits of a
context search, news and the answers of a language model. Each response starts
with a mark of its own. The views keep what the terminal displays; a relevance
stays in basis points.

## Main definitions

- `Terminal.StrategyRegistryRecord`, ..., `Terminal.NewsDetail` — what the engine encodes
- `Terminal.StrategyView`, ..., `Terminal.AnalystView` — what the terminal decodes
- `Terminal.encodeNewsPage`, `Terminal.decodeNews`, ... — the two sides of each response
-/

namespace InsiderTrader

namespace Terminal

open Wire

/-- Read all of a response after its mark. -/
def afterMagic {α : Type} (magic : String) (r : Reader α) (bytes : List UInt8) : Except String α :=
  Wire.Reader.complete (utf8 magic) "unexpected engine response" "trailing engine response bytes"
    r bytes

theorem afterMagic_eq {α : Type} {magic : String} {r : Reader α} {bytes : List UInt8}
    {o : Except String α} (h : Reads r bytes o) : afterMagic magic r (utf8 magic ++ bytes) = o :=
  complete_eq h

theorem afterMagic_eq_ok {α : Type} {magic : String} {r : Reader α} {bytes : List UInt8} {a : α}
    (h : afterMagic magic r (utf8 magic ++ bytes) = .ok a) : r bytes = .ok (a, []) :=
  Wire.Reader.complete_eq_ok h

-- Registries and alerts

/-- An installed strategy. -/
structure StrategyRegistryRecord where
  strategyId : String
  mode : String
  metricIds : List String
  dependencies : List String
  horizonNs : UInt64
  ttlNs : UInt64
  periodNs : UInt64
  deadlineNs : UInt64
  priority : String
  state : String
  lifecycle : String
  lifecycleEvidenceRef : String

/-- A strategy as the terminal shows it. -/
structure StrategyView where
  id : String
  mode : String
  state : String
  lifecycle : String
  priority : String
  metrics : List String

def encodeStrategyRegistryRecord (record : StrategyRegistryRecord) : List UInt8 :=
  [pushString record.strategyId, pushString record.mode, pushString record.state,
    pushString record.lifecycle, pushString record.lifecycleEvidenceRef,
    pushString record.priority, le64 record.horizonNs, le64 record.ttlNs, le64 record.periodNs,
    le64 record.deadlineNs, listBytes pushString record.metricIds,
    listBytes pushString record.dependencies].flatten

def encodeStrategyRegistryListResponse (records : List StrategyRegistryRecord) : List UInt8 :=
  utf8 "IT_CMD_STRATEGY_REGISTRY_LIST_RESPONSE_V1\x00" ++
    listBytes encodeStrategyRegistryRecord records

def strategyView : Reader StrategyView := do
  let id ← string
  let mode ← string
  let state ← string
  let lifecycle ← string
  let _evidence ← string
  let priority ← string
  let _ ← u64
  let _ ← u64
  let _ ← u64
  let _ ← u64
  let metrics ← collection 4096 string
  let _ ← collection 4096 string
  pure ⟨id, mode, state, lifecycle, priority, metrics⟩

def decodeStrategies : List UInt8 → Except String (List StrategyView) :=
  afterMagic "IT_CMD_STRATEGY_REGISTRY_LIST_RESPONSE_V1\x00" (collection 4096 strategyView)

/-- An installed metric. -/
structure MetricRegistryRecord where
  metricId : String
  state : String
  lifecycle : String
  inputs : List String
  minScore : Option FloatBits
  maxScore : Option FloatBits
  ttlNs : UInt64
  periodNs : UInt64
  deadlineNs : UInt64
  budgetNs : UInt64
  priority : String

/-- A metric as the terminal shows it. -/
structure MetricView where
  id : String
  state : String
  lifecycle : String
  priority : String
  periodNs : UInt64
  deadlineNs : UInt64
  inputs : List String

def encodeMetricRegistryRecord (record : MetricRegistryRecord) : List UInt8 :=
  [pushString record.metricId, pushString record.state, pushString record.lifecycle,
    pushString record.priority, le64 record.ttlNs, le64 record.periodNs, le64 record.deadlineNs,
    le64 record.budgetNs, flag record.minScore.isSome, le64 (record.minScore.getD 0),
    flag record.maxScore.isSome, le64 (record.maxScore.getD 0),
    listBytes pushString record.inputs].flatten

def encodeMetricRegistryListResponse (records : List MetricRegistryRecord) : List UInt8 :=
  utf8 "IT_CMD_METRIC_REGISTRY_LIST_RESPONSE_V1\x00" ++
    listBytes encodeMetricRegistryRecord records

def metricView : Reader MetricView := do
  let id ← string
  let state ← string
  let lifecycle ← string
  let priority ← string
  let _ttl ← u64
  let periodNs ← u64
  let deadlineNs ← u64
  let _budget ← u64
  let _ ← u8
  let _ ← f64
  let _ ← u8
  let _ ← f64
  let inputs ← collection 4096 string
  pure ⟨id, state, lifecycle, priority, periodNs, deadlineNs, inputs⟩

def decodeMetrics : List UInt8 → Except String (List MetricView) :=
  afterMagic "IT_CMD_METRIC_REGISTRY_LIST_RESPONSE_V1\x00" (collection 4096 metricView)

/-- An alert of the history. -/
structure AlertRecord where
  alertId : String
  dedupeKey : String
  source : String
  occurredMs : Int64
  severity : UInt8
  message : String
  sensitive : Bool

/-- An alert as the terminal shows it. -/
structure AlertView where
  id : String
  source : String
  occurredMs : Int64
  severity : UInt8
  message : String

def encodeAlertRecord (alert : AlertRecord) : List UInt8 :=
  [pushString alert.alertId, pushString alert.dedupeKey, pushString alert.source,
    leI64 alert.occurredMs, [alert.severity], flag alert.sensitive,
    pushString alert.message].flatten

def encodeAlertsResponse (alerts : List AlertRecord) : List UInt8 :=
  utf8 "IT_CMD_ALERTS_RESPONSE_V1\x00" ++ listBytes encodeAlertRecord alerts

def alertView : Reader AlertView := do
  let id ← string
  let _dedupe ← string
  let source ← string
  let occurredMs ← i64
  let severity ← u8
  let _sensitive ← u8
  let message ← string
  pure ⟨id, source, occurredMs, severity, message⟩

def decodeAlerts : List UInt8 → Except String (List AlertView) :=
  afterMagic "IT_CMD_ALERTS_RESPONSE_V1\x00" (collection 4096 alertView)

-- Context search

/-- A node that a context search found. -/
structure RetrievalHit where
  nodeId : String
  score : FloatBits
  exactScore : FloatBits
  lexicalScore : FloatBits
  vectorScore : FloatBits
  evidencePath : List String

/-- A hit as the terminal shows it: all of it. -/
abbrev ContextHitView : Type := RetrievalHit

def encodeRetrievalHit (hit : RetrievalHit) : List UInt8 :=
  [pushString hit.nodeId, le64 hit.score, le64 hit.exactScore, le64 hit.lexicalScore,
    le64 hit.vectorScore,
    shortListBytes pushString hit.evidencePath.length (hit.evidencePath.take 32)].flatten

def encodeContextSearchResponse (hits : List RetrievalHit) : List UInt8 :=
  utf8 "IT_CMD_CONTEXT_SEARCH_RESPONSE_V1\x00" ++
    shortListBytes encodeRetrievalHit hits.length (hits.take 256)

def contextHitView : Reader ContextHitView := do
  let nodeId ← string
  let score ← f64
  let exactScore ← f64
  let lexicalScore ← f64
  let vectorScore ← f64
  let evidencePath ← shortCollection 32 "context evidence path exceeds bound" string
  pure ⟨nodeId, score, exactScore, lexicalScore, vectorScore, evidencePath⟩

def decodeContextHits : List UInt8 → Except String (List ContextHitView) :=
  afterMagic "IT_CMD_CONTEXT_SEARCH_RESPONSE_V1\x00"
    (shortCollection 256 "too many context search hits" contextHitView)

-- Language model

/-- An answer as the terminal shows it. -/
structure AnalystView where
  traceId : String
  finishReason : String
  content : String

def encodeLlmResponse (response : LlmResponse) : List UInt8 :=
  utf8 "IT_CMD_LLM_COMPLETE_RESPONSE_V1\x00" ++
    [pushString response.traceId, pushString response.finishReason,
      pushString response.content].flatten

def encodeStreamItem : StreamItem → List UInt8
  | .delta text => [[1], pushString text].flatten
  | .done finishReason => [[2], pushString finishReason].flatten

def encodeLlmStreamResponse (traceId : String) (items : List StreamItem) : List UInt8 :=
  utf8 "IT_CMD_LLM_STREAM_RESPONSE_V1\x00" ++
    [pushString traceId, listBytes encodeStreamItem (items.take 4096)].flatten

def analystView : Reader AnalystView := do
  let traceId ← string
  let finishReason ← string
  let content ← string
  Wire.Reader.require (¬(Text.isBlank traceId ∨ Text.isBlank content))
    "analyst response is empty or missing trace identity"
  pure ⟨traceId, finishReason, content⟩

/-- The greatest length of a streamed answer. -/
def maxContentBytes : ℕ := 1048576

/-- Read items of a stream into its content and its finish reason. -/
def streamItems : ℕ → String → Option String → Reader (String × Option String)
  | 0, content, finishReason => pure (content, finishReason)
  | n + 1, content, finishReason => do
    let tag ← u8
    if tag = 1 ∧ finishReason.isNone then do
      let delta ← string
      Wire.Reader.require ((utf8 content).length + (utf8 delta).length ≤ maxContentBytes)
        "analyst stream content exceeds 1 MiB bound"
      streamItems n (content ++ delta) finishReason
    else if tag = 2 ∧ finishReason.isNone then do
      let reason ← string
      streamItems n content (some reason)
    else if tag = 1 ∨ tag = 2 then
      Wire.Reader.fail "analyst stream contains data after completion"
    else Wire.Reader.fail "invalid analyst stream item"

def analystStream : Reader (String × String × Option String) := do
  let traceId ← string
  Wire.Reader.require (¬Text.isBlank traceId) "analyst stream is missing trace identity"
  let length ← count 4096
  let items ← streamItems length "" none
  pure (traceId, items)

/-- The view of a stream, once all of it is read. -/
def finishStream (traceId content : String) : Option String → Except String AnalystView
  | none => .error "analyst stream has no completion marker"
  | some finishReason =>
    if Text.isBlank content then .error "analyst stream response is empty"
    else .ok ⟨traceId, finishReason, content⟩

def decodeAnalystStream (bytes : List UInt8) : Except String AnalystView := do
  let read ← afterMagic "IT_CMD_LLM_STREAM_RESPONSE_V1\x00" analystStream bytes
  finishStream read.1 read.2.1 read.2.2

def decodeAnalyst (bytes : List UInt8) : Except String AnalystView :=
  if (utf8 "IT_CMD_LLM_STREAM_RESPONSE_V1\x00").isPrefixOf bytes then decodeAnalystStream bytes
  else afterMagic "IT_CMD_LLM_COMPLETE_RESPONSE_V1\x00" analystView bytes

-- News

/-- An article. -/
structure NewsItem where
  id : String
  provider : String
  canonicalUrl : String
  sourceName : String
  title : String
  summaryText : Option String
  publishedAtMs : Option Int64
  receivedAtMs : Int64
  symbols : Std.TreeSet String
  contentHash : String

/-- A page of the feed. -/
structure NewsPage where
  items : List NewsItem
  nextCursor : Option String
  relevanceScoresBps : Std.TreeMap String UInt16

/-- An article with its versions and its cluster. -/
structure NewsDetail where
  current : NewsItem
  versions : List NewsItem
  clusterId : String
  relatedItemIds : List String

/-- A news item as the terminal shows it. -/
structure NewsView where
  id : String
  title : String
  source : String
  url : String
  receivedMs : Int64
  symbols : List String
  relevanceBps : UInt16

/-- A version of an article as the terminal shows it. -/
structure NewsItemDetailView where
  id : String
  provider : String
  url : String
  source : String
  title : String
  summary : Option String
  publishedMs : Option Int64
  receivedMs : Int64
  symbols : List String
  contentHash : String

/-- An article as the terminal shows it. -/
structure NewsDetailView where
  current : NewsItemDetailView
  versions : List NewsItemDetailView
  clusterId : String
  relatedItemIds : List String

def encodeNewsItem (page : NewsPage) (item : NewsItem) : List UInt8 :=
  [pushString item.id, pushString item.title, pushString item.sourceName,
    pushString item.canonicalUrl, leI64 (item.publishedAtMs.getD 0), leI64 item.receivedAtMs,
    shortListBytes pushString item.symbols.toList.length item.symbols.toList,
    le16 (page.relevanceScoresBps[item.id]?.getD 0)].flatten

def encodeNewsPage (page : NewsPage) : List UInt8 :=
  utf8 "IT_CMD_NEWS_PAGE_V2\x00" ++
    [listBytes (encodeNewsItem page) page.items, pushString (page.nextCursor.getD "")].flatten

def newsView (v2 : Bool) : Reader NewsView := do
  let id ← string
  let title ← string
  let source ← string
  let url ← string
  let _published ← i64
  let receivedMs ← i64
  let symbols ← shortCollection 1024 "too many news symbols" string
  let relevanceBps ← if v2 then u16 else pure 0
  pure ⟨id, title, source, url, receivedMs, symbols, relevanceBps⟩

def newsPage (v2 : Bool) : Reader (List NewsView × Option String) := do
  let values ← collection 500 (newsView v2)
  let next ← string
  pure (values, if next = "" then none else some next)

def decodeNews (bytes : List UInt8) : Except String (List NewsView × Option String) :=
  if (utf8 "IT_CMD_NEWS_PAGE_V2\x00").isPrefixOf bytes then
    afterMagic "IT_CMD_NEWS_PAGE_V2\x00" (newsPage true) bytes
  else if (utf8 "IT_CMD_NEWS_PAGE_RESPONSE_V2\x00").isPrefixOf bytes then
    afterMagic "IT_CMD_NEWS_PAGE_RESPONSE_V2\x00" (newsPage true) bytes
  else afterMagic "IT_CMD_NEWS_PAGE_RESPONSE_V1\x00" (newsPage false) bytes

def encodeNewsItemDetail (item : NewsItem) : List UInt8 :=
  [pushString item.id, pushString item.provider, pushString item.canonicalUrl,
    pushString item.sourceName, pushString item.title,
    [flag item.summaryText.isSome, pushString (item.summaryText.getD "")].flatten,
    optionBytes leI64 0 item.publishedAtMs, leI64 item.receivedAtMs,
    shortListBytes pushString item.symbols.toList.length item.symbols.toList,
    pushString item.contentHash].flatten

def encodeNewsDetail : Option NewsDetail → List UInt8
  | none => utf8 "IT_CMD_NEWS_DETAIL_V1\x00" ++ flag false
  | some detail => utf8 "IT_CMD_NEWS_DETAIL_V1\x00" ++
    [flag true, encodeNewsItemDetail detail.current,
      shortListBytes encodeNewsItemDetail detail.versions.length detail.versions,
      pushString detail.clusterId,
      shortListBytes pushString detail.relatedItemIds.length detail.relatedItemIds].flatten

def newsSummary : Reader (Option String) := do
  let marker ← u8
  if marker = 0 then do
    let empty ← string
    Wire.Reader.require (empty = "") "absent news summary contains data"
    pure none
  else if marker = 1 then do
    let summary ← string
    pure (some summary)
  else Wire.Reader.fail "invalid news summary marker"

def newsItemDetail : Reader NewsItemDetailView := do
  let id ← string
  let provider ← string
  let url ← string
  let source ← string
  let title ← string
  let summary ← newsSummary
  let publishedMs ← optionalOf i64
  let receivedMs ← i64
  let symbols ← shortCollection 1024 "too many news detail symbols" string
  let contentHash ← string
  pure ⟨id, provider, url, source, title, summary, publishedMs, receivedMs, symbols, contentHash⟩

def newsDetailView : Reader (Option NewsDetailView) := do
  let marker ← u8
  if marker = 0 then pure none
  else if marker = 1 then do
    let current ← newsItemDetail
    let versions ← shortCollection 1024 "too many retained news versions" newsItemDetail
    let clusterId ← string
    let relatedItemIds ← shortCollection 1024 "too many related news items" string
    pure (some ⟨current, versions, clusterId, relatedItemIds⟩)
  else Wire.Reader.fail "invalid news detail marker"

def decodeNewsDetail : List UInt8 → Except String (Option NewsDetailView) :=
  afterMagic "IT_CMD_NEWS_DETAIL_V1\x00" newsDetailView

end Terminal

end InsiderTrader
