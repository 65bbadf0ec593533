import InsiderTrader.AnswerReading
import InsiderTrader.NewsReading

/-!
# Which responses the terminal can read

Each kind of response has an encoder in the engine and a decoder in the
terminal. A response is read back when the decoder returns its own texts and
counts. The length of a text has 16 bits on the wire and a longer text is cut,
although the domain admits longer ones; the decoders have bounds of their own.

## Main definitions

- `Terminal.EngineResponse` — the responses of the queries
- `Terminal.EngineResponse.ReadBack` — the terminal decodes the response itself
- `Terminal.EngineResponse.Readable` — its texts, lists and numbers fit

## Main results

- `Terminal.read_back_iff_readable` — a response is read back exactly when it is readable
-/

namespace InsiderTrader

namespace Terminal

open Wire

/-- The answer of a query, before it is encoded. -/
inductive EngineResponse where
  | strategies (records : List StrategyRegistryRecord)
  | metrics (records : List MetricRegistryRecord)
  | alerts (records : List AlertRecord)
  | contextHits (hits : List RetrievalHit)
  | complete (response : LlmResponse)
  | stream (traceId : String) (items : List StreamItem)
  | newsPage (page : NewsPage)
  | newsDetail (detail : Option NewsDetail)

namespace EngineResponse

/-- The decoder of the terminal returns what the engine encoded: all of the displayed texts
and counts, and for a stream its deltas, joined, and its completion. -/
def ReadBack : EngineResponse → Prop
  | strategies records =>
    decodeStrategies (encodeStrategyRegistryListResponse records) = .ok (records.map (·.view))
  | metrics records =>
    decodeMetrics (encodeMetricRegistryListResponse records) = .ok (records.map (·.view))
  | alerts records => decodeAlerts (encodeAlertsResponse records) = .ok (records.map (·.view))
  | contextHits hits => decodeContextHits (encodeContextSearchResponse hits) = .ok hits
  | complete response =>
    decodeAnalyst (encodeLlmResponse response) = .ok (LlmAnswer.view response)
  | stream traceId items => ∃ deltas reason, items = completed deltas reason ∧
    decodeAnalyst (encodeLlmStreamResponse traceId items) =
      .ok ⟨traceId, reason, String.join deltas⟩
  | newsPage page =>
    decodeNews (encodeNewsPage page) = .ok (page.items.map (·.pageView page), page.nextCursor)
  | newsDetail detail => decodeNewsDetail (encodeNewsDetail detail) = .ok (detail.map (·.view))

/-- The lists are within the bounds of the terminal, the displayed texts have at most 65535
bytes, no other text is cut inside a character, and the numbers are finite; an answer is not
blank, a stream is complete, and a cursor is not empty. -/
def Readable : EngineResponse → Prop
  | strategies records => records.length ≤ 4096 ∧ ∀ record ∈ records, record.Readable
  | metrics records => records.length ≤ 4096 ∧ ∀ record ∈ records, record.Readable
  | alerts records => records.length ≤ 4096 ∧ ∀ alert ∈ records, alert.Readable
  | contextHits hits => hits.length ≤ 256 ∧ ∀ hit ∈ hits, hit.Readable
  | complete response => LlmAnswer.Readable response
  | stream traceId items => ∃ deltas reason, items = completed deltas reason ∧
    StreamReadable traceId deltas reason
  | newsPage page => page.Readable
  | newsDetail detail => ∀ d ∈ detail, d.Readable

end EngineResponse

/-- **A response** is read back exactly when it is readable. -/
theorem read_back_iff_readable (response : EngineResponse) :
    response.ReadBack ↔ response.Readable := by
  cases response with
  | strategies records => exact decodeStrategies_iff
  | metrics records => exact decodeMetrics_iff
  | alerts records => exact decodeAlerts_iff
  | contextHits hits => exact decodeContextHits_iff
  | complete response => exact decodeAnalyst_response_iff
  | stream traceId items =>
    apply exists₂_congr
    intro deltas reason
    apply and_congr_right
    rintro rfl
    exact decodeAnalyst_stream_iff
  | newsPage page => exact decodeNews_iff
  | newsDetail detail => exact decodeNewsDetail_iff

theorem length_utf8_replicate (n : ℕ) :
    (utf8 (String.ofList (List.replicate n 'a'))).length = n := by
  rw [utf8, String.toByteArray_ofList]
  induction n with
  | zero => rfl
  | succ n ih =>
    have hone : ['a'].utf8Encode.data.toList.length = 1 := by decide
    rw [List.replicate_succ, List.utf8Encode_cons, ByteArray.data_append, Array.toList_append,
      List.length_append, ih, hone, Nat.add_comm]

namespace Sample

/-- An article whose summary is half as long as the domain admits. -/
def longArticle : NewsDetail where
  current := {
    id := "article-1"
    provider := "wire"
    canonicalUrl := "https://example.com/article-1"
    sourceName := "Wire"
    title := "Headline"
    summaryText := some (String.ofList (List.replicate 65536 'a'))
    publishedAtMs := some 1
    receivedAtMs := 2
    symbols := ∅
    contentHash := "00" }
  versions := []
  clusterId := "cluster-1"
  relatedItemIds := []

end Sample

/-- The summary of a long article is cut on its way to the terminal. -/
theorem long_summary_cut : ¬(EngineResponse.newsDetail (some Sample.longArticle)).ReadBack := by
  intro h
  have hsummary : Short (String.ofList (List.replicate 65536 'a')) :=
    (decodeNewsDetail_iff.mp h Sample.longArticle rfl).current.summaryText
  have hlength := length_utf8_replicate 65536
  rw [Short] at hsummary
  omega

end Terminal

end InsiderTrader
