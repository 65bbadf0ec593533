import InsiderTrader.Library.JsonValue
import InsiderTrader.Library.Runs
import InsiderTrader.MarketAtomicity

/-!
# Yahoo quotes and the hub

The provider numbers its quotes by the market time of the answer, in seconds, or
by the number before plus one, whichever is greater; a quote from the chart has
the number before plus one. The hub takes only the number after the last one, so
that an answer whose market time runs ahead of the count leaves a gap.

## Main definitions

- `YahooQuoteProvider.fetch` — one quote from the quote endpoint or the chart
- `PolledHub.step` — a poll: a quote is fetched and handed to the hub
- `PolledHub.Continues` — the poll goes on where the hub stands

## Main results

- `fetch_spec` — what a quote that is fetched looks like
- `polls_contiguous_iff` — the runs of polls that the hub takes
-/

namespace InsiderTrader

open Fallible MachineInt

/-- A request of a market-data adapter; its headers are sorted. -/
structure MarketRequest where
  method : String
  url : String
  headers : List (String × String)
  deriving DecidableEq

/-- The response of a market-data server. -/
structure MarketResponse where
  status : ℕ
  headers : List (String × String)
  body : List UInt8
  deriving DecidableEq

/-- Transport of a market-data adapter. -/
abbrev MarketTransport := MarketRequest → Except String MarketResponse

/-- What an adapter reads of a response. -/
def maxResponseBytes : ℕ := 8 * 1024 * 1024

/-- A status of success. -/
def MarketResponse.Successful (r : MarketResponse) : Prop := 200 ≤ r.status ∧ r.status < 300

instance (r : MarketResponse) : Decidable r.Successful := inferInstanceAs (Decidable (_ ∧ _))

/-- The Yahoo quotes of an instrument: where they are, how a body is parsed, and what a number is
worth in ticks. -/
structure YahooQuoteProvider where
  baseUrl : String
  symbol : String
  instrumentId : InstrumentId
  parseJson : List UInt8 → Option JsonValue
  /-- a positive, finite price at the price scale, rounded to ticks -/
  price : JsonNumber → Option Int

namespace YahooQuoteProvider

/-- Two hexadecimal digits of a byte. -/
def hexByte (byte : UInt8) : List Char :=
  let digit (n : ℕ) : Char := "0123456789ABCDEF".toList.getD n '0'
  [digit (byte.toNat / 16), digit (byte.toNat % 16)]

/-- Percent-encode a part of a URL. -/
def encodeComponent (value : String) : String :=
  String.ofList <| value.toUTF8.toList.flatMap fun byte =>
    let c := Char.ofNat byte.toNat
    if c.isAlphanum ∨ c = '-' ∨ c = '_' ∨ c = '.' then [c] else '%' :: hexByte byte

def jsonPrice (p : YahooQuoteProvider) (value : JsonValue) : Option Int :=
  value.asNumber.bind p.price

-- The quote endpoint

def quoteRequest (p : YahooQuoteProvider) : MarketRequest :=
  ⟨"GET", p.baseUrl ++ "/v7/finance/quote?symbols=" ++ encodeComponent p.symbol,
    [("accept", "application/json")]⟩

/-- The body of the quote endpoint, or why the chart is asked: a status, or a failed transport. -/
def quoteBody (p : YahooQuoteProvider) (send : MarketTransport) :
    Except (Option ℕ × Option String) (List UInt8) :=
  match send p.quoteRequest with
  | .error error => .error (none, some error)
  | .ok response =>
    if response.Successful then .ok response.body else .error (some response.status, none)

/-- The first item of a JSON list. -/
def firstOf (value : JsonValue) : Option JsonValue := value.asArray.bind List.head?

/-- The item of a quote answer. -/
def quoteItem (root : JsonValue) : Option JsonValue :=
  ((root.field "quoteResponse").bind (·.field "result")).bind firstOf

/-- The market time of an item, in seconds. -/
def exchangeSeconds (item : JsonValue) : Option Int :=
  ((item.field "regularMarketTime").bind JsonValue.asInt64).filter (0 < ·)

/-- Seconds as a wall-clock time, when they fit. -/
def wallOfSeconds (seconds : Int) : Option WallTime := narrow 64 (seconds * 1000000000)

/-- The number after the last one, for an answer with a market time or without one. -/
def nextNumber (seconds : Option Int) (last : ℕ) : Option ℕ :=
  match seconds with
  | some seconds => some (max seconds.toNat (min (last + 1) u64Max))
  | none => if last + 1 ≤ u64Max then some (last + 1) else none

-- The chart

/-- The newest priced close of a chart with its time. -/
def chartLastPrice (p : YahooQuoteProvider) (body : List UInt8) :
    Except String (Int × Option Int) := do
  let root ← ((p.parseJson body).elim (.error "invalid Yahoo chart JSON") .ok : Except String _)
  let result ← (((root.field "chart").bind (·.field "result")).bind firstOf).elim
    (.error "Yahoo chart result missing") .ok
  let timestamps ← ((result.field "timestamp").bind JsonValue.asArray).elim
    (.error "Yahoo chart timestamps missing") .ok
  let closes ← (((((result.field "indicators").bind (·.field "quote")).bind firstOf).bind
    (·.field "close")).bind JsonValue.asArray).elim (.error "Yahoo chart close missing") .ok
  -- the newest one is the last of those that have a time
  let priced := (closes.zip timestamps).reverse.findSome? fun entry =>
    (p.jsonPrice entry.1).map fun price => (price, entry.2.asInt64.filter (0 < ·))
  priced.elim (.error "Yahoo chart fallback returned no quote") .ok

def chartUrl (p : YahooQuoteProvider) : String :=
  p.baseUrl ++ "/v8/finance/chart/" ++ encodeComponent p.symbol ++ "?interval=1m&range=1d"

def chartRequest (url : String) : MarketRequest :=
  ⟨"GET", url, [("accept", "application/json"), ("user-agent", "Mozilla/5.0")]⟩

def primaryHost : String := "query1.finance.yahoo.com"

def alternateHost : String := "query2.finance.yahoo.com"

/-- Ask for the chart; an answer that the primary host fails to give is asked of the other one. -/
def chartResponse (p : YahooQuoteProvider) (send : MarketTransport) :
    Except String MarketResponse :=
  match send (chartRequest p.chartUrl) with
  | .ok response => .ok response
  | .error primary =>
    if p.baseUrl.contains primaryHost then
      match send (chartRequest (p.chartUrl.replace primaryHost alternateHost)) with
      | .ok response => .ok response
      | .error alternate => .error (primary ++ "; alternate Yahoo host failed: " ++ alternate)
    else .error primary

/-- Why neither the quote endpoint nor the chart answers. -/
def fallbackError (why : Option ℕ × Option String) (status : ℕ) : String :=
  match why with
  | (some quoteStatus, _) => "Yahoo quote HTTP status " ++ toString quoteStatus ++
    "; chart fallback HTTP status " ++ toString status
  | (none, some error) => "Yahoo quote transport failed (" ++ error ++
    "); chart fallback HTTP status " ++ toString status
  | (none, none) => "Yahoo chart fallback HTTP status " ++ toString status

/-- The price of the chart, when the quote endpoint gives none. -/
def chartPrice (p : YahooQuoteProvider) (send : MarketTransport)
    (why : Option ℕ × Option String) : Except String (Int × Option Int) := do
  let response ← p.chartResponse send
  if response.Successful then p.chartLastPrice response.body
  else .error (fallbackError why response.status)

/-- A quote from the chart: bid and ask are the last price. The state is the last number. -/
def fetchChartQuote (p : YahooQuoteProvider) (send : MarketTransport)
    (why : Option ℕ × Option String) (receivedMono : MonoTime) (fallback : WallTime) :
    Fallible ℕ String Quote := do
  let priced ← Fallible.ofExcept (p.chartPrice send why)
  let exchangeTime := ((priced.2.bind wallOfSeconds).filter (· ≤ fallback)).getD fallback
  let last ← Fallible.reads id
  let sequence ← Fallible.orFail (nextNumber none last) "Yahoo quote sequence overflow"
  Fallible.modify fun _ => sequence
  pure ⟨p.instrumentId, sequence, exchangeTime, receivedMono, priced.1, 1, priced.1, 1⟩

/-- Fetch one quote; the state is the last number. -/
def fetch (p : YahooQuoteProvider) (send : MarketTransport) (receivedMono : MonoTime)
    (fallback : WallTime) : Fallible ℕ String Quote :=
  match p.quoteBody send with
  | .error why => p.fetchChartQuote send why receivedMono fallback
  | .ok body => do
    Fallible.require (body.length ≤ maxResponseBytes) "Yahoo quote response exceeds bound"
    let root ← Fallible.orFail (p.parseJson body) "invalid Yahoo quote JSON"
    let item ← Fallible.orFail (quoteItem root) "Yahoo quote result missing"
    let last ← Fallible.orFail ((item.field "regularMarketPrice").bind p.jsonPrice)
      "Yahoo quote price missing"
    let bid := ((item.field "bid").bind p.jsonPrice).getD last
    let ask := ((item.field "ask").bind p.jsonPrice).getD last
    Fallible.require (0 < bid ∧ 0 < ask ∧ bid ≤ ask) "Yahoo quote spread is invalid"
    let seconds := exchangeSeconds item
    let exchangeTime := (seconds.bind wallOfSeconds).getD fallback
    let sequence ← Fallible.reads id
    let next ← Fallible.orFail (nextNumber seconds sequence) "Yahoo quote sequence overflow"
    Fallible.modify fun _ => next
    pure ⟨p.instrumentId, next, exchangeTime, receivedMono, bid, 1, ask, 1⟩

-- What a quote looks like

/-- The market time that the quote endpoint gives; the chart gives none. -/
def marketTime (p : YahooQuoteProvider) (send : MarketTransport) : Option Int :=
  match p.quoteBody send with
  | .error _ => none
  | .ok body => ((p.parseJson body).bind quoteItem).bind exchangeSeconds

/-- The quote comes from the chart, at a price that rounds to no tick. -/
def Unpriced (p : YahooQuoteProvider) (send : MarketTransport) : Prop :=
  ∃ why priced, p.quoteBody send = .error why ∧ p.chartPrice send why = .ok priced ∧ priced.1 ≤ 0

/-- A quote that is fetched after a number. -/
structure Fetched (p : YahooQuoteProvider) (send : MarketTransport) (last : ℕ) (q : Quote) :
    Prop where
  instrumentId : q.instrumentId = p.instrumentId
  number : nextNumber (p.marketTime send) last = some q.sequence
  quantities : q.bidQuantityTicks = 1 ∧ q.askQuantityTicks = 1
  spread : q.bidTicks ≤ q.askTicks
  unpriced : q.bidTicks ≤ 0 ↔ p.Unpriced send

variable {p : YahooQuoteProvider} {send : MarketTransport} {receivedMono : MonoTime}
  {fallback : WallTime} {last last' : ℕ} {q : Quote}

theorem fetchChartQuote_spec {why : Option ℕ × Option String} (hbody : p.quoteBody send = .error why)
    (h : p.fetchChartQuote send why receivedMono fallback last = (.ok q, last')) :
    p.Fetched send last q ∧ last' = q.sequence := by
  rw [fetchChartQuote] at h
  obtain ⟨priced, hpriced, h⟩ := ofExcept_bind_eq_ok h
  rw [reads_bind] at h
  obtain ⟨next, hnext, h⟩ := orFail_bind_eq_ok h
  rw [modify_bind] at h
  cases h
  have htime : p.marketTime send = none := by rw [marketTime, hbody]
  refine ⟨⟨rfl, htime ▸ hnext, ⟨rfl, rfl⟩, le_refl _, ?_⟩, rfl⟩
  constructor
  · intro hprice
    exact ⟨why, priced, hbody, hpriced, hprice⟩
  · rintro ⟨why', priced', hbody', hpriced', hprice⟩
    cases hbody.symm.trans hbody'
    cases hpriced.symm.trans hpriced'
    exact hprice

/-- **Specification of a fetch** that gives a quote. -/
theorem fetch_spec (h : p.fetch send receivedMono fallback last = (.ok q, last')) :
    p.Fetched send last q ∧ last' = q.sequence := by
  rw [fetch] at h
  cases hbody : p.quoteBody send with
  | error why =>
    rw [hbody] at h
    exact fetchChartQuote_spec hbody h
  | ok body =>
    rw [hbody] at h
    obtain ⟨-, h⟩ := require_bind_eq_ok h
    obtain ⟨root, hroot, h⟩ := orFail_bind_eq_ok h
    obtain ⟨item, hitem, h⟩ := orFail_bind_eq_ok h
    obtain ⟨price, -, h⟩ := orFail_bind_eq_ok h
    obtain ⟨hspread, h⟩ := require_bind_eq_ok h
    rw [reads_bind] at h
    obtain ⟨next, hnext, h⟩ := orFail_bind_eq_ok h
    rw [modify_bind] at h
    cases h
    have htime : p.marketTime send = exchangeSeconds item := by
      rw [marketTime, hbody]
      dsimp only
      rw [hroot, Option.bind_some, hitem, Option.bind_some]
    refine ⟨⟨rfl, htime ▸ hnext, ⟨rfl, rfl⟩, hspread.2.2, ?_⟩, rfl⟩
    constructor
    · intro hprice
      exact absurd hspread.1 (not_lt.mpr hprice)
    · rintro ⟨why, priced, hbody', -⟩
      cases hbody.symm.trans hbody'

/-- A market time fits 64 bits. -/
theorem marketTime_lt {seconds : Int} (h : p.marketTime send = some seconds) :
    0 < seconds ∧ seconds < 2 ^ 63 := by
  rw [marketTime] at h
  split at h
  · cases h
  · obtain ⟨item, -, h⟩ := Option.bind_eq_some_iff.mp h
    obtain ⟨hvalue, hpositive⟩ := Option.filter_eq_some_iff.mp h
    obtain ⟨value, -, hint⟩ := Option.bind_eq_some_iff.mp hvalue
    refine ⟨of_decide_eq_true hpositive, ?_⟩
    unfold JsonValue.asInt64 at hint
    split at hint
    · split at hint
      · next hfits =>
        cases hint
        exact hfits.2
      · cases hint
    · cases hint

/-- Numbers grow until they are exhausted. -/
theorem Fetched.le (h : p.Fetched send last q) (hlast : last ≤ u64Max) :
    last ≤ q.sequence ∧ 1 ≤ q.sequence ∧ q.sequence ≤ u64Max := by
  have hmax : 1 ≤ u64Max ∧ 2 ^ 63 ≤ (u64Max : Int) := by decide
  have hnumber := h.number
  unfold nextNumber at hnumber
  split at hnumber
  · next seconds hseconds =>
    have hfits := (marketTime_lt hseconds).2
    have hnext := Option.some.inj hnumber
    omega
  · split at hnumber
    · have hnext := Option.some.inj hnumber
      omega
    · cases hnumber

/-- The number is the one a hub waits for exactly when it is the next of the count and the market
time does not run ahead of it. -/
theorem Fetched.sequence_iff (h : p.Fetched send last q) {next : ℕ}
    (hnext : next ≤ min (last + 1) u64Max) :
    q.sequence = next ↔
      min (last + 1) u64Max = next ∧ ∀ seconds ∈ p.marketTime send, seconds ≤ next := by
  have hnumber := h.number
  unfold nextNumber at hnumber
  split at hnumber
  · next seconds hseconds =>
    have hsequence := Option.some.inj hnumber
    simp only [hseconds, Option.mem_some_iff, forall_eq']
    omega
  · next hnone =>
    split at hnumber
    · have hsequence := Option.some.inj hnumber
      simp only [hnone, Option.not_mem_none, false_implies, implies_true, and_true]
      omega
    · cases hnumber

end YahooQuoteProvider

-- Polls of the hub

/-- The last number of a provider, and the hub that its quotes go to. -/
structure PolledHub where
  last : ℕ
  hub : MarketDataHub

/-- A poll: what the servers answer, the clocks of the fetch, and the time of receipt. -/
structure Poll where
  send : MarketTransport
  receivedMono : MonoTime
  fallback : WallTime
  receiveWall : WallTime

namespace PolledHub

/-- What the provider fetches. -/
def fetched (p : YahooQuoteProvider) (poll : Poll) (w : PolledHub) : Except String Quote × ℕ :=
  p.fetch poll.send poll.receivedMono poll.fallback w.last

/-- Poll: a quote that is fetched is handed to the hub. -/
def step (p : YahooQuoteProvider) (poll : Poll) (w : PolledHub) : PolledHub :=
  match fetched p poll w with
  | (.ok q, last) => ⟨last, (MarketDataHub.ingest (.quote q) poll.receiveWall w.hub).2⟩
  | (.error _, last) => ⟨last, w.hub⟩

/-- The fetch gives a quote, and it is not received before its exchange time. -/
def Answered (p : YahooQuoteProvider) (poll : Poll) (w : PolledHub) : Prop :=
  ∃ q last, fetched p poll w = (.ok q, last) ∧ q.exchangeTime ≤ poll.receiveWall

/-- The hub turns the quote away for its number. -/
def OutOfOrder (p : YahooQuoteProvider) (poll : Poll) (w : PolledHub) : Prop :=
  ∃ q last, fetched p poll w = (.ok q, last) ∧
    ((MarketDataHub.ingest (.quote q) poll.receiveWall w.hub).1 = .ok .duplicate ∨
      ∃ expected received,
        (MarketDataHub.ingest (.quote q) poll.receiveWall w.hub).1 = .error (.gap expected received))

/-- The last number that the hub took for the instrument of the provider. -/
def taken (p : YahooQuoteProvider) (w : PolledHub) : Option ℕ :=
  w.hub.instruments[p.instrumentId]?.bind (·.quoteHealth.sequence.last)

/-- The poll goes on where the hub stands: the next number of the count is the one that the hub
waits for, and the market time is not ahead of it. Nothing is asked of a first quote and of one
without a price. -/
def Continues (p : YahooQuoteProvider) (poll : Poll) (w : PolledHub) : Prop :=
  p.Unpriced poll.send ∨ ∀ taken ∈ w.taken p, taken < u64Max ∧
    min (w.last + 1) u64Max = taken + 1 ∧ ∀ seconds ∈ p.marketTime poll.send, seconds ≤ taken + 1

/-- The hub is not ahead of the provider. -/
structure Behind (p : YahooQuoteProvider) (w : PolledHub) : Prop where
  registered : (w.hub.instruments[p.instrumentId]?).isSome
  taken_le : ∀ taken ∈ w.taken p, taken ≤ w.last
  last_le : w.last ≤ u64Max

variable {p : YahooQuoteProvider} {poll : Poll} {w : PolledHub} {q : Quote} {last : ℕ}

/-- A quote without a price is invalid, any other one is valid once it is received. -/
theorem validate_iff (h : p.Fetched poll.send w.last q) (hlast : w.last ≤ u64Max)
    (hwall : q.exchangeTime ≤ poll.receiveWall) :
    q.validate poll.receiveWall = .ok () ↔ ¬p.Unpriced poll.send := by
  obtain ⟨-, hone, -⟩ := h.le hlast
  have hspread := h.spread
  have hask : 0 < q.bidTicks → 0 < q.askTicks := fun hbid => lt_of_lt_of_le hbid hspread
  rw [← h.unpriced, not_le, Quote.validate, if_neg (by omega), h.quantities.1, h.quantities.2]
  by_cases hbid : 0 < q.bidTicks
  · rw [if_neg (by have := hask hbid; omega), if_neg (not_lt.mpr hwall),
      if_neg (not_lt.mpr hspread)]
    simp [hbid]
  · rw [if_pos (.inl (not_lt.mp hbid))]
    simp [hbid]

/-- What the hub answers to a quote of the provider. -/
theorem ingest_fst {s : InstrumentStreams} (hget : w.hub.instruments[p.instrumentId]? = some s)
    (hid : q.instrumentId = p.instrumentId) (wall : WallTime) :
    (MarketDataHub.ingest (.quote q) wall w.hub).1 =
      (InstrumentStreams.ingest (.quote q) wall s).1 := by
  rw [← hid] at hget
  rw [MarketDataHub.ingest, MarketEvent.instrumentId, MarketDataHub.onStreams, hget]

theorem taken_of_get {s : InstrumentStreams}
    (hget : w.hub.instruments[p.instrumentId]? = some s) :
    w.taken p = s.quoteHealth.sequence.last := by
  rw [taken, hget]
  rfl

/-- The hub turns a valid quote away for its number exactly when it does not accept the number. -/
theorem outOfOrder_of_fetched {s : InstrumentStreams}
    (hget : w.hub.instruments[p.instrumentId]? = some s) (hfetched : fetched p poll w = (.ok q, last))
    (hid : q.instrumentId = p.instrumentId) (hvalid : q.validate poll.receiveWall = .ok ()) :
    OutOfOrder p poll w ↔ ¬s.quoteHealth.sequence.Accepts q.sequence := by
  have hanswer : (MarketDataHub.ingest (.quote q) poll.receiveWall w.hub).1 = _ :=
    (ingest_fst hget hid poll.receiveWall).trans
      (congrArg Prod.fst (InstrumentStreams.ingest_quote hvalid s))
  constructor
  · rintro ⟨q', last', hfetched', hrefused⟩ haccepts
    cases hfetched.symm.trans hfetched'
    rw [hanswer, if_pos haccepts] at hrefused
    obtain hrefused | ⟨expected, received, hrefused⟩ := hrefused
    · cases hrefused
    · cases hrefused
  · intro hnot
    refine ⟨q, last, hfetched, ?_⟩
    rw [hanswer, if_neg hnot]
    cases hs : s.quoteHealth.sequence.status q.sequence with
    | initial => exact absurd (.inl hs) hnot
    | contiguous => exact absurd (.inr hs) hnot
    | duplicate => exact .inl rfl
    | gap expected received => exact .inr ⟨expected, received, rfl⟩

/-- The number of a quote is accepted exactly when it is the one that the hub waits for. -/
theorem accepts_iff_next {t : SequenceTracker} (h : p.Fetched poll.send w.last q)
    (hlast : w.last ≤ u64Max) (hbehind : ∀ taken ∈ t.last, taken ≤ w.last) :
    t.Accepts q.sequence ↔ ∀ taken ∈ t.last, taken < u64Max ∧
      min (w.last + 1) u64Max = taken + 1 ∧
        ∀ seconds ∈ p.marketTime poll.send, seconds ≤ taken + 1 := by
  obtain ⟨-, hone, hmax⟩ := h.le hlast
  rw [SequenceTracker.accepts_iff, and_iff_right (by omega)]
  refine forall_congr' fun taken => imp_congr_right fun htaken => ?_
  have hle := hbehind taken htaken
  constructor
  · rintro ⟨hlt, hnext⟩
    have hsucc : q.sequence = taken + 1 := by omega
    obtain ⟨hcount, htime⟩ := (h.sequence_iff (by omega)).mp hsucc
    exact ⟨by omega, hcount, fun seconds hseconds => by exact_mod_cast htime seconds hseconds⟩
  · rintro ⟨hlt, hcount, htime⟩
    have hsucc : q.sequence = taken + 1 := (h.sequence_iff (by omega)).mpr
      ⟨hcount, fun seconds hseconds => by exact_mod_cast htime seconds hseconds⟩
    omega

/-- **One poll**: the hub does not turn the quote away for its number exactly when the poll goes on
where the hub stands. -/
theorem not_outOfOrder_iff (hw : w.Behind p) (ha : Answered p poll w) :
    ¬OutOfOrder p poll w ↔ Continues p poll w := by
  obtain ⟨q, last, hfetched, hwall⟩ := ha
  obtain ⟨hspec, rfl⟩ := YahooQuoteProvider.fetch_spec hfetched
  obtain ⟨s, hget⟩ := Option.isSome_iff_exists.mp hw.registered
  have htaken := taken_of_get hget
  by_cases hunpriced : p.Unpriced poll.send
  · refine iff_of_true ?_ (.inl hunpriced)
    -- the hub finds the quote invalid before it looks at the number
    cases hvalid : q.validate poll.receiveWall with
    | ok _ => exact absurd hunpriced ((validate_iff hspec hw.last_le hwall).mp hvalid)
    | error e =>
      rintro ⟨q', last', hfetched', hrefused⟩
      cases hfetched.symm.trans hfetched'
      rw [ingest_fst hget hspec.instrumentId, InstrumentStreams.ingest_quote_of_invalid hvalid]
        at hrefused
      obtain hrefused | ⟨expected, received, hrefused⟩ := hrefused
      · cases hrefused
      · cases hrefused
  · have hvalid := (validate_iff hspec hw.last_le hwall).mpr hunpriced
    rw [outOfOrder_of_fetched hget hfetched hspec.instrumentId hvalid, not_not, Continues,
      or_iff_right hunpriced, htaken]
    exact accepts_iff_next hspec hw.last_le fun taken h => hw.taken_le taken (htaken ▸ h)

/-- A poll keeps the hub behind the provider. -/
theorem Behind.step (hw : w.Behind p) (ha : Answered p poll w) : (step p poll w).Behind p := by
  obtain ⟨q, last, hfetched, hwall⟩ := ha
  obtain ⟨hspec, rfl⟩ := YahooQuoteProvider.fetch_spec hfetched
  obtain ⟨hle, -, hmax⟩ := hspec.le hw.last_le
  obtain ⟨s, hget⟩ := Option.isSome_iff_exists.mp hw.registered
  have hstep : PolledHub.step p poll w =
      ⟨q.sequence, (MarketDataHub.ingest (.quote q) poll.receiveWall w.hub).2⟩ := by
    rw [PolledHub.step, hfetched]
  have hafter : (MarketDataHub.ingest (.quote q) poll.receiveWall w.hub).2.instruments[
      p.instrumentId]? = some (InstrumentStreams.ingest (.quote q) poll.receiveWall s).2 := by
    rw [MarketDataHub.ingest, MarketDataHub.getElem?_onStreams,
      if_pos (show (MarketEvent.quote q).instrumentId = p.instrumentId from hspec.instrumentId),
      hget]
    rfl
  rw [hstep]
  refine ⟨Option.isSome_iff_exists.mpr ⟨_, hafter⟩, ?_, hmax⟩
  have htaken : taken p ⟨q.sequence, (MarketDataHub.ingest (.quote q) poll.receiveWall w.hub).2⟩ =
      (InstrumentStreams.ingest (.quote q) poll.receiveWall s).2.quoteHealth.sequence.last :=
    taken_of_get hafter
  rw [htaken]
  have hold : ∀ taken ∈ s.quoteHealth.sequence.last, taken ≤ q.sequence := fun taken h =>
    (hw.taken_le taken ((taken_of_get hget).symm ▸ h)).trans hle
  cases hvalid : q.validate poll.receiveWall with
  | error e =>
    rw [InstrumentStreams.ingest_quote_of_invalid hvalid]
    exact hold
  | ok _ =>
    rw [InstrumentStreams.ingest_quote hvalid]
    split
    · intro taken h
      exact (Option.some.inj h).ge
    · exact hold

/-- A provider that has fetched nothing, and a hub that took no quote of the instrument. -/
structure Fresh (p : YahooQuoteProvider) (w : PolledHub) : Prop where
  registered : (w.hub.instruments[p.instrumentId]?).isSome
  untaken : w.taken p = none
  first : w.last = 0

theorem Fresh.behind (h : w.Fresh p) : w.Behind p := by
  refine ⟨h.registered, fun taken htaken => ?_, ?_⟩
  · rw [h.untaken] at htaken
    cases htaken
  · rw [h.first]
    exact Nat.zero_le _

/-- **Provider quotes and the hub**: over a run of polls that are all answered, the hub turns no
quote away for its number exactly when every poll goes on where the hub stands. -/
theorem polls_contiguous_iff (p : YahooQuoteProvider) {w : PolledHub} (hfresh : w.Fresh p)
    {run : List Poll} (hanswered : ∀ c ∈ Runs.calls (step p) w run, Answered p c.2 c.1) :
    (∀ c ∈ Runs.calls (step p) w run, ¬OutOfOrder p c.2 c.1) ↔
      ∀ c ∈ Runs.calls (step p) w run, Continues p c.2 c.1 := by
  have hbehind : ∀ c ∈ Runs.calls (step p) w run, True ∧ c.1.Behind p :=
    Runs.calls_of_step (fun _ _ _ hw ha => hw.step ha) hfresh.behind (fun _ _ => trivial) hanswered
  refine forall_congr' fun c => forall_congr' fun hc => ?_
  exact not_outOfOrder_iff (hbehind c hc).2 (hanswered c hc)

end PolledHub

namespace Sample

/-- The answer of the quote endpoint at a market time. -/
def quoteAnswer (seconds : Int) : JsonValue :=
  .object [("quoteResponse", .object [("result", .array [.object
    [("regularMarketPrice", .number (.integer 100)),
      ("regularMarketTime", .number (.integer seconds))]])])]

/-- A provider of an instrument; the body of an answer is its market time after a first one. -/
def yahooProvider : YahooQuoteProvider where
  baseUrl := "https://query1.finance.yahoo.com"
  symbol := "AAPL"
  instrumentId := 7
  parseJson body := body.head?.map fun byte => quoteAnswer (1700000000 + byte.toNat)
  price
    | .integer value => if 0 < value then some value else none
    | .double _ => none

/-- A poll that is answered so many seconds after a first market time. -/
def pollAfter (seconds : UInt8) : Poll where
  send _ := .ok ⟨200, [], [seconds]⟩
  receivedMono := 0
  fallback := 1800000000000000000
  receiveWall := 1800000000000000000

/-- The quote that such a poll gives to a provider that is not ahead. -/
def quoteAfter (seconds : ℕ) : Quote :=
  ⟨7, 1700000000 + seconds, (1700000000 + seconds) * 1000000000, 0, 100, 1, 100, 1⟩

/-- The instrument is registered, and nothing was polled. -/
def unpolled : PolledHub := ⟨0, Runs.final HubOp.apply emptyHub registered⟩

theorem unpolled_fresh : unpolled.Fresh yahooProvider :=
  ⟨by decide, by decide, rfl⟩

theorem unpolled_answered :
    PolledHub.fetched yahooProvider (pollAfter 0) unpolled = (.ok (quoteAfter 0), 1700000000) := by
  decide

theorem polled_answered (seconds : UInt8) (h : seconds = 1 ∨ seconds = 60) :
    PolledHub.fetched yahooProvider (pollAfter seconds)
      (PolledHub.step yahooProvider (pollAfter 0) unpolled) =
        (.ok (quoteAfter seconds.toNat), 1700000000 + seconds.toNat) := by
  obtain rfl | rfl := h
  · decide
  · decide +kernel

/-- Two polls, of which the second is answered so many seconds after the first. -/
def twoPolls (seconds : UInt8) : List Poll := [pollAfter 0, pollAfter seconds]

theorem twoPolls_answered (seconds : UInt8) (h : seconds = 1 ∨ seconds = 60) :
    ∀ c ∈ Runs.calls (PolledHub.step yahooProvider) unpolled (twoPolls seconds),
      PolledHub.Answered yahooProvider c.2 c.1 := by
  refine List.forall_mem_cons.mpr ⟨?_, List.forall_mem_cons.mpr ⟨?_, fun c hc => ?_⟩⟩
  · exact ⟨_, _, unpolled_answered, by decide⟩
  · refine ⟨_, _, polled_answered seconds h, ?_⟩
    obtain rfl | rfl := h
    · decide
    · decide
  · cases hc

end Sample

namespace PolledHub

/-- Quotes of successive seconds are taken. -/
theorem polls_contiguous_seconds : Sample.unpolled.Fresh Sample.yahooProvider ∧
    ∀ c ∈ Runs.calls (step Sample.yahooProvider) Sample.unpolled (Sample.twoPolls 1),
      ¬OutOfOrder Sample.yahooProvider c.2 c.1 := by
  refine ⟨Sample.unpolled_fresh, (polls_contiguous_iff Sample.yahooProvider Sample.unpolled_fresh
    (Sample.twoPolls_answered 1 (.inl rfl))).mpr ?_⟩
  refine List.forall_mem_cons.mpr ⟨.inr ?_, List.forall_mem_cons.mpr ⟨.inr ?_, fun c hc => ?_⟩⟩
  · decide +kernel
  · decide
  · cases hc

/-- **Market time runs ahead**: a quote a minute after the first one has a number that is a minute
further, and the hub reports a gap. -/
theorem polls_contiguous_minute : ¬∀ (p : YahooQuoteProvider) (w : PolledHub), w.Fresh p →
    ∀ run : List Poll, (∀ c ∈ Runs.calls (step p) w run, Answered p c.2 c.1) →
      ∀ c ∈ Runs.calls (step p) w run, ¬OutOfOrder p c.2 c.1 := by
  intro hclaim
  refine hclaim _ _ Sample.unpolled_fresh (Sample.twoPolls 60)
    (Sample.twoPolls_answered 60 (.inr rfl)) _ (List.mem_cons_of_mem _ (List.mem_cons_self ..)) ?_
  refine ⟨_, _, Sample.polled_answered 60 (.inr rfl), .inr ⟨1700000001, 1700000060, ?_⟩⟩
  decide

end PolledHub

end InsiderTrader
