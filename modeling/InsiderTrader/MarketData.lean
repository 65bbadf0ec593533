import InsiderTrader.Strategy

/-!
# Market data

The bounded market-state hub: sequenced quote, trade and depth streams with
their health, and the event-time bars built from trades.

## Main definitions

- `SequenceTracker`, `StreamHealth` — provider sequences and stream quality
- `DepthBook` — the level-2 projection of an instrument
- `BarAggregator` — event-time bars
- `MarketDataHub.ingest` — one canonical event
-/

namespace InsiderTrader

open MachineInt

/-- Wall-clock times are signed nanoseconds since the Unix epoch. -/
abbrev WallTime := Int

/-- Canonical market event failure. -/
inductive EventError where
  | invalidSequence
  | nonPositiveValue
  | futureExchangeTime
  | sequenceGap (expected received : ℕ)
  deriving DecidableEq

/-- Canonical top-of-book quote. -/
structure Quote where
  instrumentId : InstrumentId
  sequence : ℕ
  exchangeTime : WallTime
  receivedMono : MonoTime
  bidTicks : Int
  bidQuantityTicks : Int
  askTicks : Int
  askQuantityTicks : Int
  deriving DecidableEq

/-- Canonical trade print. -/
structure Trade where
  instrumentId : InstrumentId
  sequence : ℕ
  exchangeTime : WallTime
  receivedMono : MonoTime
  priceTicks : Int
  quantityTicks : Int
  deriving DecidableEq

/-- Side of a depth level. -/
inductive BookSide where
  | bid
  | ask
  deriving DecidableEq

/-- One incremental level-2 change; a zero quantity deletes the level. -/
structure BookDelta where
  instrumentId : InstrumentId
  sequence : ℕ
  side : BookSide
  priceTicks : Int
  quantityTicks : Int
  deriving DecidableEq

/-- Validate a quote against its receive time. -/
def Quote.validate (q : Quote) (receiveWall : WallTime) : Except EventError Unit :=
  if q.sequence = 0 then .error .invalidSequence
  else if q.bidTicks ≤ 0 ∨ q.askTicks ≤ 0 ∨ q.bidQuantityTicks ≤ 0 ∨ q.askQuantityTicks ≤ 0 then
    .error .nonPositiveValue
  else if receiveWall < q.exchangeTime then .error .futureExchangeTime
  else if q.askTicks < q.bidTicks then .error .nonPositiveValue
  else .ok ()

/-- Validate a trade against its receive time. -/
def Trade.validate (t : Trade) (receiveWall : WallTime) : Except EventError Unit :=
  if t.sequence = 0 then .error .invalidSequence
  else if t.priceTicks ≤ 0 ∨ t.quantityTicks ≤ 0 then .error .nonPositiveValue
  else if receiveWall < t.exchangeTime then .error .futureExchangeTime
  else .ok ()

-- Sequences and health

/-- What a sequence number means for its stream. -/
inductive SequenceStatus where
  | initial
  | contiguous
  | duplicate
  | gap (expected received : ℕ)
  deriving DecidableEq

/-- The last accepted sequence of a stream. -/
structure SequenceTracker where
  last : Option ℕ
  deriving DecidableEq

namespace SequenceTracker

/-- The transition a sequence number makes. -/
def status (t : SequenceTracker) (sequence : ℕ) : SequenceStatus :=
  if sequence = 0 then .duplicate
  else
    match t.last with
    | none => .initial
    | some last =>
      if sequence ≤ last then .duplicate
      else if sequence = min (last + 1) u64Max then .contiguous
      else .gap (min (last + 1) u64Max) sequence

/-- Record a sequence; only the next one in order is accepted. -/
def observe (t : SequenceTracker) (sequence : ℕ) : SequenceStatus × SequenceTracker :=
  match t.status sequence with
  | .initial => (.initial, ⟨some sequence⟩)
  | .contiguous => (.contiguous, ⟨some sequence⟩)
  | status => (status, t)

/-- Restart after a verified snapshot. -/
def reset (sequence : ℕ) : Except EventError SequenceTracker :=
  if sequence = 0 then .error .invalidSequence else .ok ⟨some sequence⟩

end SequenceTracker

/-- Quality of a stream. -/
inductive Quality where
  | good
  | degraded
  | stale
  deriving DecidableEq

/-- Freshness and sequence quality of one stream. -/
structure StreamHealth where
  lastReceived : Option MonoTime
  quality : Quality
  sequence : SequenceTracker
  deriving DecidableEq

namespace StreamHealth

/-- A stream without events. -/
def new : StreamHealth := ⟨none, .stale, ⟨none⟩⟩

/-- Accept an event's sequence and receive time. -/
def observe (h : StreamHealth) (sequence : ℕ) (received : MonoTime) :
    SequenceStatus × StreamHealth :=
  let (status, tracker) := h.sequence.observe sequence
  let quality := match status with
    | .gap _ _ | .duplicate => .degraded
    | .initial | .contiguous => .good
  (status, ⟨some received, quality, tracker⟩)

/-- Mark a stream stale when its freshness deadline has passed. -/
def markStaleIfDue (h : StreamHealth) (now : MonoTime) (maxAgeNs : ℕ) : StreamHealth :=
  if h.lastReceived.all fun last => maxAgeNs < now - last then { h with quality := .stale }
  else h

/-- Restart after a verified snapshot. -/
def recoverAfterSnapshot (sequence : ℕ) (received : MonoTime) : Except EventError StreamHealth := do
  let tracker ← SequenceTracker.reset sequence
  .ok ⟨some received, .good, tracker⟩

end StreamHealth

-- Depth

/-- Failure applying a depth change. -/
inductive BookError where
  | invalidLevel
  | gap (expected received : ℕ)
  | crossed
  deriving DecidableEq

/-- Bounded level-2 projection of one instrument: quantities by price. -/
structure DepthBook where
  instrumentId : InstrumentId
  bids : Std.TreeMap Int Int
  asks : Std.TreeMap Int Int
  sequence : SequenceTracker
  health : Quality
  depthLimit : ℕ

namespace DepthBook

/-- An empty book. -/
def new (instrumentId : InstrumentId) (depthLimit : ℕ) : DepthBook :=
  ⟨instrumentId, ∅, ∅, ⟨none⟩, .stale, depthLimit⟩

/-- Set or delete one level. -/
def setLevel (levels : Std.TreeMap Int Int) (price quantity : Int) : Std.TreeMap Int Int :=
  if quantity = 0 then levels.erase price else levels.insert price quantity

/-- Drop the worst level of a side. -/
def dropWorst (side : BookSide) (levels : Std.TreeMap Int Int) : Std.TreeMap Int Int :=
  match side with
  | .bid => levels.minKey?.elim levels levels.erase
  | .ask => levels.maxKey?.elim levels levels.erase

/-- Drop the worst levels beyond the depth limit. -/
def trim (side : BookSide) (limit : ℕ) (levels : Std.TreeMap Int Int) : Std.TreeMap Int Int :=
  Nat.repeat (dropWorst side) (levels.size - limit) levels

/-- The best bid is at or above the best ask. -/
def crossed (bids asks : Std.TreeMap Int Int) : Bool :=
  match bids.maxKey?, asks.minKey? with
  | some bid, some ask => ask ≤ bid
  | _, _ => false

/-- Best bid and ask with their quantities. -/
def top (b : DepthBook) : Option (Int × Int × Int × Int) := do
  let bid ← b.bids.maxEntry?
  let ask ← b.asks.minEntry?
  some (bid.1, bid.2, ask.1, ask.2)

/-- Apply one contiguous change. A change that crosses the book is taken back, but its
sequence stays accepted. -/
def apply (delta : BookDelta) : Fallible DepthBook BookError SequenceStatus := do
  let b ← Fallible.reads id
  if delta.instrumentId ≠ b.instrumentId ∨ delta.priceTicks ≤ 0 ∨ delta.quantityTicks < 0 then
    Fallible.fail .invalidLevel
  else
    match b.sequence.observe delta.sequence with
    | (.gap expected received, _) =>
      Fallible.modify ({ · with health := .degraded })
      Fallible.fail (.gap expected received)
    | (.duplicate, _) =>
      Fallible.modify ({ · with health := .degraded })
      pure .duplicate
    | (status, tracker) =>
      let update (side : BookSide) (levels : Std.TreeMap Int Int) :=
        if side = delta.side then
          trim side b.depthLimit (setLevel levels delta.priceTicks delta.quantityTicks)
        else levels
      let bids := update .bid b.bids
      let asks := update .ask b.asks
      if crossed bids asks then
        Fallible.modify ({ · with sequence := tracker, health := .degraded })
        Fallible.fail .crossed
      else
        Fallible.modify
          ({ · with bids := bids, asks := asks, sequence := tracker, health := .good })
        pure status

/-- Read the levels of a snapshot; prices are positive and distinct. -/
def snapshotLevels : List (Int × Int) → Option (Std.TreeMap Int Int)
  | levels => levels.foldlM (fun (m : Std.TreeMap Int Int) e =>
      if e.1 ≤ 0 ∨ e.2 ≤ 0 ∨ m.contains e.1 then none else some (m.insert e.1 e.2)) ∅

/-- Replace the book by an authoritative snapshot. -/
def replaceSnapshot (b : DepthBook) (sequence : ℕ) (bids asks : List (Int × Int)) :
    Except BookError DepthBook :=
  if sequence = 0 ∨ b.depthLimit < bids.length ∨ b.depthLimit < asks.length then
    .error .invalidLevel
  else
    match snapshotLevels bids, snapshotLevels asks with
    | some nextBids, some nextAsks =>
      if crossed nextBids nextAsks then .error .crossed
      else .ok { b with
        bids := nextBids, asks := nextAsks, sequence := ⟨some sequence⟩, health := .good }
    | _, _ => .error .invalidLevel

end DepthBook

-- Bars

/-- Event-time OHLCV bar. -/
structure Bar where
  instrumentId : InstrumentId
  startTime : WallTime
  intervalNs : ℕ
  openTicks : Int
  highTicks : Int
  lowTicks : Int
  closeTicks : Int
  volumeTicks : Int
  deriving DecidableEq

/-- A bar with the event times of its first and last trade. -/
structure BarState where
  bar : Bar
  openTradeTime : Int
  closeTradeTime : Int
  deriving DecidableEq

/-- Result of applying a trade or a historical bar. -/
inductive BarUpdate where
  | new (bar : Bar)
  | correction (bar : Bar)
  | duplicate
  deriving DecidableEq

/-- Bounded event-time bars of one instrument, by start time. -/
structure BarAggregator where
  instrumentId : InstrumentId
  intervalNs : ℕ
  capacity : ℕ
  bars : Std.TreeMap Int BarState
  sequence : SequenceTracker

namespace BarAggregator

/-- An empty aggregator; the interval is a positive signed 64-bit number. -/
def new (instrumentId : InstrumentId) (intervalNs capacity : ℕ) : Option BarAggregator :=
  if 0 < intervalNs ∧ (narrow 64 intervalNs).isSome ∧ 0 < capacity then
    some ⟨instrumentId, intervalNs, capacity, ∅, ⟨none⟩⟩
  else none

/-- Add two signed 64-bit values, clamped to the range. -/
def saturatingAdd (x y : Int) : Int := max (-2 ^ 63) (min (x + y) (2 ^ 63 - 1))

/-- Insert a bar and drop the oldest ones beyond the capacity. -/
def insertBounded (b : BarAggregator) (start : Int) (state : BarState) : BarAggregator :=
  let bars := b.bars.insert start state
  let dropOldest (bars : Std.TreeMap Int BarState) := bars.minKey?.elim bars bars.erase
  { b with bars := Nat.repeat dropOldest (bars.size - b.capacity) bars }

/-- Fold a trade into the bar of its interval. -/
def mergeTrade (state : BarState) (t : Trade) : BarState :=
  let opens : Bool := t.exchangeTime < state.openTradeTime
  let closes : Bool := state.closeTradeTime ≤ t.exchangeTime
  { bar := { state.bar with
      highTicks := max state.bar.highTicks t.priceTicks
      lowTicks := min state.bar.lowTicks t.priceTicks
      openTicks := if opens then t.priceTicks else state.bar.openTicks
      closeTicks := if closes then t.priceTicks else state.bar.closeTicks
      volumeTicks := saturatingAdd state.bar.volumeTicks t.quantityTicks }
    openTradeTime := if opens then t.exchangeTime else state.openTradeTime
    closeTradeTime := if closes then t.exchangeTime else state.closeTradeTime }

/-- Apply a trade by its exchange event time. -/
def ingest (t : Trade) (receiveWall : WallTime) : Fallible BarAggregator EventError BarUpdate := do
  let b ← Fallible.reads id
  if t.instrumentId ≠ b.instrumentId then Fallible.fail .nonPositiveValue
  else
    Fallible.ofExcept (t.validate receiveWall)
    let (status, tracker) := b.sequence.observe t.sequence
    Fallible.modify ({ · with sequence := tracker })
    match status with
    | .duplicate => pure .duplicate
    | .gap expected received => Fallible.fail (.sequenceGap expected received)
    | .initial | .contiguous =>
      let interval ← Fallible.orFail (narrow 64 b.intervalNs) .nonPositiveValue
      let start := max (-2 ^ 63) (t.exchangeTime / interval * interval)
      match b.bars[start]? with
      | some state =>
        let merged := mergeTrade state t
        Fallible.modify fun b => { b with bars := b.bars.insert start merged }
        pure (.correction merged.bar)
      | none =>
        let bar : Bar := ⟨b.instrumentId, start, b.intervalNs, t.priceTicks, t.priceTicks,
          t.priceTicks, t.priceTicks, t.quantityTicks⟩
        Fallible.modify (·.insertBounded start ⟨bar, t.exchangeTime, t.exchangeTime⟩)
        pure (.new bar)

/-- A historical bar matches its stream and is well formed. -/
def barValid (b : BarAggregator) (bar : Bar) : Bool :=
  bar.instrumentId = b.instrumentId ∧ bar.intervalNs = b.intervalNs ∧ 0 ≤ bar.startTime
    ∧ 0 < bar.openTicks ∧ bar.lowTicks ≤ bar.highTicks ∧ 0 < bar.lowTicks
    ∧ bar.lowTicks ≤ bar.openTicks ∧ bar.openTicks ≤ bar.highTicks
    ∧ bar.lowTicks ≤ bar.closeTicks ∧ bar.closeTicks ≤ bar.highTicks ∧ 0 < bar.volumeTicks

/-- Insert one sequenced historical bar. -/
def ingestBar (bar : Bar) (sequence : ℕ) : Fallible BarAggregator EventError BarUpdate := do
  let b ← Fallible.reads id
  if ¬b.barValid bar then Fallible.fail .nonPositiveValue
  else
    let (status, tracker) := b.sequence.observe sequence
    Fallible.modify ({ · with sequence := tracker })
    match status with
    | .duplicate => pure .duplicate
    | .gap expected received => Fallible.fail (.sequenceGap expected received)
    | .initial | .contiguous =>
      match b.bars[bar.startTime]? with
      | some state =>
        Fallible.modify fun b =>
          { b with bars := b.bars.insert bar.startTime { state with bar := bar } }
        pure (.correction bar)
      | none =>
        let close := saturatingAdd bar.startTime ((narrow 64 b.intervalNs).getD (2 ^ 63 - 1))
        Fallible.modify (·.insertBounded bar.startTime ⟨bar, bar.startTime, close⟩)
        pure (.new bar)

end BarAggregator

-- The hub

/-- A normalized market event. -/
inductive MarketEvent where
  | quote (value : Quote)
  | trade (value : Trade)
  | book (value : BookDelta)
  deriving DecidableEq

/-- The instrument an event is about. -/
def MarketEvent.instrumentId : MarketEvent → InstrumentId
  | quote value => value.instrumentId
  | trade value => value.instrumentId
  | book value => value.instrumentId

/-- Result of ingesting one event; a gap is an error of the hub. -/
inductive IngestOutcome where
  | accepted (status : SequenceStatus)
  | duplicate
  deriving DecidableEq

/-- Market-data hub failure. -/
inductive HubError where
  | unregistered (instrumentId : InstrumentId)
  | event (error : EventError)
  | book (error : BookError)
  | gap (expected received : ℕ)
  | barsUnavailable
  | bookRecoveryRequiresLevels
  deriving DecidableEq

/-- Stream kind of an explicit recovery. -/
inductive StreamKind where
  | quote
  | trade
  | book
  deriving DecidableEq

/-- The streams of one instrument. -/
structure InstrumentStreams where
  quote : Option Quote
  trade : Option Trade
  trades : List Trade
  quoteHealth : StreamHealth
  tradeHealth : StreamHealth
  book : DepthBook
  bars : Option BarAggregator

namespace InstrumentStreams

/-- Fresh streams. -/
def new (instrumentId : InstrumentId) (depth : ℕ) (intervalNs : Option ℕ) (capacity : ℕ) :
    InstrumentStreams :=
  ⟨none, none, [], .new, .new, .new instrumentId depth,
    intervalNs.bind fun intervalNs => BarAggregator.new instrumentId intervalNs capacity⟩

/-- Fold a trade into the bars, when bars are kept. -/
def ingestTrade (t : Trade) (receiveWall : WallTime) :
    Fallible InstrumentStreams EventError (Option BarUpdate) := fun s =>
  match s.bars with
  | none => (.ok none, s)
  | some bars =>
    ((BarAggregator.ingest t receiveWall bars).1.map some,
      { s with bars := some (BarAggregator.ingest t receiveWall bars).2 })

/-- Insert a historical bar, when bars are kept. -/
def ingestBar (bar : Bar) (sequence : ℕ) : Fallible InstrumentStreams HubError BarUpdate := fun s =>
  match s.bars with
  | none => (.error .barsUnavailable, s)
  | some bars =>
    ((BarAggregator.ingestBar bar sequence bars).1.mapError .event,
      { s with bars := some (BarAggregator.ingestBar bar sequence bars).2 })

/-- Ingest one event of the instrument. A trade the bars reject leaves the health as it was. -/
def ingest (event : MarketEvent) (receiveWall : WallTime) :
    Fallible InstrumentStreams HubError IngestOutcome := do
  let s ← Fallible.reads id
  match event with
  | .quote value =>
    Fallible.ofExcept ((value.validate receiveWall).mapError .event)
    let (status, health) := s.quoteHealth.observe value.sequence value.receivedMono
    Fallible.modify ({ · with quoteHealth := health })
    match status with
    | .gap expected received => Fallible.fail (.gap expected received)
    | .duplicate => pure .duplicate
    | .initial | .contiguous =>
      Fallible.modify ({ · with quote := some value })
      pure (.accepted status)
  | .trade value =>
    Fallible.ofExcept ((value.validate receiveWall).mapError .event)
    let (status, health) := s.tradeHealth.observe value.sequence value.receivedMono
    Fallible.modify ({ · with tradeHealth := health })
    match status with
    | .gap expected received => Fallible.fail (.gap expected received)
    | .duplicate => pure .duplicate
    | .initial | .contiguous =>
      let bars ← Fallible.attempt (ingestTrade value receiveWall)
      match bars with
      | .error error =>
        Fallible.modify ({ · with tradeHealth := s.tradeHealth })
        Fallible.fail (.event error)
      | .ok _ =>
        Fallible.modify fun s =>
          let trades := s.trades ++ [value]
          { s with trade := some value, trades := trades.drop (trades.length - 512) }
        pure (.accepted status)
  | .book value =>
    let status ← Fallible.zoom (·.book) ({ · with book := · })
      (fun error => match error with
        | .gap expected received => HubError.gap expected received
        | error => HubError.book error)
      (DepthBook.apply value)
    match status with
    | .duplicate => pure .duplicate
    | status => pure (.accepted status)

/-- Install an authoritative depth snapshot. -/
def recoverBook (sequence : ℕ) (bids asks : List (Int × Int)) :
    Fallible InstrumentStreams HubError Unit := do
  let s ← Fallible.reads id
  let book ← Fallible.ofExcept ((s.book.replaceSnapshot sequence bids asks).mapError .book)
  Fallible.modify ({ · with book := book })

/-- Restart a quote or trade stream; the bars restart with the trades. -/
def recoverStream (kind : StreamKind) (sequence : ℕ) (received : MonoTime) :
    Fallible InstrumentStreams HubError Unit :=
  match kind with
  | .book => Fallible.fail .bookRecoveryRequiresLevels
  | .quote => do
    let health ← Fallible.ofExcept
      ((StreamHealth.recoverAfterSnapshot sequence received).mapError .event)
    Fallible.modify ({ · with quoteHealth := health })
  | .trade => do
    let health ← Fallible.ofExcept
      ((StreamHealth.recoverAfterSnapshot sequence received).mapError .event)
    Fallible.modify ({ · with tradeHealth := health })
    let tracker ← Fallible.ofExcept ((SequenceTracker.reset sequence).mapError .event)
    Fallible.modify fun s =>
      { s with bars := s.bars.map fun bars => { bars with sequence := tracker } }

end InstrumentStreams

/-- Bounded market state of all registered instruments. -/
structure MarketDataHub where
  instruments : Std.TreeMap InstrumentId InstrumentStreams
  maxInstruments : ℕ
  defaultDepth : ℕ
  barIntervalNs : Option ℕ
  barCapacity : ℕ

namespace MarketDataHub

/-- A hub with its bounds. -/
def withBounds (maxInstruments defaultDepth : ℕ) (barIntervalNs : Option ℕ) (barCapacity : ℕ) :
    Option MarketDataHub :=
  if 0 < maxInstruments ∧ 0 < defaultDepth ∧ 0 < barCapacity ∧ barIntervalNs.all (0 < ·) then
    some ⟨∅, maxInstruments, defaultDepth, barIntervalNs, barCapacity⟩
  else none

/-- The hub the engine starts with. -/
def new : MarketDataHub := ⟨∅, 4096, 32, some 60000000000, 4096⟩

/-- Whether an instrument is registered. -/
def contains (h : MarketDataHub) (instrumentId : InstrumentId) : Bool :=
  h.instruments.contains instrumentId

/-- Register an instrument; `false` when it is there already or the hub is full. -/
def register (h : MarketDataHub) (instrumentId : InstrumentId) : Bool × MarketDataHub :=
  if h.contains instrumentId ∨ h.maxInstruments ≤ h.instruments.size then (false, h)
  else
    let streams := InstrumentStreams.new instrumentId h.defaultDepth h.barIntervalNs h.barCapacity
    (true, { h with instruments := h.instruments.insert instrumentId streams })

/-- Run a computation on the streams of a registered instrument. -/
def onStreams {α : Type} (instrumentId : InstrumentId)
    (p : Fallible InstrumentStreams HubError α) : Fallible MarketDataHub HubError α := fun h =>
  match h.instruments[instrumentId]? with
  | none => (.error (.unregistered instrumentId), h)
  | some streams =>
    ((p streams).1, { h with instruments := h.instruments.insert instrumentId (p streams).2 })

/-- Ingest one canonical event. -/
def ingest (event : MarketEvent) (receiveWall : WallTime) :
    Fallible MarketDataHub HubError IngestOutcome :=
  onStreams event.instrumentId (InstrumentStreams.ingest event receiveWall)

/-- Ingest one historical bar. -/
def ingestBar (bar : Bar) (sequence : ℕ) : Fallible MarketDataHub HubError BarUpdate :=
  onStreams bar.instrumentId (InstrumentStreams.ingestBar bar sequence)

/-- Install an authoritative depth snapshot. -/
def recoverBook (instrumentId : InstrumentId) (sequence : ℕ) (bids asks : List (Int × Int)) :
    Fallible MarketDataHub HubError Unit :=
  onStreams instrumentId (InstrumentStreams.recoverBook sequence bids asks)

/-- Restart a quote or trade stream after a verified provider snapshot. -/
def recoverStream (instrumentId : InstrumentId) (kind : StreamKind) (sequence : ℕ)
    (received : MonoTime) : Fallible MarketDataHub HubError Unit :=
  onStreams instrumentId (InstrumentStreams.recoverStream kind sequence received)

/-- Mark the quote and trade feeds stale whose freshness deadline has passed. -/
def markStale (h : MarketDataHub) (now : MonoTime) (maxAgeNs : ℕ) : MarketDataHub :=
  { h with instruments := h.instruments.map fun _ s =>
      { s with
        quoteHealth := s.quoteHealth.markStaleIfDue now maxAgeNs
        tradeHealth := s.tradeHealth.markStaleIfDue now maxAgeNs } }

/-- How many instruments there are, and how many have an unhealthy stream. -/
def healthCounts (hub : MarketDataHub) : ℕ × ℕ :=
  (hub.instruments.size, (hub.instruments.values.filter fun s =>
    s.quoteHealth.quality ≠ .good ∨ s.tradeHealth.quality ≠ .good
      ∨ s.book.health ≠ .good).length)

/-- The streams of a registered instrument. -/
def snapshot (h : MarketDataHub) (instrumentId : InstrumentId) : Option InstrumentStreams :=
  h.instruments[instrumentId]?

end MarketDataHub

end InsiderTrader
