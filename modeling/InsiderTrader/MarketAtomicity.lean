import InsiderTrader.Backfill

/-!
# Market events that are refused

An event that the hub refuses leaves the market state as it was: quotes, trades,
bars, levels, and the place in every sequence. A depth change that would cross
the book is the exception: its levels are taken back, its sequence number is not.

## Main definitions

- `MarketState` — what a refused event may not change
- `MarketDataHub.Crosses` — an event that is next in its book and would cross it

## Main results

- `ingest_quote`, `ingest_trade`, `ingest_book` — each kind of event, case by case
- `ingest_atomic_iff` — the events whose refusal leaves the market state
-/

namespace InsiderTrader

open Fallible MachineInt

/-- The market state of an instrument. -/
structure MarketState where
  quote : Option Quote
  trade : Option Trade
  trades : List Trade
  bars : Option BarAggregator
  bids : Std.TreeMap Int Int
  asks : Std.TreeMap Int Int
  quoteSequence : SequenceTracker
  tradeSequence : SequenceTracker
  bookSequence : SequenceTracker

/-- The market state that the streams hold, without their health. -/
def InstrumentStreams.marketState (s : InstrumentStreams) : MarketState :=
  ⟨s.quote, s.trade, s.trades, s.bars, s.book.bids, s.book.asks, s.quoteHealth.sequence,
    s.tradeHealth.sequence, s.book.sequence⟩

-- Sequences that do not accept

/-- What the hub answers to a number that is not the next one. -/
def SequenceStatus.refusal : SequenceStatus → Except HubError IngestOutcome
  | gap expected received => .error (.gap expected received)
  | _ => .ok .duplicate

/-- The health of a stream after a number that it accepts. -/
theorem StreamHealth.observe_of_accepts {h : StreamHealth} {sequence : ℕ}
    (haccepts : h.sequence.Accepts sequence) (received : MonoTime) :
    h.observe sequence received =
      (h.sequence.status sequence, ⟨some received, .good, ⟨some sequence⟩⟩) := by
  rw [observe, SequenceTracker.observe_of_accepts haccepts]
  rcases haccepts with hs | hs
  · rw [hs]
  · rw [hs]

/-- The health of a stream after a number that it does not accept. -/
theorem StreamHealth.observe_of_not_accepts {h : StreamHealth} {sequence : ℕ}
    (hnot : ¬h.sequence.Accepts sequence) (received : MonoTime) :
    h.observe sequence received =
      (h.sequence.status sequence, ⟨some received, .degraded, h.sequence⟩) := by
  rw [observe, SequenceTracker.observe_of_not_accepts hnot]
  cases hs : h.sequence.status sequence with
  | initial => exact absurd (.inl hs) hnot
  | contiguous => exact absurd (.inr hs) hnot
  | duplicate => rfl
  | gap => rfl

-- The book

namespace DepthBook

/-- Levels cross when a bid is at or above an ask. -/
theorem crossed_iff {bids asks : Std.TreeMap Int Int} :
    crossed bids asks = true ↔ ∃ bid ∈ bids, ∃ ask ∈ asks, ask ≤ bid := by
  constructor
  · intro h
    rw [crossed] at h
    split at h
    · next bid ask hbid hask =>
      exact ⟨bid, Std.TreeMap.contains_maxKey? hbid, ask, Std.TreeMap.contains_minKey? hask,
        of_decide_eq_true h⟩
    · cases h
  · rintro ⟨bid, hbid, ask, hask, hle⟩
    obtain ⟨best, hbest⟩ := Option.isSome_iff_exists.mp (Std.TreeMap.isSome_maxKey?_of_mem hbid)
    obtain ⟨least, hleast⟩ := Option.isSome_iff_exists.mp (Std.TreeMap.isSome_minKey?_of_mem hask)
    have hup : (compare bid best).isLE := Std.TreeMap.le_maxKey?_of_mem hbid (by simp [hbest])
    have hdown : (compare least ask).isLE :=
      Std.TreeMap.minKey?_le_of_mem hask (by simp [hleast])
    rw [Int.isLE_compare] at hup hdown
    rw [crossed, hbest, hleast]
    exact decide_eq_true (hdown.trans (hle.trans hup))

/-- A level of a delta must be one. -/
def Admits (b : DepthBook) (delta : BookDelta) : Prop :=
  delta.instrumentId = b.instrumentId ∧ 0 < delta.priceTicks ∧ 0 ≤ delta.quantityTicks

instance (b : DepthBook) (delta : BookDelta) : Decidable (b.Admits delta) :=
  inferInstanceAs (Decidable (_ ∧ _))

/-- The levels of a side after a delta. -/
def after (b : DepthBook) (delta : BookDelta) (side : BookSide) (levels : Std.TreeMap Int Int) :
    Std.TreeMap Int Int :=
  if side = delta.side then
    trim side b.depthLimit (setLevel levels delta.priceTicks delta.quantityTicks)
  else levels

/-- The levels after a delta cross. -/
def crossedBy (b : DepthBook) (delta : BookDelta) : Bool :=
  crossed (b.after delta .bid b.bids) (b.after delta .ask b.asks)

variable {b : DepthBook} {delta : BookDelta}

theorem apply_of_not_admits (h : ¬b.Admits delta) : apply delta b = (.error .invalidLevel, b) := by
  rw [apply, reads_bind, id, if_pos]
  · rfl
  · simp only [Admits, not_and_or, not_lt, not_le] at h
    exact h

/-- **Specification of a delta** that is not the next one: it changes the health only. -/
theorem apply_of_not_accepts (h : b.Admits delta) (hnot : ¬b.sequence.Accepts delta.sequence) :
    apply delta b = (match b.sequence.status delta.sequence with
      | .gap expected received => .error (.gap expected received)
      | _ => .ok .duplicate, { b with health := .degraded }) := by
  obtain ⟨hid, hprice, hquantity⟩ := h
  rw [apply, reads_bind, id, if_neg (by simp [hid, hprice, hquantity]),
    SequenceTracker.observe_of_not_accepts hnot]
  cases hs : b.sequence.status delta.sequence with
  | initial => exact absurd (.inl hs) hnot
  | contiguous => exact absurd (.inr hs) hnot
  | duplicate => rfl
  | gap => rfl

/-- **Specification of a delta** that is the next one: its levels are taken unless they cross, its
sequence number is taken in both cases. -/
theorem apply_of_accepts (h : b.Admits delta) (haccepts : b.sequence.Accepts delta.sequence) :
    apply delta b =
      if b.crossedBy delta then
        (.error .crossed, { b with sequence := ⟨some delta.sequence⟩, health := .degraded })
      else
        (.ok (b.sequence.status delta.sequence),
          { b with
            bids := b.after delta .bid b.bids
            asks := b.after delta .ask b.asks
            sequence := ⟨some delta.sequence⟩
            health := .good }) := by
  obtain ⟨hid, hprice, hquantity⟩ := h
  rw [apply, reads_bind, id, if_neg (by simp [hid, hprice, hquantity]),
    SequenceTracker.observe_of_accepts haccepts]
  rcases haccepts with hs | hs
  all_goals
    rw [hs]
    by_cases hcrossed : b.crossedBy delta = true
    · rw [if_pos hcrossed]
      exact (congrFun (if_pos hcrossed) b).trans rfl
    · rw [if_neg hcrossed]
      exact (congrFun (if_neg hcrossed) b).trans rfl

end DepthBook

-- The streams of one instrument

namespace InstrumentStreams

variable {s : InstrumentStreams} {q : Quote} {t : Trade} {delta : BookDelta} {event : MarketEvent}
  {wall : WallTime}

theorem ingest_quote_of_invalid {e : EventError} (h : q.validate wall = .error e)
    (s : InstrumentStreams) : ingest (.quote q) wall s = (.error (.event e), s) := by
  rw [ingest, reads_bind]
  dsimp only [id]
  rw [h]
  rfl

/-- **Specification of a quote** that is valid: one that is the next is taken, another changes the
health only. -/
theorem ingest_quote (h : q.validate wall = .ok ()) (s : InstrumentStreams) :
    ingest (.quote q) wall s =
      if s.quoteHealth.sequence.Accepts q.sequence then
        (.ok (.accepted (s.quoteHealth.sequence.status q.sequence)),
          { s with
            quote := some q
            quoteHealth := ⟨some q.receivedMono, .good, ⟨some q.sequence⟩⟩ })
      else
        ((s.quoteHealth.sequence.status q.sequence).refusal,
          { s with
            quoteHealth := ⟨some q.receivedMono, .degraded, s.quoteHealth.sequence⟩ }) := by
  rw [ingest, reads_bind]
  dsimp only [id]
  rw [h, ofExcept_bind_ok mapError_ok]
  by_cases haccepts : s.quoteHealth.sequence.Accepts q.sequence
  · rw [if_pos haccepts, StreamHealth.observe_of_accepts haccepts]
    rcases haccepts with hs | hs
    · rw [hs]
      rfl
    · rw [hs]
      rfl
  · rw [if_neg haccepts, StreamHealth.observe_of_not_accepts haccepts]
    cases hs : s.quoteHealth.sequence.status q.sequence with
    | initial => exact absurd (.inl hs) haccepts
    | contiguous => exact absurd (.inr hs) haccepts
    | duplicate => rfl
    | gap => rfl

theorem ingest_trade_of_invalid {e : EventError} (h : t.validate wall = .error e)
    (s : InstrumentStreams) : ingest (.trade t) wall s = (.error (.event e), s) := by
  rw [ingest, reads_bind]
  dsimp only [id]
  rw [h]
  rfl

/-- **Specification of a trade** that is valid and not the next one: it changes the health only. -/
theorem ingest_trade_of_not_accepts (h : t.validate wall = .ok ())
    (hnot : ¬s.tradeHealth.sequence.Accepts t.sequence) :
    ingest (.trade t) wall s =
      ((s.tradeHealth.sequence.status t.sequence).refusal,
        { s with tradeHealth := ⟨some t.receivedMono, .degraded, s.tradeHealth.sequence⟩ }) := by
  rw [ingest, reads_bind]
  dsimp only [id]
  rw [h, ofExcept_bind_ok mapError_ok, StreamHealth.observe_of_not_accepts hnot]
  cases hs : s.tradeHealth.sequence.status t.sequence with
  | initial => exact absurd (.inl hs) hnot
  | contiguous => exact absurd (.inr hs) hnot
  | duplicate => rfl
  | gap => rfl

/-- The recent trades with one more. -/
def withTrade (s : InstrumentStreams) (t : Trade) : List Trade :=
  (s.trades ++ [t]).drop ((s.trades ++ [t]).length - 512)

/-- **Specification of a trade** that is valid and the next one: it is taken unless the bars refuse
it. -/
theorem ingest_trade (h : t.validate wall = .ok ())
    (haccepts : s.tradeHealth.sequence.Accepts t.sequence) :
    ingest (.trade t) wall s =
      match (ingestTrade t wall s).1 with
      | .error e => (.error (.event e), { s with bars := (ingestTrade t wall s).2.bars })
      | .ok _ =>
        (.ok (.accepted (s.tradeHealth.sequence.status t.sequence)),
          { s with
            trade := some t
            trades := s.withTrade t
            tradeHealth := ⟨some t.receivedMono, .good, ⟨some t.sequence⟩⟩
            bars := (ingestTrade t wall s).2.bars }) := by
  rw [ingest, reads_bind]
  dsimp only [id]
  rw [h, ofExcept_bind_ok mapError_ok, StreamHealth.observe_of_accepts haccepts]
  dsimp only
  rw [modify_bind]
  have hbars : ingestTrade t wall
      { s with tradeHealth := ⟨some t.receivedMono, .good, ⟨some t.sequence⟩⟩ } =
      ((ingestTrade t wall s).1,
        { s with
          tradeHealth := ⟨some t.receivedMono, .good, ⟨some t.sequence⟩⟩
          bars := (ingestTrade t wall s).2.bars }) := by
    simp only [ingestTrade]
    cases hb : s.bars with
    | none => rw [hb]
    | some bars => rfl
  rcases haccepts with hs | hs
  all_goals
    rw [hs]
    dsimp only
    rw [attempt_bind, hbars]
    rcases (ingestTrade t wall s).1 with e | update
    · rfl
    · rfl

/-- Bars that refuse a trade stay as they are. -/
theorem ingestTrade_of_error (hinterval : ∀ bars ∈ s.bars, (narrow 64 bars.intervalNs).isSome)
    {e : EventError} (h : (ingestTrade t wall s).1 = .error e) :
    (ingestTrade t wall s).2.bars = s.bars := by
  rw [ingestTrade] at h ⊢
  cases hbars : s.bars with
  | none => exact hbars
  | some bars =>
    rw [hbars] at h
    dsimp only at h ⊢
    by_cases hvalid : t.instrumentId = bars.instrumentId ∧ t.validate wall = .ok ()
    · by_cases haccepts : bars.sequence.Accepts t.sequence
      · obtain ⟨update, -, hupdate, -⟩ := BarAggregator.ingest_of_accepts hvalid.1 hvalid.2
          (hinterval bars hbars) haccepts
        rw [hupdate] at h
        cases h
      · rw [BarAggregator.ingest_of_not_accepts hvalid.1 hvalid.2 haccepts]
    · obtain ⟨e', he'⟩ := BarAggregator.ingest_of_invalid t wall bars hvalid
      rw [he']

/-- **Specification of a depth change**: what the book makes of it. -/
theorem ingest_book (delta : BookDelta) (wall : WallTime) (s : InstrumentStreams) :
    ingest (.book delta) wall s =
      (match (DepthBook.apply delta s.book).1 with
        | .error (.gap expected received) => .error (.gap expected received)
        | .error e => .error (.book e)
        | .ok .duplicate => .ok .duplicate
        | .ok status => .ok (.accepted status),
        { s with book := (DepthBook.apply delta s.book).2 }) := by
  rw [ingest, reads_bind]
  dsimp only [id]
  rw [bind_apply, zoom_apply]
  rcases (DepthBook.apply delta s.book).1 with e | status
  · cases e <;> rfl
  · cases status <;> rfl

/-- The event is the next depth change of the book, and would cross it. -/
def Crosses (s : InstrumentStreams) (event : MarketEvent) : Prop :=
  ∃ delta, event = .book delta ∧ s.book.Admits delta ∧ s.book.sequence.Accepts delta.sequence ∧
    s.book.crossedBy delta = true

/-- **An event that is refused** leaves the market state, unless it would cross the book. -/
theorem ingest_marketState (hinterval : ∀ bars ∈ s.bars, (narrow 64 bars.intervalNs).isSome)
    (hcrosses : ¬s.Crosses event) (hfail : ¬(ingest event wall).Succeeds s) :
    (ingest event wall s).2.marketState = s.marketState := by
  rw [Succeeds] at hfail
  cases event with
  | quote q =>
    cases hvalid : q.validate wall with
    | error e => rw [ingest_quote_of_invalid hvalid]
    | ok _ =>
      rw [ingest_quote hvalid] at hfail ⊢
      split at hfail
      · exact absurd rfl hfail
      · next hnot =>
        rw [if_neg hnot]
        rfl
  | trade t =>
    cases hvalid : t.validate wall with
    | error e => rw [ingest_trade_of_invalid hvalid]
    | ok _ =>
      by_cases haccepts : s.tradeHealth.sequence.Accepts t.sequence
      · rw [ingest_trade hvalid haccepts] at hfail ⊢
        cases hbars : (ingestTrade t wall s).1 with
        | error e =>
          dsimp only
          rw [ingestTrade_of_error hinterval hbars]
        | ok update =>
          rw [hbars] at hfail
          exact absurd rfl hfail
      · rw [ingest_trade_of_not_accepts hvalid haccepts]
        rfl
  | book delta =>
    rw [ingest_book] at hfail ⊢
    by_cases hadmits : s.book.Admits delta
    · by_cases haccepts : s.book.sequence.Accepts delta.sequence
      · have hcrossed : ¬s.book.crossedBy delta = true := fun hcrossed =>
          hcrosses ⟨delta, rfl, hadmits, haccepts, hcrossed⟩
        rw [DepthBook.apply_of_accepts hadmits haccepts, if_neg hcrossed] at hfail
        rcases haccepts with hs | hs
        · rw [hs] at hfail
          exact absurd rfl hfail
        · rw [hs] at hfail
          exact absurd rfl hfail
      · rw [DepthBook.apply_of_not_accepts hadmits haccepts]
        rfl
    · rw [DepthBook.apply_of_not_admits hadmits]

/-- An event that would cross the book is refused, and is the last of the sequence from then on. -/
theorem ingest_crosses (h : s.Crosses event) (wall : WallTime) :
    ¬(ingest event wall).Succeeds s ∧
      (ingest event wall s).2.book.sequence ≠ s.book.sequence := by
  obtain ⟨delta, rfl, hadmits, haccepts, hcrossed⟩ := h
  rw [Succeeds, ingest_book, DepthBook.apply_of_accepts hadmits haccepts, if_pos hcrossed]
  refine ⟨Bool.false_ne_true, fun heq => ?_⟩
  have hlast : s.book.sequence.last = some delta.sequence :=
    (congrArg SequenceTracker.last heq).symm
  exact lt_irrefl _ ((SequenceTracker.accepts_iff.mp haccepts).2 _ hlast).1

end InstrumentStreams

-- The hub

namespace MarketDataHub

/-- The market state of every instrument is the same. -/
def Untouched (h h' : MarketDataHub) : Prop :=
  ∀ i : InstrumentId, h'.instruments[i]?.map InstrumentStreams.marketState =
    h.instruments[i]?.map InstrumentStreams.marketState

/-- The event is the next depth change of a registered instrument, and would cross its book. -/
def Crosses (h : MarketDataHub) (event : MarketEvent) : Prop :=
  ∃ s, h.instruments[event.instrumentId]? = some s ∧ s.Crosses event

theorem untouched_refl (h : MarketDataHub) : h.Untouched h := fun _ => rfl

theorem succeeds_onStreams {α : Type} {i : InstrumentId} {p : Fallible InstrumentStreams HubError α}
    {h : MarketDataHub} {s : InstrumentStreams} (hget : h.instruments[i]? = some s) :
    (onStreams i p).Succeeds h ↔ p.Succeeds s := by
  rw [Succeeds, Succeeds, onStreams, hget]

/-- **Refused market events**, in any hub with sound bars. -/
theorem untouched_ingest_iff {h : MarketDataHub} (ha : h.Aligned) (event : MarketEvent)
    (wall : WallTime) :
    (¬(MarketDataHub.ingest event wall).Succeeds h →
        h.Untouched (MarketDataHub.ingest event wall h).2) ↔ ¬h.Crosses event := by
  cases hget : h.instruments[event.instrumentId]? with
  | none =>
    have hsame : (MarketDataHub.ingest event wall h).2 = h := by
      rw [MarketDataHub.ingest, onStreams, hget]
    constructor
    · rintro - ⟨s, hs, -⟩
      cases hget.symm.trans hs
    · intro _ _
      rw [hsame]
      exact h.untouched_refl
  | some s =>
    have hcrosses : h.Crosses event ↔ s.Crosses event := by
      refine ⟨?_, fun hs => ⟨s, hget, hs⟩⟩
      rintro ⟨s', hs', hcrosses⟩
      cases hget.symm.trans hs'
      exact hcrosses
    rw [MarketDataHub.ingest, succeeds_onStreams hget, hcrosses]
    constructor
    · intro hkeep hs
      obtain ⟨hfail, hmoved⟩ := InstrumentStreams.ingest_crosses hs wall
      have hstate := hkeep hfail event.instrumentId
      rw [getElem?_onStreams, if_pos rfl, hget, Option.map_some, Option.map_some,
        Option.map_some, Option.some.injEq] at hstate
      exact hmoved (congrArg MarketState.bookSequence hstate)
    · intro hs hfail i
      rw [getElem?_onStreams]
      split
      · next hi =>
        subst hi
        rw [hget, Option.map_some, Option.map_some, Option.map_some,
          InstrumentStreams.ingest_marketState (ha _ s hget).interval hs hfail]
      · rfl

end MarketDataHub

open MarketDataHub

/-- **Refused market events**: in every hub that calls have led to, an event that is refused leaves
the market state of every instrument exactly when it is not the next depth change of its book, or
does not cross it. -/
theorem ingest_atomic_iff {maxInstruments depth capacity : ℕ} {intervalNs : Option ℕ}
    {hub : MarketDataHub} (hnew : withBounds maxInstruments depth intervalNs capacity = some hub)
    {run : List HubOp} (hfits : ∀ op ∈ run, op.Fits) (event : MarketEvent) (wall : WallTime) :
    (¬(MarketDataHub.ingest event wall).Succeeds (Runs.final HubOp.apply hub run) →
        (Runs.final HubOp.apply hub run).Untouched
          (MarketDataHub.ingest event wall (Runs.final HubOp.apply hub run)).2) ↔
      ¬(Runs.final HubOp.apply hub run).Crosses event :=
  untouched_ingest_iff (aligned_after hnew hfits) event wall

namespace Sample

/-- The first bid of the instrument. -/
def firstBid : BookDelta := ⟨7, 1, .bid, 10, 1⟩

/-- The next change, an ask below the bid. -/
def lowAsk : BookDelta := ⟨7, 2, .ask, 9, 1⟩

/-- The instrument is registered, and its book has a bid. -/
def bidRun : List HubOp := registered ++ [.tick (.event (.book firstBid) 0)]

/-- The book with the bid. -/
def bidBook : DepthBook := ⟨7, (∅ : Std.TreeMap Int Int).insert 10 1, ∅, ⟨some 1⟩, .good, 4⟩

theorem apply_firstBid : DepthBook.apply firstBid (.new 7 4) = (.ok .initial, bidBook) := by
  have hcrossed : ¬(DepthBook.new 7 4).crossedBy firstBid = true := by
    rw [DepthBook.crossedBy, DepthBook.crossed_iff]
    rintro ⟨bid, -, ask, hask, -⟩
    exact Std.TreeMap.not_mem_emptyc hask
  rw [DepthBook.apply_of_accepts (by decide) (by decide), if_neg hcrossed]
  rfl

theorem bidRun_book : ∃ s, (Runs.final HubOp.apply emptyHub bidRun).instruments[(7 : ℕ)]? = some s ∧
    s.book = bidBook := by
  have hget : (Runs.final HubOp.apply emptyHub registered).instruments[(7 : ℕ)]? =
      some (.new 7 4 (some 60000000000) 8) := rfl
  have hid : (MarketEvent.book firstBid).instrumentId = 7 := rfl
  have hbook : (DepthBook.apply firstBid (InstrumentStreams.new 7 4 (some 60000000000) 8).book).2 =
      bidBook := congrArg Prod.snd apply_firstBid
  refine ⟨{ InstrumentStreams.new 7 4 (some 60000000000) 8 with book := bidBook }, ?_, rfl⟩
  rw [bidRun, Runs.final_append, Runs.final_cons, Runs.final_nil, HubOp.apply, TickOp.apply,
    MarketDataHub.ingest, getElem?_onStreams, if_pos hid, hget, Option.map_some,
    InstrumentStreams.ingest_book, hbook]

/-- A quote without a bid. -/
def bidless : Quote :=
  { instrumentId := 7, sequence := 1, exchangeTime := 0, receivedMono := 0, bidTicks := 0,
    askTicks := 1, bidQuantityTicks := 1, askQuantityTicks := 1 }

theorem bidRun_fits : ∀ op ∈ bidRun, op.Fits := by
  simp [bidRun, registered, firstBid, HubOp.Fits, TickOp.Fits, MarketEvent.sequence, u64Max]

theorem bidRun_crosses :
    (Runs.final HubOp.apply emptyHub bidRun).Crosses (.book lowAsk) := by
  obtain ⟨s, hget, hbook⟩ := bidRun_book
  refine ⟨s, hget, lowAsk, rfl, ?_, ?_, ?_⟩
  · rw [hbook]
    decide
  · rw [hbook]
    decide
  · rw [hbook, DepthBook.crossedBy, DepthBook.crossed_iff]
    refine ⟨10, ?_, 9, ?_, by decide⟩
    · rw [Std.TreeMap.mem_iff_contains]
      decide
    · rw [Std.TreeMap.mem_iff_contains]
      decide

end Sample

/-- A quote without a bid is refused and changes nothing. -/
theorem ingest_atomic_quote :
    ¬(MarketDataHub.ingest (.quote Sample.bidless) 0).Succeeds
        (Runs.final HubOp.apply Sample.emptyHub Sample.bidRun) ∧
      (Runs.final HubOp.apply Sample.emptyHub Sample.bidRun).Untouched
        (MarketDataHub.ingest (.quote Sample.bidless) 0
          (Runs.final HubOp.apply Sample.emptyHub Sample.bidRun)).2 := by
  obtain ⟨s, hget, -⟩ := Sample.bidRun_book
  have hid : (MarketEvent.quote Sample.bidless).instrumentId = 7 := rfl
  have hinvalid : Sample.bidless.validate 0 = .error .nonPositiveValue := rfl
  have hfail : ¬(MarketDataHub.ingest (.quote Sample.bidless) 0).Succeeds
      (Runs.final HubOp.apply Sample.emptyHub Sample.bidRun) := by
    rw [MarketDataHub.ingest, hid, succeeds_onStreams hget, Succeeds,
      InstrumentStreams.ingest_quote_of_invalid hinvalid]
    exact Bool.false_ne_true
  have hnew : withBounds 2 4 (some 60000000000) 8 = some Sample.emptyHub := rfl
  refine ⟨hfail, (ingest_atomic_iff hnew Sample.bidRun_fits _ _).mpr ?_ hfail⟩
  rintro ⟨s, -, delta, hevent, -⟩
  cases hevent

/-- **A refused depth change moves the sequence on**: an ask below the best bid is refused as
crossed, and the book takes the number for seen. -/
theorem ingest_atomic_crossed : ¬∀ (run : List HubOp), (∀ op ∈ run, op.Fits) →
    ∀ (event : MarketEvent) (wall : WallTime),
      ¬(MarketDataHub.ingest event wall).Succeeds (Runs.final HubOp.apply Sample.emptyHub run) →
        (Runs.final HubOp.apply Sample.emptyHub run).Untouched
          (MarketDataHub.ingest event wall (Runs.final HubOp.apply Sample.emptyHub run)).2 := by
  intro hatomic
  have hnew : withBounds 2 4 (some 60000000000) 8 = some Sample.emptyHub := rfl
  exact (untouched_ingest_iff (aligned_after hnew Sample.bidRun_fits) (.book Sample.lowAsk) 0).mp
    (hatomic Sample.bidRun Sample.bidRun_fits _ _) Sample.bidRun_crosses

end InsiderTrader
