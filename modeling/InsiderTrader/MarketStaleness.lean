import InsiderTrader.Library.MapSum
import InsiderTrader.MarketAtomicity

/-!
# Stale feeds

A sweep marks the feeds stale that are older than a deadline. Quote and trade
feeds carry the time of the last event; a book carries a flag only, and the
sweep does not come to it.

## Main definitions

- `MarketDataHub.unhealthyStreams` — the instruments that are counted as unhealthy
- `WatchedHub` — a hub, and beside it when each feed last accepted something
- `WatchedHub.Swept` — every feed past the deadline shows it

## Main results

- `WatchedHub.dated_after` — a quote or trade feed that is good has the time of its last event
- `swept_iff` — the sweeps after which every feed past the deadline shows it
-/

namespace InsiderTrader

open Fallible

namespace InstrumentStreams

/-- The quality of a feed. -/
def quality (s : InstrumentStreams) : StreamKind → Quality
  | .quote => s.quoteHealth.quality
  | .trade => s.tradeHealth.quality
  | .book => s.book.health

/-- Some feed of the instrument is not good. -/
def unhealthy (s : InstrumentStreams) : Bool :=
  s.quoteHealth.quality ≠ .good ∨ s.tradeHealth.quality ≠ .good ∨ s.book.health ≠ .good

theorem unhealthy_of_quality {s : InstrumentStreams} {kind : StreamKind}
    (h : s.quality kind ≠ .good) : s.unhealthy = true := by
  apply decide_eq_true
  cases kind with
  | quote => exact .inl h
  | trade => exact .inr (.inl h)
  | book => exact .inr (.inr h)

end InstrumentStreams

namespace MarketDataHub

/-- The instruments with a feed that is not good. -/
def unhealthyStreams (h : MarketDataHub) : List (InstrumentId × InstrumentStreams) :=
  h.instruments.toList.filter (·.2.unhealthy)

theorem mem_unhealthyStreams {h : MarketDataHub} {i : InstrumentId} {s : InstrumentStreams}
    (hget : h.instruments[i]? = some s) (hs : s.unhealthy = true) :
    (i, s) ∈ h.unhealthyStreams :=
  List.mem_filter.mpr ⟨Std.TreeMap.mem_toList_iff_getElem?_eq_some.mpr hget, hs⟩

end MarketDataHub

/-- The feed an event belongs to. -/
def MarketEvent.kind : MarketEvent → StreamKind
  | quote _ => .quote
  | trade _ => .trade
  | book _ => .book

/-- When an event was received; a depth change carries no time of its own. -/
def MarketEvent.receivedAt (time : MonoTime) : MarketEvent → MonoTime
  | quote value => value.receivedMono
  | trade value => value.receivedMono
  | book _ => time

/-- What the outcome of an event says was accepted, and when it was received. -/
def IngestOutcome.received (event : MarketEvent) (time : MonoTime) :
    Except HubError IngestOutcome → Option (StreamKind × MonoTime)
  | .ok (.accepted _) => some (event.kind, event.receivedAt time)
  | _ => none

/-- What the outcome of a recovery says was recovered. -/
def recovered (kind : StreamKind) (time : MonoTime) :
    Except HubError Unit → Option (StreamKind × MonoTime)
  | .ok _ => some (kind, time)
  | .error _ => none

/-- A feed of an instrument, and the time it is noted at. -/
def feedOf (i : InstrumentId) (received : StreamKind × MonoTime) :
    (InstrumentId × StreamKind) × MonoTime := ((i, received.1), received.2)

/-- What a call at a time makes a feed accept: the feed, and when it was received. -/
def TickOp.acceptance (time : MonoTime) (h : MarketDataHub) :
    TickOp → Option ((InstrumentId × StreamKind) × MonoTime)
  | event e receiveWall =>
    (IngestOutcome.received e time (MarketDataHub.ingest e receiveWall h).1).map
      (feedOf e.instrumentId)
  | recoverBook i sequence bids asks =>
    (recovered .book time (MarketDataHub.recoverBook i sequence bids asks h).1).map (feedOf i)
  | recoverStream i kind sequence received =>
    (recovered kind received (MarketDataHub.recoverStream i kind sequence received h).1).map
      (feedOf i)

/-- A hub, and beside it when each feed last accepted an event or was recovered. -/
structure WatchedHub where
  hub : MarketDataHub
  lastAccepted : InstrumentId × StreamKind → Option MonoTime

/-- A call of the hub at a time. -/
structure TimedOp where
  time : MonoTime
  op : HubOp

namespace WatchedHub

/-- Note an acceptance. -/
def note (lastAccepted : InstrumentId × StreamKind → Option MonoTime)
    (acceptance : Option ((InstrumentId × StreamKind) × MonoTime))
    (feed : InstrumentId × StreamKind) : Option MonoTime :=
  match acceptance with
  | none => lastAccepted feed
  | some (noted, time) => if noted = feed then some time else lastAccepted feed

/-- One call. -/
def step (call : TimedOp) (w : WatchedHub) : WatchedHub :=
  ⟨call.op.apply w.hub, note w.lastAccepted
    (match call.op with
      | .tick op => op.acceptance call.time w.hub
      | _ => none)⟩

/-- A hub that has accepted nothing. -/
def start (hub : MarketDataHub) : WatchedHub := ⟨hub, fun _ => none⟩

/-- After a sweep, every feed that last accepted something before the deadline is not good, and its
instrument is counted as unhealthy. -/
def Swept (w : WatchedHub) (now : MonoTime) (maxAgeNs : ℕ) : Prop :=
  ∀ (i : InstrumentId) s kind time,
    (w.hub.markStale now maxAgeNs).instruments[i]? = some s →
      w.lastAccepted (i, kind) = some time → maxAgeNs < now - time →
        s.quality kind ≠ .good ∧ (i, s) ∈ (w.hub.markStale now maxAgeNs).unhealthyStreams

/-- The books that are good last accepted something after the deadline. -/
def BooksCurrent (w : WatchedHub) (now : MonoTime) (maxAgeNs : ℕ) : Prop :=
  ∀ (i : InstrumentId) s time, w.hub.instruments[i]? = some s → s.book.health = .good →
    w.lastAccepted (i, .book) = some time → now - time ≤ maxAgeNs

end WatchedHub

-- The time of a feed

theorem Quality.degraded_ne_good : degraded ≠ good := by decide

theorem Quality.stale_ne_good : stale ≠ good := by decide

namespace StreamHealth

/-- A good feed has the time of what it last accepted. -/
def Dated (h : StreamHealth) (accepted : Option MonoTime) : Prop :=
  h.quality = .good → ∃ time, h.lastReceived = some time ∧ accepted = some time

/-- The feed is as it was, or it is not good. -/
def Weakened (h h' : StreamHealth) : Prop := h' = h ∨ h'.quality ≠ .good

variable {h h' : StreamHealth} {accepted : Option MonoTime}

theorem weakened_refl (h : StreamHealth) : h.Weakened h := .inl rfl

theorem Dated.weaken (hdated : h.Dated accepted) (hweak : h.Weakened h') : h'.Dated accepted := by
  rcases hweak with rfl | hweak
  · exact hdated
  · exact fun hgood => absurd hgood hweak

theorem dated_of_received {time : MonoTime} (hreceived : h.lastReceived = some time) :
    h.Dated (some time) := fun _ => ⟨time, hreceived, rfl⟩

theorem weakened_markStaleIfDue (h : StreamHealth) (now : MonoTime) (maxAgeNs : ℕ) :
    h.Weakened (h.markStaleIfDue now maxAgeNs) := by
  rw [markStaleIfDue]
  split
  · exact .inr Quality.stale_ne_good
  · exact .inl rfl

/-- **The sweep of a feed** that has the time of what it last accepted. -/
theorem Dated.swept (hdated : h.Dated accepted) {time now : MonoTime} {maxAgeNs : ℕ}
    (htime : accepted = some time) (hold : maxAgeNs < now - time) :
    (h.markStaleIfDue now maxAgeNs).quality ≠ .good := by
  intro hgood
  have hgood' : h.quality = .good := by
    rcases weakened_markStaleIfDue h now maxAgeNs with heq | hne
    · rwa [heq] at hgood
    · exact absurd hgood hne
  obtain ⟨last, hlast, haccepted⟩ := hdated hgood'
  cases htime.symm.trans haccepted
  rw [markStaleIfDue, if_pos] at hgood
  · cases hgood
  · rw [hlast]
    exact decide_eq_true hold

end StreamHealth

namespace InstrumentStreams

/-- The health record of a feed, when it has one. -/
def feed (s : InstrumentStreams) : StreamKind → Option StreamHealth
  | .quote => some s.quoteHealth
  | .trade => some s.tradeHealth
  | .book => none

/-- What becomes of the feeds of an instrument, when `received` is the one that accepts. -/
def Feeds (s s' : InstrumentStreams) (received : Option (StreamKind × MonoTime)) : Prop :=
  ∀ kind, ∀ health' ∈ s'.feed kind,
    (∃ time, received = some (kind, time) ∧ health'.lastReceived = some time) ∨
      (∀ time, received ≠ some (kind, time)) ∧ ∃ health ∈ s.feed kind, health.Weakened health'

variable {s s' : InstrumentStreams}

/-- Feeds that are as they were or not good. -/
theorem feeds_none (hquote : s.quoteHealth.Weakened s'.quoteHealth)
    (htrade : s.tradeHealth.Weakened s'.tradeHealth) : s.Feeds s' none := by
  intro kind health' hhealth'
  refine .inr ⟨fun time heq => Option.some_ne_none _ heq.symm, ?_⟩
  cases kind with
  | quote =>
    cases hhealth'
    exact ⟨_, rfl, hquote⟩
  | trade =>
    cases hhealth'
    exact ⟨_, rfl, htrade⟩
  | book => cases hhealth'

/-- One feed accepts, the others are as they were. -/
theorem feeds_some {kind : StreamKind} {time : MonoTime}
    (hkind : ∀ health ∈ s'.feed kind, health.lastReceived = some time)
    (hother : ∀ other, other ≠ kind → s'.feed other = s.feed other) :
    s.Feeds s' (some (kind, time)) := by
  intro other health' hhealth'
  by_cases hsame : other = kind
  · subst hsame
    exact .inl ⟨time, rfl, hkind health' hhealth'⟩
  · refine .inr ⟨fun time' heq => ?_, health', ?_, health'.weakened_refl⟩
    · exact hsame (congrArg Prod.fst (Option.some.inj heq)).symm
    · rwa [← hother other hsame]

theorem feeds_quote {time : MonoTime} (hquote : s'.quoteHealth.lastReceived = some time)
    (htrade : s'.tradeHealth = s.tradeHealth) : s.Feeds s' (some (.quote, time)) := by
  refine feeds_some (fun health hhealth => ?_) fun other hne => ?_
  · cases hhealth
    exact hquote
  · cases other with
    | quote => exact absurd rfl hne
    | trade => exact congrArg some htrade
    | book => rfl

theorem feeds_trade {time : MonoTime} (htrade : s'.tradeHealth.lastReceived = some time)
    (hquote : s'.quoteHealth = s.quoteHealth) : s.Feeds s' (some (.trade, time)) := by
  refine feeds_some (fun health hhealth => ?_) fun other hne => ?_
  · cases hhealth
    exact htrade
  · cases other with
    | quote => exact congrArg some hquote
    | trade => exact absurd rfl hne
    | book => rfl

/-- The book accepts, which has no health record. -/
theorem feeds_book (time : MonoTime) (hquote : s'.quoteHealth = s.quoteHealth)
    (htrade : s'.tradeHealth = s.tradeHealth) : s.Feeds s' (some (.book, time)) := by
  refine feeds_some (fun health hhealth => ?_) fun other hne => ?_
  · cases hhealth
  · cases other with
    | quote => exact congrArg some hquote
    | trade => exact congrArg some htrade
    | book => rfl

theorem received_refusal (event : MarketEvent) (time : MonoTime) (status : SequenceStatus) :
    IngestOutcome.received event time status.refusal = none := by
  cases status <;> rfl

/-- **Specification of an event** for the feeds. -/
theorem feeds_ingest (event : MarketEvent) (wall : WallTime) (time : MonoTime)
    (s : InstrumentStreams) :
    s.Feeds (ingest event wall s).2
      (IngestOutcome.received event time (ingest event wall s).1) := by
  cases event with
  | quote q =>
    cases hvalid : q.validate wall with
    | error e =>
      rw [ingest_quote_of_invalid hvalid]
      exact feeds_none (.inl rfl) (.inl rfl)
    | ok _ =>
      rw [ingest_quote hvalid]
      split
      · exact feeds_quote rfl rfl
      · rw [received_refusal]
        exact feeds_none (.inr Quality.degraded_ne_good) (.inl rfl)
  | trade t =>
    cases hvalid : t.validate wall with
    | error e =>
      rw [ingest_trade_of_invalid hvalid]
      exact feeds_none (.inl rfl) (.inl rfl)
    | ok _ =>
      by_cases haccepts : s.tradeHealth.sequence.Accepts t.sequence
      · rw [ingest_trade hvalid haccepts]
        split
        · exact feeds_none (.inl rfl) (.inl rfl)
        · exact feeds_trade rfl rfl
      · rw [ingest_trade_of_not_accepts hvalid haccepts, received_refusal]
        exact feeds_none (.inl rfl) (.inr Quality.degraded_ne_good)
  | book delta =>
    rw [ingest_book]
    split
    · exact feeds_none (.inl rfl) (.inl rfl)
    · exact feeds_none (.inl rfl) (.inl rfl)
    · exact feeds_none (.inl rfl) (.inl rfl)
    · exact feeds_book _ rfl rfl

/-- **Specification of a recovery** for the feeds. -/
theorem feeds_recoverStream (kind : StreamKind) (sequence : ℕ) (time : MonoTime)
    (s : InstrumentStreams) :
    s.Feeds (recoverStream kind sequence time s).2
      (recovered kind time (recoverStream kind sequence time s).1) := by
  by_cases hzero : sequence = 0
  · subst hzero
    cases kind with
    | quote => exact feeds_none (.inl rfl) (.inl rfl)
    | trade => exact feeds_none (.inl rfl) (.inl rfl)
    | book => exact feeds_none (.inl rfl) (.inl rfl)
  · have hreset : SequenceTracker.reset sequence = .ok ⟨some sequence⟩ := if_neg hzero
    have hhealth : StreamHealth.recoverAfterSnapshot sequence time =
        .ok ⟨some time, .good, ⟨some sequence⟩⟩ := by
      rw [StreamHealth.recoverAfterSnapshot, hreset]
      rfl
    cases kind with
    | quote =>
      rw [recoverStream, hhealth]
      exact feeds_quote rfl rfl
    | trade =>
      rw [recoverStream, hhealth, hreset]
      exact feeds_trade rfl rfl
    | book => exact feeds_none (.inl rfl) (.inl rfl)

/-- **Specification of a depth recovery** for the feeds. -/
theorem feeds_recoverBook (sequence : ℕ) (bids asks : List (Int × Int)) (time : MonoTime)
    (s : InstrumentStreams) :
    s.Feeds (recoverBook sequence bids asks s).2
      (recovered .book time (recoverBook sequence bids asks s).1) := by
  rw [recoverBook, reads_bind]
  dsimp only [id]
  rcases s.book.replaceSnapshot sequence bids asks with e | book
  · exact feeds_none (.inl rfl) (.inl rfl)
  · exact feeds_book time rfl rfl

end InstrumentStreams

-- The hub

namespace WatchedHub

/-- Good quote and trade feeds have the time of what they last accepted. -/
def Dated (w : WatchedHub) : Prop :=
  w.hub.Each fun i s => ∀ kind, ∀ health ∈ s.feed kind, health.Dated (w.lastAccepted (i, kind))

variable {w : WatchedHub} {α : Type}

theorem note_of_ne {lastAccepted : InstrumentId × StreamKind → Option MonoTime}
    {acceptance : Option ((InstrumentId × StreamKind) × MonoTime)}
    {feed : InstrumentId × StreamKind} (h : ∀ time, acceptance ≠ some (feed, time)) :
    note lastAccepted acceptance feed = lastAccepted feed := by
  cases acceptance with
  | none => rfl
  | some noted =>
    rw [note, if_neg]
    rintro rfl
    exact h noted.2 rfl

theorem onStreams_fst {h : MarketDataHub} {i : InstrumentId} {s : InstrumentStreams}
    {p : Fallible InstrumentStreams HubError α} (hget : h.instruments[i]? = some s) :
    (MarketDataHub.onStreams i p h).1 = (p s).1 := by
  rw [MarketDataHub.onStreams, hget]

/-- **What runs on the streams** of an instrument, with what its outcome says was accepted. -/
theorem Dated.onStreams (hw : w.Dated) (i : InstrumentId)
    {p : Fallible InstrumentStreams HubError α}
    {received : Except HubError α → Option (StreamKind × MonoTime)}
    (hfeeds : ∀ s : InstrumentStreams, s.Feeds (p s).2 (received (p s).1)) :
    Dated ⟨(MarketDataHub.onStreams i p w.hub).2, note w.lastAccepted
      ((received (MarketDataHub.onStreams i p w.hub).1).map (feedOf i))⟩ := by
  intro j s' hget kind health' hhealth'
  have hget' := (MarketDataHub.getElem?_onStreams i p w.hub j).symm.trans hget
  dsimp only
  split at hget'
  · next hij =>
    subst hij
    obtain ⟨s, hs, rfl⟩ := Option.map_eq_some_iff.mp hget'
    rw [onStreams_fst hs]
    obtain ⟨time, hreceived, htime⟩ | ⟨hne, health, hhealth, hweak⟩ :=
      hfeeds s kind health' hhealth'
    · rw [hreceived, Option.map_some, note, feedOf, if_pos rfl]
      exact StreamHealth.dated_of_received htime
    · rw [note_of_ne]
      · exact (hw i s hs kind health hhealth).weaken hweak
      · intro time heq
        obtain ⟨r, hr, hfeed⟩ := Option.map_eq_some_iff.mp heq
        cases hfeed
        exact hne _ hr
  · next hij =>
    rw [note_of_ne]
    · exact hw j s' hget' kind health' hhealth'
    · intro time heq
      obtain ⟨r, -, hfeed⟩ := Option.map_eq_some_iff.mp heq
      cases hfeed
      exact hij rfl

/-- **Events and recoveries** keep the times. -/
theorem Dated.tick (hw : w.Dated) (time : MonoTime) (op : TickOp) :
    (step ⟨time, .tick op⟩ w).Dated := by
  cases op with
  | event e receiveWall =>
    exact hw.onStreams e.instrumentId (InstrumentStreams.feeds_ingest e receiveWall time)
  | recoverBook i sequence bids asks =>
    exact hw.onStreams i (InstrumentStreams.feeds_recoverBook sequence bids asks time)
  | recoverStream i kind sequence received =>
    exact hw.onStreams i (InstrumentStreams.feeds_recoverStream kind sequence received)

/-- Instruments whose feeds are as they were or not good. -/
theorem Dated.of_feeds (hw : w.Dated) {hub : MarketDataHub}
    (hkeep : ∀ (i : InstrumentId) (s' : InstrumentStreams), hub.instruments[i]? = some s' →
      (∀ kind, ∀ health ∈ s'.feed kind, health.quality ≠ .good) ∨
        ∃ s, w.hub.instruments[i]? = some s ∧ s.Feeds s' none) :
    Dated ⟨hub, w.lastAccepted⟩ := by
  intro i s' hget kind health' hhealth'
  obtain hbad | ⟨s, hs, hfeeds⟩ := hkeep i s' hget
  · exact fun hgood => absurd hgood (hbad kind health' hhealth')
  · obtain ⟨time, hreceived, -⟩ | ⟨-, health, hhealth, hweak⟩ := hfeeds kind health' hhealth'
    · cases hreceived
    · exact (hw i s hs kind health hhealth).weaken hweak

/-- **Every call** keeps the times. -/
theorem Dated.step (hw : w.Dated) (call : TimedOp) : (WatchedHub.step call w).Dated := by
  obtain ⟨time, op⟩ := call
  cases op with
  | tick op => exact hw.tick time op
  | register i =>
    refine hw.of_feeds fun j s' hget => ?_
    rw [HubOp.apply, MarketDataHub.register] at hget
    split at hget
    · exact .inr ⟨s', hget, InstrumentStreams.feeds_none (.inl rfl) (.inl rfl)⟩
    · rw [Std.TreeMap.getElem?_insert] at hget
      split at hget
      · cases hget
        refine .inl fun kind health hhealth => ?_
        cases kind with
        | quote =>
          cases hhealth
          exact Quality.stale_ne_good
        | trade =>
          cases hhealth
          exact Quality.stale_ne_good
        | book => cases hhealth
      · exact .inr ⟨s', hget, InstrumentStreams.feeds_none (.inl rfl) (.inl rfl)⟩
  | ingestBar bar sequence =>
    refine hw.of_feeds fun j s' hget => .inr ?_
    rw [HubOp.apply, MarketDataHub.ingestBar, MarketDataHub.getElem?_onStreams] at hget
    split at hget
    · obtain ⟨s, hs, rfl⟩ := Option.map_eq_some_iff.mp hget
      have hticks := InstrumentStreams.ingestBar_ticks bar sequence s
      exact ⟨s, hs, InstrumentStreams.feeds_none
        (.inl (congrArg InstrumentStreams.quoteHealth hticks :))
        (.inl (congrArg InstrumentStreams.tradeHealth hticks :))⟩
    · exact ⟨s', hget, InstrumentStreams.feeds_none (.inl rfl) (.inl rfl)⟩
  | markStale now maxAgeNs =>
    refine hw.of_feeds fun j s' hget => .inr ?_
    rw [HubOp.apply, MarketDataHub.markStale, Std.TreeMap.getElem?_map] at hget
    obtain ⟨s, hs, rfl⟩ := Option.map_eq_some_iff.mp hget
    exact ⟨s, hs, InstrumentStreams.feeds_none
      (s.quoteHealth.weakened_markStaleIfDue now maxAgeNs)
      (s.tradeHealth.weakened_markStaleIfDue now maxAgeNs)⟩

/-- **Every hub** that calls have led to has the times of its good quote and trade feeds. -/
theorem dated_after {maxInstruments depth capacity : ℕ} {intervalNs : Option ℕ}
    {hub : MarketDataHub}
    (hnew : MarketDataHub.withBounds maxInstruments depth intervalNs capacity = some hub)
    (run : List TimedOp) : (Runs.final WatchedHub.step (start hub) run).Dated := by
  have hstart : (start hub).Dated := by
    intro i s hget
    rw [MarketDataHub.withBounds] at hnew
    split at hnew
    · cases hnew
      simp [start] at hget
    · cases hnew
  exact Runs.final_of_step (A := fun _ => True) (fun call w _ hw => hw.step call) hstart
    fun _ _ => trivial

/-- **Sweeps**, of any hub whose good quote and trade feeds have their times. -/
theorem Dated.sweep_shows_iff (hw : w.Dated) (now : MonoTime) (maxAgeNs : ℕ) :
    w.Swept now maxAgeNs ↔ w.BooksCurrent now maxAgeNs := by
  have hget (i : InstrumentId) : (w.hub.markStale now maxAgeNs).instruments[i]? =
      w.hub.instruments[i]?.map fun s =>
        { s with
          quoteHealth := s.quoteHealth.markStaleIfDue now maxAgeNs
          tradeHealth := s.tradeHealth.markStaleIfDue now maxAgeNs } :=
    Std.TreeMap.getElem?_map
  constructor
  · intro hswept i s time hs hgood htime
    by_contra hold
    have hs' := (hget i).trans (congrArg (Option.map _) hs)
    exact (hswept i _ .book time hs' htime (not_le.mp hold)).1 hgood
  · intro hbooks i s' kind time hs' htime hold
    rw [hget] at hs'
    obtain ⟨s, hs, rfl⟩ := Option.map_eq_some_iff.mp hs'
    have hquality : InstrumentStreams.quality
        { s with
          quoteHealth := s.quoteHealth.markStaleIfDue now maxAgeNs
          tradeHealth := s.tradeHealth.markStaleIfDue now maxAgeNs } kind ≠ .good := by
      cases kind with
      | quote => exact (hw i s hs .quote _ rfl).swept htime hold
      | trade => exact (hw i s hs .trade _ rfl).swept htime hold
      | book => exact fun hgood => absurd hold (not_lt.mpr (hbooks i s time hs hgood htime))
    refine ⟨hquality, MarketDataHub.mem_unhealthyStreams ?_
      (InstrumentStreams.unhealthy_of_quality hquality)⟩
    rw [hget, hs]
    rfl

end WatchedHub

/-- **Stale feeds**: after any calls, a sweep leaves no feed good that last accepted something
before the deadline, and counts its instrument as unhealthy, exactly when the books that are good
last accepted something after the deadline. -/
theorem swept_iff {maxInstruments depth capacity : ℕ} {intervalNs : Option ℕ} {hub : MarketDataHub}
    (hnew : MarketDataHub.withBounds maxInstruments depth intervalNs capacity = some hub)
    (run : List TimedOp) (now : MonoTime) (maxAgeNs : ℕ) :
    (Runs.final WatchedHub.step (.start hub) run).Swept now maxAgeNs ↔
      (Runs.final WatchedHub.step (.start hub) run).BooksCurrent now maxAgeNs :=
  (WatchedHub.dated_after hnew run).sweep_shows_iff now maxAgeNs

namespace Sample

/-- A quote of the instrument. -/
def goodQuote : Quote := { bidless with bidTicks := 1 }

/-- The instrument is registered and quoted. -/
def quotedRun : List TimedOp := [⟨0, .register 7⟩, ⟨0, .tick (.event (.quote goodQuote) 0)⟩]

/-- The instrument is registered, and its book has a bid. -/
def timedBidRun : List TimedOp := bidRun.map (⟨0, ·⟩)

theorem ingest_firstBid : (MarketDataHub.ingest (.book firstBid) 0
    (Runs.final HubOp.apply emptyHub registered)).1 = .ok (.accepted .initial) := by
  have hget : (Runs.final HubOp.apply emptyHub registered).instruments[(7 : ℕ)]? =
      some (.new 7 4 (some 60000000000) 8) := rfl
  have hid : (MarketEvent.book firstBid).instrumentId = 7 := rfl
  have hbook : DepthBook.apply firstBid (InstrumentStreams.new 7 4 (some 60000000000) 8).book =
      (.ok .initial, bidBook) := apply_firstBid
  rw [MarketDataHub.ingest, hid, WatchedHub.onStreams_fst hget, InstrumentStreams.ingest_book,
    hbook]

/-- The bid is what the book last accepted. -/
theorem timedBidRun_accepted :
    (Runs.final WatchedHub.step (.start emptyHub) timedBidRun).lastAccepted (7, .book) = some 0 := by
  have hnote : WatchedHub.note (fun _ => none) ((IngestOutcome.received (.book firstBid) 0
      (MarketDataHub.ingest (.book firstBid) 0
        (Runs.final HubOp.apply emptyHub registered)).1).map (feedOf 7)) (7, .book) = some 0 := by
    rw [ingest_firstBid]
    rfl
  exact hnote

end Sample

/-- A quote past the deadline is marked stale. -/
theorem swept_quoted :
    (Runs.final WatchedHub.step (.start Sample.emptyHub) Sample.quotedRun).Swept 100 10 := by
  have hnew : MarketDataHub.withBounds 2 4 (some 60000000000) 8 = some Sample.emptyHub := rfl
  refine (swept_iff hnew Sample.quotedRun 100 10).mpr fun i s time _ _ htime => ?_
  have hnone : WatchedHub.note (fun _ => none) ((IngestOutcome.received (.quote Sample.goodQuote) 0
      (MarketDataHub.ingest (.quote Sample.goodQuote) 0
        (Runs.final HubOp.apply Sample.emptyHub Sample.registered)).1).map (feedOf 7))
      (i, .book) = none := by
    refine WatchedHub.note_of_ne fun time' heq => ?_
    obtain ⟨r, hr, hfeed⟩ := Option.map_eq_some_iff.mp heq
    have hkind : r.1 = .book := congrArg (fun feed => feed.1.2) hfeed
    unfold IngestOutcome.received at hr
    split at hr
    · cases hr
      cases hkind
    · cases hr
  cases hnone.symm.trans htime

/-- **A book is never stale**: a bid that was accepted long before the sweep leaves the book good
after it. -/
theorem swept_book : ¬∀ (run : List TimedOp) (now : MonoTime) (maxAgeNs : ℕ),
    (Runs.final WatchedHub.step (.start Sample.emptyHub) run).Swept now maxAgeNs := by
  intro hswept
  have hnew : MarketDataHub.withBounds 2 4 (some 60000000000) 8 = some Sample.emptyHub := rfl
  obtain ⟨s, hget, hbook⟩ := Sample.bidRun_book
  have hbooks := ((WatchedHub.dated_after hnew Sample.timedBidRun).sweep_shows_iff 100 10).mp
    (hswept Sample.timedBidRun 100 10)
  have hgood : s.book.health = .good := by rw [hbook]; rfl
  exact absurd (hbooks 7 s 0 hget hgood Sample.timedBidRun_accepted) (by decide)

end InsiderTrader
