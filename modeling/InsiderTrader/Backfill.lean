import InsiderTrader.MarketData
import InsiderTrader.Library.Runs

/-!
# Historical bars beside a trade stream

Bars and trades of an instrument share the sequence of its bar aggregator. A
historical bar that is taken moves that sequence on, and the trades that follow
are then no longer folded into the bars, or are refused as gaps.

## Main definitions

- `TickOp`, `HubOp` — the calls of a hub
- `MarketDataHub.Agree` — hubs with the same streams
- `InstrumentStreams.Aligned`, `InstrumentStreams.Synced` — the bars are not
  behind the trade stream, or stand where it stands
- `MarketDataHub.Unaffected` — what a historical bar may not change

## Main results

- `MarketDataHub.aligned_after` — every hub is aligned
- `backfill_unaffected_iff` — the historical bars that change nothing
-/

namespace InsiderTrader

open Fallible MachineInt

-- Sequences

namespace SequenceTracker

/-- A sequence number that moves the tracker on. -/
def Accepts (t : SequenceTracker) (sequence : ℕ) : Prop :=
  t.status sequence = .initial ∨ t.status sequence = .contiguous

instance (t : SequenceTracker) (sequence : ℕ) : Decidable (t.Accepts sequence) :=
  inferInstanceAs (Decidable (_ ∨ _))

variable {t : SequenceTracker} {sequence : ℕ}

theorem observe_of_accepts (h : t.Accepts sequence) :
    t.observe sequence = (t.status sequence, ⟨some sequence⟩) := by
  rcases h with h | h <;> simp [observe, h]

theorem observe_of_not_accepts (h : ¬t.Accepts sequence) :
    t.observe sequence = (t.status sequence, t) := by
  rw [observe]
  cases hs : t.status sequence with
  | initial => exact absurd (.inl hs) h
  | contiguous => exact absurd (.inr hs) h
  | duplicate => rfl
  | gap => rfl

theorem observe_fst : (t.observe sequence).1 = t.status sequence := by
  by_cases h : t.Accepts sequence
  · rw [observe_of_accepts h]
  · rw [observe_of_not_accepts h]

/-- A number that is accepted is the first one, or follows the last one. -/
theorem accepts_iff : t.Accepts sequence ↔
    sequence ≠ 0 ∧ ∀ last, t.last = some last →
      last < sequence ∧ sequence = min (last + 1) u64Max := by
  unfold Accepts status
  by_cases hzero : sequence = 0
  · simp [hzero]
  · rcases hl : t.last with _ | last
    · simp [hzero]
    · simp only [hzero, if_false, ne_eq, not_false_eq_true, true_and, Option.some.injEq]
      constructor
      · rintro h last' rfl
        by_cases hle : sequence ≤ last
        · simp [hle] at h
        · by_cases heq : sequence = min (last + 1) u64Max
          · exact ⟨not_le.mp hle, heq⟩
          · simp [hle, heq] at h
      · intro h
        obtain ⟨hlt, heq⟩ := h last rfl
        exact .inr (by rw [if_neg (not_le.mpr hlt), if_pos heq])

/-- A number that is taken for a duplicate is not ahead. -/
theorem le_of_duplicate (h : t.status sequence = .duplicate) (hzero : sequence ≠ 0) :
    ∃ last, t.last = some last ∧ sequence ≤ last := by
  rw [status, if_neg hzero] at h
  rcases hl : t.last with _ | last
  · rw [hl] at h
    cases h
  · rw [hl] at h
    dsimp only at h
    split at h
    · next hle => exact ⟨last, rfl, hle⟩
    · split at h
      · cases h
      · cases h

theorem status_of_le {last : ℕ} (hl : t.last = some last) (hle : sequence ≤ last) :
    t.status sequence = .duplicate := by
  rw [status, hl]
  dsimp only
  rw [if_pos hle, ite_self]

end SequenceTracker

-- The bars

namespace BarAggregator

variable {b : BarAggregator} {t : Trade} {wall : WallTime}

/-- **Specification of a trade**: a valid trade of the instrument that the sequence does not accept
leaves the bars. -/
theorem ingest_of_not_accepts (hid : t.instrumentId = b.instrumentId)
    (hvalid : t.validate wall = .ok ()) (h : ¬b.sequence.Accepts t.sequence) :
    ingest t wall b = (match b.sequence.status t.sequence with
      | .gap expected received => .error (.sequenceGap expected received)
      | _ => .ok .duplicate, b) := by
  rw [ingest, reads_bind]
  dsimp only [id]
  rw [if_neg (not_not.mpr hid), ofExcept_bind_ok hvalid, SequenceTracker.observe_of_not_accepts h,
    modify_bind]
  cases hs : b.sequence.status t.sequence with
  | initial => exact absurd (.inl hs) h
  | contiguous => exact absurd (.inr hs) h
  | duplicate => rfl
  | gap => rfl

/-- The bars are those of the same stream, at a sequence. -/
structure At (b : BarAggregator) (tracker : SequenceTracker) (b' : BarAggregator) : Prop where
  instrumentId : b'.instrumentId = b.instrumentId
  intervalNs : b'.intervalNs = b.intervalNs
  sequence : b'.sequence = tracker

/-- **Specification of a trade**: a valid trade of the instrument that the sequence accepts is
folded into the bars. -/
theorem ingest_of_accepts (hid : t.instrumentId = b.instrumentId)
    (hvalid : t.validate wall = .ok ()) (hinterval : (narrow 64 b.intervalNs).isSome)
    (h : b.sequence.Accepts t.sequence) :
    ∃ update, update ≠ .duplicate ∧ (ingest t wall b).1 = .ok update ∧
      b.At ⟨some t.sequence⟩ (ingest t wall b).2 := by
  obtain ⟨interval, hinterval⟩ := Option.isSome_iff_exists.mp hinterval
  rw [ingest, reads_bind]
  dsimp only [id]
  rw [if_neg (not_not.mpr hid), ofExcept_bind_ok hvalid, SequenceTracker.observe_of_accepts h,
    modify_bind]
  rcases h with h | h
  all_goals
    rw [h]
    dsimp only
    rw [orFail_bind_some hinterval]
    cases b.bars[max (-2 ^ 63) (t.exchangeTime / interval * interval)]? with
    | some state => exact ⟨.correction _, by simp, rfl, ⟨rfl, rfl, rfl⟩⟩
    | none => exact ⟨.new _, by simp, rfl, ⟨rfl, rfl, rfl⟩⟩

/-- A trade that is not a valid one of the instrument leaves the bars. -/
theorem ingest_of_invalid (t : Trade) (wall : WallTime) (b : BarAggregator)
    (h : ¬(t.instrumentId = b.instrumentId ∧ t.validate wall = .ok ())) :
    ∃ e, ingest t wall b = (.error e, b) := by
  rw [ingest, reads_bind]
  dsimp only [id]
  split
  · exact ⟨_, rfl⟩
  · next hid =>
    cases hvalid : t.validate wall with
    | error e => exact ⟨e, rfl⟩
    | ok _ => exact absurd ⟨not_not.mp hid, hvalid⟩ h

/-- A historical bar is taken: it is well formed and the next of its sequence. -/
def Takes (b : BarAggregator) (bar : Bar) (sequence : ℕ) : Prop :=
  b.barValid bar = true ∧ b.sequence.Accepts sequence

/-- **Specification of a historical bar**: one that is taken moves the sequence on. -/
theorem ingestBar_of_takes {bar : Bar} {sequence : ℕ} (h : b.Takes bar sequence) :
    b.At ⟨some sequence⟩ (ingestBar bar sequence b).2 := by
  obtain ⟨hvalid, h⟩ := h
  rw [ingestBar, reads_bind]
  dsimp only [id]
  rw [if_neg (not_not.mpr hvalid), SequenceTracker.observe_of_accepts h, modify_bind]
  rcases h with h | h
  all_goals
    rw [h]
    cases b.bars[bar.startTime]? with
    | some state => exact ⟨rfl, rfl, rfl⟩
    | none => exact ⟨rfl, rfl, rfl⟩

/-- **Specification of a historical bar**: one that is not taken leaves the bars. -/
theorem ingestBar_of_not_takes {bar : Bar} {sequence : ℕ} (h : ¬b.Takes bar sequence) :
    (ingestBar bar sequence b).2 = b := by
  rw [ingestBar, reads_bind]
  dsimp only [id]
  by_cases hvalid : b.barValid bar = true
  · have hnot : ¬b.sequence.Accepts sequence := fun haccepts => h ⟨hvalid, haccepts⟩
    rw [if_neg (not_not.mpr hvalid), SequenceTracker.observe_of_not_accepts hnot, modify_bind]
    cases hs : b.sequence.status sequence with
    | initial => exact absurd (.inl hs) hnot
    | contiguous => exact absurd (.inr hs) hnot
    | duplicate => rfl
    | gap => rfl
  · rw [if_pos hvalid]
    rfl

end BarAggregator

-- The streams of one instrument

/-- The sequence number of an event. -/
def MarketEvent.sequence : MarketEvent → ℕ
  | quote value => value.sequence
  | trade value => value.sequence
  | book value => value.sequence

namespace InstrumentStreams

/-- The bars are well formed and not behind the trade stream. -/
structure Aligned (i : InstrumentId) (s : InstrumentStreams) : Prop where
  instrumentId : ∀ bars ∈ s.bars, bars.instrumentId = i
  interval : ∀ bars ∈ s.bars, (narrow 64 bars.intervalNs).isSome = true
  bounded : ∀ bars ∈ s.bars, ∀ last, bars.sequence.last = some last → last ≠ 0 ∧ last ≤ u64Max
  behind : ∀ bars ∈ s.bars, ∀ last, s.tradeHealth.sequence.last = some last →
    ∃ ahead, bars.sequence.last = some ahead ∧ last ≤ ahead

/-- The bars stand where the trade stream stands. -/
def Synced (s : InstrumentStreams) : Prop :=
  ∀ bars ∈ s.bars, bars.sequence = s.tradeHealth.sequence

/-- The streams without the bars. -/
def ticks (s : InstrumentStreams) : InstrumentStreams := { s with bars := none }

variable {i : InstrumentId} {s s' : InstrumentStreams} {t : Trade} {wall : WallTime}

theorem new_aligned (i : InstrumentId) (depth : ℕ) (intervalNs : Option ℕ) (capacity : ℕ) :
    (new i depth intervalNs capacity).Aligned i := by
  have hbars : ∀ bars ∈ (new i depth intervalNs capacity).bars, bars.instrumentId = i ∧
      (narrow 64 bars.intervalNs).isSome = true ∧ bars.sequence.last = none := by
    intro bars hbars
    obtain ⟨interval, -, hnew⟩ := Option.bind_eq_some_iff.mp hbars
    rw [BarAggregator.new] at hnew
    split at hnew
    · next hvalid =>
      cases hnew
      exact ⟨rfl, hvalid.2.1, rfl⟩
    · cases hnew
  refine ⟨fun bars h => (hbars bars h).1, fun bars h => (hbars bars h).2.1, ?_, ?_⟩
  · intro bars h last hlast
    cases (hbars bars h).2.2.symm.trans hlast
  · intro bars _ last hlast
    cases hlast

/-- Only the bars and the trade stream count. -/
theorem Aligned.of_eq (h : s.Aligned i) (hbars : s'.bars = s.bars)
    (htrade : s'.tradeHealth.sequence = s.tradeHealth.sequence) : s'.Aligned i := by
  refine ⟨?_, ?_, ?_, ?_⟩
  · rw [hbars]
    exact h.instrumentId
  · rw [hbars]
    exact h.interval
  · rw [hbars]
    exact h.bounded
  · rw [hbars, htrade]
    exact h.behind

theorem Synced.of_eq (h : s.Synced) (hbars : s'.bars = s.bars)
    (htrade : s'.tradeHealth.sequence = s.tradeHealth.sequence) : s'.Synced := by
  rw [Synced, hbars, htrade]
  exact h

-- A historical bar

theorem ingestBar_ticks (bar : Bar) (sequence : ℕ) (s : InstrumentStreams) :
    (ingestBar bar sequence s).2.ticks = s.ticks := by
  rw [ingestBar]
  cases s.bars with
  | none => rfl
  | some bars => rfl

/-- A historical bar that is not taken leaves the streams. -/
theorem ingestBar_of_not_takes {bar : Bar} {sequence : ℕ}
    (h : ∀ bars ∈ s.bars, ¬bars.Takes bar sequence) : (ingestBar bar sequence s).2 = s := by
  rw [ingestBar]
  cases hbars : s.bars with
  | none => rfl
  | some bars =>
    dsimp only
    rw [BarAggregator.ingestBar_of_not_takes (h bars hbars), ← hbars]

/-- A historical bar that is taken moves the sequence of the bars on. -/
theorem ingestBar_of_takes {bar : Bar} {sequence : ℕ} {bars : BarAggregator}
    (hbars : s.bars = some bars) (h : bars.Takes bar sequence) :
    ∃ bars', (ingestBar bar sequence s).2 = { s with bars := some bars' } ∧
      bars.At ⟨some sequence⟩ bars' := by
  rw [ingestBar, hbars]
  exact ⟨_, rfl, BarAggregator.ingestBar_of_takes h⟩

/-- The sequence of bars that moves on stays ahead. -/
theorem Aligned.move (h : s.Aligned i) {bars bars' : BarAggregator} {sequence : ℕ}
    {health : StreamHealth} (hbars : s.bars = some bars) (hat : bars.At ⟨some sequence⟩ bars')
    (haccepts : bars.sequence.Accepts sequence) (hmax : sequence ≤ u64Max)
    (hhealth : health.sequence = s.tradeHealth.sequence ∨ health.sequence = ⟨some sequence⟩)
    (hs' : s'.bars = some bars') (ht' : s'.tradeHealth = health) : s'.Aligned i := by
  obtain ⟨hzero, hnext⟩ := SequenceTracker.accepts_iff.mp haccepts
  refine ⟨?_, ?_, ?_, ?_⟩
  · intro b hb
    cases hs'.symm.trans hb
    exact hat.instrumentId.trans (h.instrumentId bars hbars)
  · intro b hb
    cases hs'.symm.trans hb
    rw [hat.intervalNs]
    exact h.interval bars hbars
  · intro b hb last hlast
    cases hs'.symm.trans hb
    rw [hat.sequence] at hlast
    cases hlast
    exact ⟨hzero, hmax⟩
  · intro b hb last hlast
    cases hs'.symm.trans hb
    refine ⟨sequence, by rw [hat.sequence], ?_⟩
    rw [ht'] at hlast
    rcases hhealth with hsame | hmoved
    · rw [hsame] at hlast
      obtain ⟨ahead, hahead, hle⟩ := h.behind bars hbars last hlast
      exact hle.trans (hnext ahead hahead).1.le
    · rw [hmoved] at hlast
      cases hlast
      exact le_refl _

theorem Aligned.ingestBar (h : s.Aligned i) (bar : Bar) {sequence : ℕ} (hmax : sequence ≤ u64Max) :
    (InstrumentStreams.ingestBar bar sequence s).2.Aligned i := by
  by_cases htakes : ∀ bars ∈ s.bars, ¬bars.Takes bar sequence
  · rw [ingestBar_of_not_takes htakes]
    exact h
  · simp only [not_forall, not_not] at htakes
    obtain ⟨bars, hbars, htakes⟩ := htakes
    obtain ⟨bars', hs', hat⟩ := ingestBar_of_takes hbars htakes
    rw [hs']
    exact h.move hbars hat htakes.2 hmax (.inl rfl) rfl rfl

-- A trade

/-- A validity check of the hub that passes. -/
theorem mapError_ok : Except.mapError HubError.event (.ok ()) = .ok () := rfl

theorem observe_health (h : StreamHealth) (sequence : ℕ) (received : MonoTime) :
    (h.observe sequence received).1 = h.sequence.status sequence ∧
      (h.observe sequence received).2.sequence = (h.sequence.observe sequence).2 := by
  rw [StreamHealth.observe, ← SequenceTracker.observe_fst]
  exact ⟨rfl, rfl⟩

/-- A trade that is invalid, or that the trade stream does not accept, reaches no bars. -/
theorem ingest_trade_of_refused
    (h : ¬(t.validate wall = .ok () ∧ s.tradeHealth.sequence.Accepts t.sequence)) :
    (∀ status, (InstrumentStreams.ingest (.trade t) wall s).1 ≠ .ok (.accepted status)) ∧
      (InstrumentStreams.ingest (.trade t) wall s).2.bars = s.bars ∧
      (InstrumentStreams.ingest (.trade t) wall s).2.tradeHealth.sequence =
        s.tradeHealth.sequence := by
  rw [InstrumentStreams.ingest, reads_bind]
  dsimp only [id]
  cases hvalid : t.validate wall with
  | error e => exact ⟨fun status heq => (nomatch heq), rfl, rfl⟩
  | ok _ =>
    have hnot : ¬s.tradeHealth.sequence.Accepts t.sequence := fun haccepts => h ⟨hvalid, haccepts⟩
    obtain ⟨hfst, hsnd⟩ := observe_health s.tradeHealth t.sequence t.receivedMono
    rw [SequenceTracker.observe_of_not_accepts hnot] at hsnd
    rw [ofExcept_bind_ok mapError_ok]
    rcases hobserve : s.tradeHealth.observe t.sequence t.receivedMono with ⟨status, health⟩
    rw [hobserve] at hfst hsnd
    have hstatus : status = s.tradeHealth.sequence.status t.sequence := hfst
    subst hstatus
    dsimp only
    rw [modify_bind]
    cases hs : s.tradeHealth.sequence.status t.sequence with
    | initial => exact absurd (.inl hs) hnot
    | contiguous => exact absurd (.inr hs) hnot
    | duplicate => exact ⟨fun status heq => (nomatch heq), rfl, hsnd⟩
    | gap => exact ⟨fun status heq => (nomatch heq), rfl, hsnd⟩

/-- **Specification of a trade**: a valid one that is next in the trade stream is accepted unless
the bars refuse it. -/
theorem ingest_trade_of_accepts (hvalid : t.validate wall = .ok ())
    (h : s.tradeHealth.sequence.Accepts t.sequence) :
    (InstrumentStreams.ingest (.trade t) wall s).2.bars = (ingestTrade t wall s).2.bars ∧
      match (ingestTrade t wall s).1 with
      | .error e =>
        (InstrumentStreams.ingest (.trade t) wall s).1 = .error (.event e) ∧
        (InstrumentStreams.ingest (.trade t) wall s).2.tradeHealth = s.tradeHealth
      | .ok _ =>
        (InstrumentStreams.ingest (.trade t) wall s).1 =
          .ok (.accepted (s.tradeHealth.sequence.status t.sequence)) ∧
        (InstrumentStreams.ingest (.trade t) wall s).2.tradeHealth.sequence =
          ⟨some t.sequence⟩ := by
  obtain ⟨hfst, hsnd⟩ := observe_health s.tradeHealth t.sequence t.receivedMono
  rw [SequenceTracker.observe_of_accepts h] at hsnd
  rw [InstrumentStreams.ingest, reads_bind]
  dsimp only [id]
  rw [hvalid, ofExcept_bind_ok mapError_ok]
  rcases hobserve : s.tradeHealth.observe t.sequence t.receivedMono with ⟨status, health⟩
  rw [hobserve] at hfst hsnd
  have hstatus : status = s.tradeHealth.sequence.status t.sequence := hfst
  subst hstatus
  dsimp only
  rw [modify_bind]
  have hbars : ingestTrade t wall { s with tradeHealth := health } =
      ((ingestTrade t wall s).1,
        { s with tradeHealth := health, bars := (ingestTrade t wall s).2.bars }) := by
    simp only [ingestTrade]
    cases hb : s.bars with
    | none => rw [hb]
    | some bars => rfl
  rcases h with h | h
  all_goals
    rw [h]
    dsimp only
    rw [attempt_bind, hbars]
    rcases (ingestTrade t wall s).1 with e | update
    · exact ⟨rfl, rfl, rfl⟩
    · exact ⟨rfl, rfl, hsnd⟩

/-- A trade is folded into the bars. -/
def Folds (wall : WallTime) (t : Trade) (bars : BarAggregator) : Prop :=
  ∃ update, update ≠ .duplicate ∧ (BarAggregator.ingest t wall bars).1 = .ok update

/-- What a trade does: it is refused and moves no sequence, or it is accepted and moves the trade
stream, and with it the bars unless they take it for a duplicate. -/
theorem ingest_trade_cases (hinterval : ∀ bars ∈ s.bars, (narrow 64 bars.intervalNs).isSome)
    (t : Trade) (wall : WallTime) :
    ((∀ status, (InstrumentStreams.ingest (.trade t) wall s).1 ≠ .ok (.accepted status)) ∧
        (InstrumentStreams.ingest (.trade t) wall s).2.bars = s.bars ∧
        (InstrumentStreams.ingest (.trade t) wall s).2.tradeHealth.sequence =
          s.tradeHealth.sequence) ∨
      s.tradeHealth.sequence.Accepts t.sequence ∧
        (InstrumentStreams.ingest (.trade t) wall s).1 =
          .ok (.accepted (s.tradeHealth.sequence.status t.sequence)) ∧
        (InstrumentStreams.ingest (.trade t) wall s).2.tradeHealth.sequence = ⟨some t.sequence⟩ ∧
        (s.bars = none → (InstrumentStreams.ingest (.trade t) wall s).2.bars = none) ∧
        ∀ bars, s.bars = some bars →
          (bars.sequence.status t.sequence = .duplicate ∧ ¬Folds wall t bars ∧
            (InstrumentStreams.ingest (.trade t) wall s).2.bars = some bars) ∨
          (bars.sequence.Accepts t.sequence ∧ Folds wall t bars ∧
            ∃ bars', (InstrumentStreams.ingest (.trade t) wall s).2.bars = some bars' ∧
              bars.At ⟨some t.sequence⟩ bars') := by
  by_cases h : t.validate wall = .ok () ∧ s.tradeHealth.sequence.Accepts t.sequence
  · obtain ⟨hvalid, haccepts⟩ := h
    obtain ⟨hbars', htrade⟩ := ingest_trade_of_accepts hvalid haccepts
    cases hbars : s.bars with
    | none =>
      have hnone : ingestTrade t wall s = (.ok none, s) := by rw [ingestTrade, hbars]
      rw [hnone] at hbars' htrade
      exact .inr ⟨haccepts, htrade.1, htrade.2, fun _ => hbars'.trans hbars,
        fun bars hsome => nomatch hsome⟩
    | some bars =>
      have hsome : ingestTrade t wall s = ((BarAggregator.ingest t wall bars).1.map some,
          { s with bars := some (BarAggregator.ingest t wall bars).2 }) := by
        rw [ingestTrade, hbars]
      rw [hsome] at hbars' htrade
      by_cases hid : t.instrumentId = bars.instrumentId
      · by_cases hnext : bars.sequence.Accepts t.sequence
        · obtain ⟨update, hne, hupdate, hat⟩ := BarAggregator.ingest_of_accepts hid hvalid
            (hinterval bars hbars) hnext
          rw [hupdate] at htrade
          refine .inr ⟨haccepts, htrade.1, htrade.2, (fun hnone => nomatch hnone), fun b hb => ?_⟩
          cases hb
          exact .inr ⟨hnext, ⟨update, hne, hupdate⟩, _, hbars', hat⟩
        · rw [BarAggregator.ingest_of_not_accepts hid hvalid hnext] at hbars' htrade
          cases hstatus : bars.sequence.status t.sequence with
          | initial => exact absurd (.inl hstatus) hnext
          | contiguous => exact absurd (.inr hstatus) hnext
          | gap expected received =>
            rw [hstatus] at htrade
            refine .inl ⟨fun status heq => ?_, hbars', congrArg StreamHealth.sequence htrade.2⟩
            cases htrade.1.symm.trans heq
          | duplicate =>
            rw [hstatus] at htrade
            refine .inr ⟨haccepts, htrade.1, htrade.2, (fun hnone => nomatch hnone),
              fun b hb => ?_⟩
            cases hb
            refine .inl ⟨hstatus, ?_, hbars'⟩
            rintro ⟨update, hne, hupdate⟩
            rw [BarAggregator.ingest_of_not_accepts hid hvalid hnext, hstatus] at hupdate
            exact hne (Except.ok.inj hupdate).symm
      · obtain ⟨e, herror⟩ := BarAggregator.ingest_of_invalid t wall bars
          fun hboth => hid hboth.1
        rw [herror] at hbars' htrade
        refine .inl ⟨fun status heq => ?_, hbars', congrArg StreamHealth.sequence htrade.2⟩
        cases htrade.1.symm.trans heq
  · exact .inl (ingest_trade_of_refused h)

/-- Quotes and depth changes move neither the trade stream nor the bars. -/
theorem ingest_other {event : MarketEvent} (h : ∀ t, event ≠ .trade t) (wall : WallTime)
    (s : InstrumentStreams) :
    (InstrumentStreams.ingest event wall s).2.bars = s.bars ∧
      (InstrumentStreams.ingest event wall s).2.tradeHealth = s.tradeHealth := by
  have hsame : Along (Same fun s : InstrumentStreams => (s.bars, s.tradeHealth))
      (InstrumentStreams.ingest event wall) := by
    refine (Along.reads _).bind fun s => ?_
    cases event with
    | quote value =>
      refine (Along.ofExcept _).bind fun _ => Along.bind (Along.modify fun _ => rfl) fun _ => ?_
      split
      · exact Along.fail _
      · exact Along.ret _
      · exact Along.bind (Along.modify fun _ => rfl) fun _ => Along.ret _
      · exact Along.bind (Along.modify fun _ => rfl) fun _ => Along.ret _
    | trade value => exact absurd rfl (h value)
    | book value =>
      refine Along.bind (fun _ => rfl) fun status => ?_
      split
      · exact Along.ret _
      · exact Along.ret _
  have hpair := hsame s
  exact ⟨congrArg Prod.fst hpair, congrArg Prod.snd hpair⟩

-- Invariants of the streams

theorem aligned_of_none (h : s.bars = none) : s.Aligned i := by
  have hnone : ∀ bars, bars ∉ s.bars := fun bars hbars => nomatch h.symm.trans hbars
  exact ⟨fun bars hb => absurd hb (hnone bars), fun bars hb => absurd hb (hnone bars),
    fun bars hb => absurd hb (hnone bars), fun bars hb => absurd hb (hnone bars)⟩

theorem Aligned.ingest (h : s.Aligned i) {event : MarketEvent} (hmax : event.sequence ≤ u64Max)
    (wall : WallTime) : (InstrumentStreams.ingest event wall s).2.Aligned i := by
  by_cases hevent : ∀ t, event ≠ .trade t
  · obtain ⟨hbars, htrade⟩ := ingest_other hevent wall s
    exact h.of_eq hbars (congrArg StreamHealth.sequence htrade)
  · simp only [not_forall, not_not] at hevent
    obtain ⟨t, rfl⟩ := hevent
    obtain ⟨-, hbars, htrade⟩ | ⟨haccepts, -, htrade, hnone, hcases⟩ :=
      ingest_trade_cases h.interval t wall
    · exact h.of_eq hbars htrade
    · cases hbars : s.bars with
      | none => exact aligned_of_none (hnone hbars)
      | some bars =>
        obtain ⟨hduplicate, -, hbars'⟩ | ⟨hnext, -, bars', hbars', hat⟩ := hcases bars hbars
        · refine ⟨?_, ?_, ?_, ?_⟩
          · rw [hbars', ← hbars]
            exact h.instrumentId
          · rw [hbars', ← hbars]
            exact h.interval
          · rw [hbars', ← hbars]
            exact h.bounded
          · intro b hb last hlast
            cases hbars'.symm.trans hb
            rw [htrade] at hlast
            cases hlast
            exact SequenceTracker.le_of_duplicate hduplicate
              (SequenceTracker.accepts_iff.mp haccepts).1
        · exact h.move hbars hat hnext hmax (.inr htrade) hbars' rfl

theorem Synced.ingest (h : s.Synced) (ha : s.Aligned i) (event : MarketEvent) (wall : WallTime) :
    (InstrumentStreams.ingest event wall s).2.Synced := by
  by_cases hevent : ∀ t, event ≠ .trade t
  · obtain ⟨hbars, htrade⟩ := ingest_other hevent wall s
    exact h.of_eq hbars (congrArg StreamHealth.sequence htrade)
  · simp only [not_forall, not_not] at hevent
    obtain ⟨t, rfl⟩ := hevent
    obtain ⟨-, hbars, htrade⟩ | ⟨haccepts, -, htrade, hnone, hcases⟩ :=
      ingest_trade_cases ha.interval t wall
    · exact h.of_eq hbars htrade
    · intro bars' hb
      cases hbars : s.bars with
      | none => cases (hnone hbars).symm.trans hb
      | some bars =>
        rw [← h bars hbars] at haccepts
        obtain ⟨hduplicate, -⟩ | ⟨-, -, b, hbars', hat⟩ := hcases bars hbars
        · exact absurd haccepts (by simp [SequenceTracker.Accepts, hduplicate])
        · cases hbars'.symm.trans hb
          rw [hat.sequence, htrade]

/-- What a depth recovery leaves. -/
theorem recoverBook_same (sequence : ℕ) (bids asks : List (Int × Int)) (s : InstrumentStreams) :
    (recoverBook sequence bids asks s).2.bars = s.bars ∧
      (recoverBook sequence bids asks s).2.tradeHealth = s.tradeHealth := by
  have hsame : Along (Same fun s : InstrumentStreams => (s.bars, s.tradeHealth))
      (recoverBook sequence bids asks) :=
    (Along.reads _).bind fun _ => (Along.ofExcept _).bind fun _ => Along.modify fun _ => rfl
  exact ⟨congrArg Prod.fst (hsame s), congrArg Prod.snd (hsame s)⟩

/-- A recovery of the trade stream restarts the bars where it restarts. -/
theorem recoverStream_cases (kind : StreamKind) (sequence : ℕ) (received : MonoTime)
    (s : InstrumentStreams) :
    ((recoverStream kind sequence received s).2.bars = s.bars ∧
        (recoverStream kind sequence received s).2.tradeHealth = s.tradeHealth) ∨
      sequence ≠ 0 ∧
        (recoverStream kind sequence received s).2.bars =
          (s.bars.map fun bars => { bars with sequence := ⟨some sequence⟩ }) ∧
        (recoverStream kind sequence received s).2.tradeHealth.sequence = ⟨some sequence⟩ := by
  by_cases hzero : sequence = 0
  · subst hzero
    cases kind with
    | quote => exact .inl ⟨rfl, rfl⟩
    | trade => exact .inl ⟨rfl, rfl⟩
    | book => exact .inl ⟨rfl, rfl⟩
  · have hreset : SequenceTracker.reset sequence = .ok ⟨some sequence⟩ := if_neg hzero
    have hhealth : StreamHealth.recoverAfterSnapshot sequence received =
        .ok ⟨some received, .good, ⟨some sequence⟩⟩ := by
      rw [StreamHealth.recoverAfterSnapshot, hreset]
      rfl
    cases kind with
    | quote =>
      rw [recoverStream, hhealth]
      exact .inl ⟨rfl, rfl⟩
    | trade =>
      rw [recoverStream, hhealth, hreset]
      exact .inr ⟨hzero, rfl, rfl⟩
    | book => exact .inl ⟨rfl, rfl⟩

theorem Aligned.recoverStream (h : s.Aligned i) (kind : StreamKind) {sequence : ℕ}
    (hmax : sequence ≤ u64Max) (received : MonoTime) :
    (InstrumentStreams.recoverStream kind sequence received s).2.Aligned i := by
  rcases recoverStream_cases kind sequence received s with ⟨hbars, htrade⟩ | ⟨hzero, hbars, htrade⟩
  · exact h.of_eq hbars (congrArg StreamHealth.sequence htrade)
  · have hmoved : ∀ b ∈ (InstrumentStreams.recoverStream kind sequence received s).2.bars,
        ∃ bars ∈ s.bars, b = { bars with sequence := ⟨some sequence⟩ } := by
      intro b hb
      rw [hbars] at hb
      obtain ⟨bars, hmem, rfl⟩ := Option.map_eq_some_iff.mp hb
      exact ⟨bars, hmem, rfl⟩
    refine ⟨?_, ?_, ?_, ?_⟩
    · intro b hb
      obtain ⟨bars, hmem, rfl⟩ := hmoved b hb
      exact h.instrumentId bars hmem
    · intro b hb
      obtain ⟨bars, hmem, rfl⟩ := hmoved b hb
      exact h.interval bars hmem
    · intro b hb last hlast
      obtain ⟨bars, hmem, rfl⟩ := hmoved b hb
      cases hlast
      exact ⟨hzero, hmax⟩
    · intro b hb last hlast
      obtain ⟨bars, hmem, rfl⟩ := hmoved b hb
      rw [htrade] at hlast
      cases hlast
      exact ⟨sequence, rfl, le_refl _⟩

theorem Synced.recoverStream (h : s.Synced) (kind : StreamKind) (sequence : ℕ)
    (received : MonoTime) :
    (InstrumentStreams.recoverStream kind sequence received s).2.Synced := by
  rcases recoverStream_cases kind sequence received s with ⟨hbars, htrade⟩ | ⟨-, hbars, htrade⟩
  · exact h.of_eq hbars (congrArg StreamHealth.sequence htrade)
  · intro b hb
    rw [hbars] at hb
    obtain ⟨bars, -, rfl⟩ := Option.map_eq_some_iff.mp hb
    exact htrade.symm

end InstrumentStreams

-- The hub

/-- A quote, trade or depth event, or a recovery. -/
inductive TickOp where
  | event (event : MarketEvent) (receiveWall : WallTime)
  | recoverBook (instrumentId : InstrumentId) (sequence : ℕ) (bids asks : List (Int × Int))
  | recoverStream (instrumentId : InstrumentId) (kind : StreamKind) (sequence : ℕ)
      (received : MonoTime)

/-- A call of the hub. -/
inductive HubOp where
  | tick (op : TickOp)
  | register (instrumentId : InstrumentId)
  | ingestBar (bar : Bar) (sequence : ℕ)
  | markStale (now : MonoTime) (maxAgeNs : ℕ)

/-- The hub after an event or a recovery. -/
def TickOp.apply : TickOp → MarketDataHub → MarketDataHub
  | event e receiveWall, h => (MarketDataHub.ingest e receiveWall h).2
  | recoverBook i sequence bids asks, h => (MarketDataHub.recoverBook i sequence bids asks h).2
  | recoverStream i kind sequence received, h =>
    (MarketDataHub.recoverStream i kind sequence received h).2

/-- The hub after a call. -/
def HubOp.apply : HubOp → MarketDataHub → MarketDataHub
  | tick op, h => op.apply h
  | register i, h => (h.register i).2
  | ingestBar bar sequence, h => (MarketDataHub.ingestBar bar sequence h).2
  | markStale now maxAgeNs, h => h.markStale now maxAgeNs

/-- Sequence numbers are unsigned 64-bit. -/
def TickOp.Fits : TickOp → Prop
  | event e _ => e.sequence ≤ u64Max
  | recoverBook _ sequence _ _ => sequence ≤ u64Max
  | recoverStream _ _ sequence _ => sequence ≤ u64Max

/-- Sequence numbers are unsigned 64-bit. -/
def HubOp.Fits : HubOp → Prop
  | tick op => op.Fits
  | ingestBar _ sequence => sequence ≤ u64Max
  | _ => True

namespace MarketDataHub

/-- What holds of the streams of every instrument. -/
def Each (P : InstrumentId → InstrumentStreams → Prop) (h : MarketDataHub) : Prop :=
  ∀ i s, h.instruments[i]? = some s → P i s

/-- Bars behind no trade stream. -/
abbrev Aligned (h : MarketDataHub) : Prop := h.Each fun i s => s.Aligned i

/-- Bars that stand where the trade streams stand. -/
abbrev Synced (h : MarketDataHub) : Prop := h.Each fun _ s => s.Synced

variable {P : InstrumentId → InstrumentStreams → Prop} {h h' : MarketDataHub} {α : Type}

theorem getElem?_onStreams (i : InstrumentId) (p : Fallible InstrumentStreams HubError α)
    (h : MarketDataHub) (j : InstrumentId) :
    (onStreams i p h).2.instruments[j]? =
      if i = j then h.instruments[j]?.map fun s => (p s).2 else h.instruments[j]? := by
  rw [onStreams]
  split
  · next hi =>
    split
    · next hij => rw [← hij, hi]; rfl
    · rfl
  · next s hi =>
    simp only [Std.TreeMap.getElem?_insert, compare_eq_iff_eq]
    split
    · next hij => rw [← hij, hi]; rfl
    · rfl

theorem Each.onStreams (hP : h.Each P) {i : InstrumentId}
    {p : Fallible InstrumentStreams HubError α}
    (hp : ∀ s, h.instruments[i]? = some s → P i s → P i (p s).2) :
    (MarketDataHub.onStreams i p h).2.Each P := by
  intro j s hget
  rw [getElem?_onStreams] at hget
  split at hget
  · next hij =>
    subst hij
    obtain ⟨s', hs', rfl⟩ := Option.map_eq_some_iff.mp hget
    exact hp s' hs' (hP i s' hs')
  · exact hP j s hget

theorem Aligned.tick (ha : h.Aligned) {op : TickOp} (hfits : op.Fits) : (op.apply h).Aligned := by
  cases op with
  | event e receiveWall => exact ha.onStreams fun s _ hs => hs.ingest hfits receiveWall
  | recoverBook i sequence bids asks =>
    refine ha.onStreams fun s _ hs => ?_
    obtain ⟨hbars, htrade⟩ := InstrumentStreams.recoverBook_same sequence bids asks s
    exact hs.of_eq hbars (congrArg StreamHealth.sequence htrade)
  | recoverStream i kind sequence received =>
    exact ha.onStreams fun s _ hs => hs.recoverStream kind hfits received

/-- Events and recoveries keep the bars where the trade streams stand. -/
theorem Synced.tick (ha : h.Aligned) (hs : h.Synced) (op : TickOp) : (op.apply h).Synced := by
  cases op with
  | event e receiveWall => exact hs.onStreams fun s hget hs => hs.ingest (ha _ s hget) e receiveWall
  | recoverBook i sequence bids asks =>
    refine hs.onStreams fun s _ hs => ?_
    obtain ⟨hbars, htrade⟩ := InstrumentStreams.recoverBook_same sequence bids asks s
    exact hs.of_eq hbars (congrArg StreamHealth.sequence htrade)
  | recoverStream i kind sequence received =>
    exact hs.onStreams fun s _ hs => hs.recoverStream kind sequence received

/-- **Every call** keeps the hub aligned. -/
theorem Aligned.step (ha : h.Aligned) {op : HubOp} (hfits : op.Fits) : (op.apply h).Aligned := by
  cases op with
  | tick op => exact ha.tick hfits
  | ingestBar bar sequence => exact ha.onStreams fun s _ hs => hs.ingestBar bar hfits
  | register i =>
    intro j s hget
    rw [HubOp.apply, register] at hget
    split at hget
    · exact ha j s hget
    · rw [Std.TreeMap.getElem?_insert] at hget
      split at hget
      · next hij =>
        cases hget
        rw [← compare_eq_iff_eq.mp hij]
        exact InstrumentStreams.new_aligned _ _ _ _
      · exact ha j s hget
  | markStale now maxAgeNs =>
    intro j s hget
    rw [HubOp.apply, markStale, Std.TreeMap.getElem?_map] at hget
    obtain ⟨s', hs', rfl⟩ := Option.map_eq_some_iff.mp hget
    refine (ha j s' hs').of_eq rfl ?_
    dsimp only
    rw [StreamHealth.markStaleIfDue]
    split
    · rfl
    · rfl

/-- **Every hub** that calls have led to is aligned. -/
theorem aligned_after {maxInstruments depth capacity : ℕ} {intervalNs : Option ℕ}
    {hub : MarketDataHub} (hnew : withBounds maxInstruments depth intervalNs capacity = some hub)
    {run : List HubOp} (hfits : ∀ op ∈ run, op.Fits) :
    (Runs.final HubOp.apply hub run).Aligned := by
  have hstart : hub.Aligned := by
    rw [withBounds] at hnew
    split at hnew
    · cases hnew
      intro i s hget
      simp at hget
    · cases hnew
  exact Runs.final_of_step (fun op h hop ha => Aligned.step ha hop) hstart hfits

-- Two runs

/-- Hubs with the same streams. -/
def Agree (h h' : MarketDataHub) : Prop := ∀ i : InstrumentId, h'.instruments[i]? = h.instruments[i]?

/-- What runs on the streams of an instrument does not tell such hubs apart. -/
theorem Agree.onStreams (hagree : h.Agree h') (i : InstrumentId)
    (p : Fallible InstrumentStreams HubError α) :
    (MarketDataHub.onStreams i p h').1 = (MarketDataHub.onStreams i p h).1 ∧
      (MarketDataHub.onStreams i p h).2.Agree (MarketDataHub.onStreams i p h').2 := by
  refine ⟨?_, fun j => ?_⟩
  · rw [MarketDataHub.onStreams, MarketDataHub.onStreams, hagree i]
    split
    · rfl
    · rfl
  · rw [getElem?_onStreams, getElem?_onStreams, hagree j]

theorem Agree.tick (hagree : h.Agree h') (op : TickOp) : (op.apply h).Agree (op.apply h') := by
  cases op with
  | event e receiveWall => exact (hagree.onStreams _ _).2
  | recoverBook i sequence bids asks => exact (hagree.onStreams _ _).2
  | recoverStream i kind sequence received => exact (hagree.onStreams _ _).2

theorem Agree.after (hagree : h.Agree h') (run : List TickOp) :
    (Runs.final TickOp.apply h run).Agree (Runs.final TickOp.apply h' run) := by
  induction run generalizing h h' with
  | nil => exact hagree
  | cons op run ih => exact ih (hagree.tick op)

/-- The hub `h'` behaves like `h` on later events and recoveries, but for its bars, and folds every
trade it accepts into its bars. -/
structure Unaffected (h h' : MarketDataHub) : Prop where
  outcome : ∀ run : List TickOp, (∀ op ∈ run, op.Fits) → ∀ event wall, event.sequence ≤ u64Max →
    (MarketDataHub.ingest event wall (Runs.final TickOp.apply h' run)).1 =
      (MarketDataHub.ingest event wall (Runs.final TickOp.apply h run)).1
  ticks : ∀ run : List TickOp, (∀ op ∈ run, op.Fits) → ∀ i : InstrumentId,
    ((Runs.final TickOp.apply h' run).instruments[i]?.map InstrumentStreams.ticks) =
      (Runs.final TickOp.apply h run).instruments[i]?.map InstrumentStreams.ticks
  folded : ∀ run : List TickOp, (∀ op ∈ run, op.Fits) → ∀ t wall status, t.sequence ≤ u64Max →
    (MarketDataHub.ingest (.trade t) wall (Runs.final TickOp.apply h' run)).1 =
      .ok (.accepted status) →
    ∀ s bars, (Runs.final TickOp.apply h' run).instruments[t.instrumentId]? = some s →
      s.bars = some bars → InstrumentStreams.Folds wall t bars

/-- A hub whose bars stand where the trade streams stand folds every trade it accepts. -/
theorem folds_of_synced (ha : h.Aligned) (hs : h.Synced) {t : Trade} {wall : WallTime}
    {status : SequenceStatus}
    (hrun : (MarketDataHub.ingest (.trade t) wall h).1 = .ok (.accepted status))
    {s : InstrumentStreams} {bars : BarAggregator}
    (hget : h.instruments[t.instrumentId]? = some s) (hbars : s.bars = some bars) :
    InstrumentStreams.Folds wall t bars := by
  have hingest : (InstrumentStreams.ingest (.trade t) wall s).1 = .ok (.accepted status) := by
    rw [← hrun, MarketDataHub.ingest, MarketDataHub.onStreams]
    simp only [MarketEvent.instrumentId, hget]
  obtain ⟨hrefused, -⟩ | ⟨haccepts, -, -, -, hcases⟩ :=
    InstrumentStreams.ingest_trade_cases (ha _ s hget).interval t wall
  · exact absurd hingest (hrefused status)
  · obtain ⟨hduplicate, -⟩ | ⟨-, hfolds, -⟩ := hcases bars hbars
    · rw [← hs _ s hget bars hbars] at haccepts
      exact absurd haccepts (by simp [SequenceTracker.Accepts, hduplicate])
    · exact hfolds

/-- A historical bar is taken by the bars of its instrument. -/
def Takes (h : MarketDataHub) (bar : Bar) (sequence : ℕ) : Prop :=
  ∃ s bars, h.instruments[bar.instrumentId]? = some s ∧ s.bars = some bars ∧
    bars.Takes bar sequence

/-- A historical bar that is not taken changes no streams. -/
theorem agree_ingestBar {bar : Bar} {sequence : ℕ} (hnot : ¬h.Takes bar sequence) :
    h.Agree (MarketDataHub.ingestBar bar sequence h).2 := by
  intro i
  rw [MarketDataHub.ingestBar, getElem?_onStreams]
  split
  · next hi =>
    subst hi
    cases hget : h.instruments[bar.instrumentId]? with
    | none => rfl
    | some s =>
      rw [Option.map_some, InstrumentStreams.ingestBar_of_not_takes fun bars hbars htakes =>
        hnot ⟨s, bars, hget, hbars, htakes⟩]
  · rfl

/-- Bars that stand elsewhere miss a trade that the trade stream accepts. -/
theorem exists_missed {i : InstrumentId} {s : InstrumentStreams} {bars : BarAggregator}
    (ha : s.Aligned i) (hbars : s.bars = some bars)
    (hne : bars.sequence ≠ s.tradeHealth.sequence) :
    ∃ sequence, sequence ≤ u64Max ∧ s.tradeHealth.sequence.Accepts sequence ∧
      bars.sequence.status sequence = .duplicate := by
  rcases htrade : s.tradeHealth.sequence with ⟨_ | last⟩
  · rcases hlast : bars.sequence with ⟨_ | ahead⟩
    · exact absurd (hlast.trans htrade.symm) hne
    · obtain ⟨hzero, hmax⟩ := ha.bounded bars hbars ahead (by rw [hlast])
      exact ⟨ahead, hmax, SequenceTracker.accepts_iff.mpr ⟨hzero, fun _ h => nomatch h⟩,
        SequenceTracker.status_of_le rfl (le_refl ahead)⟩
  · obtain ⟨ahead, hahead, hle⟩ := ha.behind bars hbars last (by rw [htrade])
    obtain ⟨-, hmax⟩ := ha.bounded bars hbars ahead hahead
    have hlt : last < ahead := by
      refine lt_of_le_of_ne hle fun heq => hne ?_
      rw [htrade]
      exact congrArg SequenceTracker.mk (hahead.trans (congrArg some heq.symm))
    refine ⟨last + 1, by omega, SequenceTracker.accepts_iff.mpr ⟨by omega, ?_⟩,
      SequenceTracker.status_of_le hahead (by omega)⟩
    rintro last' hlast'
    cases hlast'
    omega

/-- A hub that folds every trade it accepts has its bars where the trade streams stand. -/
theorem Unaffected.synced (ha : h'.Aligned) (hun : h.Unaffected h') : h'.Synced := by
  intro i s hget bars hbars
  by_contra hne
  obtain ⟨sequence, hmax, haccepts, hduplicate⟩ := exists_missed (ha i s hget) hbars hne
  have hid : i = bars.instrumentId := ((ha i s hget).instrumentId bars hbars).symm
  have hmissed : BarAggregator.ingest ⟨i, sequence, 0, 0, 1, 1⟩ 0 bars = (.ok .duplicate, bars) := by
    have hzero := (SequenceTracker.accepts_iff.mp haccepts).1
    rw [BarAggregator.ingest_of_not_accepts hid (by simp [Trade.validate, hzero])
      (by simp [SequenceTracker.Accepts, hduplicate]), hduplicate]
  have haccepted : (MarketDataHub.ingest (.trade ⟨i, sequence, 0, 0, 1, 1⟩) 0 h').1 =
      .ok (.accepted (s.tradeHealth.sequence.status sequence)) := by
    have hzero := (SequenceTracker.accepts_iff.mp haccepts).1
    have hvalid : Trade.validate ⟨i, sequence, 0, 0, 1, 1⟩ 0 = .ok () := by
      simp [Trade.validate, hzero]
    have htrade := (InstrumentStreams.ingest_trade_of_accepts hvalid haccepts).2
    have hbarsRun : InstrumentStreams.ingestTrade ⟨i, sequence, 0, 0, 1, 1⟩ 0 s =
        (.ok (some .duplicate), { s with bars := some bars }) := by
      rw [InstrumentStreams.ingestTrade, hbars]
      dsimp only
      rw [hmissed]
      rfl
    rw [hbarsRun] at htrade
    rw [MarketDataHub.ingest, MarketDataHub.onStreams]
    simp only [MarketEvent.instrumentId, hget]
    exact htrade.1
  obtain ⟨update, hupdate, hfolds⟩ := hun.folded [] (by simp) _ _ _ hmax haccepted s bars hget hbars
  rw [hmissed] at hfolds
  exact hupdate (Except.ok.inj hfolds).symm

end MarketDataHub

open MarketDataHub

/-- **Historical bars beside trades**: a historical bar leaves everything but the bars as it was for
all later events and recoveries, with every accepted trade folded into the bars, exactly when the
bars of all instruments stand where the trade streams stand and the bar is not taken. -/
theorem backfill_unaffected_iff {maxInstruments depth capacity : ℕ} {intervalNs : Option ℕ}
    {hub : MarketDataHub} (hnew : withBounds maxInstruments depth intervalNs capacity = some hub)
    {run : List HubOp} (hfits : ∀ op ∈ run, op.Fits) (bar : Bar) {sequence : ℕ}
    (hsequence : sequence ≤ u64Max) :
    (Runs.final HubOp.apply hub run).Unaffected
        (MarketDataHub.ingestBar bar sequence (Runs.final HubOp.apply hub run)).2 ↔
      (Runs.final HubOp.apply hub run).Synced ∧
        ¬(Runs.final HubOp.apply hub run).Takes bar sequence := by
  have ha := aligned_after hnew hfits
  have ha' : (HubOp.apply (.ingestBar bar sequence)
      (Runs.final HubOp.apply hub run)).Aligned := Aligned.step ha hsequence
  rw [HubOp.apply] at ha'
  generalize Runs.final HubOp.apply hub run = h at ha ha' ⊢
  constructor
  · intro hun
    have hsynced' := hun.synced ha'
    have hnot : ¬h.Takes bar sequence := by
      rintro ⟨s, bars, hget, hbars, htakes⟩
      obtain ⟨bars', hs', hat⟩ := InstrumentStreams.ingestBar_of_takes hbars htakes
      have hget' : (MarketDataHub.ingestBar bar sequence h).2.instruments[bar.instrumentId]? =
          some { s with bars := some bars' } := by
        rw [MarketDataHub.ingestBar, getElem?_onStreams, if_pos rfl, hget, Option.map_some, hs']
      have htrade : s.tradeHealth.sequence = ⟨some sequence⟩ :=
        (hsynced' _ _ hget' bars' rfl).symm.trans hat.sequence
      obtain ⟨ahead, hahead, hle⟩ := (ha _ s hget).behind bars hbars sequence (by rw [htrade])
      exact absurd hle (not_le.mpr ((SequenceTracker.accepts_iff.mp htakes.2).2 ahead hahead).1)
    refine ⟨fun i s hget bars hbars => ?_, hnot⟩
    exact hsynced' i s ((agree_ingestBar hnot i).trans hget) bars hbars
  · rintro ⟨hsynced, hnot⟩
    have hagree := agree_ingestBar hnot
    have hsynced' : (MarketDataHub.ingestBar bar sequence h).2.Synced := fun i s hget =>
      hsynced i s ((hagree i).symm.trans hget)
    have hkeep : ∀ run : List TickOp, (∀ op ∈ run, op.Fits) →
        (Runs.final TickOp.apply (MarketDataHub.ingestBar bar sequence h).2 run).Aligned ∧
        (Runs.final TickOp.apply (MarketDataHub.ingestBar bar sequence h).2 run).Synced :=
      fun run hrun => Runs.final_of_step
        (I := fun h : MarketDataHub => h.Aligned ∧ h.Synced)
        (fun op h hop hboth => ⟨Aligned.tick hboth.1 hop, Synced.tick hboth.1 hboth.2 op⟩)
        ⟨ha', hsynced'⟩ hrun
    refine ⟨fun run _ event wall _ => ?_, fun run _ i => ?_, fun run hrun t wall status _ => ?_⟩
    · exact ((hagree.after run).onStreams _ _).1
    · rw [hagree.after run i]
    · intro haccepted s bars hget hbars
      exact folds_of_synced (hkeep run hrun).1 (hkeep run hrun).2 haccepted hget hbars

namespace Sample

/-- A hub without instruments that keeps bars of a minute. -/
def emptyHub : MarketDataHub := ⟨∅, 2, 4, some 60000000000, 8⟩

/-- One instrument is registered. -/
def registered : List HubOp := [.register 7]

/-- A historical bar of the instrument. -/
def minuteBar : Bar := ⟨7, 0, 60000000000, 10, 12, 9, 11, 100⟩

/-- The hub with the historical bar. -/
def backfilled : MarketDataHub :=
  (MarketDataHub.ingestBar minuteBar 1 (Runs.final HubOp.apply emptyHub registered)).2

/-- The first trade of the instrument. -/
def firstTrade : Trade := ⟨7, 1, 0, 0, 10, 1⟩

end Sample

/-- A bar without a volume is refused and changes nothing. -/
theorem backfill_unaffected_refused :
    (Runs.final HubOp.apply Sample.emptyHub Sample.registered).Unaffected
      (MarketDataHub.ingestBar { Sample.minuteBar with volumeTicks := 0 } 1
        (Runs.final HubOp.apply Sample.emptyHub Sample.registered)).2 := by
  have hstreams : ∀ (i : InstrumentId) s,
      (Runs.final HubOp.apply Sample.emptyHub Sample.registered).instruments[i]? = some s →
        s = .new 7 4 (some 60000000000) 8 := by
    intro i s hget
    simp only [Runs.final, Sample.registered, List.foldl_cons, List.foldl_nil, HubOp.apply,
      register, Sample.emptyHub] at hget
    rw [if_neg (by decide)] at hget
    simp only [Std.TreeMap.getElem?_insert, Std.TreeMap.getElem?_emptyc] at hget
    split at hget
    · exact (Option.some.inj hget).symm
    · cases hget
  have hnew : withBounds 2 4 (some 60000000000) 8 = some Sample.emptyHub := rfl
  refine (backfill_unaffected_iff hnew (by simp [Sample.registered, HubOp.Fits]) _
    (by decide)).mpr ⟨fun i s hget bars hbars => ?_, ?_⟩
  · rw [hstreams i s hget] at hbars ⊢
    cases hbars
    rfl
  · rintro ⟨s, bars, -, -, hvalid, -⟩
    simp [BarAggregator.barValid, Sample.minuteBar] at hvalid

/-- **A historical bar hides a trade**: the bar takes the first sequence number of the bars, so the
first trade is accepted by the trade stream and is a duplicate for the bars. -/
theorem backfill_hides_trade :
    ¬(Runs.final HubOp.apply Sample.emptyHub Sample.registered).Unaffected Sample.backfilled := by
  intro hun
  have hsome : (Sample.backfilled.instruments[7]?.bind (·.bars)).isSome = true := by decide
  obtain ⟨bars, hbind⟩ := Option.isSome_iff_exists.mp hsome
  obtain ⟨s, hget, hbars⟩ := Option.bind_eq_some_iff.mp hbind
  obtain ⟨update, hne, hupdate⟩ := hun.folded [] (by simp) Sample.firstTrade 0 .initial (by decide)
    (by decide) s bars hget hbars
  have hduplicate : (Sample.backfilled.instruments[7]?.bind (·.bars)).map
      (fun bars => (BarAggregator.ingest Sample.firstTrade 0 bars).1) = some (.ok .duplicate) := by
    decide
  rw [hbind, Option.map_some, hupdate] at hduplicate
  exact hne (Except.ok.inj (Option.some.inj hduplicate))

end InsiderTrader
