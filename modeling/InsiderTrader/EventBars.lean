import Mathlib
import InsiderTrader.Backfill
import InsiderTrader.Library.MapSum
import InsiderTrader.Library.NewestKeys

/-!
# Event-time bars

Trades reach an aggregator in any order of their exchange times. Each opens a
bar or is merged into the one of its interval; the oldest bars are dropped
beyond the capacity.

## Main definitions

- `batchBar` — the bar of an interval, from all trades at once
- `newestIntervals` — the newest intervals in which there was a trade
- `BarAggregator.Holds` — the bars after some trades

## Main results

- `BarAggregator.Holds.record` — one more trade
- `BarAggregator.all_eq_batch` — the bars of a run are the batch bars of its newest intervals
-/

namespace InsiderTrader

open Fallible MachineInt

/-- A trade of signed 64-bit times and amounts. -/
structure Trade.Fits (t : Trade) : Prop where
  exchangeTime : MachineInt.Fits 64 t.exchangeTime
  quantityTicks : MachineInt.Fits 64 t.quantityTicks
  sequence : t.sequence ≤ u64Max

/-- The interval of a trade, counted from the epoch. -/
def Trade.interval (intervalNs : ℕ) (t : Trade) : Int := t.exchangeTime / intervalNs

/-- Times are compared in the order that can be run. -/
local instance (priority := 10000) timeOrder : Preorder ℤ := Int.instLinearOrder.toPreorder

/-- The bar of the trades of one interval in the order they were received: opened by the earliest
one, the first received of these, and closed by the latest one, the last received of these. -/
def barOf (instrumentId : InstrumentId) (intervalNs : ℕ) (start : Int) (own : List Trade) :
    Option Bar := do
  let first ← own.argmin (·.exchangeTime)
  let last ← own.reverse.argmax (·.exchangeTime)
  let high ← (own.map (·.priceTicks)).max?
  let low ← (own.map (·.priceTicks)).min?
  some
    { instrumentId := instrumentId
      startTime := start
      intervalNs := intervalNs
      openTicks := first.priceTicks
      highTicks := high
      lowTicks := low
      closeTicks := last.priceTicks
      volumeTicks := min (own.map (·.quantityTicks)).sum (2 ^ 63 - 1) }

/-- **The batch bar** of an interval: the bar of all its trades. -/
def batchBar (instrumentId : InstrumentId) (intervalNs : ℕ) (trades : List Trade)
    (interval : Int) : Option Bar :=
  barOf instrumentId intervalNs (max (-2 ^ 63) (interval * intervalNs))
    (trades.filter (·.interval intervalNs = interval))

/-- The newest intervals in which there was a trade, oldest first. -/
def newestIntervals (intervalNs capacity : ℕ) (trades : List Trade) : List Int :=
  let intervals := (trades.map (·.interval intervalNs)).toFinset.sort
  intervals.drop (intervals.length - capacity)

namespace BarAggregator

/-- The retained bars, oldest first. -/
def all (b : BarAggregator) : List Bar := b.bars.values.map (·.bar)

/-- The start of the interval of a time; the first interval is cut at the least time. -/
def startOf (intervalNs : ℕ) (time : Int) : Int := max (-2 ^ 63) (time / intervalNs * intervalNs)

/-- The bar that a trade opens. -/
def opening (b : BarAggregator) (t : Trade) : BarState :=
  ⟨⟨b.instrumentId, startOf b.intervalNs t.exchangeTime, b.intervalNs, t.priceTicks, t.priceTicks,
    t.priceTicks, t.priceTicks, t.quantityTicks⟩, t.exchangeTime, t.exchangeTime⟩

/-- The bars with a trade. -/
def record (b : BarAggregator) (t : Trade) : BarAggregator :=
  match b.bars[startOf b.intervalNs t.exchangeTime]? with
  | some state =>
    { b with bars := b.bars.insert (startOf b.intervalNs t.exchangeTime) (mergeTrade state t) }
  | none => b.insertBounded (startOf b.intervalNs t.exchangeTime) (b.opening t)

variable {b : BarAggregator} {t : Trade} {wall : WallTime}

/-- **Specification of a trade** that is taken: the bars have it, and the sequence is that of the
trade. -/
theorem ingest_eq_record (hid : t.instrumentId = b.instrumentId)
    (hvalid : t.validate wall = .ok ()) (hinterval : (narrow 64 b.intervalNs).isSome)
    (h : b.sequence.Accepts t.sequence) :
    (ingest t wall b).2 = { b.record t with sequence := ⟨some t.sequence⟩ } := by
  obtain ⟨interval, hinterval⟩ := Option.isSome_iff_exists.mp hinterval
  obtain ⟨-, rfl⟩ := narrow_eq_some.mp hinterval
  rw [ingest, reads_bind]
  dsimp only [id]
  rw [if_neg (not_not.mpr hid), ofExcept_bind_ok hvalid, SequenceTracker.observe_of_accepts h,
    modify_bind, record, startOf]
  rcases h with h | h
  all_goals
    rw [h]
    dsimp only
    rw [orFail_bind_some hinterval]
    cases b.bars[max (-2 ^ 63) (t.exchangeTime / b.intervalNs * b.intervalNs)]? with
    | some state => rfl
    | none => rfl

-- One bar

theorem max?_concat {l : List Int} {high : Int} (h : l.max? = some high) (x : Int) :
    (l ++ [x]).max? = some (max high x) := by
  obtain ⟨hmem, hbound⟩ := List.max?_eq_some_iff.mp h
  refine List.max?_eq_some_iff.mpr ⟨?_, fun y hy => ?_⟩
  · rcases max_choice high x with heq | heq <;> rw [heq]
    · exact List.mem_append_left _ hmem
    · exact List.mem_append_right _ List.mem_cons_self
  · rcases List.mem_append.mp hy with hy | hy
    · exact le_max_of_le_left (hbound y hy)
    · exact le_max_of_le_right (List.mem_singleton.mp hy).le

theorem min?_concat {l : List Int} {low : Int} (h : l.min? = some low) (x : Int) :
    (l ++ [x]).min? = some (min low x) := by
  obtain ⟨hmem, hbound⟩ := List.min?_eq_some_iff.mp h
  refine List.min?_eq_some_iff.mpr ⟨?_, fun y hy => ?_⟩
  · rcases min_choice low x with heq | heq <;> rw [heq]
    · exact List.mem_append_left _ hmem
    · exact List.mem_append_right _ List.mem_cons_self
  · rcases List.mem_append.mp hy with hy | hy
    · exact min_le_of_left_le (hbound y hy)
    · exact min_le_of_right_le (List.mem_singleton.mp hy).ge

/-- What a bar says of the trades of its interval. -/
structure Summarizes (instrumentId : InstrumentId) (intervalNs : ℕ) (start : Int)
    (own : List Trade) (state : BarState) : Prop where
  instrumentId : state.bar.instrumentId = instrumentId
  startTime : state.bar.startTime = start
  intervalNs : state.bar.intervalNs = intervalNs
  opens : ∃ first, own.argmin (·.exchangeTime) = some first ∧
    state.bar.openTicks = first.priceTicks ∧ state.openTradeTime = first.exchangeTime
  closes : ∃ last, own.reverse.argmax (·.exchangeTime) = some last ∧
    state.bar.closeTicks = last.priceTicks ∧ state.closeTradeTime = last.exchangeTime
  high : (own.map (·.priceTicks)).max? = some state.bar.highTicks
  low : (own.map (·.priceTicks)).min? = some state.bar.lowTicks
  nonneg : 0 ≤ (own.map (·.quantityTicks)).sum
  volume : state.bar.volumeTicks = min (own.map (·.quantityTicks)).sum (2 ^ 63 - 1)

/-- A trade alone. -/
theorem summarizes_opening (hpositive : 0 < t.quantityTicks) (hfits : t.Fits) :
    Summarizes b.instrumentId b.intervalNs (startOf b.intervalNs t.exchangeTime) [t]
      (b.opening t) where
  instrumentId := rfl
  startTime := rfl
  intervalNs := rfl
  opens := ⟨t, rfl, rfl, rfl⟩
  closes := ⟨t, rfl, rfl, rfl⟩
  high := rfl
  low := rfl
  nonneg := by simpa using hpositive.le
  volume := by
    have hle := (fits_64_iff.mp hfits.quantityTicks).2
    simpa [opening] using hle

/-- **One more trade** of the interval of a bar. -/
theorem Summarizes.mergeTrade {i : InstrumentId} {w : ℕ} {start : Int} {own : List Trade}
    {state : BarState} (h : Summarizes i w start own state) (hpositive : 0 < t.quantityTicks) :
    Summarizes i w start (own ++ [t]) (mergeTrade state t) where
  instrumentId := h.instrumentId
  startTime := h.startTime
  intervalNs := h.intervalNs
  opens := by
    obtain ⟨first, hfirst, hopen, htime⟩ := h.opens
    rw [List.argmin_concat, hfirst]
    unfold BarAggregator.mergeTrade
    dsimp only
    rw [htime]
    by_cases hbefore : t.exchangeTime < first.exchangeTime
    · exact ⟨t, if_pos hbefore, by simp [hbefore], by simp [hbefore]⟩
    · exact ⟨first, if_neg hbefore, by simp [hbefore, hopen], by simp [hbefore]⟩
  closes := by
    obtain ⟨last, hlast, hclose, htime⟩ := h.closes
    rw [List.reverse_concat, List.argmax_cons, hlast]
    unfold BarAggregator.mergeTrade
    dsimp only
    rw [htime]
    by_cases hbefore : t.exchangeTime < last.exchangeTime
    · have hnot : ¬last.exchangeTime ≤ t.exchangeTime := not_le.mpr hbefore
      exact ⟨last, if_pos hbefore, by simp [hnot, hclose], by simp [hnot]⟩
    · have hafter : last.exchangeTime ≤ t.exchangeTime := not_lt.mp hbefore
      exact ⟨t, if_neg hbefore, by simp [hafter], by simp [hafter]⟩
  high := by
    rw [List.map_append]
    exact max?_concat h.high t.priceTicks
  low := by
    rw [List.map_append]
    exact min?_concat h.low t.priceTicks
  nonneg := by
    have hsum := h.nonneg
    rw [List.map_append, List.sum_append, List.map_singleton, List.sum_singleton]
    omega
  volume := by
    have hsum := h.nonneg
    have hvolume := h.volume
    rw [List.map_append, List.sum_append, List.map_singleton, List.sum_singleton]
    show saturatingAdd state.bar.volumeTicks t.quantityTicks = _
    rw [hvolume, saturatingAdd]
    omega

-- The bars of a run

/-- The trades of the interval that starts at a time. -/
def ownTrades (intervalNs : ℕ) (trades : List Trade) (start : Int) : List Trade :=
  trades.filter (startOf intervalNs ·.exchangeTime = start)

/-- **The bars after some trades**: the newest intervals are kept, each with the bar of its
trades. -/
structure Holds (instrumentId : InstrumentId) (intervalNs capacity : ℕ) (trades : List Trade)
    (bars : Std.TreeMap Int BarState) : Prop where
  keeps : NewestKeys.Keeps capacity
    (fun start => ∃ t ∈ trades, startOf intervalNs t.exchangeTime = start) bars
  summary : ∀ start state, bars[start]? = some state →
    Summarizes instrumentId intervalNs start (ownTrades intervalNs trades start) state

theorem ownTrades_concat (w : ℕ) (trades : List Trade) (t : Trade) (start : Int) :
    ownTrades w (trades ++ [t]) start =
      if startOf w t.exchangeTime = start then ownTrades w trades start ++ [t]
      else ownTrades w trades start := by
  rw [ownTrades, List.filter_append]
  split
  · next h => rw [List.filter_cons_of_pos (by simpa using h)]; rfl
  · next h => rw [List.filter_cons_of_neg (by simpa using h), List.filter_nil, List.append_nil]; rfl

/-- **One trade more** keeps what the bars hold. -/
theorem Holds.record {trades : List Trade}
    (h : Holds b.instrumentId b.intervalNs b.capacity trades b.bars)
    (hpositive : 0 < t.quantityTicks) (hfits : t.Fits) :
    Holds b.instrumentId b.intervalNs b.capacity (trades ++ [t]) (b.record t).bars := by
  have hset (start : Int) : (∃ t' ∈ trades ++ [t], startOf b.intervalNs t'.exchangeTime = start) ↔
      (∃ t' ∈ trades, startOf b.intervalNs t'.exchangeTime = start) ∨
        start = startOf b.intervalNs t.exchangeTime := by
    simp only [List.mem_append, List.mem_singleton, or_and_right, exists_or, exists_eq_left]
    rw [@eq_comm _ start]
  have hother {start : Int} (hne : start ≠ startOf b.intervalNs t.exchangeTime) :
      ownTrades b.intervalNs (trades ++ [t]) start = ownTrades b.intervalNs trades start := by
    rw [ownTrades_concat, if_neg hne.symm]
  have hown : ownTrades b.intervalNs (trades ++ [t]) (startOf b.intervalNs t.exchangeTime) =
      ownTrades b.intervalNs trades (startOf b.intervalNs t.exchangeTime) ++ [t] := by
    rw [ownTrades_concat, if_pos rfl]
  rw [BarAggregator.record]
  cases hget : b.bars[startOf b.intervalNs t.exchangeTime]? with
  | some state =>
    have hmem : startOf b.intervalNs t.exchangeTime ∈ b.bars :=
      Std.TreeMap.mem_iff_isSome_getElem?.mpr (by rw [hget]; rfl)
    constructor
    · refine (h.keeps.insert hmem).congr fun start => (hset start).trans (or_iff_left_of_imp ?_)
      rintro rfl
      exact h.keeps.sound _ hmem
    · intro start state' hstate
      rw [Std.TreeMap.getElem?_insert] at hstate
      split at hstate
      · next heq =>
        obtain rfl := Option.some.inj hstate
        rw [← Std.LawfulEqCmp.eq_of_compare heq, hown]
        exact (h.summary _ _ hget).mergeTrade hpositive
      · next hne =>
        rw [hother fun heq => hne (by rw [heq]; exact Std.ReflCmp.compare_self)]
        exact h.summary _ _ hstate
  | none =>
    have hnot : startOf b.intervalNs t.exchangeTime ∉ b.bars := fun hmem => by
      have hsome := Std.TreeMap.mem_iff_isSome_getElem?.mp hmem
      rw [hget] at hsome
      cases hsome
    constructor
    · exact (h.keeps.insertNewest hnot).congr hset
    · intro start state' hstate
      rcases h.keeps.getElem?_insertNewest hnot hstate with ⟨hne, hold⟩ | ⟨rfl, rfl, hfresh⟩
      · rw [hother hne]
        exact h.summary _ _ hold
      · -- no trade of the interval came before
        have hnone : ownTrades b.intervalNs trades (startOf b.intervalNs t.exchangeTime) = [] := by
          refine List.filter_eq_nil_iff.mpr fun t' ht' heq => hfresh ⟨t', ht', ?_⟩
          exact of_decide_eq_true heq
        rw [hown, hnone]
        exact summarizes_opening hpositive hfits

/-- A trade leaves what the bars are of. -/
theorem record_stream (b : BarAggregator) (t : Trade) :
    (b.record t).instrumentId = b.instrumentId ∧ (b.record t).intervalNs = b.intervalNs ∧
      (b.record t).capacity = b.capacity := by
  rw [BarAggregator.record]
  split <;> exact ⟨rfl, rfl, rfl⟩

/-- A valid trade has a positive sequence number and quantity. -/
theorem positive_of_validate (h : t.validate wall = .ok ()) :
    t.sequence ≠ 0 ∧ 0 < t.quantityTicks := by
  unfold Trade.validate at h
  split at h
  · cases h
  · next hsequence =>
    split at h
    · cases h
    · next hvalues =>
      rw [not_or, not_le, not_le] at hvalues
      exact ⟨hsequence, hvalues.2⟩

/-- The aggregator after a trade is given to it. -/
def step (c : Trade × WallTime) (b : BarAggregator) : BarAggregator := (ingest c.1 c.2 b).2

/-- A call an aggregator takes when its sequence number is the next one. -/
structure Feeds (b : BarAggregator) (c : Trade × WallTime) : Prop where
  instrumentId : c.1.instrumentId = b.instrumentId
  valid : c.1.validate c.2 = .ok ()
  fits : c.1.Fits

/-- **A contiguous run** keeps the bars of all its trades. -/
theorem holds_final {calls : List (Trade × WallTime)} {b : BarAggregator} {trades : List Trade}
    (hinterval : (narrow 64 b.intervalNs).isSome) (hfeeds : ∀ c ∈ calls, b.Feeds c)
    (hnext : ∀ last, b.sequence.last = some last → ∀ c ∈ calls.head?, c.1.sequence = last + 1)
    (hchain : calls.IsChain fun c c' => c'.1.sequence = c.1.sequence + 1)
    (h : Holds b.instrumentId b.intervalNs b.capacity trades b.bars) :
    Holds b.instrumentId b.intervalNs b.capacity (trades ++ calls.map Prod.fst)
      (Runs.final step b calls).bars := by
  induction calls generalizing b trades with
  | nil => simpa using h
  | cons c calls ih =>
    obtain ⟨hc, hfeeds⟩ := List.forall_mem_cons.mp hfeeds
    obtain ⟨hpositive, hquantity⟩ := positive_of_validate hc.valid
    have haccepts : b.sequence.Accepts c.1.sequence := by
      refine SequenceTracker.accepts_iff.mpr ⟨hpositive, fun last hlast => ?_⟩
      have heq := hnext last hlast c rfl
      have hle := hc.fits.sequence
      omega
    have hstep : step c b = { b.record c.1 with sequence := ⟨some c.1.sequence⟩ } :=
      ingest_eq_record hc.instrumentId hc.valid hinterval haccepts
    have hrecord := h.record hquantity hc.fits
    obtain ⟨hid, hwidth, hcapacity⟩ := record_stream b c.1
    obtain ⟨hhead, hchain⟩ := List.isChain_cons.mp hchain
    rw [← hid, ← hwidth, ← hcapacity] at hrecord ⊢
    rw [Runs.final_cons, hstep, List.map_cons, List.append_cons]
    refine ih (b := { b.record c.1 with sequence := ⟨some c.1.sequence⟩ }) (hwidth ▸ hinterval)
      (fun c' hc' => ?_) (fun last hlast c' hc' => ?_) hchain hrecord
    · obtain ⟨hinstrument, hvalid, hfits⟩ := hfeeds c' hc'
      exact ⟨hinstrument.trans hid.symm, hvalid, hfits⟩
    · obtain rfl := Option.some.inj hlast
      exact hhead c' hc'

theorem Summarizes.barOf {i : InstrumentId} {w : ℕ} {start : Int} {own : List Trade}
    {state : BarState} (h : Summarizes i w start own state) :
    barOf i w start own = some state.bar := by
  obtain ⟨first, hfirst, hopen, -⟩ := h.opens
  obtain ⟨last, hlast, hclose, -⟩ := h.closes
  unfold InsiderTrader.barOf
  rw [hfirst, hlast, h.high, h.low, ← h.instrumentId, ← h.startTime, ← h.intervalNs]
  show some _ = some _
  rw [← hopen, ← hclose, ← h.volume]

/-- Starts are ordered as their intervals: no interval but the first can be cut. -/
theorem startOf_lt {w : ℕ} {x y : Int} (hw : 0 < w) (hx : MachineInt.Fits 64 x)
    (h : x / w < y / w) : startOf w x < startOf w y := by
  have hbelow : x < (x / w + 1) * w := Int.lt_ediv_add_one_mul_self x (by omega)
  have hstep : (x / w + 1) * w ≤ y / w * w :=
    Int.mul_le_mul_of_nonneg_right h (by omega)
  have hless : x / w * w < y / w * w := by
    have hnext : (x / w + 1) * w = x / w * w + w := by rw [add_mul, one_mul]
    omega
  obtain ⟨hleast, -⟩ := fits_64_iff.mp hx
  unfold startOf
  omega

theorem startOf_eq_iff {w : ℕ} {x y : Int} (hw : 0 < w) (hx : MachineInt.Fits 64 x)
    (hy : MachineInt.Fits 64 y) : startOf w x = startOf w y ↔ x / w = y / w := by
  refine ⟨fun heq => ?_, fun heq => by rw [startOf, startOf, heq]⟩
  rcases lt_trichotomy (x / (w : Int)) (y / w) with hlt | heq' | hgt
  · exact absurd heq (startOf_lt hw hx hlt).ne
  · exact heq'
  · exact absurd heq (startOf_lt hw hy hgt).ne'

/-- **The bars held** are the batch bars of the newest intervals. -/
theorem Holds.bars_eq {i : InstrumentId} {w n : ℕ} {trades : List Trade}
    {bars : Std.TreeMap Int BarState} (h : Holds i w n trades bars) (hw : 0 < w)
    (hfits : ∀ t ∈ trades, t.Fits) :
    bars.values.map (fun state => some state.bar) =
      (newestIntervals w n trades).map (batchBar i w trades) := by
  let start (interval : Int) : Int := max (-2 ^ 63) (interval * w)
  let intervals := (trades.map (·.interval w)).toFinset.sort
  have hmem (interval : Int) : interval ∈ intervals ↔ ∃ t ∈ trades, t.interval w = interval := by
    simp [intervals]
  -- the keys, oldest first, are the starts of the newest intervals
  have hkeys : bars.keys = (newestIntervals w n trades).map start := by
    have hsorted : (intervals.map start).Pairwise fun x y => compare x y = .lt := by
      refine List.pairwise_map.mpr ((Finset.sortedLT_sort _).pairwise.imp_of_mem ?_)
      intro x y hx hy hlt
      obtain ⟨t, ht, rfl⟩ := (hmem x).mp hx
      obtain ⟨t', ht', rfl⟩ := (hmem y).mp hy
      exact compare_lt_iff_lt.mpr (startOf_lt hw (hfits t ht).exchangeTime hlt)
    have hall (x : Int) : x ∈ intervals.map start ↔
        ∃ t ∈ trades, startOf w t.exchangeTime = x := by
      simp only [List.mem_map, hmem]
      constructor
      · rintro ⟨-, ⟨t, ht, rfl⟩, rfl⟩
        exact ⟨t, ht, rfl⟩
      · rintro ⟨t, ht, rfl⟩
        exact ⟨_, ⟨t, ht, rfl⟩, rfl⟩
    rw [h.keeps.keys_eq hsorted hall, List.length_map, ← List.map_drop]
    rfl
  calc bars.values.map (fun state => some state.bar)
      = bars.toList.map (fun e => some e.2.bar) := by
        rw [MapSum.values_eq_map, List.map_map]
        rfl
    _ = bars.toList.map (fun e => InsiderTrader.barOf i w e.1 (ownTrades w trades e.1)) := by
        refine List.map_congr_left fun e he => ?_
        exact (h.summary e.1 e.2 (Std.TreeMap.mem_toList_iff_getElem?_eq_some.mp he)).barOf.symm
    _ = bars.keys.map (fun x => InsiderTrader.barOf i w x (ownTrades w trades x)) := by
        rw [← Std.TreeMap.map_fst_toList_eq_keys, List.map_map]
        rfl
    _ = (newestIntervals w n trades).map (batchBar i w trades) := by
        rw [hkeys, List.map_map]
        refine List.map_congr_left fun interval hinterval => ?_
        obtain ⟨t, ht, rfl⟩ := (hmem interval).mp (List.mem_of_mem_drop hinterval)
        refine congrArg (InsiderTrader.barOf i w _) (List.filter_congr fun t' ht' => ?_)
        rw [decide_eq_decide]
        exact startOf_eq_iff hw (hfits t' ht').exchangeTime (hfits t ht).exchangeTime

/-- **Event-time bars**: after a contiguous run of valid trades, in any order of their exchange
times, an aggregator holds the batch bars of the newest intervals that received a trade. -/
theorem all_eq_batch {instrumentId : InstrumentId} {intervalNs capacity : ℕ} {b : BarAggregator}
    (hnew : BarAggregator.new instrumentId intervalNs capacity = some b)
    {calls : List (Trade × WallTime)}
    (hvalid : ∀ c ∈ calls, c.1.instrumentId = instrumentId ∧ c.1.validate c.2 = .ok () ∧ c.1.Fits)
    (hchain : calls.IsChain fun c c' => c'.1.sequence = c.1.sequence + 1) :
    (Runs.final step b calls).all.map some =
      (newestIntervals intervalNs capacity (calls.map Prod.fst)).map
        (batchBar instrumentId intervalNs (calls.map Prod.fst)) := by
  rw [BarAggregator.new] at hnew
  split at hnew
  · next hlimits =>
    obtain rfl := Option.some.inj hnew
    have hstart : Holds instrumentId intervalNs capacity [] ∅ :=
      ⟨NewestKeys.keeps_empty.congr fun _ => by simp, fun _ _ h => by simp at h⟩
    have hfinal := holds_final (b := ⟨instrumentId, intervalNs, capacity, ∅, ⟨none⟩⟩) hlimits.2.1
      (fun c hc => ⟨(hvalid c hc).1, (hvalid c hc).2.1, (hvalid c hc).2.2⟩)
      (fun last hlast => by cases hlast) hchain hstart
    have hfits : ∀ t ∈ calls.map Prod.fst, t.Fits := by
      simp only [List.mem_map, forall_exists_index, and_imp]
      rintro t c hc rfl
      exact (hvalid c hc).2.2
    rw [List.nil_append] at hfinal
    rw [all, List.map_map]
    exact hfinal.bars_eq hlimits.1 hfits
  · cases hnew

end BarAggregator

namespace Sample

/-- Room for one bar of ten nanoseconds. -/
def oneBar : BarAggregator := ⟨7, 10, 1, ∅, ⟨none⟩⟩

/-- Two trades of one interval, the later one first, and between them one of an older interval. -/
def lateTrades : List (Trade × WallTime) :=
  [(⟨7, 1, 15, 0, 4, 1⟩, 20), (⟨7, 2, 3, 0, 9, 1⟩, 20), (⟨7, 3, 12, 0, 5, 1⟩, 20)]

theorem lateTrades_valid : ∀ c ∈ lateTrades,
    c.1.instrumentId = 7 ∧ c.1.validate c.2 = .ok () ∧ c.1.Fits := by
  intro c hc
  simp only [lateTrades, List.mem_cons, List.not_mem_nil, or_false] at hc
  rcases hc with rfl | rfl | rfl
  all_goals exact ⟨rfl, rfl, ⟨by decide, by decide, by decide⟩⟩

end Sample

/-- A late trade changes the bar of its interval, and one of an interval that went changes none. -/
theorem lateTrades_batch :
    (Runs.final BarAggregator.step Sample.oneBar Sample.lateTrades).all.map some =
      (newestIntervals 10 1 (Sample.lateTrades.map Prod.fst)).map
        (batchBar 7 10 (Sample.lateTrades.map Prod.fst)) :=
  BarAggregator.all_eq_batch (if_pos (by decide)) Sample.lateTrades_valid (by decide)

end InsiderTrader
