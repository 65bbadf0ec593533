import Mathlib.Algebra.Order.BigOperators.Group.List
import Mathlib.Algebra.Order.Ring.Nat
import InsiderTrader.EmaTrend

/-!
# A checkpoint of the trend metric

What a metric keeps is within the bounds that its checkpoint is read with, and a
checkpoint that fails them leaves what was kept before.

## Main definitions

- `NormalizedEmaTrend.Restorable` — what is kept passes the checks of a checkpoint

## Main results

- `NormalizedEmaTrend.restore_checkpoint` — a checkpoint restores what was kept
- `NormalizedEmaTrend.restoreCheckpoint_of_error` — a bad checkpoint restores nothing
-/

namespace InsiderTrader

open Fallible Wire

/-- A sample that a checkpoint holds: finite and positive, in the widths of its fields. -/
structure IndexedClose.Restorable (float : MetricArith) (sample : IndexedClose) : Prop where
  index : MachineInt.Fits 64 sample.barIndex
  bits : sample.close.bits < 2 ^ 64
  finite : float.isFinite sample.close
  positive : ¬float.atMost sample.close float.zero

/-- What is kept of an instrument in a checkpoint: no more than the window, in the order of bars. -/
structure EmaInstrumentState.Restorable (float : MetricArith) (window : ℕ)
    (instrumentId : InstrumentId) (state : EmaInstrumentState) : Prop where
  named : instrumentId ≠ 0
  width : instrumentId < 2 ^ 128
  short : state.closes.length ≤ window
  ascending : state.closes.Pairwise (·.barIndex < ·.barIndex)
  samples : ∀ sample ∈ state.closes, sample.Restorable float

namespace NormalizedEmaTrend

/-- **What a checkpoint can hold.** -/
structure Restorable (float : MetricArith) (metric : NormalizedEmaTrend) (states : EmaStates) :
    Prop where
  few : states.size ≤ metric.maxInstruments
  entries : ∀ instrumentId (state : EmaInstrumentState), states[instrumentId]? = some state →
    state.Restorable float metric.slowWindow instrumentId

variable {float : MetricArith} {metric : NormalizedEmaTrend} {states : EmaStates}

/-- The samples come back, each after the one before. -/
theorem reads_samples {samples : List IndexedClose} {previous : Option Int}
    (hsamples : ∀ sample ∈ samples, sample.Restorable float)
    (hascending : samples.Pairwise (·.barIndex < ·.barIndex))
    (hprevious : ∀ index ∈ previous, ∀ sample ∈ samples, index < sample.barIndex) :
    Reads (readSamples float samples.length previous) (samples.flatMap sampleBytes)
      (.ok samples) := by
  induction samples generalizing previous with
  | nil => exact reads_pure []
  | cons sample samples ih =>
    obtain ⟨hsample, hsamples⟩ := List.forall_mem_cons.mp hsamples
    obtain ⟨hnext, hascending⟩ := List.pairwise_cons.mp hascending
    have hlater : ¬previous.any (sample.barIndex ≤ ·) = true := by
      cases previous with
      | none => exact Bool.false_ne_true
      | some index => simpa using hprevious index rfl sample List.mem_cons_self
    rw [List.flatMap_cons, sampleBytes, List.append_assoc]
    refine (reads_signed _ (by decide) hsample.index).ok_bind ?_
    refine (reads_number _ 8 hsample.bits).ok_bind ?_
    refine Reads.checked ⟨hsample.finite, hsample.positive, hlater⟩ ?_
    refine (ih hsamples hascending ?_).bind_pure
    rintro _ ⟨⟩ next hmem
    exact hnext next hmem

/-- The instruments come back, each with its samples. -/
theorem reads_instruments {entries : List (InstrumentId × EmaInstrumentState)} {total : ℕ}
    {restored : EmaStates}
    (hentries : ∀ entry ∈ entries, entry.2.Restorable float metric.slowWindow entry.1)
    (hdistinct : (entries.map (·.1)).Nodup) (hnew : ∀ entry ∈ entries, entry.1 ∉ restored)
    (htotal : total + (entries.map (·.2.closes.length)).sum ≤ maxStarterStateSamples) :
    Reads (readInstruments float metric entries.length total restored)
      (entries.flatMap entryBytes)
      (.ok (entries.foldl (fun states entry => states.insert entry.1 entry.2) restored)) := by
  induction entries generalizing total restored with
  | nil => exact reads_pure restored
  | cons entry entries ih =>
    obtain ⟨hentry, hentries⟩ := List.forall_mem_cons.mp hentries
    obtain ⟨hfresh, hnew⟩ := List.forall_mem_cons.mp hnew
    obtain ⟨hother, hdistinct⟩ := List.nodup_cons.mp hdistinct
    rw [List.map_cons, List.sum_cons] at htotal
    have hcount : entry.2.closes.length < 256 ^ 4 := by
      have hshort := hentry.short
      have hwindow := metric.slow_le
      have hmax : maxStarterWindow < 256 ^ 4 := by decide
      omega
    rw [List.flatMap_cons, entryBytes, List.append_assoc, List.append_assoc]
    refine (reads_number _ 16 hentry.width).ok_bind ?_
    refine Reads.checked hentry.named ?_
    refine (reads_number _ 4 hcount).ok_bind ?_
    refine Reads.checked ⟨hentry.short, by omega⟩ ?_
    refine (reads_samples hentry.samples hentry.ascending fun _ h => by cases h).ok_bind ?_
    refine Reads.checked hfresh (ih hentries hdistinct ?_ (by omega))
    intro next hmem hrestored
    rw [Std.ExtTreeMap.mem_insert, Std.LawfulEqCmp.compare_eq_iff_eq] at hrestored
    obtain heq | hrestored := hrestored
    · exact hother (List.mem_map.mpr ⟨next, hmem, heq.symm⟩)
    · exact hnew next hmem hrestored

/-- A map is made again of its entries. -/
theorem foldl_insert_toList (states : EmaStates) :
    states.toList.foldl (fun states entry => states.insert entry.1 entry.2) ∅ = states := by
  rw [← Std.ExtTreeMap.ofList_eq_foldl]
  apply Std.ExtTreeMap.ext_getElem?
  intro instrumentId
  cases hstate : states[instrumentId]? with
  | none =>
    apply Std.ExtTreeMap.getElem?_ofList_of_contains_eq_false
    refine Bool.eq_false_iff.mpr fun hcontains => ?_
    obtain ⟨entry, hmem, rfl⟩ := List.mem_map.mp (List.contains_iff_mem.mp hcontains)
    rw [Std.ExtTreeMap.mem_toList_iff_getElem?_eq_some.mp hmem] at hstate
    cases hstate
  | some state =>
    exact Std.ExtTreeMap.getElem?_ofList_of_mem Std.ReflCmp.compare_self
      Std.ExtTreeMap.distinct_keys_toList
      (Std.ExtTreeMap.mem_toList_iff_getElem?_eq_some.mpr hstate)

theorem sum_lengths_le (h : Restorable float metric states) :
    (states.toList.map (·.2.closes.length)).sum ≤ maxStarterStateSamples := by
  have hshort : ∀ n ∈ states.toList.map (·.2.closes.length), n ≤ metric.slowWindow := by
    intro n hn
    obtain ⟨entry, hentry, rfl⟩ := List.mem_map.mp hn
    exact (h.entries _ _ (Std.ExtTreeMap.mem_toList_iff_getElem?_eq_some.mp hentry)).short
  have hsum := List.sum_le_card_nsmul _ _ hshort
  rw [List.length_map, Std.ExtTreeMap.length_toList, Nat.nsmul_eq_mul] at hsum
  calc (states.toList.map (·.2.closes.length)).sum
      ≤ states.size * metric.slowWindow := hsum
    _ ≤ metric.maxInstruments * metric.slowWindow := Nat.mul_le_mul_right _ h.few
    _ = metric.slowWindow * metric.maxInstruments := Nat.mul_comm _ _
    _ ≤ maxStarterStateSamples := metric.samples_le

/-- A capacity has 32 bits. -/
theorem maxInstruments_lt (metric : NormalizedEmaTrend) : metric.maxInstruments < 2 ^ 32 := by
  have hpos : 0 < metric.slowWindow := metric.fast_pos.trans metric.fast_lt
  have hle : metric.maxInstruments ≤ maxStarterStateSamples :=
    (Nat.le_mul_of_pos_left _ hpos).trans metric.samples_le
  exact hle.trans_lt (by decide)

theorem slowWindow_lt (metric : NormalizedEmaTrend) : metric.slowWindow < 2 ^ 32 :=
  metric.slow_le.trans_lt (by decide)

/-- The bytes of a checkpoint. -/
theorem checkpoint_eq (h : Restorable float metric states) :
    metric.checkpoint states = .ok (checkpointMark ++ (LittleEndian.bytes 4 metric.fastWindow ++
      (LittleEndian.bytes 4 metric.slowWindow ++ (LittleEndian.bytes 4 states.size ++
        states.toList.flatMap entryBytes)))) := by
  have hslow := metric.slowWindow_lt
  have hfast := metric.fast_lt
  have hfew := h.few
  have hmax := metric.maxInstruments_lt
  have hshort : ¬(states.toList.any fun entry => 2 ^ 32 ≤ entry.2.closes.length) = true := by
    intro hany
    obtain ⟨entry, hentry, hlong⟩ := List.any_eq_true.mp hany
    have hle := (h.entries _ _ (Std.ExtTreeMap.mem_toList_iff_getElem?_eq_some.mp hentry)).short
    exact absurd (of_decide_eq_true hlong) (Nat.not_le.mpr (hle.trans_lt hslow))
  rw [checkpoint, if_neg (by omega), if_neg (by omega), if_neg hshort]

/-- **A checkpoint restores what was kept.** -/
theorem restore_checkpoint (h : Restorable float metric states) :
    ∃ bytes, metric.checkpoint states = .ok bytes ∧
      ∀ old, restoreCheckpoint float metric bytes old = (.ok (), states) := by
  refine ⟨_, checkpoint_eq h, fun old => ?_⟩
  have hslow := metric.slowWindow_lt
  have hfast := metric.fast_lt
  have hfew := h.few
  have hmax := metric.maxInstruments_lt
  have hdistinct : (states.toList.map (·.1)).Nodup := by
    refine List.pairwise_map.mpr (Std.ExtTreeMap.distinct_keys_toList.imp fun hne heq => ?_)
    exact hne (Std.LawfulEqCmp.compare_eq_iff_eq.mpr heq)
  have hread : Reads (readCheckpoint float metric) (LittleEndian.bytes 4 metric.fastWindow ++
      (LittleEndian.bytes 4 metric.slowWindow ++ (LittleEndian.bytes 4 states.size ++
        states.toList.flatMap entryBytes))) (.ok states) := by
    refine (reads_number _ 4 (by omega)).ok_bind ?_
    refine (reads_number _ 4 (by omega)).ok_bind ?_
    refine (reads_number _ 4 (by omega)).ok_bind ?_
    refine Reads.checked ⟨rfl, rfl, hfew⟩ ?_
    have hinstruments : Reads (readInstruments float metric states.toList.length 0 ∅)
        (states.toList.flatMap entryBytes)
        (.ok (states.toList.foldl (fun states entry => states.insert entry.1 entry.2) ∅)) := by
      refine reads_instruments (fun entry hentry => ?_) hdistinct
        (fun _ _ => Std.ExtTreeMap.not_mem_empty) ?_
      · exact h.entries _ _ (Std.ExtTreeMap.mem_toList_iff_getElem?_eq_some.mp hentry)
      · rw [Nat.zero_add]
        exact sum_lengths_le h
    rwa [Std.ExtTreeMap.length_toList, foldl_insert_toList] at hinstruments
  rw [restoreCheckpoint, ofExcept_bind_ok (complete_eq hread), modify_apply]

/-- **A bad checkpoint** leaves what was kept. -/
theorem restoreCheckpoint_of_error {bytes : List UInt8} {error : MetricError}
    (h : (restoreCheckpoint float metric bytes states).1 = .error error) :
    (restoreCheckpoint float metric bytes states).2 = states := by
  unfold restoreCheckpoint at h ⊢
  cases hread : Reader.complete checkpointMark (.invalidOutput "checkpoint schema")
      (.invalidOutput "checkpoint trailing bytes") (readCheckpoint float metric) bytes with
  | error e => rfl
  | ok restored =>
    rw [hread] at h
    cases h

end NormalizedEmaTrend

end InsiderTrader
