import InsiderTrader.EmaTrend

/-!
# What the trend metric keeps

A metric keeps of each instrument the latest closes of the newest bars that were
evaluated, and answers with the reference value of these. A new instrument is
turned away when the capacity is used up, so that nothing is kept of it later
either.

## Main definitions

- `barsOf` — the bars of an instrument that were evaluated
- `NormalizedEmaTrend.reference` — the reference value of these bars
- `NormalizedEmaTrend.Tracks` — what is kept after some evaluations

## Main results

- `NormalizedEmaTrend.Tracks.evaluate_eq` — what an evaluation does and answers
- `NormalizedEmaTrend.Tracks.evaluate` — one more evaluation
-/

namespace InsiderTrader

open Fallible

/-- The bar that a context supplies, when its inputs are there and its close is positive. -/
def suppliedBar (float : MetricArith) (context : MetricContext) :
    Option (InstrumentId × IndexedClose) := do
  let instrumentId ← context.instrumentId
  let index ← (barIndex float context).toOption
  let close ← (context.feature float.toFloatArith "close_price").toOption
  if float.atMost close float.zero then none else some (instrumentId, ⟨index, close⟩)

/-- The bars that contexts supply of an instrument, in the order of evaluation. -/
def barsOf (float : MetricArith) (instrumentId : InstrumentId) (contexts : List MetricContext) :
    List IndexedClose :=
  contexts.filterMap fun context =>
    (suppliedBar float context).bind fun bar => if bar.1 = instrumentId then some bar.2 else none

namespace NormalizedEmaTrend

/-- What is kept of an instrument: the latest close of each of its newest bars, out of those that
were not older than one before them. -/
def windowOf (float : MetricArith) (metric : NormalizedEmaTrend) (instrumentId : InstrumentId)
    (contexts : List MetricContext) : List IndexedClose :=
  Samples.window (·.barIndex) metric.slowWindow (barsOf float instrumentId contexts)

/-- **The reference value** of an instrument after some evaluations. -/
def reference (float : MetricArith) (metric : NormalizedEmaTrend) (instrumentId : InstrumentId)
    (contexts : List MetricContext) : Except MetricError MetricEstimate :=
  normalizedEmaTrendBatch float ((metric.windowOf float instrumentId contexts).map (·.close))
    metric.fastWindow metric.slowWindow

/-- **What is kept after some evaluations.** An instrument of which nothing is kept was not
evaluated, or the capacity is used up. -/
structure Tracks (float : MetricArith) (metric : NormalizedEmaTrend)
    (contexts : List MetricContext) (states : EmaStates) : Prop where
  few : states.size ≤ metric.maxInstruments
  kept : ∀ instrumentId (state : EmaInstrumentState), states[instrumentId]? = some state →
    barsOf float instrumentId contexts ≠ [] ∧
      state.closes = metric.windowOf float instrumentId contexts
  absent : ∀ instrumentId, states[instrumentId]? = none →
    barsOf float instrumentId contexts = [] ∨ metric.maxInstruments ≤ states.size

variable {float : MetricArith} {metric : NormalizedEmaTrend} {contexts : List MetricContext}
  {context : MetricContext} {states : EmaStates} {instrumentId : InstrumentId}
  {bar : IndexedClose}

theorem suppliedBar_eq_some (h : suppliedBar float context = some (instrumentId, bar)) :
    context.instrumentId = some instrumentId ∧ barIndex float context = .ok bar.barIndex ∧
      context.feature float.toFloatArith "close_price" = .ok bar.close ∧
        ¬float.atMost bar.close float.zero := by
  unfold suppliedBar at h
  obtain ⟨id, hid, h⟩ := Option.bind_eq_some_iff.mp h
  obtain ⟨index, hindex, h⟩ := Option.bind_eq_some_iff.mp h
  obtain ⟨close, hclose, h⟩ := Option.bind_eq_some_iff.mp h
  rw [Fallible.toOption_eq_some] at hindex hclose
  split at h
  · cases h
  · next hpositive =>
    cases h
    exact ⟨hid, hindex, hclose, hpositive⟩

theorem barsOf_concat (contexts : List MetricContext) (context : MetricContext) :
    barsOf float instrumentId (contexts ++ [context]) =
      barsOf float instrumentId contexts ++ barsOf float instrumentId [context] :=
  List.filterMap_append

theorem barsOf_of_none (h : suppliedBar float context = none) :
    barsOf float instrumentId [context] = [] := by
  simp [barsOf, h]

theorem barsOf_self (h : suppliedBar float context = some (instrumentId, bar)) :
    barsOf float instrumentId [context] = [bar] := by
  simp [barsOf, h]

theorem barsOf_other {other : InstrumentId} (h : suppliedBar float context = some (other, bar))
    (hne : other ≠ instrumentId) : barsOf float instrumentId [context] = [] := by
  simp [barsOf, h, hne]

-- One evaluation

/-- A context that supplies no bar is refused. -/
theorem evaluate_of_none (metric : NormalizedEmaTrend) (states : EmaStates)
    (h : suppliedBar float context = none) :
    ∃ error, evaluate float metric context states = (.error error, states) := by
  unfold suppliedBar at h
  unfold evaluate
  cases hid : context.instrumentId with
  | none => exact ⟨_, rfl⟩
  | some instrumentId =>
    rw [orFail_bind_some rfl]
    cases hindex : barIndex float context with
    | error e => exact ⟨_, rfl⟩
    | ok index =>
      rw [ofExcept_bind_ok rfl]
      cases hclose : context.feature float.toFloatArith "close_price" with
      | error e => exact ⟨_, rfl⟩
      | ok close =>
        rw [ofExcept_bind_ok rfl]
        by_cases hpositive : float.atMost close float.zero = true
        · rw [require_bind, if_neg (not_not.mpr hpositive)]
          exact ⟨_, rfl⟩
        · rw [hid, hindex, hclose] at h
          simp [Except.toOption, hpositive] at h

/-- The answer that is made of an estimate. -/
def answer (metric : NormalizedEmaTrend) (instrumentId : InstrumentId) (context : MetricContext)
    (estimate : MetricEstimate) : MetricOutput :=
  ⟨metric.descriptor.metricId, instrumentId, context.now, metric.descriptor.ttlNs,
    estimate.score, estimate.confidence, estimate.uncertainty⟩

/-- **What an evaluation does** with the bar that its context supplies. -/
theorem evaluate_eq (h : suppliedBar float context = some (instrumentId, bar)) :
    evaluate float metric context states =
      if instrumentId ∉ states ∧ metric.maxInstruments ≤ states.size then
        (.error (.invalidOutput "instrument capacity"), states)
      else
        match (Samples.push (·.barIndex) ((states[instrumentId]?).elim [] (·.closes)) bar).map
          (Samples.lastN metric.slowWindow) with
        | none => (.error (.invalidOutput "out-of-order bar"),
            states.insertIfNew instrumentId ⟨[]⟩)
        | some closes =>
          ((normalizedEmaTrendBatch float (closes.map (·.close)) metric.fastWindow
            metric.slowWindow).map (metric.answer instrumentId context),
            (states.insertIfNew instrumentId ⟨[]⟩).insert instrumentId ⟨closes⟩) := by
  obtain ⟨hid, hindex, hclose, hpositive⟩ := suppliedBar_eq_some h
  rw [evaluate, orFail_bind_some hid, ofExcept_bind_ok hindex, ofExcept_bind_ok hclose,
    require_bind, if_pos hpositive, reads_bind, id, require_bind]
  by_cases hfull : instrumentId ∉ states ∧ metric.maxInstruments ≤ states.size
  · rw [if_neg (not_not.mpr hfull), if_pos hfull]
  · rw [if_pos hfull, if_neg hfull, modify_bind]
    cases hpush : Samples.push (·.barIndex) ((states[instrumentId]?).elim [] (·.closes)) bar with
    | none => rfl
    | some pushed =>
      rw [orFail_bind_some rfl, modify_bind, Option.map_some]
      dsimp only
      cases hbatch : normalizedEmaTrendBatch float
          ((Samples.lastN metric.slowWindow pushed).map (·.close)) metric.fastWindow
          metric.slowWindow with
      | error e => rfl
      | ok estimate => rfl

-- What is kept

theorem insertIfNew_insert (states : EmaStates) (instrumentId : InstrumentId)
    (first state : EmaInstrumentState) :
    (states.insertIfNew instrumentId first).insert instrumentId state =
      states.insert instrumentId state := by
  apply Std.ExtTreeMap.ext_getElem?
  intro other
  rw [Std.ExtTreeMap.getElem?_insert, Std.ExtTreeMap.getElem?_insert,
    Std.ExtTreeMap.getElem?_insertIfNew]
  split
  · rfl
  · next hne => rw [if_neg fun h => hne h.1]

theorem insertIfNew_of_mem (h : instrumentId ∈ states) (first : EmaInstrumentState) :
    states.insertIfNew instrumentId first = states := by
  apply Std.ExtTreeMap.ext_getElem?
  intro other
  rw [Std.ExtTreeMap.getElem?_insertIfNew, if_neg]
  rintro ⟨heq, hnew⟩
  exact hnew h

theorem slowWindow_pos (metric : NormalizedEmaTrend) : 0 < metric.slowWindow :=
  metric.fast_pos.trans metric.fast_lt

namespace Tracks

/-- Of an instrument that is not turned away something is kept, unless it is new. -/
theorem mem_or_new (h : Tracks float metric contexts states)
    (hfull : ¬(instrumentId ∉ states ∧ metric.maxInstruments ≤ states.size)) :
    instrumentId ∈ states ∨
      states[instrumentId]? = none ∧ barsOf float instrumentId contexts = [] := by
  by_cases hmem : instrumentId ∈ states
  · exact .inl hmem
  · have hstate := Std.ExtTreeMap.getElem?_eq_none hmem
    exact .inr ⟨hstate, (h.absent instrumentId hstate).resolve_right fun hmax => hfull ⟨hmem, hmax⟩⟩

/-- What is kept of an instrument that is not turned away. -/
theorem kept_eq (h : Tracks float metric contexts states)
    (hfull : ¬(instrumentId ∉ states ∧ metric.maxInstruments ≤ states.size)) :
    (states[instrumentId]?).elim [] (·.closes) = metric.windowOf float instrumentId contexts := by
  obtain hmem | ⟨hstate, hbars⟩ := h.mem_or_new hfull
  · obtain ⟨state, hstate⟩ := Option.isSome_iff_exists.mp
      (Std.ExtTreeMap.mem_iff_isSome_getElem?.mp hmem)
    rw [hstate]
    exact (h.kept instrumentId state hstate).2
  · rw [hstate, windowOf, hbars, Samples.window_nil]
    rfl

/-- An instrument of which an old bar is refused is not new. -/
theorem mem_of_refused (h : Tracks float metric contexts states)
    (hfull : ¬(instrumentId ∉ states ∧ metric.maxInstruments ≤ states.size))
    (horder : ¬∀ y ∈ Samples.inOrder (·.barIndex) (barsOf float instrumentId contexts),
      y.barIndex ≤ bar.barIndex) : instrumentId ∈ states := by
  refine (h.mem_or_new hfull).resolve_right fun hnew => horder fun y hy => ?_
  rw [hnew.2] at hy
  cases hy

/-- **Specification of an evaluation**: a new instrument is turned away when the capacity is used
up, and an old bar is refused; any other bar is kept, and answered with the reference value. -/
theorem evaluate_eq (h : Tracks float metric contexts states)
    (hbar : suppliedBar float context = some (instrumentId, bar)) :
    NormalizedEmaTrend.evaluate float metric context states =
      if instrumentId ∉ states ∧ metric.maxInstruments ≤ states.size then
        (.error (.invalidOutput "instrument capacity"), states)
      else if ∀ y ∈ Samples.inOrder (·.barIndex) (barsOf float instrumentId contexts),
          y.barIndex ≤ bar.barIndex then
        ((metric.reference float instrumentId (contexts ++ [context])).map
          (metric.answer instrumentId context), states.insert instrumentId
            ⟨metric.windowOf float instrumentId (contexts ++ [context])⟩)
      else (.error (.invalidOutput "out-of-order bar"), states) := by
  rw [NormalizedEmaTrend.evaluate_eq hbar]
  by_cases hfull : instrumentId ∉ states ∧ metric.maxInstruments ≤ states.size
  · rw [if_pos hfull, if_pos hfull]
  · rw [if_neg hfull, if_neg hfull, h.kept_eq hfull, windowOf,
      Samples.push_kept metric.slowWindow_pos]
    by_cases horder : ∀ y ∈ Samples.inOrder (·.barIndex) (barsOf float instrumentId contexts),
        y.barIndex ≤ bar.barIndex
    · rw [if_pos horder, if_pos horder, reference, windowOf, barsOf_concat, barsOf_self hbar]
      dsimp only
      rw [insertIfNew_insert]
    · rw [if_neg horder, if_neg horder]
      dsimp only
      rw [insertIfNew_of_mem (h.mem_of_refused hfull horder)]

/-- Nothing is kept before the first evaluation. -/
theorem empty (float : MetricArith) (metric : NormalizedEmaTrend) : Tracks float metric [] ∅ where
  few := Nat.zero_le _
  kept := by
    intro instrumentId state hstate
    rw [Std.ExtTreeMap.getElem?_empty] at hstate
    cases hstate
  absent := fun _ _ => .inl rfl

/-- An evaluation that keeps no bar of an instrument whose window it changes. -/
theorem of_unchanged (h : Tracks float metric contexts states)
    (hkept : ∀ id (state : EmaInstrumentState), states[id]? = some state →
      metric.windowOf float id (contexts ++ [context]) = metric.windowOf float id contexts)
    (habsent : ∀ id, states[id]? = none → barsOf float id [context] = [] ∨
      metric.maxInstruments ≤ states.size) :
    Tracks float metric (contexts ++ [context]) states where
  few := h.few
  kept := by
    intro id state hstate
    obtain ⟨hbars, hcloses⟩ := h.kept id state hstate
    refine ⟨fun hnil => hbars ?_, hcloses.trans (hkept id state hstate).symm⟩
    rw [barsOf_concat] at hnil
    exact (List.append_eq_nil_iff.mp hnil).1
  absent := by
    intro id hstate
    obtain hbars | hmax := h.absent id hstate
    · obtain hcontext | hmax := habsent id hstate
      · rw [barsOf_concat, hbars, hcontext]
        exact .inl rfl
      · exact .inr hmax
    · exact .inr hmax

/-- **One more evaluation.** -/
theorem evaluate (h : Tracks float metric contexts states) (context : MetricContext) :
    Tracks float metric (contexts ++ [context])
      (NormalizedEmaTrend.evaluate float metric context states).2 := by
  have hsame {id : InstrumentId} (hbars : barsOf float id [context] = []) :
      metric.windowOf float id (contexts ++ [context]) = metric.windowOf float id contexts := by
    rw [windowOf, windowOf, barsOf_concat, hbars, List.append_nil]
  cases hbar : suppliedBar float context with
  | none =>
    obtain ⟨error, herror⟩ := evaluate_of_none metric states hbar
    rw [herror]
    exact h.of_unchanged (fun _ _ _ => hsame (barsOf_of_none hbar))
      fun _ _ => .inl (barsOf_of_none hbar)
  | some supplied =>
    obtain ⟨instrumentId, bar⟩ := supplied
    have hother {id : InstrumentId} (hne : instrumentId ≠ id) : barsOf float id [context] = [] :=
      barsOf_other hbar hne
    rw [h.evaluate_eq hbar]
    split_ifs with hfull horder
    · refine h.of_unchanged (fun id state hstate => hsame (hother ?_)) fun _ _ => .inr hfull.2
      rintro rfl
      exact hfull.1 (Std.ExtTreeMap.mem_iff_isSome_getElem?.mpr (hstate ▸ rfl))
    · refine ⟨?_, fun id state hstate => ?_, fun id hstate => ?_⟩
      · rw [Std.ExtTreeMap.size_insert]
        split
        · exact h.few
        · next hnew => exact Nat.lt_of_not_le fun hmax => hfull ⟨hnew, hmax⟩
      · rw [Std.ExtTreeMap.getElem?_insert] at hstate
        split at hstate
        · next heq =>
          obtain rfl := Std.LawfulEqCmp.compare_eq_iff_eq.mp heq
          cases hstate
          refine ⟨?_, rfl⟩
          rw [barsOf_concat, barsOf_self hbar]
          exact List.concat_ne_nil _ _
        · next hne =>
          have hid : instrumentId ≠ id := fun heq => hne (heq ▸ Std.ReflCmp.compare_self)
          obtain ⟨hbars, hcloses⟩ := h.kept id state hstate
          rw [hsame (hother hid), barsOf_concat, hother hid, List.append_nil]
          exact ⟨hbars, hcloses⟩
      · rw [Std.ExtTreeMap.getElem?_insert] at hstate
        split at hstate
        · cases hstate
        · next hne =>
          have hid : instrumentId ≠ id := fun heq => hne (heq ▸ Std.ReflCmp.compare_self)
          rw [barsOf_concat, hother hid, List.append_nil]
          refine (h.absent id hstate).imp_right fun hmax => hmax.trans ?_
          rw [Std.ExtTreeMap.size_insert]
          split <;> omega
    · refine h.of_unchanged (fun id state hstate => ?_) fun id hstate => .inl (hother ?_)
      · by_cases hid : instrumentId = id
        · subst hid
          rw [windowOf, windowOf, barsOf_concat, barsOf_self hbar,
            Samples.window_concat_of_refused horder]
        · exact hsame (hother hid)
      · rintro rfl
        have hmem := h.mem_of_refused hfull horder
        rw [Std.ExtTreeMap.mem_iff_isSome_getElem?, hstate] at hmem
        cases hmem

end Tracks

end NormalizedEmaTrend

end InsiderTrader
