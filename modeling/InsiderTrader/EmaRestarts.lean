import InsiderTrader.EmaCheckpoint
import InsiderTrader.EmaWindow
import InsiderTrader.Library.Runs

/-!
# The trend metric follows its batch reference

A metric is evaluated, and restarted now and then: its checkpoint is restored
into a new one with the same configuration. Restarts change nothing, and every
answer is the reference value of the latest closes of the newest bars.

## Main definitions

- `MetricCall` — a context of the types of the program
- `EmaStep` — an evaluation, or a restart from a checkpoint
- `NormalizedEmaTrend.after` — what is kept after a step

## Main results

- `NormalizedEmaTrend.restart_eq` — a restart keeps everything
- `NormalizedEmaTrend.tracks_final` — what is kept after some steps
- `NormalizedEmaTrend.evaluate_refines_batch` — the answers are reference values
-/

namespace InsiderTrader

open Fallible

-- Restarts

/-- A context of the types of the program: identities of 128 bits that are not zero, and floating
point values of 64 bits. -/
structure MetricCall where
  context : MetricContext
  instrument : ∀ instrumentId, context.instrumentId = some instrumentId →
    instrumentId ≠ 0 ∧ instrumentId < 2 ^ 128
  features : ∀ (name : String) (value : F64), context.features[name]? = some value →
    value.bits < 2 ^ 64

/-- An evaluation, or a restart from a checkpoint. -/
inductive EmaStep where
  | evaluate (call : MetricCall)
  | restart

/-- The evaluations of some steps. -/
def EmaStep.calls (steps : List EmaStep) : List MetricCall :=
  steps.filterMap fun step => match step with
    | evaluate call => some call
    | restart => none

namespace NormalizedEmaTrend

variable {float : MetricArith} {metric : NormalizedEmaTrend} {calls : List MetricCall}
  {states : EmaStates}

/-- What a new metric of the same configuration keeps, after the checkpoint is restored into it. -/
def restart (float : MetricArith) (metric : NormalizedEmaTrend) (states : EmaStates) : EmaStates :=
  match metric.checkpoint states with
  | .ok bytes => (restoreCheckpoint float metric bytes ∅).2
  | .error _ => ∅

/-- What is kept after a step. -/
def after (float : MetricArith) (metric : NormalizedEmaTrend) : EmaStep → EmaStates → EmaStates
  | .evaluate call, states => (evaluate float metric call.context states).2
  | .restart, states => restart float metric states

theorem feature_eq_ok {context : MetricContext} {name : String} {value : F64}
    (h : context.feature float.toFloatArith name = .ok value) :
    context.features[name]? = some value ∧ float.isFinite value := by
  unfold MetricContext.feature at h
  split at h
  · cases h
  · next found hfound =>
    split at h
    · next hfinite =>
      cases h
      exact ⟨hfound, hfinite⟩
    · cases h

theorem restorable_of_suppliedBar {call : MetricCall} {instrumentId : InstrumentId}
    {bar : IndexedClose} (h : suppliedBar float call.context = some (instrumentId, bar)) :
    (instrumentId ≠ 0 ∧ instrumentId < 2 ^ 128) ∧ bar.Restorable float := by
  obtain ⟨hid, hindex, hclose, hpositive⟩ := suppliedBar_eq_some h
  refine ⟨call.instrument _ hid, ?_, ?_, ?_, hpositive⟩
  · obtain ⟨value, -, hindex⟩ := Wire.bind_eq_ok.mp hindex
    split at hindex
    · cases hindex
    · have hequal := Except.ok.inj hindex
      rw [← hequal]
      have hlow := Int32.le_toInt (float.toI32 value)
      have hhigh := Int32.toInt_lt (float.toI32 value)
      constructor <;> omega
  · exact call.features _ _ (feature_eq_ok hclose).1
  · exact (feature_eq_ok hclose).2

theorem mem_barsOf {instrumentId : InstrumentId} {contexts : List MetricContext}
    {bar : IndexedClose} (h : bar ∈ barsOf float instrumentId contexts) :
    ∃ context ∈ contexts, suppliedBar float context = some (instrumentId, bar) := by
  obtain ⟨context, hcontext, hbar⟩ := List.mem_filterMap.mp h
  obtain ⟨supplied, hsupplied, hbar⟩ := Option.bind_eq_some_iff.mp hbar
  split at hbar
  · next hid =>
    cases hbar
    cases hid
    exact ⟨context, hcontext, hsupplied⟩
  · cases hbar

/-- What is kept passes the checks of a checkpoint. -/
theorem Tracks.restorable (h : Tracks float metric (calls.map (·.context)) states) :
    Restorable float metric states where
  few := h.few
  entries := by
    intro instrumentId state hstate
    obtain ⟨hbars, hcloses⟩ := h.kept instrumentId state hstate
    have hsupplied {bar : IndexedClose}
        (hbar : bar ∈ barsOf float instrumentId (calls.map (·.context))) :
        (instrumentId ≠ 0 ∧ instrumentId < 2 ^ 128) ∧ bar.Restorable float := by
      obtain ⟨context, hcontext, hbar⟩ := mem_barsOf hbar
      obtain ⟨call, -, rfl⟩ := List.mem_map.mp hcontext
      exact restorable_of_suppliedBar hbar
    obtain ⟨bar, hbar⟩ := List.exists_mem_of_ne_nil _ hbars
    obtain ⟨⟨hnamed, hwidth⟩, -⟩ := hsupplied hbar
    refine ⟨hnamed, hwidth, ?_, ?_, ?_⟩
    · rw [hcloses, windowOf, Samples.window, Samples.length_lastN]
      exact Nat.min_le_left _ _
    · rw [hcloses]
      exact Samples.ascending_window _ _
    · intro sample hsample
      rw [hcloses] at hsample
      exact (hsupplied (Samples.mem_of_mem_window hsample)).2

/-- **A restart** keeps everything. -/
theorem restart_eq (h : Restorable float metric states) : restart float metric states = states := by
  obtain ⟨bytes, hbytes, hrestore⟩ := restore_checkpoint h
  rw [restart, hbytes]
  dsimp only
  rw [hrestore]

/-- What is kept after some steps follows the evaluations among them. -/
theorem tracks_final (float : MetricArith) (metric : NormalizedEmaTrend) (steps : List EmaStep) :
    Tracks float metric ((EmaStep.calls steps).map (·.context))
      (Runs.final (after float metric) ∅ steps) := by
  induction steps using List.reverseRecOn with
  | nil => exact Tracks.empty float metric
  | append_singleton steps step ih =>
    rw [Runs.final_append, EmaStep.calls, List.filterMap_append, List.map_append]
    cases step with
    | evaluate call => exact ih.evaluate call.context
    | restart =>
      rw [List.filterMap_cons_none rfl, List.filterMap_nil, List.map_nil, List.append_nil]
      show Tracks float metric _ (restart float metric (Runs.final (after float metric) ∅ steps))
      rw [restart_eq ih.restorable]
      exact ih

/-- Restarts change nothing of what is kept. -/
theorem final_calls (float : MetricArith) (metric : NormalizedEmaTrend) (steps : List EmaStep) :
    Runs.final (after float metric) ∅ steps =
      Runs.final (after float metric) ∅ ((EmaStep.calls steps).map .evaluate) := by
  induction steps using List.reverseRecOn with
  | nil => rfl
  | append_singleton steps step ih =>
    rw [Runs.final_append, EmaStep.calls, List.filterMap_append, List.map_append, Runs.final_append]
    cases step with
    | evaluate call =>
      rw [ih]
      rfl
    | restart =>
      show restart float metric (Runs.final (after float metric) ∅ steps) = _
      rw [restart_eq (tracks_final float metric steps).restorable, ih]
      rfl

/-- **An answer is the reference value** of the latest closes of the newest bars, whatever restarts
there were; a restart keeps everything, and a checkpoint that is refused leaves what was kept. -/
theorem evaluate_refines_batch (float : MetricArith) (metric : NormalizedEmaTrend)
    (steps : List EmaStep) (call : MetricCall) :
    (∀ output, (evaluate float metric call.context
        (Runs.final (after float metric) ∅ steps)).1 = .ok output →
      call.context.instrumentId = some output.instrumentId ∧
        metric.reference float output.instrumentId
          (((EmaStep.calls steps) ++ [call]).map (·.context)) =
            .ok ⟨output.score, output.confidence, output.uncertainty⟩) ∧
    evaluate float metric call.context (Runs.final (after float metric) ∅ steps) =
      evaluate float metric call.context
        (Runs.final (after float metric) ∅ ((EmaStep.calls steps).map .evaluate)) ∧
    (∃ bytes, metric.checkpoint (Runs.final (after float metric) ∅ steps) = .ok bytes ∧
      restoreCheckpoint float metric bytes ∅ =
        (.ok (), Runs.final (after float metric) ∅ steps)) ∧
    ∀ bytes states error, (restoreCheckpoint float metric bytes states).1 = .error error →
      (restoreCheckpoint float metric bytes states).2 = states := by
  have htracks := tracks_final float metric steps
  refine ⟨fun output houtput => ?_, by rw [← final_calls], ?_,
    fun _ _ _ => restoreCheckpoint_of_error⟩
  · cases hbar : suppliedBar float call.context with
    | none =>
      obtain ⟨error, herror⟩ := evaluate_of_none metric
        (Runs.final (after float metric) ∅ steps) hbar
      rw [herror] at houtput
      cases houtput
    | some supplied =>
      obtain ⟨instrumentId, bar⟩ := supplied
      rw [htracks.evaluate_eq hbar] at houtput
      split_ifs at houtput
      obtain ⟨estimate, hestimate, rfl⟩ := Fallible.map_eq_ok.mp houtput
      refine ⟨(suppliedBar_eq_some hbar).1, ?_⟩
      rw [List.map_append]
      exact hestimate
  · obtain ⟨bytes, hbytes, hrestore⟩ := restore_checkpoint htracks.restorable
    exact ⟨bytes, hbytes, hrestore ∅⟩

end NormalizedEmaTrend

end InsiderTrader
