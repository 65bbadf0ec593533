import InsiderTrader.MetricHost
import InsiderTrader.Library.Runs

/-!
# Runs of the metric host

Over a run of calls the host keeps of each metric where it is in its promotion
and how many evaluations failed since the last that did not. A discovered
package answers live evaluations only after it has gone through validation,
shadow and canary, and a metric is isolated exactly while it has failed too
often in a row.

## Main definitions

- `HostedCall` — the calls of a host, and what happens in the world between them
- `HostedCall.verdict` — what a call says of a metric
- `Noting` — what a call changes of what the host keeps of a metric

## Main results

- `HostedCall.noting` — the case analysis of a call
- `promoted_before_live` — the promotion of a metric that answers live
- `quarantined_iff_failing` — when a metric is isolated
-/

namespace InsiderTrader

namespace MetricHost

variable {W : Type}

theorem setLifecycle_metric (lifecycle : MetricLifecycle) (evidenceRef : String) :
    ∀ entry : MetricEntry W, { entry with
      lifecycle := lifecycle, lifecycleEvidenceRef := evidenceRef }.metric = entry.metric :=
  fun _ => rfl

/-- Restore a journaled lifecycle and its evidence reference. -/
def restoreLifecycleWithEvidence (h : MetricHost W) (metricId : String)
    (lifecycle : MetricLifecycle) (evidenceRef : String) : Bool × MetricHost W :=
  if h.entries.contains metricId then
    (true, h.update metricId
      ({ · with lifecycle := lifecycle, lifecycleEvidenceRef := evidenceRef })
      (setLifecycle_metric lifecycle evidenceRef))
  else (false, h)

theorem update_entry (h : MetricHost W) (metricId : String) (f : MetricEntry W → MetricEntry W)
    (hf : ∀ entry, (f entry).metric = entry.metric) (id : String) :
    (h.update metricId f hf).entries[id]? =
      if metricId = id then h.entries[id]?.map f else h.entries[id]? := by
  show (h.entries.modify metricId f)[id]? = _
  rw [Std.TreeMap.getElem?_modify]
  by_cases hid : metricId = id
  · rw [if_pos (by rw [hid]; exact Std.ReflCmp.compare_self), if_pos hid, hid]
  · rw [if_neg (fun h => hid (Std.LawfulEqOrd.eq_of_compare h)), if_neg hid]

end MetricHost

/-- A call of the host, or a change of the world its metrics live in. -/
inductive HostedCall (W : Type) where
  | register (metric : HostedMetric W) (lifecycle : MetricLifecycle)
  | transition (metricId : String) (next : MetricLifecycle) (evidenceRef : String)
  | restore (metricId : String) (lifecycle : MetricLifecycle) (evidenceRef : String)
  | resume (metricId : String)
  | evaluate (metricId : String) (context : MetricContext) (shadow : Bool)
  | outside (world : W)

/-- What the host keeps of a metric before and after a call, and what the call says of it: that it
is sound, or that it failed. -/
inductive Noting {W : Type} (limit : ℕ) (call : HostedCall W) (id : String) :
    Option (MetricEntry W) → Option Bool → Option (MetricEntry W) → Prop where
  | same (entry : Option (MetricEntry W)) : Noting limit call id entry none entry
  | registered (metric : HostedMetric W) (lifecycle : MetricLifecycle)
    (hcall : call = .register metric lifecycle) : Noting limit call id none none
      (some ⟨metric, metric.manifest, .ready, lifecycle, "registration", 0⟩)
  | moved (entry : MetricEntry W) (next : MetricLifecycle) (evidenceRef : String)
    (hmove : MetricHost.permits entry.lifecycle next = true ∨ call = .restore id next evidenceRef) :
    Noting limit call id (some entry) none
      (some { entry with lifecycle := next, lifecycleEvidenceRef := evidenceRef })
  | resumed (entry : MetricEntry W) : Noting limit call id (some entry) (some true)
      (some { entry with state := .ready, failures := 0 })
  | answered (entry : MetricEntry W) (hready : entry.state = .ready) :
    Noting limit call id (some entry) (some true) (some { entry with failures := 0 })
  | failed (entry : MetricEntry W) (hready : entry.state = .ready) (failures : ℕ)
    (hfailures : failures = min (entry.failures + 1) (2 ^ 32 - 1)) :
    Noting limit call id (some entry) (some false) (some { entry with
      failures := failures
      state := if max limit 1 ≤ failures then .quarantined else entry.state })

namespace HostedCall

variable {W : Type}

/-- The host and the world after a call. -/
def after (float : FloatArith) (call : HostedCall W) (s : MetricHost W × W) : MetricHost W × W :=
  match call with
  | register metric lifecycle =>
    ((s.1.registerWithLifecycle metric lifecycle).toOption.getD s.1, s.2)
  | transition metricId next evidenceRef => ((s.1.transitionLifecycle metricId next evidenceRef).2, s.2)
  | restore metricId lifecycle evidenceRef =>
    ((s.1.restoreLifecycleWithEvidence metricId lifecycle evidenceRef).2, s.2)
  | resume metricId => ((s.1.resume metricId).2, s.2)
  | evaluate metricId context shadow => (MetricHost.evaluateInternal float metricId context shadow s).2
  | outside world => (s.1, world)

/-- What a call says of a metric: it answered or was resumed, or it failed. -/
def verdict (float : FloatArith) (id : String) (s : MetricHost W × W) : HostedCall W → Option Bool
  | resume metricId => if metricId = id ∧ s.1.entries[id]?.isSome then some true else none
  | evaluate metricId context shadow =>
    if metricId = id then
      match (MetricHost.evaluateInternal float metricId context shadow s).1 with
      | .ok _ => some true
      | .error (.evaluation _) => some false
      | .error _ => none
    else none
  | register _ _ | transition _ _ _ | restore _ _ _ | outside _ => none

/-- The call does not put a metric past research but by a transition. -/
def discovers (id : String) : HostedCall W → Bool
  | register _ lifecycle => lifecycle = .research
  | restore metricId _ _ => metricId ≠ id
  | transition _ _ _ | resume _ | evaluate _ _ _ | outside _ => true

end HostedCall

section Noting

variable {W : Type} {float : FloatArith} {id : String} {s : MetricHost W × W}

/-- **How an evaluation ends**: the metric is unavailable, or it is ready and eligible and its
failure or its answer is noted. -/
theorem evaluateInternal_cases (float : FloatArith) (metricId : String) (context : MetricContext)
    (shadow : Bool) (s : MetricHost W × W) :
    MetricHost.evaluateInternal float metricId context shadow s = (.error (.unavailable metricId), s) ∨
      ∃ entry, s.1.entries[metricId]? = some entry ∧ entry.state = .ready ∧
        MetricHost.eligible entry.lifecycle shadow = true ∧
        ((∃ error w, MetricHost.evaluateInternal float metricId context shadow s =
            (.error (.evaluation error), s.1.noteFailure metricId, w)) ∨
          ∃ output w, MetricHost.evaluateInternal float metricId context shadow s =
            (.ok output, s.1.noteSuccess metricId, w)) := by
  unfold MetricHost.evaluateInternal
  split
  · exact .inl rfl
  · next entry hget =>
    split
    · exact .inl rfl
    · next hopen =>
      obtain ⟨hstate, heligible⟩ := not_or.mp hopen
      refine .inr ⟨entry, hget, ?_, not_not.mp heligible, ?_⟩
      · cases hready : entry.state with
        | ready => rfl
        | quarantined => exact absurd hready hstate
      · split
        · exact .inl ⟨_, _, rfl⟩
        · split
          · exact .inl ⟨_, _, rfl⟩
          · split
            · exact .inr ⟨_, _, rfl⟩
            · exact .inl ⟨_, _, rfl⟩

/-- An evaluation of a metric. -/
theorem noting_evaluate (call : HostedCall W) (context : MetricContext) (shadow : Bool) :
    Noting s.1.failureLimit call id s.1.entries[id]?
      ((HostedCall.evaluate id context shadow).verdict float id s)
      (MetricHost.evaluateInternal float id context shadow s).2.1.entries[id]? := by
  rw [HostedCall.verdict, if_pos rfl]
  rcases evaluateInternal_cases float id context shadow s with
    h | ⟨entry, hget, hready, -, ⟨error, w, h⟩ | ⟨output, w, h⟩⟩ <;> rw [h] <;> dsimp only
  · exact .same _
  · rw [MetricHost.noteFailure, MetricHost.update_entry, if_pos rfl, hget]
    exact .failed entry hready _ rfl
  · rw [MetricHost.noteSuccess, MetricHost.update_entry, if_pos rfl, hget]
    exact .answered entry hready

/-- An evaluation of another metric. -/
theorem evaluate_entry_of_ne {metricId : String} (context : MetricContext) (shadow : Bool)
    (hne : metricId ≠ id) :
    (MetricHost.evaluateInternal float metricId context shadow s).2.1.entries[id]? =
      s.1.entries[id]? := by
  rcases evaluateInternal_cases float metricId context shadow s with
    h | ⟨entry, -, -, -, ⟨error, w, h⟩ | ⟨output, w, h⟩⟩ <;> rw [h] <;> dsimp only
  · rw [MetricHost.noteFailure, MetricHost.update_entry, if_neg hne]
  · rw [MetricHost.noteSuccess, MetricHost.update_entry, if_neg hne]

/-- A registration of a metric, or of another one. -/
theorem noting_register {limit : ℕ} (metric : HostedMetric W) (lifecycle : MetricLifecycle) :
    Noting limit (.register metric lifecycle) id s.1.entries[id]? none
      ((s.1.registerWithLifecycle metric lifecycle).toOption.getD s.1).entries[id]? := by
  unfold MetricHost.registerWithLifecycle
  dsimp only
  split
  · exact .same _
  · next hnew =>
    split
    · exact .same _
    · split
      · exact .same _
      · show Noting _ _ _ _ none (s.1.entries.insert metric.descriptor.metricId _)[id]?
        rw [Std.TreeMap.getElem?_insert]
        split
        · next heq =>
          rw [← Std.LawfulEqOrd.eq_of_compare heq, Std.TreeMap.getElem?_eq_none hnew]
          exact .registered metric lifecycle rfl
        · exact .same _

/-- A change of a lifecycle moves the metric that it is about. -/
theorem noting_moved {limit : ℕ} {call : HostedCall W} {metricId : String} {next : MetricLifecycle}
    {evidenceRef : String} (hmove : ∀ entry, s.1.entries[metricId]? = some entry →
      MetricHost.permits entry.lifecycle next = true ∨ call = .restore metricId next evidenceRef) :
    Noting limit call id s.1.entries[id]? none (s.1.update metricId
      ({ · with lifecycle := next, lifecycleEvidenceRef := evidenceRef })
      (MetricHost.setLifecycle_metric next evidenceRef)).entries[id]? := by
  rw [MetricHost.update_entry]
  split
  · next hid =>
    subst hid
    cases hget : s.1.entries[metricId]? with
    | none => exact .same none
    | some entry => exact .moved entry next evidenceRef (hmove entry hget)
  · exact .same _

/-- **What a call changes** of what the host keeps of a metric. -/
theorem HostedCall.noting (call : HostedCall W) :
    Noting s.1.failureLimit call id s.1.entries[id]? (call.verdict float id s)
      (call.after float s).1.entries[id]? := by
  cases call with
  | register metric lifecycle => exact noting_register metric lifecycle
  | transition metricId next evidenceRef =>
    show Noting _ _ _ _ none (s.1.transitionLifecycle metricId next evidenceRef).2.entries[id]?
    rw [MetricHost.transitionLifecycle]
    split
    · next hpermitted =>
      refine noting_moved fun entry hget => .inl ?_
      rwa [hget] at hpermitted
    · exact .same _
  | restore metricId lifecycle evidenceRef =>
    show Noting _ _ _ _ none
      (s.1.restoreLifecycleWithEvidence metricId lifecycle evidenceRef).2.entries[id]?
    rw [MetricHost.restoreLifecycleWithEvidence]
    split
    · exact noting_moved fun _ _ => .inr rfl
    · exact .same _
  | resume metricId =>
    show Noting _ _ _ _ (if _ then _ else _) (s.1.resume metricId).2.entries[id]?
    rw [MetricHost.resume]
    by_cases hid : metricId = id
    · rw [hid]
      cases hget : s.1.entries[id]? with
      | none =>
        rw [if_neg (by simp), if_neg (by simp [Std.TreeMap.contains_eq_isSome_getElem?, hget]), hget]
        exact .same none
      | some entry =>
        rw [if_pos (by simp), if_pos (by simp [Std.TreeMap.contains_eq_isSome_getElem?, hget]),
          MetricHost.update_entry, if_pos rfl, hget]
        exact .resumed entry
    · rw [if_neg (fun h => hid h.1)]
      split
      · rw [MetricHost.update_entry, if_neg hid]
        exact .same _
      · exact .same _
  | evaluate metricId context shadow =>
    by_cases hid : metricId = id
    · rw [hid]
      exact noting_evaluate _ context shadow
    · show Noting _ _ _ _ (if _ then _ else _) (MetricHost.evaluateInternal float metricId context
        shadow s).2.1.entries[id]?
      rw [if_neg hid, evaluate_entry_of_ne context shadow hid]
      exact .same _
  | outside world => exact .same _

theorem HostedCall.after_failureLimit (call : HostedCall W) :
    (call.after float s).1.failureLimit = s.1.failureLimit := by
  cases call with
  | register metric lifecycle =>
    show ((s.1.registerWithLifecycle metric lifecycle).toOption.getD s.1).failureLimit = _
    unfold MetricHost.registerWithLifecycle
    dsimp only
    split <;> [rfl; split <;> [rfl; split <;> rfl]]
  | transition metricId next evidenceRef =>
    dsimp only [HostedCall.after, MetricHost.transitionLifecycle]
    split <;> rfl
  | restore metricId lifecycle evidenceRef =>
    dsimp only [HostedCall.after, MetricHost.restoreLifecycleWithEvidence]
    split <;> rfl
  | resume metricId =>
    dsimp only [HostedCall.after, MetricHost.resume]
    split <;> rfl
  | evaluate metricId context shadow =>
    rw [HostedCall.after]
    rcases evaluateInternal_cases float metricId context shadow s with
      h | ⟨entry, -, -, -, ⟨error, w, h⟩ | ⟨output, w, h⟩⟩ <;> rw [h] <;> rfl
  | outside world => rfl

end Noting

-- Promotion

/-- The stages that a discovered metric has gone through when it is at a lifecycle. -/
def stagesBefore : MetricLifecycle → List MetricLifecycle
  | .research | .retired => []
  | .validated => [.validated]
  | .shadow => [.validated, .shadow]
  | .canary | .production | .paused => [.validated, .shadow, .canary]

/-- A permitted transition adds its stage. -/
theorem stagesBefore_permits {lifecycle next : MetricLifecycle}
    (h : MetricHost.permits lifecycle next = true) :
    (stagesBefore next).Sublist (stagesBefore lifecycle ++ [next]) := by
  revert h
  cases lifecycle <;> cases next <;> decide

/-- Where a metric is in its promotion. -/
def lifecycleOf {W : Type} (id : String) (s : MetricHost W × W) : Option MetricLifecycle :=
  s.1.entries[id]?.map (·.lifecycle)

/-- The stages behind what is registered. -/
def stages (lifecycle : Option MetricLifecycle) : List (Option MetricLifecycle) :=
  (lifecycle.elim [] stagesBefore).map some

section Runs

variable {W : Type} {float : FloatArith} {id : String} {s : MetricHost W × W}

/-- One call adds at most the stage it leads to. -/
theorem stages_step {call : HostedCall W} (hcall : call.discovers id = true) :
    (stages (lifecycleOf id (call.after float s))).Sublist
      (stages (lifecycleOf id s) ++ [lifecycleOf id (call.after float s)]) := by
  have hnoting : Noting s.1.failureLimit call id s.1.entries[id]? (call.verdict float id s)
      (call.after float s).1.entries[id]? := call.noting
  unfold lifecycleOf
  generalize s.1.entries[id]? = entry, call.verdict float id s = verdict,
    (call.after float s).1.entries[id]? = entry' at hnoting
  cases hnoting with
  | same => exact List.sublist_append_left _ _
  | registered metric lifecycle hcall' =>
    rw [hcall'] at hcall
    rw [of_decide_eq_true (p := lifecycle = .research) hcall]
    exact List.nil_sublist _
  | moved entry next evidenceRef hmove =>
    rcases hmove with hpermitted | hrestored
    · exact (stagesBefore_permits hpermitted).map some |>.trans (by simp [stages])
    · rw [hrestored] at hcall
      exact absurd rfl (of_decide_eq_true (p := id ≠ id) hcall)
  | resumed => exact List.sublist_append_left _ _
  | answered => exact List.sublist_append_left _ _
  | failed => exact List.sublist_append_left _ _

theorem stages_run {run : List (HostedCall W)} (hrun : ∀ call ∈ run, call.discovers id = true) :
    (stages (lifecycleOf id (Runs.final (HostedCall.after float) s run))).Sublist
      (stages (lifecycleOf id s) ++
        (Runs.states (HostedCall.after float) s run).tail.map (lifecycleOf id)) := by
  induction run generalizing s with
  | nil => exact List.sublist_append_left _ _
  | cons call run ih =>
    obtain ⟨hcall, hrest⟩ := List.forall_mem_cons.mp hrun
    refine (ih hrest).trans ?_
    have hadded : (stages (lifecycleOf id (call.after float s))).Sublist
        (stages (lifecycleOf id s) ++ [lifecycleOf id (call.after float s)]) := stages_step hcall
    have hstep := hadded.append_right
      ((Runs.states (HostedCall.after float) (call.after float s) run).tail.map (lifecycleOf id))
    rw [List.append_assoc] at hstep
    refine hstep.trans ((List.Sublist.refl _).append ?_)
    cases run <;> exact List.Sublist.refl _

/-- **Promotion before live answers**: in every run of a host to which metrics come as discovered
packages and in which no journaled lifecycle of the metric is restored, when a metric answers a live
evaluation, it has been validated, then in shadow, then in canary, and it is in canary or
production. -/
theorem promoted_before_live {limit : ℕ} {world : W} {run : List (HostedCall W)}
    (hrun : ∀ call ∈ run, call.discovers id = true) {context : MetricContext} {output : MetricOutput}
    (hanswer : (MetricHost.evaluate float id context
      (Runs.final (HostedCall.after float) (.new limit, world) run)).1 = .ok output) :
    [some .validated, some .shadow, some .canary].Sublist
        ((Runs.states (HostedCall.after float) (.new limit, world) run).map (lifecycleOf id)) ∧
      (lifecycleOf id (Runs.final (HostedCall.after float) (.new limit, world) run) = some .canary ∨
        lifecycleOf id (Runs.final (HostedCall.after float) (.new limit, world) run) =
          some .production) := by
  have hstages : (stages (lifecycleOf id
      (Runs.final (HostedCall.after float) (.new limit, world) run))).Sublist _ := stages_run hrun
  have hlive : lifecycleOf id (Runs.final (HostedCall.after float) (.new limit, world) run) =
      some .canary ∨ lifecycleOf id (Runs.final (HostedCall.after float) (.new limit, world) run) =
        some .production := by
    rw [MetricHost.evaluate] at hanswer
    rcases evaluateInternal_cases float id context false
        (Runs.final (HostedCall.after float) (.new limit, world) run) with
      h | ⟨entry, hget, -, heligible, -⟩
    · rw [h] at hanswer
      cases hanswer
    · rw [lifecycleOf, hget]
      exact (of_decide_eq_true heligible).imp (congrArg some) (congrArg some)
  have hthree : stages (lifecycleOf id (Runs.final (HostedCall.after float) (.new limit, world) run)) =
      [some .validated, some .shadow, some .canary] := by
    rcases hlive with h | h <;> rw [h] <;> rfl
  rw [hthree] at hstages
  refine ⟨hstages.trans ?_, hlive⟩
  exact (List.tail_sublist _).map _

-- Quarantine

/-- The failures since the last verdict that was none. -/
def failuresInRow (verdicts : List Bool) : ℕ :=
  verdicts.foldl (fun n sound => if sound then 0 else n + 1) 0

/-- The host has counted some failures in a row of a metric. -/
structure Counted (limit n : ℕ) (entry : Option (MetricEntry W)) : Prop where
  unregistered : entry = none → n = 0
  failures : ∀ e ∈ entry, e.failures = min n (2 ^ 32 - 1)
  state : ∀ e ∈ entry, e.state = .quarantined ↔ max limit 1 ≤ e.failures

/-- A call counts its verdict. -/
theorem Counted.step {limit n : ℕ} {call : HostedCall W} {entry entry' : Option (MetricEntry W)}
    {verdict : Option Bool} (h : Counted limit n entry)
    (hnoting : Noting limit call id entry verdict entry') :
    Counted limit (verdict.elim n fun sound => if sound then 0 else n + 1) entry' := by
  have hzero : ¬max limit 1 ≤ 0 := by omega
  cases hnoting with
  | same => exact h
  | registered metric lifecycle =>
    refine ⟨nofun, fun e he => ?_, fun e he => ?_⟩ <;> cases he
    · rw [Option.elim_none, h.unregistered rfl]
      rfl
    · exact iff_of_false nofun hzero
  | moved e next evidenceRef =>
    refine ⟨nofun, fun e' he => ?_, fun e' he => ?_⟩ <;> cases he
    · exact h.failures e rfl
    · exact h.state e rfl
  | resumed e | answered e hready =>
    refine ⟨nofun, fun e' he => ?_, fun e' he => ?_⟩ <;> cases he
    · rfl
    · exact iff_of_false (by simp_all) hzero
  | failed e hready failures hfailures =>
    have hcount := h.failures e rfl
    refine ⟨nofun, fun e' he => ?_, fun e' he => ?_⟩ <;> cases he
    · show failures = min (n + 1) _
      omega
    · show (if _ then _ else _) = _ ↔ max limit 1 ≤ failures
      split
      · next hreached => exact iff_of_true rfl hreached
      · next hbelow => exact iff_of_false (by rw [hready]; nofun) hbelow

theorem Counted.run {limit n : ℕ} {run : List (HostedCall W)} (hlimit : s.1.failureLimit = limit)
    (h : Counted limit n s.1.entries[id]?) :
    Counted limit (((Runs.calls (HostedCall.after float) s run).filterMap fun c =>
        c.2.verdict float id c.1).foldl (fun n sound => if sound then 0 else n + 1) n)
      (Runs.final (HostedCall.after float) s run).1.entries[id]? := by
  induction run generalizing s n with
  | nil => exact h
  | cons call run ih =>
    have hnoting : Noting s.1.failureLimit call id s.1.entries[id]? (call.verdict float id s)
        (call.after float s).1.entries[id]? := call.noting
    rw [hlimit] at hnoting
    have hrest := ih (call.after_failureLimit.trans hlimit) (h.step hnoting)
    rw [Runs.calls, Runs.final_cons, List.filterMap_cons]
    cases hverdict : call.verdict float id s <;> rw [hverdict] at hrest <;> exact hrest

/-- **Quarantine is exact**: over every run, the host has counted the evaluations of a metric that
failed since the last that did not, or since it was resumed, and the metric is isolated exactly
while they are as many as the limit. -/
theorem quarantined_iff_failing {limit : ℕ} {world : W} {run : List (HostedCall W)}
    {entry : MetricEntry W}
    (hentry : (Runs.final (HostedCall.after float) (.new limit, world) run).1.entries[id]? =
      some entry) :
    let n := failuresInRow ((Runs.calls (HostedCall.after float) (.new limit, world) run).filterMap
      fun c => c.2.verdict float id c.1)
    entry.failures = min n (2 ^ 32 - 1) ∧
      (entry.state = .quarantined ↔ max limit 1 ≤ min n (2 ^ 32 - 1)) := by
  intro n
  have hnone : (MetricHost.new limit : MetricHost W).entries[id]? = none := by simp [MetricHost.new]
  have hstart : Counted limit 0 (MetricHost.new limit : MetricHost W).entries[id]? := by
    rw [hnone]
    exact ⟨fun _ => rfl, by simp, by simp⟩
  have hcounted : Counted limit n
      (Runs.final (HostedCall.after float) (.new limit, world) run).1.entries[id]? :=
    Counted.run rfl hstart
  rw [hentry] at hcounted
  have hfailures := hcounted.failures entry rfl
  exact ⟨hfailures, hfailures ▸ hcounted.state entry rfl⟩

end Runs

namespace Sample

/-- A discovered worker that an operator promotes as far as canary. -/
def promotion : List (HostedCall (List (List UInt8))) :=
  [.register (.python metricWorker) .research, .transition "m" .validated "v",
    .transition "m" .shadow "s", .evaluate "m" metricContext true, .transition "m" .canary "c"]

end Sample

/-- The worker answers live after its promotion. -/
theorem promoted_before_live_canary :
    [some .validated, some .shadow, some .canary].Sublist ((Runs.states
      (HostedCall.after Sample.float) (.new 1, []) Sample.promotion).map (lifecycleOf "m")) :=
  (@promoted_before_live _ Sample.float "m" 1 [] Sample.promotion (by decide) Sample.metricContext
    (Sample.metricAnswer 7) (by decide)).1

/-- A question without an instrument fails, and one failure isolates. -/
theorem quarantined_iff_failing_once :
    (((Runs.final (HostedCall.after Sample.float) (.new 1, []) (Sample.promotion ++
      [.evaluate "m" ⟨none, ∅, 0⟩ false])).1.entries["m"]?).map (·.state)) = some .quarantined := by
  cases hget : (Runs.final (HostedCall.after Sample.float) (.new 1, []) (Sample.promotion ++
      [.evaluate "m" ⟨none, ∅, 0⟩ false])).1.entries["m"]? with
  | none => exact absurd (congrArg Option.isSome hget) (by decide)
  | some entry => exact congrArg some ((quarantined_iff_failing hget).2.mpr (by decide))

end InsiderTrader
