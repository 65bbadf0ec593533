import InsiderTrader.Ipc
import InsiderTrader.Library.Runs
import InsiderTrader.Service

/-!
# The component supervisor

The supervisor isolates components that fail: a failure puts a component into
backoff or, when there are too many in a window, into quarantine, which an
operator ends. A drain ends every component for good.

## Main definitions

- `Supervisor` — the components with their failure histories, under a policy
- `Call`, `Watch.step` — the calls of a supervisor, with the time it has seen
- `Supervisor.Overrides` — a failure that undoes what the supervisor promised

## Main results

- `Supervisor.step_change` — what one call does to one component
- `Watch.sound_step` — the invariant of the failure histories
- `Watch.supervision_sticky` — the runs in which nothing is undone
-/

namespace InsiderTrader.Supervision

/-- The lifecycle of a supervised component. -/
inductive State where
  | running
  | backoff
  | quarantined
  | draining
  deriving DecidableEq

/-- Restart intensity and backoff. -/
structure Policy where
  maxFailures : ℕ
  windowNs : ℕ
  initialBackoffNs : ℕ
  maxBackoffNs : ℕ
  jitterBps : ℕ
  maxFailures_fits : maxFailures ≤ u32Max

/-- A component with its failure history. -/
structure Component where
  name : String
  state : State
  failures : ℕ
  retryAtNs : ℕ
  backoffNs : ℕ
  lastFailureNs : Option ℕ
  dependencies : List String
  health : SupervisorHealth
  deriving DecidableEq

/-- Why a component does not leave quarantine. -/
inductive ResumeError where
  | notFound
  | notQuarantined
  | authorizationRequired
  deriving DecidableEq

/-- The hash of a component and the count of its failures, in 64 bits. -/
def jitterHash (failures : ℕ) (name : String) : ℕ :=
  (Wire.utf8 name).foldl (fun hash byte => (hash * 1099511628211 + byte.toNat) % 2 ^ 64) failures

/-- The part of the backoff that is added to it, in basis points. -/
def jitter (jitterBps failures : ℕ) (name : String) : ℕ :=
  jitterHash failures name % (jitterBps + 1)

/-- The delay until a restart. -/
def jitteredBackoff (jitterBps backoffNs failures : ℕ) (name : String) : ℕ :=
  if jitterBps = 0 ∨ backoffNs = 0 then backoffNs
  else min (backoffNs + min (backoffNs * jitter jitterBps failures name) u64Max / 10000) u64Max

namespace Component

/-- A component that has just been registered. -/
def fresh (policy : Policy) (name : String) (dependencies : List String) : Component where
  name := name
  state := .running
  failures := 0
  retryAtNs := 0
  backoffNs := policy.initialBackoffNs
  lastFailureNs := none
  dependencies := dependencies
  health := .healthy

/-- The last failure is further back than the window. -/
def Quiet (policy : Policy) (nowNs : ℕ) (c : Component) : Prop :=
  ∃ previous ∈ c.lastFailureNs, policy.windowNs < nowNs - previous

instance (policy : Policy) (nowNs : ℕ) (c : Component) : Decidable (c.Quiet policy nowNs) :=
  inferInstanceAs (Decidable (∃ previous ∈ c.lastFailureNs, _))

/-- The failures in the window, with one at this time. -/
def countFailure (policy : Policy) (nowNs : ℕ) (c : Component) : ℕ :=
  min ((if c.Quiet policy nowNs then 0 else c.failures) + 1) u32Max

/-- Count a failure, and schedule a restart or quarantine the component. -/
def recordFailure (policy : Policy) (name : String) (nowNs : ℕ) (c : Component) : Component :=
  let failures := c.countFailure policy nowNs
  let counted := { c with failures := failures, lastFailureNs := some nowNs }
  if policy.maxFailures ≤ failures then { counted with state := .quarantined }
  else
    { counted with
      state := .backoff
      retryAtNs := min (nowNs + jitteredBackoff policy.jitterBps c.backoffNs failures name) u64Max
      backoffNs := min (min (c.backoffNs * 2) u64Max) policy.maxBackoffNs }

/-- Start again without a failure history. -/
def resume (policy : Policy) (c : Component) : Component :=
  { c with
    state := .running
    failures := 0
    backoffNs := policy.initialBackoffNs
    lastFailureNs := none }

end Component

/-- The registry of the components, and the health their dependents are gated by. -/
structure Supervisor where
  policy : Policy
  components : Std.TreeMap String Component
  dependencyHealth : Std.TreeMap String SupervisorHealth

namespace Supervisor

/-- A supervisor without components. -/
def new (policy : Policy) : Supervisor := ⟨policy, ∅, ∅⟩

/-- A component by its name. -/
def component (s : Supervisor) (name : String) : Option Component := s.components[name]?

/-- Register a component that depends on others. -/
def registerWithDependencies (name : String) (dependencies : List String) (s : Supervisor) :
    Bool × Supervisor :=
  if s.components.contains name then (false, s)
  else
    (true, { s with
      components := s.components.insert name (.fresh s.policy name dependencies)
      dependencyHealth := s.dependencyHealth.insert name .healthy })

/-- Register a component. -/
def register (name : String) (s : Supervisor) : Bool × Supervisor :=
  s.registerWithDependencies name []

/-- Publish the health of a component; an unknown component is refused. -/
def setHealth (name : String) (health : SupervisorHealth) (s : Supervisor) : Bool × Supervisor :=
  match s.component name with
  | none => (false, s)
  | some c =>
    (true, { s with
      components := s.components.insert name { c with health := health }
      dependencyHealth := s.dependencyHealth.insert name health })

/-- Every dependency of a component is healthy. -/
def dependenciesHealthy (name : String) (s : Supervisor) : Bool :=
  match s.component name with
  | none => false
  | some c => c.dependencies.all fun dependency =>
      (s.dependencyHealth[dependency]?).getD .unknown = .healthy

/-- Record the failure of a component. -/
def recordFailure (name : String) (nowNs : ℕ) (s : Supervisor) : Option State × Supervisor :=
  match s.component name with
  | none => (none, s)
  | some c =>
    let failed := c.recordFailure s.policy name nowNs
    (some failed.state, { s with components := s.components.insert name failed })

/-- Restart a component whose backoff is over. -/
def restartIfReady (name : String) (nowNs : ℕ) (s : Supervisor) : Bool × Supervisor :=
  if !s.dependenciesHealthy name then (false, s)
  else
    match s.component name with
    | none => (false, s)
    | some c =>
      if c.state ≠ .backoff ∨ nowNs < c.retryAtNs then (false, s)
      else (true, { s with components := s.components.insert name { c with state := .running } })

/-- Let an operator end the quarantine of a component. -/
def resume (name authorization : String) (s : Supervisor) :
    Except ResumeError Unit × Supervisor :=
  match s.component name with
  | none => (.error .notFound, s)
  | some c =>
    if c.state ≠ .quarantined then (.error .notQuarantined, s)
    else if Text.isBlank authorization then (.error .authorizationRequired, s)
    else (.ok (), { s with components := s.components.insert name (c.resume s.policy) })

/-- Drain every component. -/
def drain (s : Supervisor) : Supervisor :=
  { s with components := s.components.map fun _ c => { c with state := .draining } }

/-- The components and their health, as the service has them. -/
def healthView (s : Supervisor) : InsiderTrader.Supervisor :=
  ⟨s.components.map fun _ c => c.health, s.dependencyHealth⟩

end Supervisor

/-- A call of a supervisor. -/
inductive Call where
  | register (name : String) (dependencies : List String)
  | setHealth (name : String) (health : SupervisorHealth)
  | recordFailure (name : String) (nowNs : ℕ)
  | restartIfReady (name : String) (nowNs : ℕ)
  | resume (name authorization : String)
  | drain
  deriving DecidableEq

/-- The time a call is made at, where it takes one. -/
def Call.nowNs : Call → Option ℕ
  | .recordFailure _ nowNs | .restartIfReady _ nowNs => some nowNs
  | _ => none

namespace Supervisor

/-- What a call makes of a supervisor. -/
def step : Call → Supervisor → Supervisor
  | .register name dependencies, s => (s.registerWithDependencies name dependencies).2
  | .setHealth name health, s => (s.setHealth name health).2
  | .recordFailure name nowNs, s => (s.recordFailure name nowNs).2
  | .restartIfReady name nowNs, s => (s.restartIfReady name nowNs).2
  | .resume name authorization, s => (s.resume name authorization).2
  | .drain, s => s.drain

/-- The lifecycle of a component. -/
def stateOf (s : Supervisor) (name : String) : Option State := (s.component name).map (·.state)

/-- A call leaves the quarantined components where they are, unless it drains them or an operator
ends their quarantine. -/
def KeepsQuarantine (s : Supervisor) (call : Call) : Prop :=
  ∀ name, s.stateOf name = some .quarantined →
    (step call s).stateOf name = some .quarantined ∨ call = .drain ∨
      ∃ authorization, call = .resume name authorization ∧
        (s.resume name authorization).1.toOption = some ()

/-- The components that are draining do not run later on. -/
def KeepsDraining (s later : Supervisor) : Prop :=
  ∀ name, s.stateOf name = some .draining → later.stateOf name ≠ some .running

/-- No restart is further away from the last failure than the longest backoff. -/
def BoundsDelays (s : Supervisor) : Prop :=
  ∀ name c, s.component name = some c → ∀ failureNs, c.lastFailureNs = some failureNs →
    c.retryAtNs ≤ failureNs + s.policy.maxBackoffNs

/-- A failure undoes what the supervisor promised: the component is draining, or is quarantined
and was quiet for longer than the window, or is to be restarted and its jitter takes it beyond
the longest backoff. -/
def Overrides (s : Supervisor) : Call → Prop
  | .recordFailure name nowNs =>
    ∃ c ∈ s.component name,
      c.state = .draining ∨
      (c.state = .quarantined ∧ c.Quiet s.policy nowNs ∧ 1 < s.policy.maxFailures) ∨
      (c.countFailure s.policy nowNs < s.policy.maxFailures ∧
        nowNs + s.policy.maxBackoffNs < u64Max ∧
        10000 * (s.policy.maxBackoffNs - c.backoffNs + 1) ≤ min u64Max
          (c.backoffNs * jitter s.policy.jitterBps (c.countFailure s.policy nowNs) name))
  | _ => False

instance (s : Supervisor) : (call : Call) → Decidable (s.Overrides call)
  | .recordFailure name _ => inferInstanceAs (Decidable (∃ c ∈ s.component name, _))
  | .register _ _ | .setHealth _ _ | .restartIfReady _ _ | .resume _ _ | .drain =>
    inferInstanceAs (Decidable False)

end Supervisor

/-- A supervisor with the latest time it was told. -/
structure Watch where
  supervisor : Supervisor
  nowNs : ℕ

namespace Watch

/-- A supervisor that nothing was told yet. -/
def start (policy : Policy) : Watch := ⟨.new policy, 0⟩

/-- What a call makes of a watch. -/
def step (call : Call) (w : Watch) : Watch :=
  ⟨Supervisor.step call w.supervisor, call.nowNs.getD w.nowNs⟩

/-- The time of a call is not before the latest one. -/
def Timely (w : Watch) (call : Call) : Prop := ∀ nowNs ∈ call.nowNs, w.nowNs ≤ nowNs

instance (w : Watch) (call : Call) : Decidable (w.Timely call) :=
  inferInstanceAs (Decidable (∀ nowNs ∈ call.nowNs, _))

/-- **Supervision is sticky** along a run: quarantine and draining last, and the delays are
bounded. -/
def Sticky (policy : Policy) (run : List Call) : Prop :=
  (∀ c ∈ Runs.calls step (start policy) run, c.1.supervisor.KeepsQuarantine c.2) ∧
  (Runs.states step (start policy) run).Pairwise
    (fun w later => w.supervisor.KeepsDraining later.supervisor) ∧
  ∀ w ∈ Runs.states step (start policy) run, w.supervisor.BoundsDelays

end Watch

-- One call

/-- What a call can do to the component of a name. -/
inductive Change (policy : Policy) (name : String) :
    Call → Option Component → Option Component → Prop where
  | kept (call : Call) (c : Option Component) : Change policy name call c c
  | registered (dependencies : List String) :
    Change policy name (.register name dependencies) none (some (.fresh policy name dependencies))
  | health (health : SupervisorHealth) (c : Component) :
    Change policy name (.setHealth name health) (some c) (some { c with health := health })
  | failed (nowNs : ℕ) (c : Component) :
    Change policy name (.recordFailure name nowNs) (some c)
      (some (c.recordFailure policy name nowNs))
  | restarted (nowNs : ℕ) (c : Component) (hstate : c.state = .backoff) :
    Change policy name (.restartIfReady name nowNs) (some c) (some { c with state := .running })
  | resumed (authorization : String) (c : Component) (hstate : c.state = .quarantined)
    (hauthorized : Text.isBlank authorization = false) :
    Change policy name (.resume name authorization) (some c) (some (c.resume policy))
  | drained (c : Component) :
    Change policy name .drain (some c) (some { c with state := .draining })

namespace Supervisor

variable {s : Supervisor} {name : String} {c : Component}

/-- A component is stored under its name, and the others stay as they are. -/
theorem change_insert {call : Call} (hcomponent : Change s.policy name call (s.component name)
    (some c)) (other : String) :
    Change s.policy other call (s.component other) (s.components.insert name c)[other]? := by
  rw [Std.TreeMap.getElem?_insert, component]
  split
  · next heq =>
    obtain rfl := Std.LawfulEqCmp.compare_eq_iff_eq.mp heq
    exact hcomponent
  · exact .kept _ _

/-- **One call** does one of these things to each component. -/
theorem step_change (call : Call) (s : Supervisor) (name : String) :
    Change s.policy name call (s.component name) ((step call s).component name) := by
  cases call with
  | register registered dependencies =>
    rw [step, registerWithDependencies]
    split
    · exact .kept _ _
    · next hnew =>
      have hnone : s.component registered = none := by
        rwa [Std.TreeMap.contains_eq_isSome_getElem?, Option.not_isSome_iff_eq_none] at hnew
      exact change_insert (hnone ▸ .registered dependencies) name
  | setHealth published health =>
    rw [step, setHealth]
    split
    · exact .kept _ _
    · next c hget => exact change_insert (hget ▸ .health health c) name
  | recordFailure failing nowNs =>
    rw [step, recordFailure]
    split
    · exact .kept _ _
    · next c hget => exact change_insert (hget ▸ .failed nowNs c) name
  | restartIfReady restarting nowNs =>
    rw [step, restartIfReady]
    split
    · exact .kept _ _
    split
    · exact .kept _ _
    · next c hget =>
      split
      · exact .kept _ _
      · next hready =>
        rw [not_or, not_not] at hready
        exact change_insert (hget ▸ .restarted nowNs c hready.1) name
  | resume resuming authorization =>
    rw [step, resume]
    split
    · exact .kept _ _
    · next c hget =>
      split
      · exact .kept _ _
      split
      · exact .kept _ _
      · next hstate hauthorized =>
        rw [not_not] at hstate
        exact change_insert (hget ▸ .resumed authorization c hstate
          (Bool.eq_false_of_not_eq_true hauthorized)) name
  | drain =>
    have hget : (step .drain s).component name =
        (s.component name).map fun c => { c with state := .draining } :=
      Std.TreeMap.getElem?_map
    rw [hget]
    cases s.component name with
    | none => exact .kept _ _
    | some c => exact .drained c

/-- The policy of a supervisor does not change. -/
theorem step_policy (call : Call) (s : Supervisor) : (step call s).policy = s.policy := by
  cases call with
  | register name dependencies =>
    rw [step, registerWithDependencies]
    split <;> rfl
  | setHealth name health =>
    rw [step, setHealth]
    split <;> rfl
  | recordFailure name nowNs =>
    rw [step, recordFailure]
    split <;> rfl
  | restartIfReady name nowNs =>
    rw [step, restartIfReady]
    split
    · rfl
    split
    · rfl
    · split <;> rfl
  | resume name authorization =>
    rw [step, resume]
    split
    · rfl
    · split
      · rfl
      · split <;> rfl
  | drain => rfl

/-- An operator who is named ends a quarantine. -/
theorem resume_succeeds {authorization : String} (hget : s.component name = some c)
    (hstate : c.state = .quarantined) (hauthorized : Text.isBlank authorization = false) :
    (s.resume name authorization).1 = .ok () := by
  simp only [resume, hget, hstate, hauthorized, ne_eq, not_true_eq_false, if_false,
    Bool.false_eq_true]

/-- The service sees the health that is published here. -/
theorem healthView_setHealth (s : Supervisor) (name : String) (health : SupervisorHealth) :
    let published := s.healthView.setHealth name health
    (s.setHealth name health).1 = published.1 ∧
      (∀ other : String, (s.setHealth name health).2.healthView.components[other]? =
        published.2.components[other]?) ∧
      (s.setHealth name health).2.healthView.dependencyHealth = published.2.dependencyHealth := by
  have hcontains : s.healthView.components.contains name = (s.component name).isSome := by
    rw [Std.TreeMap.contains_eq_isSome_getElem?, healthView, Std.TreeMap.getElem?_map,
      Option.isSome_map]
    rfl
  rw [setHealth, InsiderTrader.Supervisor.setHealth, hcontains]
  cases hget : s.component name with
  | none => exact ⟨rfl, fun _ => rfl, rfl⟩
  | some c =>
    refine ⟨rfl, fun other => ?_, rfl⟩
    show ((s.components.insert name { c with health := health }).map _)[other]? =
      ((s.components.map _).insert name health)[other]?
    rw [Std.TreeMap.getElem?_map, Std.TreeMap.getElem?_insert, Std.TreeMap.getElem?_insert,
      Std.TreeMap.getElem?_map]
    split <;> rfl

end Supervisor

-- One failure

section Failures

variable {policy : Policy} {name : String} {nowNs laterNs : ℕ} {c : Component}

/-- A restart is beyond the longest backoff exactly when the jitter takes it there. -/
theorem retry_le_iff {jitterBps backoffNs failures maxBackoffNs : ℕ}
    (hbackoff : backoffNs ≤ maxBackoffNs) :
    min (nowNs + jitteredBackoff jitterBps backoffNs failures name) u64Max ≤
        nowNs + maxBackoffNs ↔
      ¬(nowNs + maxBackoffNs < u64Max ∧ 10000 * (maxBackoffNs - backoffNs + 1) ≤
        min u64Max (backoffNs * jitter jitterBps failures name)) := by
  by_cases hplain : jitterBps = 0 ∨ backoffNs = 0
  · have hshare : backoffNs * jitter jitterBps failures name = 0 := by
      rcases hplain with rfl | rfl
      · rw [jitter, Nat.zero_add, Nat.mod_one, Nat.mul_zero]
      · rw [Nat.zero_mul]
    rw [jitteredBackoff, if_pos hplain, hshare]
    omega
  · rw [jitteredBackoff, if_neg hplain]
    generalize backoffNs * jitter jitterBps failures name = share
    omega

/-- The failure history of a component, at a time. -/
structure Sound (policy : Policy) (nowNs : ℕ) (c : Component) : Prop where
  backoff_le : c.backoffNs ≤ policy.maxBackoffNs
  retry_le : c.retryAtNs ≤ nowNs + policy.maxBackoffNs
  delay_le : ∀ failureNs, c.lastFailureNs = some failureNs →
    c.retryAtNs ≤ failureNs + policy.maxBackoffNs
  counted : c.state = .quarantined → policy.maxFailures ≤ c.failures

/-- A failure that quarantines the component. -/
theorem recordFailure_quarantined
    (hcount : policy.maxFailures ≤ c.countFailure policy nowNs) :
    c.recordFailure policy name nowNs = { c with
      failures := c.countFailure policy nowNs
      lastFailureNs := some nowNs
      state := .quarantined } := by
  rw [Component.recordFailure, if_pos hcount]

/-- A component that fails again in the window stays in quarantine. -/
theorem Sound.stays_quarantined (hsound : Sound policy laterNs c)
    (hstate : c.state = .quarantined)
    (hkept : ¬(c.Quiet policy nowNs ∧ 1 < policy.maxFailures)) :
    policy.maxFailures ≤ c.countFailure policy nowNs := by
  have hcounted := hsound.counted hstate
  have hfits := policy.maxFailures_fits
  rw [Component.countFailure]
  split
  · next hquiet =>
    have hmax : ¬1 < policy.maxFailures := fun hmax => hkept ⟨hquiet, hmax⟩
    omega
  · omega

/-- **A failure** keeps the history sound, unless its jitter is too long. -/
theorem Sound.recordFailure (hsound : Sound policy laterNs c) (htimely : laterNs ≤ nowNs)
    (hdelay : ¬(c.countFailure policy nowNs < policy.maxFailures ∧
      nowNs + policy.maxBackoffNs < u64Max ∧
      10000 * (policy.maxBackoffNs - c.backoffNs + 1) ≤ min u64Max
        (c.backoffNs * jitter policy.jitterBps (c.countFailure policy nowNs) name))) :
    Sound policy nowNs (c.recordFailure policy name nowNs) := by
  have hretry := hsound.retry_le
  by_cases hcount : policy.maxFailures ≤ c.countFailure policy nowNs
  · have hlater : c.retryAtNs ≤ nowNs + policy.maxBackoffNs := by omega
    rw [recordFailure_quarantined hcount]
    refine ⟨hsound.backoff_le, hlater, fun failureNs hlast => ?_, fun _ => hcount⟩
    cases hlast
    exact hlater
  · have hnext := (retry_le_iff hsound.backoff_le).mpr fun hlong =>
      hdelay ⟨not_le.mp hcount, hlong⟩
    rw [Component.recordFailure, if_neg hcount]
    refine ⟨min_le_right _ _, hnext, fun failureNs hlast => ?_, fun hstate => by cases hstate⟩
    cases hlast
    exact hnext

/-- A component without a failure history. -/
theorem Sound.restored (hbackoff : c.backoffNs ≤ policy.maxBackoffNs)
    (hretry : c.retryAtNs ≤ nowNs + policy.maxBackoffNs) (hlast : c.lastFailureNs = none)
    (hstate : c.state ≠ .quarantined) : Sound policy nowNs c where
  backoff_le := hbackoff
  retry_le := hretry
  delay_le failureNs hfailure := by
    rw [hlast] at hfailure
    cases hfailure
  counted hquarantined := absurd hquarantined hstate

/-- A history stays sound as time passes. -/
theorem Sound.later (hsound : Sound policy nowNs c) (hle : nowNs ≤ laterNs) :
    Sound policy laterNs c :=
  { hsound with retry_le := hsound.retry_le.trans (Nat.add_le_add_right hle _) }

end Failures

-- Runs

namespace Watch

open Supervision.Supervisor

variable {policy : Policy} {w : Watch} {call : Call}

/-- **The invariant**: every failure history is sound. -/
structure Sound (policy : Policy) (w : Watch) : Prop where
  policy_eq : w.supervisor.policy = policy
  components : ∀ name c, w.supervisor.component name = some c →
    Supervision.Sound policy w.nowNs c

theorem sound_start (policy : Policy) : Sound policy (start policy) := by
  refine ⟨rfl, fun name c hget => ?_⟩
  have hnone : (start policy).supervisor.component name = none := Std.TreeMap.getElem?_emptyc
  rw [hnone] at hget
  cases hget

theorem nowNs_le_step (htimely : w.Timely call) : w.nowNs ≤ (step call w).nowNs := by
  unfold Timely at htimely
  rw [step]
  cases hnow : call.nowNs with
  | none => exact le_rfl
  | some nowNs => exact htimely nowNs hnow

/-- **One call** keeps the failure histories sound. -/
theorem sound_step (hbackoff : policy.initialBackoffNs ≤ policy.maxBackoffNs)
    (hsound : Sound policy w) (htimely : w.Timely call)
    (hkept : ¬w.supervisor.Overrides call) : Sound policy (step call w) := by
  have hlater := nowNs_le_step htimely
  refine ⟨(step_policy call w.supervisor).trans hsound.policy_eq, fun name c' hget' => ?_⟩
  have hchange := step_change call w.supervisor name
  rw [hsound.policy_eq] at hchange
  rw [show (Supervisor.step call w.supervisor).component name = some c' from hget'] at hchange
  generalize hget : w.supervisor.component name = found at hchange
  cases hchange with
  | kept => exact (hsound.components name c' hget).later hlater
  | registered dependencies =>
    exact .restored hbackoff (Nat.zero_le _) rfl (show State.running ≠ .quarantined by decide)
  | health health c =>
    obtain ⟨hb, hr, hd, hc⟩ := (hsound.components name c hget).later hlater
    exact ⟨hb, hr, hd, hc⟩
  | failed nowNs c =>
    have hnow : w.nowNs ≤ nowNs := htimely nowNs rfl
    refine (hsound.components name c hget).recordFailure hnow fun hlong => hkept ?_
    rw [← hsound.policy_eq] at hlong
    exact ⟨c, hget, .inr (.inr hlong)⟩
  | restarted nowNs c hstate =>
    obtain ⟨hb, hr, hd, -⟩ := (hsound.components name c hget).later hlater
    exact ⟨hb, hr, hd, fun hstate => by cases hstate⟩
  | resumed authorization c hstate hauthorized =>
    obtain ⟨-, hr, -, -⟩ := (hsound.components name c hget).later hlater
    exact .restored hbackoff hr rfl (show State.running ≠ .quarantined by decide)
  | drained c =>
    obtain ⟨hb, hr, hd, -⟩ := (hsound.components name c hget).later hlater
    exact ⟨hb, hr, hd, fun hstate => by cases hstate⟩

/-- Quarantine lasts through a call that undoes nothing. -/
theorem keepsQuarantine_step (hsound : Sound policy w) (hkept : ¬w.supervisor.Overrides call) :
    w.supervisor.KeepsQuarantine call := by
  intro name hstate
  obtain ⟨c, hget, hquarantined⟩ := Option.map_eq_some_iff.mp hstate
  have hchange := step_change call w.supervisor name
  rw [stateOf]
  rw [hget] at hchange
  generalize (Supervisor.step call w.supervisor).component name = found at hchange ⊢
  cases hchange with
  | kept => exact .inl (congrArg some hquarantined)
  | health health c => exact .inl (congrArg some hquarantined)
  | failed nowNs c =>
    have hcount := (hsound.components name c hget).stays_quarantined hquarantined
      fun hquiet => hkept ⟨c, hget, .inr (.inl ⟨hquarantined, hsound.policy_eq ▸ hquiet⟩)⟩
    rw [hsound.policy_eq, recordFailure_quarantined hcount]
    exact .inl rfl
  | restarted nowNs c hbackoff => exact absurd (hbackoff.symm.trans hquarantined) (by decide)
  | resumed authorization c _ hauthorized =>
    have hresumed := resume_succeeds hget hquarantined hauthorized
    exact .inr (.inr ⟨authorization, rfl, by rw [hresumed]; rfl⟩)
  | drained c => exact .inr (.inl rfl)

/-- A draining component is drained by every call that undoes nothing. -/
theorem draining_step (hkept : ¬w.supervisor.Overrides call) (name : String)
    (hstate : w.supervisor.stateOf name = some .draining) :
    (step call w).supervisor.stateOf name = some .draining := by
  obtain ⟨c, hget, hdraining⟩ := Option.map_eq_some_iff.mp hstate
  have hchange := step_change call w.supervisor name
  show ((Supervisor.step call w.supervisor).component name).map _ = _
  rw [hget] at hchange
  generalize (Supervisor.step call w.supervisor).component name = found at hchange ⊢
  cases hchange with
  | kept => exact congrArg some hdraining
  | health health c => exact congrArg some hdraining
  | failed nowNs c => exact absurd ⟨c, hget, .inl hdraining⟩ hkept
  | restarted nowNs c hbackoff => exact absurd (hbackoff.symm.trans hdraining) (by decide)
  | resumed authorization c hquarantined _ =>
    exact absurd (hquarantined.symm.trans hdraining) (by decide)
  | drained c => rfl

/-- **Supervision is sticky** along the timely runs in which no failure undoes what the supervisor
promised. -/
theorem supervision_sticky (policy : Policy) (run : List Call)
    (hbackoff : policy.initialBackoffNs ≤ policy.maxBackoffNs)
    (htimely : ∀ c ∈ Runs.calls step (start policy) run, c.1.Timely c.2)
    (hkept : ∀ c ∈ Runs.calls step (start policy) run, ¬c.1.supervisor.Overrides c.2) :
    Sticky policy run := by
  have hruns := Runs.states_calls_of_step (I := Sound policy) (A := fun call w => w.Timely call)
    (G := fun call w => ¬w.supervisor.Overrides call)
    (Q := fun call w => w.supervisor.KeepsQuarantine call)
    (fun call w htimely hsound hkept =>
      ⟨sound_step hbackoff hsound htimely hkept, keepsQuarantine_step hsound hkept⟩)
    (sound_start policy) htimely hkept
  have htrans : IsTrans Watch fun w later => ∀ name,
      w.supervisor.stateOf name = some .draining → later.supervisor.stateOf name = some .draining :=
    ⟨fun _ _ _ hfirst hsecond name hstate => hsecond name (hfirst name hstate)⟩
  have hdraining : (Runs.states step (start policy) run).Pairwise fun w later => ∀ name,
      w.supervisor.stateOf name = some .draining → later.supervisor.stateOf name = some .draining :=
    Runs.states_pairwise_of_calls fun c hc name hstate => draining_step (hkept c hc) name hstate
  refine ⟨hruns.2, hdraining.imp fun hdrained name hstate => ?_, fun w hw name c hget => ?_⟩
  · rw [hdrained name hstate]
    decide
  · have hsound := hruns.1 w hw
    rw [hsound.policy_eq]
    exact (hsound.components name c hget).delay_le

/-- A burst of failures, an operator and a drain. -/
theorem supervision_sticky_burst :
    let policy : Policy := ⟨2, 1000, 10, 100, 5000, by decide⟩
    policy.initialBackoffNs ≤ policy.maxBackoffNs ∧ Sticky policy
      [.register "feed" [], .recordFailure "feed" 0, .restartIfReady "feed" 20,
        .recordFailure "feed" 30, .recordFailure "feed" 900, .resume "feed" "operator", .drain,
        .restartIfReady "feed" 2000] :=
  ⟨by decide, supervision_sticky _ _ (by decide) (by decide) (by decide)⟩

/-- **A failure undoes** a quarantine after a quiet window, a drain at once, and the longest backoff
by its jitter. -/
theorem failure_overrides :
    let policy : Policy := ⟨2, 1000, 10, 10, 10000, by decide⟩
    let quarantined : List Call := [.register "feed" [], .recordFailure "feed" 0,
      .recordFailure "feed" 1, .recordFailure "feed" 2000]
    let drained : List Call := [.register "feed" [], .drain, .recordFailure "feed" 0,
      .restartIfReady "feed" 30]
    let delayed : List Call := [.register "feed" [], .recordFailure "feed" 0]
    policy.initialBackoffNs ≤ policy.maxBackoffNs ∧
      ((∀ c ∈ Runs.calls step (start policy) quarantined, c.1.Timely c.2) ∧
        ∃ c ∈ Runs.calls step (start policy) quarantined, ¬c.1.supervisor.KeepsQuarantine c.2) ∧
      ((∀ c ∈ Runs.calls step (start policy) drained, c.1.Timely c.2) ∧
        ¬(Runs.states step (start policy) drained).Pairwise
          fun w later => w.supervisor.KeepsDraining later.supervisor) ∧
      (∀ c ∈ Runs.calls step (start policy) delayed, c.1.Timely c.2) ∧
        ∃ w ∈ Runs.states step (start policy) delayed, ¬w.supervisor.BoundsDelays := by
  intro policy quarantined drained delayed
  refine ⟨by decide, ⟨by decide, ?_⟩, ⟨by decide, ?_⟩, by decide, ?_⟩
  · refine ⟨(Runs.calls step (start policy) quarantined)[3], List.getElem_mem _, fun hkeeps => ?_⟩
    rcases hkeeps "feed" (by decide) with hstate | hdrain | ⟨_, hresume, -⟩
    · revert hstate
      decide
    · cases hdrain
    · cases hresume
  · intro hpairwise
    have hrunning := List.pairwise_iff_getElem.mp hpairwise 2 4 (by decide) (by decide) (by decide)
      "feed" (by decide)
    exact hrunning (by decide)
  · refine ⟨(Runs.states step (start policy) delayed)[2], List.getElem_mem _, fun hbounds => ?_⟩
    have hlate : ∃ c ∈ (Runs.states step (start policy) delayed)[2].supervisor.component "feed",
        c.lastFailureNs = some 0 ∧ 10 < c.retryAtNs := by
      decide
    obtain ⟨c, hget, hlast, hretry⟩ := hlate
    exact absurd (hbounds "feed" c hget 0 hlast) (not_le.mpr hretry)

end Watch

end InsiderTrader.Supervision
