import Mathlib.Data.List.Sort
import Mathlib.Order.Monotone.Basic
import InsiderTrader.ChildQuantities
import InsiderTrader.Library.IndexRanges

/-!
# Research folds

The events of a tape are split into training and test ranges, once along time
and once over every selection of test groups. A training range must keep clear
of the test ranges, of an embargo on both sides of them and of the holdout.

## Main definitions

- `planWalkForward`, `planCpcv` — the two planners
- `WalkForwardPlan.LeakFree`, `LeakFreeSplits` — what the plans promise

## Main results

- `foldsFrom_ordered` — the folds of a walk, in order
- `planCpcv_eq` — the plan where no sum of indices passes 64 bits
- `researchFolds_leakFree_iff` — the plans are free of leaks exactly there
-/

namespace InsiderTrader

open IndexRanges

/-- The sum of two indices where it fits in 64 bits. -/
def checkedAdd (x y : ℕ) : Option ℕ := if x + y < 2 ^ 64 then some (x + y) else none

/-- The sum of two indices as an optimized build computes it. -/
def wrappingAdd (x y : ℕ) : Option ℕ := some ((x + y) % 2 ^ 64)

theorem checkedAdd_eq_some {x y z : ℕ} : checkedAdd x y = some z ↔ x + y < 2 ^ 64 ∧ x + y = z := by
  unfold checkedAdd
  by_cases h : x + y < 2 ^ 64
  · rw [if_pos h, Option.some_inj, and_iff_right h]
  · rw [if_neg h]
    exact ⟨fun hz => (Option.some_ne_none z hz.symm).elim, fun hz => absurd hz.1 h⟩

/-! ## Walking forward -/

structure WalkForwardConfig where
  trainEvents : ℕ
  testEvents : ℕ
  embargoEvents : ℕ
  holdoutEvents : ℕ
  deriving Repr, DecidableEq

structure WalkForwardFold where
  index : ℕ
  trainStart : ℕ
  trainEnd : ℕ
  testStart : ℕ
  testEnd : ℕ
  deriving Repr, DecidableEq

structure WalkForwardPlan where
  folds : List WalkForwardFold
  holdoutStart : ℕ
  deriving Repr, DecidableEq

inductive WalkForwardError where
  | invalidConfig
  | insufficientEvents
  deriving Repr, DecidableEq

/-- The folds from a training end on. -/
def foldsFrom (config : WalkForwardConfig) (htest : config.testEvents ≠ 0) (holdoutStart : ℕ)
    (index trainEnd : ℕ) : List WalkForwardFold :=
  match _hstart : checkedAdd trainEnd config.embargoEvents with
  | none => []
  | some testStart =>
    match hend : checkedAdd testStart config.testEvents with
    | none => []
    | some testEnd =>
      if holdoutStart < testEnd then []
      else
        ⟨index, 0, trainEnd, testStart, testEnd⟩ ::
          foldsFrom config htest holdoutStart (index + 1) testEnd
termination_by holdoutStart - trainEnd
decreasing_by
  obtain ⟨-, hstart⟩ := checkedAdd_eq_some.mp _hstart
  obtain ⟨-, hend⟩ := checkedAdd_eq_some.mp hend
  omega

/-- The folds of a tape, each trained on all that came before it. -/
def planWalkForward (eventCount : ℕ) (config : WalkForwardConfig) :
    Except WalkForwardError WalkForwardPlan :=
  if h : config.trainEvents = 0 ∨ config.testEvents = 0 then .error .invalidConfig
  else if eventCount < config.holdoutEvents then .error .insufficientEvents
  else
    let holdoutStart := eventCount - config.holdoutEvents
    if holdoutStart ≤ config.trainEvents then .error .insufficientEvents
    else
      let folds := foldsFrom config (not_or.mp h).2 holdoutStart 0 config.trainEvents
      if folds.isEmpty then .error .insufficientEvents
      else .ok ⟨folds, holdoutStart⟩

namespace WalkForwardFold

variable (f : WalkForwardFold)

def train : Range := ⟨f.trainStart, f.trainEnd⟩

def embargo : Range := ⟨f.trainEnd, f.testStart⟩

def test : Range := ⟨f.testStart, f.testEnd⟩

/-- The ranges of a fold have the sizes of the configuration and end before the holdout. -/
structure Fits (config : WalkForwardConfig) (holdoutStart : ℕ) : Prop where
  train : f.trainStart = 0 ∧ config.trainEvents ≤ f.trainEnd
  embargo : f.trainEnd + config.embargoEvents = f.testStart
  test : f.testStart + config.testEvents = f.testEnd
  holdout : f.testEnd ≤ holdoutStart

end WalkForwardFold

/-- The folds of a plan leak nothing: within each, training, embargo and test follow each other;
no test range meets another one or the holdout. -/
structure WalkForwardPlan.LeakFree (config : WalkForwardConfig) (plan : WalkForwardPlan) :
    Prop where
  fits : ∀ f ∈ plan.folds, f.Fits config plan.holdoutStart
  ordered : ∀ f ∈ plan.folds, [f.train, f.embargo, f.test].Pairwise Range.Before
  tests : plan.folds.Pairwise fun f g => f.test.Before g.test

/-- The folds from a training end on start there, and each ends before the next one is tested. -/
theorem foldsFrom_ordered (config : WalkForwardConfig) (htest : config.testEvents ≠ 0)
    (holdoutStart index : ℕ) {trainEnd : ℕ} (htrain : config.trainEvents ≤ trainEnd) :
    let folds := foldsFrom config htest holdoutStart index trainEnd
    (∀ f ∈ folds, trainEnd ≤ f.trainEnd ∧ f.Fits config holdoutStart) ∧
      folds.Pairwise fun f g => f.test.Before g.test := by
  intro folds
  fun_induction foldsFrom config htest holdoutStart index trainEnd with
  | case1 => exact ⟨fun f hf => absurd hf List.not_mem_nil, List.Pairwise.nil⟩
  | case2 => exact ⟨fun f hf => absurd hf List.not_mem_nil, List.Pairwise.nil⟩
  | case3 => exact ⟨fun f hf => absurd hf List.not_mem_nil, List.Pairwise.nil⟩
  | case4 index trainEnd testStart hstart testEnd hend hholdout ih =>
    obtain ⟨-, hstart⟩ := checkedAdd_eq_some.mp hstart
    obtain ⟨-, hend⟩ := checkedAdd_eq_some.mp hend
    obtain ⟨hfits, hpairs⟩ := ih (by omega)
    constructor
    · intro f hf
      rcases List.mem_cons.mp hf with rfl | hf
      · exact ⟨le_rfl, ⟨⟨rfl, htrain⟩, hstart, hend, not_lt.mp hholdout⟩⟩
      · obtain ⟨hle, hfit⟩ := hfits f hf
        exact ⟨by omega, hfit⟩
    · refine List.pairwise_cons.mpr ⟨fun g hg => ?_, hpairs⟩
      obtain ⟨hle, hfit⟩ := hfits g hg
      have hembargo := hfit.embargo
      show testEnd ≤ g.testStart
      omega

theorem WalkForwardFold.Fits.ordered {f : WalkForwardFold} {config : WalkForwardConfig}
    {holdoutStart : ℕ} (h : f.Fits config holdoutStart) :
    [f.train, f.embargo, f.test].Pairwise Range.Before := by
  have hembargo : f.trainEnd ≤ f.testStart := h.embargo ▸ Nat.le_add_right _ _
  simp [Range.Before, WalkForwardFold.train, WalkForwardFold.embargo, WalkForwardFold.test,
    hembargo]

/-- A walk-forward plan leaks nothing. -/
theorem planWalkForward_leakFree {eventCount : ℕ} {config : WalkForwardConfig}
    {plan : WalkForwardPlan} (h : planWalkForward eventCount config = .ok plan) :
    plan.LeakFree config ∧ plan.holdoutStart + config.holdoutEvents = eventCount := by
  unfold planWalkForward at h
  dsimp only at h
  split_ifs at h with hzero hholdout htrain hempty
  cases h
  obtain ⟨hfits, hpairs⟩ := foldsFrom_ordered config (not_or.mp hzero).2
    (eventCount - config.holdoutEvents) 0 le_rfl
  exact ⟨⟨fun f hf => (hfits f hf).2, fun f hf => (hfits f hf).2.ordered, hpairs⟩,
    Nat.sub_add_cancel (not_lt.mp hholdout)⟩

/-! ## Combinatorial purged cross-validation -/

structure CpcvConfig where
  groups : ℕ
  testGroups : ℕ
  embargoEvents : ℕ
  holdoutEvents : ℕ
  deriving Repr, DecidableEq

structure CpcvSplit where
  trainRanges : List Range
  testRanges : List Range
  deriving Repr, DecidableEq

inductive CpcvError where
  | invalidConfig
  | insufficientEvents
  deriving Repr, DecidableEq

section Plan

-- The sum of two indices: `none` where the build stops at it.
variable (add : ℕ → ℕ → Option ℕ)

/-- One more bound: the first `remainder` groups are one longer than `base`. -/
def pushBound (base remainder : ℕ) (bounds : List ℕ) (group : ℕ) : Option (List ℕ) := do
  let width ← add base (if group < remainder then 1 else 0)
  let bound ← add (← bounds[group]?) width
  pure (bounds ++ [bound])

/-- The bounds of the groups. -/
def groupBounds (groups base remainder : ℕ) : Option (List ℕ) :=
  (List.range groups).foldlM (pushBound add base remainder) [0]

/-- The selections that extend `selected` by `remaining` groups from `next` on. -/
def chooseCpcv (groups : ℕ) : ℕ → ℕ → List ℕ → Option (List (List ℕ))
  | 0, _, selected => some [selected]
  | remaining + 1, next, selected => do
    let chosen ← (List.range' next (groups - (remaining + 1) + 1 - next)).mapM fun group => do
      chooseCpcv groups remaining (← add group 1) (selected ++ [group])
    pure chosen.flatten

/-- The sweep over the test ranges from `cursor` on, which leaves the training ranges. -/
def purge (embargoEvents usable : ℕ) : List Range → ℕ → Option (List Range)
  | [], cursor => some (if cursor < usable then [⟨cursor, usable⟩] else [])
  | test :: tests, cursor => do
    let start := test.start - embargoEvents
    let stop := min (← add test.stop embargoEvents) usable
    let later ← purge embargoEvents usable tests (max cursor stop)
    pure ((if cursor < start then [⟨cursor, start⟩] else []) ++ later)

/-- The range of a group, between its bounds. -/
def testRange (bounds : List ℕ) (group : ℕ) : Option Range := do
  pure ⟨← bounds[group]?, ← bounds[← add group 1]?⟩

/-- The split of one selection. -/
def cpcvSplit (bounds : List ℕ) (embargoEvents usable : ℕ) (selected : List ℕ) :
    Option CpcvSplit := do
  let testRanges ← selected.mapM (testRange add bounds)
  let testRanges := testRanges.insertionSort (·.start ≤ ·.start)
  let trainRanges ← purge add embargoEvents usable testRanges 0
  pure ⟨trainRanges, testRanges⟩

/-- All splits of a tape; `none` where the build stops. -/
def planCpcv (eventCount : ℕ) (config : CpcvConfig) :
    Option (Except CpcvError (List CpcvSplit)) :=
  if config.groups = 0 ∨ config.testGroups = 0 ∨ config.groups < config.testGroups then
    some (.error .invalidConfig)
  else if eventCount < config.holdoutEvents then some (.error .insufficientEvents)
  else
    let usable := eventCount - config.holdoutEvents
    if usable < config.groups then some (.error .insufficientEvents)
    else do
      let _capacity ← add config.groups 1
      let bounds ←
        groupBounds add config.groups (usable / config.groups) (usable % config.groups)
      let combinations ← chooseCpcv add config.groups config.testGroups 0 []
      let splits ← combinations.mapM (cpcvSplit add bounds config.embargoEvents usable)
      pure (.ok splits)

end Plan

/-- The splits leak nothing: there is one for every selection of test groups, and an index is in
one training range if it is usable and clear of the embargo around each test range, and in none
otherwise. -/
structure LeakFreeSplits (config : CpcvConfig) (usable : ℕ) (splits : List CpcvSplit) : Prop where
  number : splits.length = config.groups.choose config.testGroups
  distinct : (splits.map (·.testRanges)).Nodup
  selections : ∃ groups : List Range,
    groups.length = config.groups ∧ groups.Pairwise Range.Before ∧
      (∀ i, count groups i = if i < usable then 1 else 0) ∧
      ∀ s ∈ splits, s.testRanges.Sublist groups ∧ s.testRanges.length = config.testGroups
  purged : ∀ s ∈ splits, ∀ i,
    count s.trainRanges i =
      if i < usable ∧ ∀ t ∈ s.testRanges,
          ¬ (t.start ≤ i + config.embargoEvents ∧ i < t.stop + config.embargoEvents)
      then 1 else 0

/-- The bounds of even groups, the first of which take the remainder. -/
def groupBound (usable groups group : ℕ) : ℕ :=
  group * (usable / groups) + min group (usable % groups)

/-- The range of a group. -/
def groupRange (usable groups group : ℕ) : Range :=
  ⟨groupBound usable groups group, groupBound usable groups (group + 1)⟩

/-- What a test range and its embargo take away from the training ranges. -/
def zone (embargoEvents usable : ℕ) (test : Range) : Range :=
  ⟨test.start - embargoEvents, min (test.stop + embargoEvents) usable⟩

/-- The selections of `remaining` groups from `next` on, in the order they are chosen. -/
def picks (groups : ℕ) : ℕ → ℕ → List (List ℕ)
  | 0, _ => [[]]
  | remaining + 1, next =>
    (List.range' next (groups - (remaining + 1) + 1 - next)).flatMap fun group =>
      (picks groups remaining (group + 1)).map (group :: ·)

/-- The split of a selection. -/
def splitOf (config : CpcvConfig) (usable : ℕ) (selected : List ℕ) : CpcvSplit :=
  let testRanges := selected.map (groupRange usable config.groups)
  ⟨gaps usable (testRanges.map (zone config.embargoEvents usable)) 0, testRanges⟩

section Bounds

variable {usable groups : ℕ}

theorem groupBound_zero : groupBound usable groups 0 = 0 := by simp [groupBound]

theorem groupBound_succ (group : ℕ) :
    groupBound usable groups (group + 1) =
      groupBound usable groups group +
        (usable / groups + if group < usable % groups then 1 else 0) := by
  have hmin : min (group + 1) (usable % groups) =
      min group (usable % groups) + if group < usable % groups then 1 else 0 := by
    split_ifs <;> omega
  unfold groupBound
  rw [hmin, Nat.succ_mul]
  omega

theorem groupBound_groups (hgroups : 0 < groups) : groupBound usable groups groups = usable := by
  rw [groupBound, min_eq_right (Nat.mod_lt _ hgroups).le]
  exact Nat.div_add_mod usable groups

theorem groupBound_strictMono (hgroups : 0 < groups) (h : groups ≤ usable) :
    StrictMono (groupBound usable groups) := by
  refine strictMono_nat_of_lt_succ fun group => ?_
  have hbase : 0 < usable / groups := Nat.div_pos h hgroups
  rw [groupBound_succ]
  omega

theorem groupRange_injective (hgroups : 0 < groups) (h : groups ≤ usable) :
    Function.Injective (groupRange usable groups) := fun _ _ hij =>
  (groupBound_strictMono hgroups h).injective (congrArg Range.start hij)

/-- The groups before a bound tile the indices below it. -/
theorem count_groupRanges (hgroups : 0 < groups) (h : groups ≤ usable) (n i : ℕ) :
    count ((List.range n).map (groupRange usable groups)) i =
      if i < groupBound usable groups n then 1 else 0 := by
  induction n with
  | zero => simp [count, groupBound_zero]
  | succ n ih =>
    have hlt := groupBound_strictMono hgroups h (Nat.lt_add_one n)
    have hlast : count [groupRange usable groups n] i =
        if groupBound usable groups n ≤ i ∧ i < groupBound usable groups (n + 1) then 1 else 0 := by
      rw [← count_if, if_pos hlt]
      rfl
    rw [List.range_succ, List.map_append, count_append, ih, List.map_singleton, hlast]
    split_ifs <;> omega

theorem groupRanges_before (hgroups : 0 < groups) (h : groups ≤ usable) {selected : List ℕ}
    (hsorted : selected.Pairwise (· < ·)) :
    (selected.map (groupRange usable groups)).Pairwise Range.Before := by
  refine List.pairwise_map.mpr (hsorted.imp fun {i j} hij => ?_)
  exact (groupBound_strictMono hgroups h).monotone hij

end Bounds

/-- The selections are those of the sublists of the groups left. -/
theorem picks_perm {groups remaining next : ℕ} (h : next + remaining ≤ groups) :
    (picks groups remaining next).Perm
      ((List.range' next (groups - next)).sublistsLen remaining) := by
  induction remaining generalizing next with
  | zero =>
    rw [List.sublistsLen_zero]
    exact List.Perm.refl _
  | succ remaining ih =>
    obtain ⟨m, rfl⟩ : ∃ m, groups = next + m + remaining := ⟨groups - next - remaining, by omega⟩
    have hcount : next + m + remaining - (remaining + 1) + 1 - next = m := by omega
    have hleft : next + m + remaining - next = m + remaining := by omega
    rw [picks, hcount, hleft]
    refine (List.Perm.flatMap_left _ fun group hgroup => ?_).trans
      (tails_perm_sublistsLen remaining next m)
    obtain ⟨hnext, hm⟩ := List.mem_range'_1.mp hgroup
    exact (ih (by omega)).map _

section Exact

variable {add : ℕ → ℕ → Option ℕ} (hadd : ∀ x y, x + y < 2 ^ 64 → add x y = some (x + y))
include hadd

theorem groupBounds_eq {usable groups : ℕ} (hgroups : 0 < groups) (h : groups ≤ usable)
    (hfits : usable < 2 ^ 64) :
    groupBounds add groups (usable / groups) (usable % groups) =
      some ((List.range (groups + 1)).map (groupBound usable groups)) := by
  have hmono := groupBound_strictMono hgroups h
  have hprefix : ∀ n ≤ groups,
      (List.range n).foldlM (pushBound add (usable / groups) (usable % groups)) [0] =
        some ((List.range (n + 1)).map (groupBound usable groups)) := by
    intro n hn
    induction n with
    | zero => simp [groupBound_zero]
    | succ n ih =>
      have hle : groupBound usable groups (n + 1) ≤ usable :=
        (hmono.monotone hn).trans (groupBound_groups hgroups).le
      have hsucc : groupBound usable groups (n + 1) = _ := groupBound_succ n
      have hget : ((List.range (n + 1)).map (groupBound usable groups))[n]? =
          some (groupBound usable groups n) := by simp
      have hpush : pushBound add (usable / groups) (usable % groups)
          ((List.range (n + 1)).map (groupBound usable groups)) n =
          some ((List.range (n + 1 + 1)).map (groupBound usable groups)) := by
        rw [List.range_succ (n := n + 1), List.map_append, List.map_singleton, hsucc, pushBound,
          hadd _ _ (by omega), hget]
        simp only [Option.bind_eq_bind, Option.bind_some]
        rw [hadd _ _ (by omega)]
        rfl
      rw [List.range_succ, List.foldlM_append, ih (by omega), Option.bind_eq_bind,
        Option.bind_some, List.foldlM_cons, hpush]
      rfl
  exact hprefix groups le_rfl

theorem chooseCpcv_eq {groups : ℕ} (hfits : groups < 2 ^ 64) (remaining next : ℕ)
    (selected : List ℕ) :
    chooseCpcv add groups remaining next selected =
      some ((picks groups remaining next).map (selected ++ ·)) := by
  induction remaining generalizing next selected with
  | zero => simp [chooseCpcv, picks]
  | succ remaining ih =>
    rw [chooseCpcv, mapM_eq_some (g := fun group =>
      (picks groups remaining (group + 1)).map ((selected ++ [group]) ++ ·))]
    · simp [picks, List.flatMap, List.map_flatten, Function.comp_def]
    · intro group hgroup
      obtain ⟨hnext, hlt⟩ := List.mem_range'_1.mp hgroup
      rw [hadd _ _ (by omega)]
      exact ih (group + 1) (selected ++ [group])

theorem purge_eq {embargoEvents usable : ℕ} {tests : List Range}
    (hfits : ∀ t ∈ tests, t.stop + embargoEvents < 2 ^ 64) (cursor : ℕ) :
    purge add embargoEvents usable tests cursor =
      some (gaps usable (tests.map (zone embargoEvents usable)) cursor) := by
  induction tests generalizing cursor with
  | nil => rfl
  | cons test tests ih =>
    obtain ⟨htest, hfits⟩ := List.forall_mem_cons.mp hfits
    simp only [purge, hadd _ _ htest, Option.bind_eq_bind, Option.bind_some, ih hfits]
    rfl

theorem testRange_eq {usable groups group : ℕ} (hgroup : group < groups)
    (hgroups : groups < 2 ^ 64) :
    testRange add ((List.range (groups + 1)).map (groupBound usable groups)) group =
      some (groupRange usable groups group) := by
  have hget : ∀ i ≤ groups, ((List.range (groups + 1)).map (groupBound usable groups))[i]? =
      some (groupBound usable groups i) := fun i hi => by simp [Nat.lt_succ_of_le hi]
  simp only [testRange, hget group hgroup.le, hadd group 1 (by omega), hget (group + 1) hgroup,
    Option.bind_eq_bind, Option.bind_some]
  rfl

/-- The split of a selection of groups. -/
theorem cpcvSplit_eq {config : CpcvConfig} {usable : ℕ} (hgroups : 0 < config.groups)
    (h : config.groups ≤ usable) (hfits : usable + config.embargoEvents < 2 ^ 64)
    {selected : List ℕ} (hselected : selected.Sublist (List.range config.groups)) :
    cpcvSplit add ((List.range (config.groups + 1)).map (groupBound usable config.groups))
      config.embargoEvents usable selected = some (splitOf config usable selected) := by
  have hlt : ∀ group ∈ selected, group < config.groups := fun group hgroup =>
    List.mem_range.mp (hselected.subset hgroup)
  have htests : selected.mapM (testRange add
      ((List.range (config.groups + 1)).map (groupBound usable config.groups))) =
      some (selected.map (groupRange usable config.groups)) :=
    mapM_eq_some fun group hgroup => testRange_eq hadd (hlt group hgroup) (by omega)
  have hsorted : (selected.map (groupRange usable config.groups)).Pairwise
      (fun s t => s.start ≤ t.start) :=
    List.pairwise_map.mpr ((List.pairwise_lt_range.sublist hselected).imp fun {i j} hij =>
      (groupBound_strictMono hgroups h).monotone (le_of_lt hij))
  have hstops : ∀ t ∈ selected.map (groupRange usable config.groups),
      t.stop + config.embargoEvents < 2 ^ 64 := by
    intro t ht
    obtain ⟨group, hgroup, rfl⟩ := List.mem_map.mp ht
    have hle := (groupBound_strictMono hgroups h).monotone (hlt group hgroup)
    rw [groupBound_groups hgroups] at hle
    exact lt_of_le_of_lt (Nat.add_le_add_right hle _) hfits
  unfold cpcvSplit
  simp only [htests, Option.bind_eq_bind, Option.bind_some, hsorted.insertionSort_eq,
    purge_eq hadd hstops]
  rfl

end Exact

/-- The dimensions of a plan that the planner accepts. -/
structure CpcvConfig.Plans (config : CpcvConfig) (eventCount : ℕ) : Prop where
  testGroups : 0 < config.testGroups
  groups : config.testGroups ≤ config.groups
  holdout : config.holdoutEvents ≤ eventCount
  usable : config.groups ≤ eventCount - config.holdoutEvents

/-- The planner refuses the other dimensions before it adds anything. -/
theorem planCpcv_of_plans (add : ℕ → ℕ → Option ℕ) {eventCount : ℕ} {config : CpcvConfig}
    (h : config.Plans eventCount) :
    planCpcv add eventCount config = (do
      let usable := eventCount - config.holdoutEvents
      let _capacity ← add config.groups 1
      let bounds ←
        groupBounds add config.groups (usable / config.groups) (usable % config.groups)
      let combinations ← chooseCpcv add config.groups config.testGroups 0 []
      let splits ← combinations.mapM (cpcvSplit add bounds config.embargoEvents usable)
      pure (.ok splits)) := by
  obtain ⟨htest, hgroups, hholdout, husable⟩ := h
  unfold planCpcv
  dsimp only
  rw [if_neg (by omega), if_neg (by omega), if_neg (by omega)]

theorem planCpcv_plans {add : ℕ → ℕ → Option ℕ} {eventCount : ℕ} {config : CpcvConfig}
    {splits : List CpcvSplit} (h : planCpcv add eventCount config = some (.ok splits)) :
    config.Plans eventCount := by
  unfold planCpcv at h
  dsimp only at h
  split_ifs at h with hconfig hholdout husable
  · cases h
  · cases h
  · cases h
  · exact ⟨by omega, by omega, by omega, by omega⟩

/-- No sum of indices passes 64 bits. -/
structure CpcvConfig.Fits (config : CpcvConfig) (eventCount : ℕ) : Prop where
  stops : eventCount - config.holdoutEvents + config.embargoEvents < 2 ^ 64
  capacity : config.groups + 1 < 2 ^ 64

/-- The selections of a plan. -/
def CpcvConfig.selections (config : CpcvConfig) : List (List ℕ) :=
  picks config.groups config.testGroups 0

namespace CpcvConfig.Plans

variable {config : CpcvConfig} {eventCount : ℕ} (hplans : config.Plans eventCount)
include hplans

theorem groups_pos : 0 < config.groups := hplans.testGroups.trans_le hplans.groups

theorem selections_perm :
    config.selections.Perm ((List.range config.groups).sublistsLen config.testGroups) := by
  have h := picks_perm ((Nat.zero_add config.testGroups).trans_le hplans.groups)
  rwa [Nat.sub_zero, ← List.range_eq_range'] at h

theorem mem_selections {selected : List ℕ} :
    selected ∈ config.selections ↔
      selected.Sublist (List.range config.groups) ∧ selected.length = config.testGroups := by
  rw [hplans.selections_perm.mem_iff, List.mem_sublistsLen]

theorem selections_nodup : config.selections.Nodup :=
  hplans.selections_perm.nodup_iff.mpr (List.nodup_sublistsLen _ List.nodup_range)

section Exact

variable {add : ℕ → ℕ → Option ℕ} (hadd : ∀ x y, x + y < 2 ^ 64 → add x y = some (x + y))
include hadd

omit hplans in
theorem chooseCpcv_selections (h : config.groups < 2 ^ 64) :
    chooseCpcv add config.groups config.testGroups 0 [] = some config.selections := by
  rw [chooseCpcv_eq hadd h]
  simp [CpcvConfig.selections]

/-- The plan where no sum of indices passes 64 bits. -/
theorem planCpcv_eq (hfits : config.Fits eventCount) :
    planCpcv add eventCount config =
      some (.ok (config.selections.map
        (splitOf config (eventCount - config.holdoutEvents)))) := by
  have hgroups : config.groups < 2 ^ 64 := (Nat.le_succ _).trans_lt hfits.capacity
  have husable : eventCount - config.holdoutEvents < 2 ^ 64 :=
    (Nat.le_add_right _ _).trans_lt hfits.stops
  have hsplits : config.selections.mapM
      (cpcvSplit add ((List.range (config.groups + 1)).map
        (groupBound (eventCount - config.holdoutEvents) config.groups))
        config.embargoEvents (eventCount - config.holdoutEvents)) =
      some (config.selections.map (splitOf config (eventCount - config.holdoutEvents))) :=
    mapM_eq_some fun selected hselected =>
      cpcvSplit_eq hadd hplans.groups_pos hplans.usable hfits.stops
        (hplans.mem_selections.mp hselected).1
  rw [planCpcv_of_plans add hplans]
  simp only [hadd _ _ hfits.capacity, groupBounds_eq hadd hplans.groups_pos hplans.usable husable,
    chooseCpcv_selections hadd hgroups, hsplits, Option.bind_eq_bind, Option.bind_some]
  rfl

end Exact

omit hplans in
/-- The training ranges hold what is usable and clear of the embargo around the test ranges. -/
theorem count_trainRanges {embargoEvents usable : ℕ} {tests : List Range}
    (hsorted : tests.Pairwise (fun s t => s.start ≤ t.start))
    (htests : ∀ t ∈ tests, t.start ≤ t.stop ∧ t.stop ≤ usable) (i : ℕ) :
    count (gaps usable (tests.map (zone embargoEvents usable)) 0) i =
      if i < usable ∧ ∀ t ∈ tests,
          ¬ (t.start ≤ i + embargoEvents ∧ i < t.stop + embargoEvents)
      then 1 else 0 := by
  have hzones : ∀ z ∈ tests.map (zone embargoEvents usable),
      z.start ≤ z.stop ∧ z.start ≤ usable := by
    intro z hz
    obtain ⟨t, ht, rfl⟩ := List.mem_map.mp hz
    have hle := htests t ht
    simp only [zone]
    omega
  have hstarts : (tests.map (zone embargoEvents usable)).Pairwise
      (fun y z => y.start ≤ z.start) :=
    List.pairwise_map.mpr (hsorted.imp fun hst => Nat.sub_le_sub_right hst _)
  have hfree : (0 ≤ i ∧ i < usable ∧
      ∀ z ∈ tests.map (zone embargoEvents usable), ¬ z.Has i) ↔
      i < usable ∧ ∀ t ∈ tests,
        ¬ (t.start ≤ i + embargoEvents ∧ i < t.stop + embargoEvents) := by
    rw [and_iff_right (Nat.zero_le i), List.forall_mem_map]
    refine and_congr_right fun hi => forall₂_congr fun t ht => not_congr ?_
    simp only [zone, Range.Has]
    omega
  rw [count_gaps hstarts hzones]
  simp only [hfree]

/-- **A plan leaks nothing.** -/
theorem leakFree :
    LeakFreeSplits config (eventCount - config.holdoutEvents)
      (config.selections.map (splitOf config (eventCount - config.holdoutEvents))) := by
  set usable := eventCount - config.holdoutEvents with husable
  have hpos := hplans.groups_pos
  have hmono := groupBound_strictMono hpos hplans.usable
  have hsublist : ∀ selected ∈ config.selections, selected.Sublist (List.range config.groups) :=
    fun selected h => (hplans.mem_selections.mp h).1
  constructor
  case number =>
    rw [List.length_map, hplans.selections_perm.length_eq, List.length_sublistsLen,
      List.length_range]
  case distinct =>
    rw [List.map_map]
    exact hplans.selections_nodup.map
      (List.map_injective_iff.mpr (groupRange_injective hpos hplans.usable))
  case selections =>
    refine ⟨(List.range config.groups).map (groupRange usable config.groups), by simp,
      groupRanges_before hpos hplans.usable List.pairwise_lt_range, fun i => ?_, ?_⟩
    · rw [count_groupRanges hpos hplans.usable, groupBound_groups hpos]
    · intro s hs
      obtain ⟨selected, hselected, rfl⟩ := List.mem_map.mp hs
      refine ⟨(hsublist selected hselected).map _, ?_⟩
      rw [← (hplans.mem_selections.mp hselected).2]
      exact List.length_map _
  case purged =>
    intro s hs i
    obtain ⟨selected, hselected, rfl⟩ := List.mem_map.mp hs
    have hsorted := List.pairwise_lt_range.sublist (hsublist selected hselected)
    refine count_trainRanges ?_ ?_ i
    · exact List.pairwise_map.mpr (hsorted.imp fun hij => hmono.monotone (le_of_lt hij))
    · intro t ht
      obtain ⟨group, hgroup, rfl⟩ := List.mem_map.mp ht
      have hlt := List.mem_range.mp ((hsublist selected hselected).subset hgroup)
      have hstop : groupBound usable config.groups (group + 1) ≤ usable :=
        (hmono.monotone hlt).trans (groupBound_groups hpos).le
      exact ⟨hmono.monotone (Nat.le_succ group), hstop⟩

/-- The selection of the last groups ends at the last usable index. -/
theorem exists_last_stop :
    ∃ selected ∈ config.selections, ∃ group ∈ selected,
      (groupRange (eventCount - config.holdoutEvents) config.groups group).stop =
        eventCount - config.holdoutEvents := by
  obtain ⟨htest, hgroups⟩ := (⟨hplans.testGroups, hplans.groups⟩ : _ ∧ _)
  refine ⟨(List.range config.groups).drop (config.groups - config.testGroups),
    hplans.mem_selections.mpr ⟨List.drop_sublist _ _, ?_⟩, config.groups - 1, ?_, ?_⟩
  · rw [List.length_drop, List.length_range]
    omega
  · refine List.mem_iff_getElem?.mpr ⟨config.testGroups - 1, ?_⟩
    rw [List.getElem?_drop, List.getElem?_range (by omega)]
    exact congrArg some (by omega)
  · show groupBound _ _ (config.groups - 1 + 1) = _
    rw [Nat.sub_add_cancel hplans.groups_pos, groupBound_groups hplans.groups_pos]

end CpcvConfig.Plans

/-! ## Overflow -/

theorem checkedAdd_of_lt {x y : ℕ} (h : x + y < 2 ^ 64) : checkedAdd x y = some (x + y) :=
  if_pos h

theorem wrappingAdd_of_lt {x y : ℕ} (h : x + y < 2 ^ 64) : wrappingAdd x y = some (x + y) :=
  congrArg some (Nat.mod_eq_of_lt h)

theorem exists_of_mapM_eq_some {α β : Type} {f : α → Option β} {l : List α} {r : List β}
    (h : l.mapM f = some r) : ∀ a ∈ l, ∃ b ∈ r, f a = some b := by
  induction l generalizing r with
  | nil => exact fun a ha => absurd ha List.not_mem_nil
  | cons a l ih =>
    rw [List.mapM_cons, Option.bind_eq_bind] at h
    obtain ⟨b, ha, h⟩ := Option.bind_eq_some_iff.mp h
    obtain ⟨s, hl, h⟩ := Option.bind_eq_some_iff.mp h
    cases h
    refine List.forall_mem_cons.mpr ⟨⟨b, List.mem_cons_self, ha⟩, fun a' ha' => ?_⟩
    obtain ⟨b', hb', hfa'⟩ := ih hl a' ha'
    exact ⟨b', List.mem_cons_of_mem b hb', hfa'⟩

theorem stops_of_purge {embargoEvents usable cursor : ℕ} {tests trains : List Range}
    (h : purge checkedAdd embargoEvents usable tests cursor = some trains) :
    ∀ t ∈ tests, t.stop + embargoEvents < 2 ^ 64 := by
  induction tests generalizing cursor trains with
  | nil => exact fun t ht => absurd ht List.not_mem_nil
  | cons test tests ih =>
    simp only [purge, Option.bind_eq_bind] at h
    obtain ⟨stop, hstop, h⟩ := Option.bind_eq_some_iff.mp h
    obtain ⟨later, hlater, -⟩ := Option.bind_eq_some_iff.mp h
    exact List.forall_mem_cons.mpr ⟨(checkedAdd_eq_some.mp hstop).1, ih hlater⟩

theorem stops_of_cpcvSplit {bounds selected : List ℕ} {embargoEvents usable : ℕ}
    {split : CpcvSplit}
    (h : cpcvSplit checkedAdd bounds embargoEvents usable selected = some split) :
    ∀ group ∈ selected, ∃ t, testRange checkedAdd bounds group = some t ∧
      t.stop + embargoEvents < 2 ^ 64 := by
  simp only [cpcvSplit, Option.bind_eq_bind] at h
  obtain ⟨tests, htests, h⟩ := Option.bind_eq_some_iff.mp h
  obtain ⟨trains, htrains, -⟩ := Option.bind_eq_some_iff.mp h
  intro group hgroup
  obtain ⟨t, ht, htest⟩ := exists_of_mapM_eq_some htests group hgroup
  exact ⟨t, htest, stops_of_purge htrains t ((List.mem_insertionSort _).mpr ht)⟩

/-- A build that stops at an overflow plans only where there is none. -/
theorem CpcvConfig.Plans.fits_of_checked {config : CpcvConfig} {eventCount : ℕ}
    (hplans : config.Plans eventCount) (hcount : eventCount < 2 ^ 64)
    {plan : Except CpcvError (List CpcvSplit)}
    (h : planCpcv checkedAdd eventCount config = some plan) : config.Fits eventCount := by
  have hadd : ∀ x y, x + y < 2 ^ 64 → checkedAdd x y = some (x + y) :=
    fun _ _ => checkedAdd_of_lt
  rw [planCpcv_of_plans _ hplans] at h
  simp only [Option.bind_eq_bind] at h
  obtain ⟨capacity, hcapacity, h⟩ := Option.bind_eq_some_iff.mp h
  have hcapacity := (checkedAdd_eq_some.mp hcapacity).1
  rw [groupBounds_eq hadd hplans.groups_pos hplans.usable ((Nat.sub_le _ _).trans_lt hcount),
    CpcvConfig.Plans.chooseCpcv_selections hadd ((Nat.le_succ _).trans_lt hcapacity), Option.bind_some,
    Option.bind_some] at h
  obtain ⟨splits, hsplits, -⟩ := Option.bind_eq_some_iff.mp h
  obtain ⟨selected, hselected, group, hgroup, hstop⟩ := hplans.exists_last_stop
  obtain ⟨split, -, hsplit⟩ := exists_of_mapM_eq_some hsplits selected hselected
  obtain ⟨t, ht, hlt⟩ := stops_of_cpcvSplit hsplit group hgroup
  have hgroup := List.mem_range.mp ((hplans.mem_selections.mp hselected).1.subset hgroup)
  rw [testRange_eq hadd hgroup ((Nat.le_succ _).trans_lt hcapacity)] at ht
  cases ht
  exact ⟨hstop ▸ hlt, hcapacity⟩

/-- **Research folds never leak.** A walk-forward plan never does; a combinatorial plan has no
leak and computes no sum beyond 64 bits exactly where the usable events and an embargo together
fit in 64 bits, and so do the bounds of the groups. -/
theorem researchFolds_leakFree_iff {eventCount : ℕ} (hcount : eventCount < 2 ^ 64) :
    (∀ config plan, planWalkForward eventCount config = .ok plan →
      plan.LeakFree config ∧ plan.holdoutStart + config.holdoutEvents = eventCount) ∧
    ∀ config splits, planCpcv wrappingAdd eventCount config = some (.ok splits) →
      ((LeakFreeSplits config (eventCount - config.holdoutEvents) splits ∧
          ∃ plan, planCpcv checkedAdd eventCount config = some plan) ↔
        config.Fits eventCount) := by
  refine ⟨fun config plan => planWalkForward_leakFree, fun config splits h => ?_⟩
  have hplans := planCpcv_plans h
  constructor
  · rintro ⟨-, plan, hplan⟩
    exact hplans.fits_of_checked hcount hplan
  · intro hfits
    rw [hplans.planCpcv_eq (fun _ _ => wrappingAdd_of_lt) hfits] at h
    cases h
    exact ⟨hplans.leakFree, _, hplans.planCpcv_eq (fun _ _ => checkedAdd_of_lt) hfits⟩

theorem researchFolds_leakFree_three :
    LeakFreeSplits ⟨3, 2, 1, 2⟩ 9 [⟨[⟨7, 9⟩], [⟨0, 3⟩, ⟨3, 6⟩]⟩,
      ⟨[⟨4, 5⟩], [⟨0, 3⟩, ⟨6, 9⟩]⟩, ⟨[⟨0, 2⟩], [⟨3, 6⟩, ⟨6, 9⟩]⟩] :=
  (((researchFolds_leakFree_iff (show (11 : ℕ) < 2 ^ 64 by decide)).2 ⟨3, 2, 1, 2⟩ _ rfl).mpr
    ⟨by decide, by decide⟩).1

/-- With an embargo of all of 64 bits, the sum behind a test range wraps and the range is
trained on. -/
theorem embargo_wraps_into_training :
    ∃ splits, planCpcv wrappingAdd 2 ⟨2, 1, 2 ^ 64 - 1, 0⟩ = some (.ok splits) ∧
      ⟨[⟨0, 2⟩], [⟨0, 1⟩]⟩ ∈ splits ∧ ¬ LeakFreeSplits ⟨2, 1, 2 ^ 64 - 1, 0⟩ 2 splits := by
  refine ⟨_, rfl, List.mem_cons_self, fun h => ?_⟩
  have hcount := h.purged _ List.mem_cons_self 0
  exact absurd hcount (by decide)

end InsiderTrader
