import InsiderTrader.ConflictReport
import Mathlib.Data.List.Forall2

/-!
# Budgets of strategies

Budgets are spent by the identity that an accepted proposal carries. A proposal
that is accepted as it is carries its strategy; a netted one carries the identity
of netting, and spends no budget of the strategies it stems from.

## Main definitions

- `Coordinator.stems` — an accepted proposal stems from a strategy
- `Coordinator.Bounded` — what the budgets promise of a resolution
- `Affords` — the budgets suffice for what is netted

## Main results

- `spent_applyBudgets_le` — what carries an identity stays within its budget
- `resolution_bounded_iff` — the resolutions that stay within the budgets
-/

namespace InsiderTrader

open MachineInt

/-- The ticks that an action moves, without their sign. -/
def Action.magnitude (action : Action) : ℕ := (action.budgeted.getD 0).natAbs

/-- Amounts, each cut to what those before it have left. -/
def upTo : ℕ → List ℕ → List ℕ
  | _, [] => []
  | left, m :: ms => min m left :: upTo (left - min m left) ms

/-- Budgets are positive, and fit 64 bits. -/
def Budgets (remaining : Std.TreeMap String Int) : Prop :=
  ∀ (strategy : String) (budget : Int), remaining[strategy]? = some budget →
    0 < budget ∧ budget < 2 ^ 63

/-- What is left of budgets. -/
def Leftover (remaining : Std.TreeMap String Int) : Prop :=
  ∀ (strategy : String) (budget : Int), remaining[strategy]? = some budget →
    0 ≤ budget ∧ budget < 2 ^ 63

/-- The same proposal, apart from the ticks. -/
def Resized (p q : Proposal) : Prop := q = { p with action := q.action }

-- One proposal

theorem budgeted_boundedAction {action : Action} {requested : Int}
    (h : action.budgeted = some requested) (bounded : Int) :
    (boundedAction action bounded).budgeted = some bounded := by
  cases action <;> first | rfl | cases h

theorem Resized.refl (p : Proposal) : Resized p p := rfl

variable {remaining : Std.TreeMap String Int} {p : Proposal} {available requested : Int}

/-- A proposal without a budget, or without a quantity, stays as it is. -/
theorem applyBudget_of_none (h : remaining[p.strategyId]? = none ∨ p.action.budgeted = none) :
    applyBudget remaining p = (p, remaining, []) := by
  unfold applyBudget
  split
  · next available requested hbudget hrequested =>
    obtain h | h := h
    · cases h.symm.trans hbudget
    · cases h.symm.trans hrequested
  · rfl

/-- A requested quantity, cut to a magnitude below it. -/
theorem natAbs_sign_mul {requested : Int} {cap : ℕ} (h : cap ≤ requested.natAbs) :
    (requested.sign * cap).natAbs = cap := by
  rw [Int.natAbs_mul, Int.natAbs_natCast]
  by_cases hzero : requested = 0
  · subst hzero
    simp at h
    simp [h]
  · rw [Int.natAbs_sign_of_ne_zero hzero, one_mul]

/-- **What one proposal spends** of its budget: its magnitude, cut to what is left. -/
theorem applyBudget_of_some (hleft : Leftover remaining)
    (hbudget : remaining[p.strategyId]? = some available)
    (hrequested : p.action.budgeted = some requested) :
    ∃ q adjustments, applyBudget remaining p = (q, remaining.insert p.strategyId
        (available - (min requested.natAbs available.toNat : ℕ)), adjustments) ∧
      Resized p q ∧ q.action.magnitude = min requested.natAbs available.toNat ∧
      ∀ e ∈ adjustments, q.proposalId = e.proposalId ∧
        q.action.budgeted = some e.afterQuantityTicks := by
  obtain ⟨hnonneg, hlt⟩ := hleft _ _ hbudget
  have hcap : min requested.natAbs available.natAbs = min requested.natAbs available.toNat := by
    omega
  generalize hm : min requested.natAbs available.toNat = cap at hcap ⊢
  have hfits : cap ≤ 2 ^ 63 - 1 := by omega
  have hsize : (requested.sign * cap).natAbs = cap := natAbs_sign_mul (by omega)
  have hnarrow : narrow 64 (requested.sign * cap) = some (requested.sign * cap) :=
    narrow_of_fits (fits_64_iff.mpr (by omega))
  have hsub : saturatingSub available (min cap (2 ^ 63 - 1)) = available - cap := by
    unfold saturatingSub
    omega
  unfold applyBudget
  rw [hbudget, hrequested]
  dsimp only
  rw [hcap, if_pos hfits, hnarrow, Option.getD_some, hsub]
  by_cases hsame : requested.sign * cap = requested
  · rw [if_pos hsame]
    refine ⟨p, [], rfl, .refl p, ?_, fun e he => by cases he⟩
    rw [Action.magnitude, hrequested, Option.getD_some, ← hsame, hsize]
  · rw [if_neg hsame]
    refine ⟨_, _, rfl, rfl, ?_, fun e he => ?_⟩
    · rw [Action.magnitude, budgeted_boundedAction hrequested, Option.getD_some, hsize]
    · rw [List.mem_singleton.mp he]
      exact ⟨rfl, budgeted_boundedAction hrequested _⟩

/-- What is left stays a leftover. -/
theorem Leftover.insert (hleft : Leftover remaining)
    (hbudget : remaining[p.strategyId]? = some available) (n : ℕ) (hn : n ≤ available.toNat) :
    Leftover (remaining.insert p.strategyId (available - n)) := by
  intro strategy budget hget
  obtain ⟨hnonneg, hlt⟩ := hleft _ _ hbudget
  rw [Std.TreeMap.getElem?_insert] at hget
  split at hget
  · cases hget
    omega
  · exact hleft _ _ hget

theorem Budgets.leftover (h : Budgets remaining) : Leftover remaining := fun strategy budget hget =>
  ⟨le_of_lt (h strategy budget hget).1, (h strategy budget hget).2⟩

theorem magnitude_of_none {action : Action} (h : action.budgeted = none) : action.magnitude = 0 := by
  rw [Action.magnitude, h]
  rfl

-- All proposals

theorem applyBudgets_cons {q : Proposal} {left : Std.TreeMap String Int}
    {adjustments : List BudgetAdjustment} (h : applyBudget remaining p = (q, left, adjustments))
    (ps : List Proposal) : applyBudgets remaining (p :: ps) =
      (q :: (applyBudgets left ps).1, adjustments ++ (applyBudgets left ps).2) := by
  rw [applyBudgets, h]

/-- Every proposal is kept, with its ticks at most changed, and every adjustment is that of a
proposal that is kept. -/
theorem applyBudgets_resized (hleft : Leftover remaining) (ps : List Proposal) :
    List.Forall₂ Resized ps (applyBudgets remaining ps).1 ∧
      ∀ e ∈ (applyBudgets remaining ps).2, ∃ q ∈ (applyBudgets remaining ps).1,
        q.proposalId = e.proposalId ∧ q.action.budgeted = some e.afterQuantityTicks := by
  induction ps generalizing remaining with
  | nil => exact ⟨.nil, fun e he => by cases he⟩
  | cons p ps ih =>
    cases hbudget : remaining[p.strategyId]? with
    | none =>
      obtain ⟨hall, hadjusted⟩ := ih hleft
      rw [applyBudgets_cons (applyBudget_of_none (.inl hbudget))]
      refine ⟨.cons (.refl p) hall, fun e he => ?_⟩
      obtain ⟨q, hq, he⟩ := hadjusted e he
      exact ⟨q, List.mem_cons_of_mem _ hq, he⟩
    | some available =>
      cases hrequested : p.action.budgeted with
      | none =>
        obtain ⟨hall, hadjusted⟩ := ih hleft
        rw [applyBudgets_cons (applyBudget_of_none (.inr hrequested))]
        refine ⟨.cons (.refl p) hall, fun e he => ?_⟩
        obtain ⟨q, hq, he⟩ := hadjusted e he
        exact ⟨q, List.mem_cons_of_mem _ hq, he⟩
      | some requested =>
        obtain ⟨q, adjustments, happly, hresized, -, hown⟩ :=
          applyBudget_of_some hleft hbudget hrequested
        obtain ⟨hall, hadjusted⟩ := ih (hleft.insert hbudget _ (min_le_right _ _))
        rw [applyBudgets_cons happly]
        refine ⟨.cons hresized hall, fun e he => ?_⟩
        obtain he | he := List.mem_append.mp he
        · exact ⟨q, List.mem_cons_self .., hown e he⟩
        · obtain ⟨q', hq', he⟩ := hadjusted e he
          exact ⟨q', List.mem_cons_of_mem _ hq', he⟩

/-- The ticks of the proposals that carry an identity. -/
def spent (strategy : String) (ps : List Proposal) : ℕ :=
  ((ps.filter (·.strategyId = strategy)).map (·.action.magnitude)).sum

theorem spent_cons (strategy : String) (p : Proposal) (ps : List Proposal) :
    spent strategy (p :: ps) =
      (if p.strategyId = strategy then p.action.magnitude else 0) + spent strategy ps := by
  by_cases h : p.strategyId = strategy
  · simp [spent, h]
  · simp [spent, h]

theorem getElem?_insert_string (m : Std.TreeMap String Int) (k k' : String) (v : Int) :
    (m.insert k v)[k']? = if k = k' then some v else m[k']? := by
  simp [Std.TreeMap.getElem?_insert]

/-- **What carries an identity** stays within its budget. -/
theorem spent_applyBudgets_le (hleft : Leftover remaining) (ps : List Proposal) {strategy : String}
    {budget : Int} (hget : remaining[strategy]? = some budget) :
    (spent strategy (applyBudgets remaining ps).1 : Int) ≤ budget := by
  induction ps generalizing remaining budget with
  | nil => exact (hleft _ _ hget).1
  | cons p ps ih =>
    cases hbudget : remaining[p.strategyId]? with
    | none =>
      have hne : p.strategyId ≠ strategy := fun heq => by
        rw [heq, hget] at hbudget
        cases hbudget
      rw [applyBudgets_cons (applyBudget_of_none (.inl hbudget)), spent_cons, if_neg hne, Nat.zero_add]
      exact ih hleft hget
    | some available =>
      cases hrequested : p.action.budgeted with
      | none =>
        rw [applyBudgets_cons (applyBudget_of_none (.inr hrequested)), spent_cons,
          magnitude_of_none hrequested, ite_self, Nat.zero_add]
        exact ih hleft hget
      | some requested =>
        obtain ⟨q, adjustments, happly, hresized, hsize, -⟩ :=
          applyBudget_of_some hleft hbudget hrequested
        have hrest := hleft.insert hbudget (min requested.natAbs available.toNat) (min_le_right _ _)
        have hid : q.strategyId = p.strategyId := by rw [hresized]
        rw [applyBudgets_cons happly, spent_cons, hid, hsize]
        by_cases heq : p.strategyId = strategy
        · subst heq
          have hle := ih hrest (by rw [getElem?_insert_string, if_pos rfl])
          cases hget.symm.trans hbudget
          rw [if_pos rfl]
          omega
        · have hle := ih hrest (by rw [getElem?_insert_string, if_neg heq]; exact hget)
          rw [if_neg heq, Nat.zero_add]
          exact hle

/-- **Proposals of one identity** are cut in turn to what its budget has left. -/
theorem magnitudes_applyBudgets (hleft : Leftover remaining) {strategy : String}
    {ps : List Proposal} (hps : ∀ p ∈ ps, p.strategyId = strategy) :
    (applyBudgets remaining ps).1.map (·.action.magnitude) =
      match remaining[strategy]? with
      | none => ps.map (·.action.magnitude)
      | some budget => upTo budget.toNat (ps.map (·.action.magnitude)) := by
  induction ps generalizing remaining with
  | nil => cases remaining[strategy]? <;> rfl
  | cons p ps ih =>
    obtain ⟨rfl, hps⟩ := List.forall_mem_cons.mp hps
    cases hbudget : remaining[p.strategyId]? with
    | none =>
      have hrest := ih hleft hps
      rw [hbudget] at hrest
      rw [applyBudgets_cons (applyBudget_of_none (.inl hbudget)), List.map_cons, hrest]
      rfl
    | some available =>
      cases hrequested : p.action.budgeted with
      | none =>
        have hrest := ih hleft hps
        rw [hbudget] at hrest
        rw [applyBudgets_cons (applyBudget_of_none (.inr hrequested)), List.map_cons, hrest]
        simp [upTo, magnitude_of_none hrequested]
      | some requested =>
        obtain ⟨q, adjustments, happly, -, hsize, -⟩ :=
          applyBudget_of_some hleft hbudget hrequested
        have hrest := ih (hleft.insert hbudget (min requested.natAbs available.toNat)
          (min_le_right _ _)) hps
        rw [getElem?_insert_string, if_pos rfl] at hrest
        have hp : p.action.magnitude = requested.natAbs := by
          rw [Action.magnitude, hrequested]
          rfl
        have hsub : (available - (min requested.natAbs available.toNat : ℕ)).toNat =
            available.toNat - min requested.natAbs available.toNat := by omega
        rw [applyBudgets_cons happly, List.map_cons, hrest, hsize, List.map_cons]
        dsimp only
        rw [upTo, hp, hsub]

-- Resolutions

/-- Some of the proposals are of a strategy. -/
def involves (strategy : String) (ps : List Proposal) : Bool := ps.any (·.strategyId = strategy)

/-- What netting makes of each instrument: its proposals, and the magnitude of the net. -/
def netted (float : FloatArith) (ps : List Proposal) : List (List Proposal × ℕ) :=
  (groupByInstrument ps).toList.filterMap fun e =>
    (weightedNet float e.1 (e.2.mergeSort resolvesBefore)).map fun net =>
      (e.2, net.action.magnitude)

/-- The identity that a netted proposal carries. -/
def nettingIdentity : String := "coordinator.weighted_net.v1"

/-- The nets, cut to a budget of the netting identity. -/
def capped (budgets : Std.TreeMap String Int) (nets : List (List Proposal × ℕ)) :
    List (List Proposal × ℕ) :=
  match budgets[nettingIdentity]? with
  | none => nets
  | some budget => (nets.map (·.1)).zip (upTo budget.toNat (nets.map (·.2)))

/-- The nets of the instruments that a strategy has proposals for stay within its budget. -/
def Affords (float : FloatArith) (budgets : Std.TreeMap String Int) (ps : List Proposal) : Prop :=
  ∀ (strategy : String) (budget : Int), budgets[strategy]? = some budget →
    ((((capped budgets (netted float ps)).filter fun e => involves strategy e.1).map (·.2)).sum : ℕ)
      ≤ budget

namespace Coordinator

/-- The strategy of a proposal on record. -/
def strategyOf (c : Coordinator) (proposalId : ProposalId) : Option String :=
  (c.record proposalId).map (·.proposal.strategyId)

/-- The accepted proposal stems from a proposal of the strategy, by attribution. -/
def stems (c : Coordinator) (r : ResultSet) (strategy : String) (q : Proposal) : Bool :=
  r.attributions.any fun a => a.resultProposalId = q.proposalId &&
    a.sourceProposalIds.any fun id => c.strategyOf id = some strategy

/-- What stems from a strategy stays within its budget, and the adjustments are what was done. -/
structure Bounded (c : Coordinator) (budgets : Std.TreeMap String Int) (r : BudgetedResultSet) :
    Prop where
  within : ∀ (strategy : String) (budget : Int), budgets[strategy]? = some budget →
    (((r.result.accepted.filter (c.stems r.result strategy)).map (·.action.magnitude)).sum : ℕ)
      ≤ budget
  reported : ∀ e ∈ r.adjustments, ∃ q ∈ r.result.accepted, q.proposalId = e.proposalId ∧
    q.action.budgeted = some e.afterQuantityTicks

/-- Every pending proposal is on record as it is. -/
structure Filed (c : Coordinator) : Prop where
  nodup : (c.pending.map (·.proposalId)).Nodup
  filed : ∀ p ∈ c.pending, (c.record p.proposalId).map (·.proposal) = some p

theorem filed_submitAll (proposals : List Proposal) : (submitAll proposals).Filed := by
  refine ⟨(queued_submitAll proposals).nodup, ?_⟩
  have hall : ∀ c : Coordinator, (∀ p ∈ c.pending, (c.record p.proposalId).map (·.proposal) = some p) →
      ∀ p ∈ (proposals.foldl (fun c p => c.submit p) c).pending,
        ((proposals.foldl (fun c p => c.submit p) c).record p.proposalId).map (·.proposal) = some p := by
    induction proposals with
    | nil => exact fun _ h => h
    | cons p ps ih =>
      refine fun c h => ih (c.submit p) fun q hq => ?_
      unfold submit at hq ⊢
      split at hq
      · next hknown =>
        rw [if_pos hknown]
        exact h q hq
      · next hknown =>
        rw [if_neg hknown]
        show ((c.records.insert p.proposalId ⟨p, .pending⟩)[q.proposalId]?).map _ = _
        rw [Std.TreeMap.getElem?_insert]
        obtain hq | hq := List.mem_append.mp hq
        · rw [if_neg]
          · exact h q hq
          · intro heq
            obtain ⟨record, hrecord, -⟩ := Option.map_eq_some_iff.mp (h q hq)
            rw [← Std.LawfulEqOrd.eq_of_compare heq] at hrecord
            rw [hrecord] at hknown
            exact hknown rfl
        · rw [List.mem_singleton.mp hq, if_pos (Std.ReflOrd.compare_self)]
          rfl
  exact hall new fun p hp => absurd hp List.not_mem_nil

variable {c : Coordinator} {float : FloatArith} {policy : StrategyPolicy} {strategy : String}

theorem Filed.strategyOf (h : c.Filed) {p : Proposal} (hp : p ∈ c.pending) :
    c.strategyOf p.proposalId = some p.strategyId := by
  obtain ⟨record, hrecord, hproposal⟩ := Option.map_eq_some_iff.mp (h.filed p hp)
  rw [Coordinator.strategyOf, hrecord, Option.map_some, hproposal]

/-- Every group holds the pending proposals of its instrument. -/
theorem group_of_mem {ps : List Proposal} {e : InstrumentId × List Proposal}
    (h : e ∈ (groupByInstrument ps).toList) :
    e.2 = ps.filter (·.instrumentId = e.1) ∧ e.2 ≠ [] := by
  have hget := Std.TreeMap.mem_toList_iff_getElem?_eq_some.mp h
  rw [groupByInstrument_getElem?] at hget
  split at hget
  · cases hget
  · next hne =>
    have heq := Option.some.inj hget
    exact ⟨heq.symm, heq ▸ hne⟩

/-- What is accepted and attributed is what the groups come to. -/
theorem resolve_lists (float : FloatArith) (policy : StrategyPolicy) (c : Coordinator) :
    (c.resolve float policy).1.accepted = (groupByInstrument c.pending).toList.flatMap
        (fun e => (resolveInstrument float policy e.1 e.2).accepted) ∧
      (c.resolve float policy).1.attributions = (groupByInstrument c.pending).toList.flatMap
        (fun e => (resolveInstrument float policy e.1 e.2).attributions) := by
  obtain ⟨haccepted, -, hattributions⟩ := foldl_append_eq
    (fun e : InstrumentId × List Proposal => resolveInstrument float policy e.1 e.2)
    (groupByInstrument c.pending).toList ⟨[], [], [], []⟩
  exact ⟨haccepted, hattributions⟩

/-- The results of the groups that have one, with their groups. -/
theorem flatMap_option {α β γ : Type} (f : α → Option β) (g : α → β → γ) (l : List α) :
    l.flatMap (fun e => ((f e).map (g e)).toList) =
      (l.filterMap fun e => (f e).map (Prod.mk e)).map fun x => g x.1 x.2 := by
  induction l with
  | nil => rfl
  | cons e l ih =>
    rw [List.flatMap_cons, List.filterMap_cons, ih]
    cases f e <;> rfl

/-- A counterpart of a member of the one list in the other. -/
theorem mem_of_forall₂ {α β : Type} {R : α → β → Prop} {l : List α} {l' : List β}
    (h : List.Forall₂ R l l') {b : β} (hb : b ∈ l') : ∃ a ∈ l, R a b := by
  induction h with
  | nil => cases hb
  | cons hab _ ih =>
    obtain rfl | hb := List.mem_cons.mp hb
    · exact ⟨_, List.mem_cons_self .., hab⟩
    · obtain ⟨a, ha, hR⟩ := ih hb
      exact ⟨a, List.mem_cons_of_mem _ ha, hR⟩

theorem forall₂_of_mem {α β : Type} {R S : α → β → Prop} {l : List α} {l' : List β}
    (h : List.Forall₂ R l l') (himp : ∀ a ∈ l, ∀ b, R a b → S a b) : List.Forall₂ S l l' := by
  induction h with
  | nil => exact .nil
  | cons hab _ ih =>
    obtain ⟨ha, himp⟩ := List.forall_mem_cons.mp himp
    exact .cons (ha _ hab) (ih himp)

-- Policies that accept proposals as they are

/-- Without netting, an instrument comes to some of its proposals, each attributed to itself. -/
theorem each_resolveInstrument (float : FloatArith) (hpolicy : policy ≠ .weightedNet)
    (i : InstrumentId) (ps : List Proposal) :
    (∀ q ∈ (resolveInstrument float policy i ps).accepted, q ∈ ps) ∧
      (resolveInstrument float policy i ps).attributions =
        (resolveInstrument float policy i ps).accepted.map
          fun p => ⟨p.proposalId, i, [p.proposalId]⟩ := by
  have hsorted : ∀ q ∈ ps.mergeSort resolvesBefore, q ∈ ps := fun q hq => List.mem_mergeSort.mp hq
  cases policy with
  | isolatedBooks => exact ⟨hsorted, rfl⟩
  | weightedNet => exact absurd rfl hpolicy
  | priority =>
    simp only [resolveInstrument]
    split
    · exact ⟨fun q hq => hsorted q (List.mem_filter.mp hq).1, rfl⟩
    · exact ⟨hsorted, rfl⟩

theorem mem_resolve_each (hpolicy : policy ≠ .weightedNet) {p : Proposal}
    (hp : p ∈ (c.resolve float policy).1.accepted) : p ∈ c.pending := by
  rw [(resolve_lists float policy c).1] at hp
  obtain ⟨e, he, hp⟩ := List.mem_flatMap.mp hp
  have hmem := (each_resolveInstrument float hpolicy e.1 e.2).1 p hp
  rw [(group_of_mem he).1] at hmem
  exact (List.mem_filter.mp hmem).1

/-- Without netting, what is accepted stems from the strategy that it carries. -/
theorem stems_each (hpolicy : policy ≠ .weightedNet) {d : Coordinator} (hc : c.Filed)
    (hsub : ∀ p ∈ d.pending, p ∈ c.pending) {r : ResultSet}
    (hr : r.attributions = (d.resolve float policy).1.attributions) {p q : Proposal}
    (hp : p ∈ (d.resolve float policy).1.accepted) (hq : Resized p q) :
    c.stems r strategy q = decide (q.strategyId = strategy) := by
  have hid : q.proposalId = p.proposalId := by rw [hq]
  have hcarries : q.strategyId = p.strategyId := by rw [hq]
  have hown := hc.strategyOf (hsub p (mem_resolve_each hpolicy hp))
  rw [stems, hr, (resolve_lists float policy d).2, hid, hcarries, Bool.eq_iff_iff,
    List.any_eq_true, decide_eq_true_iff]
  constructor
  · rintro ⟨a, ha, hstems⟩
    obtain ⟨e, -, ha⟩ := List.mem_flatMap.mp ha
    rw [(each_resolveInstrument float hpolicy e.1 e.2).2] at ha
    obtain ⟨p', -, rfl⟩ := List.mem_map.mp ha
    simp only [List.any_cons, List.any_nil, Bool.or_false, Bool.and_eq_true,
      decide_eq_true_iff] at hstems
    obtain ⟨hsame, hstrategy⟩ := hstems
    rw [hsame, hown] at hstrategy
    exact Option.some.inj hstrategy
  · rintro rfl
    rw [(resolve_lists float policy d).1] at hp
    obtain ⟨e, he, hp⟩ := List.mem_flatMap.mp hp
    refine ⟨⟨p.proposalId, e.1, [p.proposalId]⟩, List.mem_flatMap.mpr ⟨e, he, ?_⟩, ?_⟩
    · rw [(each_resolveInstrument float hpolicy e.1 e.2).2]
      exact List.mem_map_of_mem hp
    · simp [hown]

-- Netting

/-- The groups that netting gives a proposal for, with the proposal. -/
def netPairs (float : FloatArith) (ps : List Proposal) :
    List ((InstrumentId × List Proposal) × Proposal) :=
  (groupByInstrument ps).toList.filterMap fun e =>
    (weightedNet float e.1 (e.2.mergeSort resolvesBefore)).map (Prod.mk e)

theorem netted_eq (float : FloatArith) (ps : List Proposal) :
    netted float ps = (netPairs float ps).map fun x => (x.1.2, x.2.action.magnitude) := by
  rw [netted, netPairs, List.map_filterMap]
  simp only [Option.map_map]
  rfl

theorem resolve_netPairs (float : FloatArith) (c : Coordinator) :
    (c.resolve float .weightedNet).1.accepted = (netPairs float c.pending).map (·.2) ∧
      (c.resolve float .weightedNet).1.attributions = (netPairs float c.pending).map fun x =>
        ⟨x.2.proposalId, x.1.1, (x.1.2.mergeSort resolvesBefore).map (·.proposalId)⟩ := by
  obtain ⟨haccepted, hattributions⟩ := resolve_lists float .weightedNet c
  have hone : ∀ e : InstrumentId × List Proposal,
      (resolveInstrument float .weightedNet e.1 e.2).accepted =
          ((weightedNet float e.1 (e.2.mergeSort resolvesBefore)).map id).toList ∧
        (resolveInstrument float .weightedNet e.1 e.2).attributions =
          ((weightedNet float e.1 (e.2.mergeSort resolvesBefore)).map fun net : Proposal =>
            ⟨net.proposalId, e.1, (e.2.mergeSort resolvesBefore).map (·.proposalId)⟩).toList := by
    intro e
    simp only [resolveInstrument]
    cases weightedNet float e.1 (e.2.mergeSort resolvesBefore) with
    | none => exact ⟨rfl, rfl⟩
    | some net => exact ⟨rfl, rfl⟩
  constructor
  · rw [haccepted]
    simp only [(hone _).1]
    exact flatMap_option _ (fun _ net => id net) _
  · rw [hattributions]
    simp only [(hone _).2]
    exact flatMap_option _ (fun (e : InstrumentId × List Proposal) (net : Proposal) => Attribution.mk
      net.proposalId e.1 ((e.2.mergeSort resolvesBefore).map (·.proposalId))) _

theorem weightedNet_strategyId {i : InstrumentId} {ps : List Proposal} {net : Proposal}
    (h : weightedNet float i ps = some net) : net.strategyId = nettingIdentity := by
  rw [weightedNet] at h
  obtain ⟨first, -, h⟩ := Option.bind_eq_some_iff.mp h
  obtain ⟨quantities, -, h⟩ := Option.bind_eq_some_iff.mp h
  dsimp only at h
  split at h
  · cases h
  · cases h
    rfl

/-- A net carries the netting identity and a number of its group. -/
theorem netPairs_spec {ps : List Proposal} {x : (InstrumentId × List Proposal) × Proposal}
    (hx : x ∈ netPairs float ps) : x.1 ∈ (groupByInstrument ps).toList ∧
      x.2.strategyId = nettingIdentity ∧ ∃ p ∈ x.1.2, p.proposalId = x.2.proposalId := by
  obtain ⟨e, he, hsome⟩ := List.mem_filterMap.mp hx
  obtain ⟨net, hnet, rfl⟩ := Option.map_eq_some_iff.mp hsome
  have hne : e.2.mergeSort resolvesBefore ≠ [] := fun hnil => by
    rw [hnil] at hnet
    cases hnet
  refine ⟨he, weightedNet_strategyId hnet, ?_⟩
  obtain ⟨-, net', hnet', hid, -⟩ | ⟨-, hnone⟩ := weightedNet_cases float e.1 hne
  · cases hnet.symm.trans hnet'
    obtain ⟨p, hp, hpid⟩ := List.mem_map.mp hid
    exact ⟨p, List.mem_mergeSort.mp hp, hpid⟩
  · cases hnet.symm.trans hnone

/-- With netting, what is accepted stems from the strategies of its group. -/
theorem stems_net {d : Coordinator} (hc : c.Filed) (hsub : d.pending.Sublist c.pending)
    {r : ResultSet} (hr : r.attributions = (d.resolve float .weightedNet).1.attributions)
    {x : (InstrumentId × List Proposal) × Proposal} (hx : x ∈ netPairs float d.pending)
    {q : Proposal} (hq : Resized x.2 q) :
    c.stems r strategy q = involves strategy x.1.2 := by
  have hid : q.proposalId = x.2.proposalId := by rw [hq]
  obtain ⟨hgroup, -, p, hp, hpid⟩ := netPairs_spec hx
  have hfiled : ∀ e ∈ (groupByInstrument d.pending).toList, ∀ p ∈ e.2,
      p ∈ c.pending ∧ p.instrumentId = e.1 := fun e he p hp => by
    rw [(group_of_mem he).1] at hp
    obtain ⟨hp, hi⟩ := List.mem_filter.mp hp
    exact ⟨hsub.subset hp, of_decide_eq_true hi⟩
  rw [stems, hr, (resolve_netPairs float d).2, hid, Bool.eq_iff_iff, List.any_eq_true, involves,
    List.any_eq_true]
  constructor
  · rintro ⟨a, ha, hstems⟩
    obtain ⟨x', hx', rfl⟩ := List.mem_map.mp ha
    simp only [Bool.and_eq_true, decide_eq_true_iff, List.any_eq_true] at hstems
    obtain ⟨hsame, id, hsource, hstrategy⟩ := hstems
    obtain ⟨hgroup', -, p', hp', hpid'⟩ := netPairs_spec hx'
    -- the groups share a number, and so a proposal, and so the instrument
    obtain rfl := List.inj_on_of_nodup_map hc.nodup (hfiled _ hgroup p hp).1
      (hfiled _ hgroup' p' hp').1 (hpid.trans (hsame.symm.trans hpid'.symm))
    have hinstrument := (hfiled _ hgroup p hp).2.symm.trans (hfiled _ hgroup' p hp').2
    have hsource' := hsource
    obtain ⟨source, hmem, rfl⟩ := List.mem_map.mp hsource'
    rw [List.mem_mergeSort, (group_of_mem hgroup').1, ← hinstrument,
      ← (group_of_mem hgroup).1] at hmem
    rw [hc.strategyOf (hfiled _ hgroup source hmem).1] at hstrategy
    exact ⟨source, hmem, decide_eq_true (Option.some.inj hstrategy)⟩
  · rintro ⟨source, hmem, hstrategy⟩
    refine ⟨_, List.mem_map_of_mem hx, ?_⟩
    simp only [decide_true, Bool.true_and, List.any_eq_true, decide_eq_true_iff]
    refine ⟨source.proposalId, List.mem_map_of_mem (List.mem_mergeSort.mpr hmem), ?_⟩
    rw [hc.strategyOf (hfiled _ hgroup source hmem).1, of_decide_eq_true hstrategy]

/-- Sums over the proposals that pass a test, by the groups that pass it. -/
theorem sum_filter_zip {f : Proposal → Bool} {g : List Proposal → Bool}
    {pairs : List ((InstrumentId × List Proposal) × Proposal)} {out : List Proposal}
    (h : List.Forall₂ (fun x q => f q = g x.1.2) pairs out) :
    ((out.filter f).map (·.action.magnitude)).sum =
      ((((pairs.map (·.1.2)).zip (out.map (·.action.magnitude))).filter fun e => g e.1).map
        (·.2)).sum := by
  induction h with
  | nil => rfl
  | @cons x q pairs out hxq _ ih =>
    rw [List.map_cons, List.map_cons, List.zip_cons_cons, List.filter_cons, List.filter_cons, hxq]
    split
    · rw [List.map_cons, List.sum_cons, List.map_cons, List.sum_cons, ih]
    · exact ih

/-- The nets under the budgets, with their groups. -/
theorem capped_eq {budgets : Std.TreeMap String Int} (hbudgets : Budgets budgets)
    (ps : List Proposal) :
    capped budgets (netted float ps) = ((netPairs float ps).map (·.1.2)).zip
      ((applyBudgets budgets ((netPairs float ps).map (·.2))).1.map (·.action.magnitude)) := by
  have hcarries : ∀ p ∈ (netPairs float ps).map (·.2), p.strategyId = nettingIdentity := by
    intro p hp
    obtain ⟨x, hx, rfl⟩ := List.mem_map.mp hp
    exact (netPairs_spec hx).2.1
  rw [magnitudes_applyBudgets hbudgets.leftover hcarries, capped, netted_eq]
  cases budgets[nettingIdentity]? with
  | none =>
    dsimp only
    rw [List.map_map, List.zip_map']
    rfl
  | some budget =>
    dsimp only
    rw [List.map_map, List.map_map, List.map_map]
    rfl

-- Budgets of a resolution

/-- **A resolution stays within the budgets**, unless it nets more than they afford. -/
theorem bounded_iff {d : Coordinator} {budgets : Std.TreeMap String Int} {r : BudgetedResultSet}
    (hbudgets : Budgets budgets) (hc : c.Filed) (hsub : d.pending.Sublist c.pending)
    (haccepted : r.result.accepted =
      (applyBudgets budgets (d.resolve float policy).1.accepted).1)
    (hattributions : r.result.attributions = (d.resolve float policy).1.attributions)
    (hadjustments : r.adjustments =
      (applyBudgets budgets (d.resolve float policy).1.accepted).2) :
    c.Bounded budgets r ↔ (policy = .weightedNet → Affords float budgets d.pending) := by
  obtain ⟨hresized, hreported⟩ :=
    applyBudgets_resized hbudgets.leftover (d.resolve float policy).1.accepted
  rw [← haccepted] at hresized
  rw [← haccepted, ← hadjustments] at hreported
  by_cases hpolicy : policy = .weightedNet
  · subst hpolicy
    rw [imp_iff_right rfl]
    have hsum : ∀ strategy, ((r.result.accepted.filter (c.stems r.result strategy)).map
        (·.action.magnitude)).sum = (((capped budgets (netted float d.pending)).filter
          fun e => involves strategy e.1).map (·.2)).sum := by
      intro strategy
      rw [capped_eq hbudgets, ← (resolve_netPairs float d).1, ← haccepted]
      refine sum_filter_zip ?_
      rw [(resolve_netPairs float d).1, List.forall₂_map_left_iff] at hresized
      refine forall₂_of_mem hresized fun x hx q hq => ?_
      exact stems_net hc hsub hattributions hx hq
    constructor
    · intro h strategy budget hget
      rw [← hsum]
      exact h.within strategy budget hget
    · intro h
      refine ⟨fun strategy budget hget => ?_, hreported⟩
      rw [hsum]
      exact h strategy budget hget
  · refine iff_of_true ⟨fun strategy budget hget => ?_, hreported⟩ fun heq => absurd heq hpolicy
    have hstems : ∀ q ∈ r.result.accepted,
        c.stems r.result strategy q = decide (q.strategyId = strategy) := by
      intro q hq
      obtain ⟨p, hp, hpq⟩ := mem_of_forall₂ hresized hq
      exact stems_each hpolicy hc hsub.subset hattributions hp hpq
    rw [List.filter_congr hstems, haccepted]
    exact spent_applyBudgets_le hbudgets.leftover _ hget

end Coordinator

/-- The proposals that are valid at a time. -/
def Coordinator.current (float : FloatArith) (now : MonoTime) (c : Coordinator) : List Proposal :=
  c.pending.filter fun p => (p.validate float now).isOk

/-- A resolution at a time is one of the proposals that are valid then. -/
theorem Coordinator.resolveAt_current (float : FloatArith) (policy : StrategyPolicy)
    (now : MonoTime) (c : Coordinator) : ∃ d : Coordinator, d.pending = c.current float now ∧
      (c.resolveAt float policy now).1.accepted = (d.resolve float policy).1.accepted ∧
      (c.resolveAt float policy now).1.attributions = (d.resolve float policy).1.attributions := by
  unfold Coordinator.resolveAt
  exact ⟨_, rfl, rfl, rfl⟩

/-- The budgets of a resolution at a time, of any coordinator that knows what is pending. -/
theorem Coordinator.Filed.bounded_iff {c : Coordinator} (hc : c.Filed) (float : FloatArith)
    (policy : StrategyPolicy) (now : MonoTime) {budgets : Std.TreeMap String Int}
    (hbudgets : Budgets budgets) :
    c.Bounded budgets (c.resolveAtWithBudgets float policy now budgets).1 ↔
      (policy = .weightedNet → Affords float budgets (c.current float now)) := by
  obtain ⟨d, hpending, haccepted, hattributions⟩ := c.resolveAt_current float policy now
  have hsub : d.pending.Sublist c.pending := hpending ▸ List.filter_sublist
  rw [← hpending]
  refine Coordinator.bounded_iff hbudgets hc hsub ?_ ?_ ?_
  · rw [← haccepted]
    rfl
  · rw [← hattributions]
    rfl
  · rw [← haccepted]
    rfl

namespace Sample

/-- Proposals of one tick for two instruments, of one strategy. -/
def twoTicks : List Proposal :=
  [⟨1, "s", 1, .targetQuantity 1, one, 1, 1, [], 0⟩, ⟨2, "s", 2, .targetQuantity 1, one, 1, 1, [], 0⟩]

/-- A budget of one tick for the strategy. -/
def oneTick : Std.TreeMap String Int := (∅ : Std.TreeMap String Int).insert "s" 1

theorem oneTick_budgets : Budgets oneTick := by
  intro strategy budget hget
  rw [oneTick, getElem?_insert_string] at hget
  split at hget
  · cases hget
    decide
  · simp at hget

theorem twoTicks_current : (Coordinator.submitAll twoTicks).current float 0 = twoTicks := by
  decide

/-- Each instrument nets to one tick. -/
theorem twoTicks_netted : (netted float twoTicks).map (·.2) = [1, 1] ∧
    ∀ e ∈ netted float twoTicks, involves "s" e.1 = true := by
  have hgroups : (groupByInstrument twoTicks).toList =
      [(1, [⟨1, "s", 1, .targetQuantity 1, one, 1, 1, [], 0⟩]),
        (2, [⟨2, "s", 2, .targetQuantity 1, one, 1, 1, [], 0⟩])] := by decide
  rw [netted, hgroups]
  simp only [List.filterMap_cons, List.filterMap_nil, List.mergeSort_singleton]
  decide

end Sample

end InsiderTrader
