import Mathlib.Data.List.Forall2
import Mathlib.Data.List.Perm.Subperm
import Mathlib.Data.List.TakeWhile
import InsiderTrader.ChildPlan
import InsiderTrader.Library.Runs

/-!
# Claims of due children

A child goes out when a claim returns it, and only then may it stop being
pending. A claim marks the due children one by one and computes the due time of
each as it comes to it; a due time past the range of the clock stops it between.

## Main definitions

- `ChildCall` — the calls on a plan
- `leaves` — the children that stop being pending
- `ClaimedExactly` — over a run, a child stops being pending when a claim returns it, once
- `ChildCall.Loses` — a claim that marks children and returns none

## Main results

- `claimList_eq` — what a claim does
- `ChildCall.leaves_iff` — a call returns the children that stop being pending
- `claimed_exactly_iff` — the runs that claim exactly
-/

namespace InsiderTrader

open Fallible

/-- A call on a plan. -/
inductive ChildCall where
  | claimDue (now : MonoTime)
  | markSent (clientOrderId : String)
  | markUnknown (clientOrderId : String)
  | applyBrokerEvent (event : BrokerEvent)
  | requestCancel (clientOrderId : String)

namespace ChildCall

/-- Make a call; only a claim returns children. -/
def perform : ChildCall → Fallible ChildPlan PlanError (List ChildOrder)
  | .claimDue now => ChildPlan.claimDue now
  | .markSent clientOrderId => ChildPlan.markSent clientOrderId >>= fun _ => pure []
  | .markUnknown clientOrderId => ChildPlan.markUnknown clientOrderId >>= fun _ => pure []
  | .applyBrokerEvent event => ChildPlan.applyBrokerEvent event >>= fun _ => pure []
  | .requestCancel clientOrderId => ChildPlan.requestCancel clientOrderId >>= fun _ => pure []

/-- The plan after a call. -/
def after (c : ChildCall) (p : ChildPlan) : ChildPlan := (c.perform p).2

/-- The children in the result of a call. -/
def returned (c : ChildCall) (p : ChildPlan) : List ChildOrder :=
  match (c.perform p).1 with
  | .ok claimed => claimed
  | .error _ => []

end ChildCall

/-- The children that are pending in one list and no longer in the other, place by place. -/
def leaves : List ChildRecord → List ChildRecord → List ChildOrder
  | r :: rs, r' :: rs' =>
    if r.state = .pending ∧ r'.state ≠ .pending then r.order :: leaves rs rs' else leaves rs rs'
  | _, _ => []

/-- The orders of the pending children. -/
def pendingOrders (rs : List ChildRecord) : List ChildOrder :=
  (rs.filter (·.state = .pending)).map (·.order)

/-- The children keep their orders and places, and none becomes pending. -/
def Kept : List ChildRecord → List ChildRecord → Prop :=
  List.Forall₂ fun r r' => r'.order = r.order ∧ (r'.state = .pending → r.state = .pending)

/-- Over a run, every call returns the children that stop being pending by it, none becomes
pending again, and so no child is returned twice. -/
structure ClaimedExactly (p : ChildPlan) (run : List ChildCall) : Prop where
  returned : ∀ c ∈ Runs.calls ChildCall.after p run,
    leaves c.1.children (c.2.after c.1).children = c.2.returned c.1
  kept : ∀ c ∈ Runs.calls ChildCall.after p run, Kept c.1.children (c.2.after c.1).children
  once : ((Runs.calls ChildCall.after p run).flatMap fun c => c.2.returned c.1).Subperm
    (pendingOrders p.children)

/-- The due time of a child is in the range of the clock. -/
def clocked (createdMonoNs : MonoTime) (r : ChildRecord) : Bool :=
  createdMonoNs + r.order.dueAfterNs ≤ u64Max

/-- A child is pending and its due time has come. -/
def dueAt (createdMonoNs now : MonoTime) (r : ChildRecord) : Bool :=
  r.state = .pending && createdMonoNs + r.order.dueAfterNs ≤ now

/-- A claim at a time when a child is due that stands before every child whose due time is out of
range, and there is such a child. -/
def ChildCall.Loses : ChildCall → ChildPlan → Prop
  | .claimDue now, p =>
    (∃ r ∈ p.children, clocked p.createdMonoNs r = false) ∧
      ∃ r ∈ p.children.takeWhile (clocked p.createdMonoNs), dueAt p.createdMonoNs now r = true
  | _, _ => False

section Lists

variable {rs rs' ts ts' : List ChildRecord} {createdMonoNs now : MonoTime}

theorem kept_self (rs : List ChildRecord) : Kept rs rs :=
  List.forall₂_same.mpr fun _ _ => ⟨rfl, id⟩

theorem leaves_self (rs : List ChildRecord) : leaves rs rs = [] := by
  induction rs with
  | nil => rfl
  | cons r rs ih =>
    rw [leaves, if_neg (fun h => h.2 h.1), ih]

theorem leaves_append (h : rs.length = rs'.length) :
    leaves (rs ++ ts) (rs' ++ ts') = leaves rs rs' ++ leaves ts ts' := by
  induction rs generalizing rs' with
  | nil =>
    rw [List.length_eq_zero_iff.mp h.symm]
    rfl
  | cons r rs ih =>
    cases rs' with
    | nil => cases h
    | cons r' rs' =>
      rw [List.cons_append, List.cons_append, leaves, leaves, ih (Nat.succ.inj h)]
      split <;> rfl

theorem pendingOrders_cons_of_pending {r : ChildRecord} (h : r.state = .pending) :
    pendingOrders (r :: rs) = r.order :: pendingOrders rs := by
  rw [pendingOrders, List.filter_cons_of_pos (by simpa using h)]
  rfl

theorem pendingOrders_cons_of_ne {r : ChildRecord} (h : r.state ≠ .pending) :
    pendingOrders (r :: rs) = pendingOrders rs := by
  rw [pendingOrders, List.filter_cons_of_neg (by simpa using h)]
  rfl

/-- **What leaves and what stays** are together the pending children. -/
theorem leaves_append_pendingOrders (h : Kept rs rs') :
    (leaves rs rs' ++ pendingOrders rs').Perm (pendingOrders rs) := by
  induction h with
  | nil => exact .nil
  | @cons r r' rs rs' hr _ ih =>
    obtain ⟨horder, hstate⟩ := hr
    by_cases hafter : r'.state = .pending
    · have hbefore := hstate hafter
      rw [leaves, if_neg (fun h => h.2 hafter), pendingOrders_cons_of_pending hafter,
        pendingOrders_cons_of_pending hbefore, horder]
      exact List.perm_middle.trans (ih.cons _)
    · rw [leaves, pendingOrders_cons_of_ne hafter]
      by_cases hbefore : r.state = .pending
      · rw [if_pos ⟨hbefore, hafter⟩, pendingOrders_cons_of_pending hbefore]
        exact ih.cons _
      · rw [if_neg (fun h => hbefore h.1), pendingOrders_cons_of_ne hbefore]
        exact ih

/-- Claim one child. -/
def claim (createdMonoNs now : MonoTime) (r : ChildRecord) : ChildRecord :=
  if dueAt createdMonoNs now r then { r with state := .sending } else r

theorem kept_claim (createdMonoNs now : MonoTime) (rs : List ChildRecord) :
    Kept rs (rs.map (claim createdMonoNs now)) := by
  refine List.forall₂_map_right_iff.mpr (List.forall₂_same.mpr fun r _ => ?_)
  unfold claim
  split
  · exact ⟨rfl, nofun⟩
  · exact ⟨rfl, id⟩

theorem leaves_claim (rs : List ChildRecord) :
    leaves rs (rs.map (claim createdMonoNs now)) =
      (rs.filter (dueAt createdMonoNs now)).map (·.order) := by
  induction rs with
  | nil => rfl
  | cons r rs ih =>
    rw [List.map_cons, leaves, ih, claim]
    by_cases hdue : dueAt createdMonoNs now r = true
    · have hpending : r.state = .pending := by
        rw [dueAt, Bool.and_eq_true] at hdue
        exact of_decide_eq_true hdue.1
      rw [if_pos hdue, if_pos ⟨hpending, nofun⟩, List.filter_cons_of_pos hdue, List.map_cons]
    · rw [if_neg hdue, if_neg (fun h => h.2 h.1), List.filter_cons_of_neg hdue]

/-- **A claim** marks the due children before the first whose due time is out of range, and
returns the due ones when there is no such child. -/
theorem claimList_eq (rs : List ChildRecord) :
    ChildPlan.claimList createdMonoNs now rs =
      ((rs.takeWhile (clocked createdMonoNs)).map (claim createdMonoNs now) ++
          rs.dropWhile (clocked createdMonoNs),
        if rs.all (clocked createdMonoNs) then
          .ok ((rs.filter (dueAt createdMonoNs now)).map (·.order))
        else .error .invalidSchedule) := by
  induction rs with
  | nil => rfl
  | cons r rs ih =>
    by_cases hclock : clocked createdMonoNs r = true
    · have hrange : ¬u64Max < createdMonoNs + r.order.dueAfterNs :=
        Nat.not_lt.mpr (of_decide_eq_true hclock)
      rw [ChildPlan.claimList, if_neg hrange, ih, List.takeWhile_cons_of_pos hclock,
        List.dropWhile_cons_of_pos hclock, List.all_cons, hclock, Bool.true_and, List.map_cons,
        claim]
      by_cases hdue : dueAt createdMonoNs now r = true
      · have hpair : r.state = .pending ∧ createdMonoNs + r.order.dueAfterNs ≤ now := by
          rw [dueAt, Bool.and_eq_true] at hdue
          exact ⟨of_decide_eq_true hdue.1, of_decide_eq_true hdue.2⟩
        dsimp only
        rw [if_pos hpair, if_pos hdue, List.filter_cons_of_pos hdue]
        split <;> rfl
      · have hpair : ¬(r.state = .pending ∧ createdMonoNs + r.order.dueAfterNs ≤ now) := by
          rintro ⟨hstate, htime⟩
          exact hdue (by rw [dueAt, Bool.and_eq_true]; exact ⟨decide_eq_true hstate,
            decide_eq_true htime⟩)
        dsimp only
        rw [if_neg hpair, if_neg hdue, List.filter_cons_of_neg hdue]
        rfl
    · have hrange : u64Max < createdMonoNs + r.order.dueAfterNs :=
        Nat.lt_of_not_le fun hle => hclock (decide_eq_true hle)
      rw [ChildPlan.claimList, if_pos hrange, List.takeWhile_cons_of_neg hclock,
        List.dropWhile_cons_of_neg hclock, List.all_cons, Bool.eq_false_iff.mpr hclock,
        Bool.false_and]
      rfl

/-- **A change of one child** that was not pending lets none leave. -/
theorem updateList_kept {clientOrderId : String} {f : ChildRecord → Option ChildRecord}
    (hf : ∀ r r', f r = some r' →
      r'.order = r.order ∧ r.state ≠ .pending ∧ r'.state ≠ .pending)
    (h : ChildPlan.updateList clientOrderId f rs = some rs') :
    Kept rs rs' ∧ leaves rs rs' = [] := by
  induction rs generalizing rs' with
  | nil => cases h
  | cons r rs ih =>
    unfold ChildPlan.updateList at h
    split at h
    · obtain ⟨r', hr', rfl⟩ := Option.map_eq_some_iff.mp h
      obtain ⟨horder, hbefore, hafter⟩ := hf r r' hr'
      refine ⟨.cons ⟨horder, fun h => absurd h hafter⟩ (kept_self rs), ?_⟩
      rw [leaves, if_neg (fun h => hbefore h.1), leaves_self]
    · obtain ⟨ts, hts, rfl⟩ := Option.map_eq_some_iff.mp h
      obtain ⟨hkept, hleaves⟩ := ih hts
      refine ⟨.cons ⟨rfl, id⟩ hkept, ?_⟩
      rw [leaves, if_neg (fun h => h.2 h.1), hleaves]

end Lists

section Calls

variable {p : ChildPlan}

theorem markSent_leaves {r r' : ChildRecord} (h : r.markSent = some r') :
    r'.order = r.order ∧ r.state ≠ .pending ∧ r'.state ≠ .pending := by
  unfold ChildRecord.markSent at h
  split at h
  · next hstate =>
    cases h
    exact ⟨rfl, by rw [hstate]; decide, nofun⟩
  · cases h

theorem markUnknown_leaves {r r' : ChildRecord} (h : r.markUnknown = some r') :
    r'.order = r.order ∧ r.state ≠ .pending ∧ r'.state ≠ .pending := by
  unfold ChildRecord.markUnknown at h
  split at h
  · next hstate =>
    cases h
    refine ⟨rfl, ?_, nofun⟩
    rcases hstate with hstate | hstate <;> rw [hstate] <;> decide
  · cases h

theorem requestCancel_leaves {r r' : ChildRecord} (h : r.requestCancel = some r') :
    r'.order = r.order ∧ r.state ≠ .pending ∧ r'.state ≠ .pending := by
  unfold ChildRecord.requestCancel at h
  split at h
  · next hstate =>
    cases h
    refine ⟨rfl, ?_, nofun⟩
    rcases hstate with hstate | hstate | hstate <;> rw [hstate] <;> decide
  · cases h

theorem applyBrokerEvent_leaves {event : BrokerEvent} {r r' : ChildRecord}
    (h : r.applyBrokerEvent event = some r') :
    r'.order = r.order ∧ r.state ≠ .pending ∧ r'.state ≠ .pending := by
  -- no callback is admitted in the pending state
  have hne : ∀ {states : List ChildState}, r.state ∈ states → .pending ∉ states →
      r.state ≠ .pending := fun hmem hnot heq => hnot (heq ▸ hmem)
  cases event with
  | acknowledged =>
    simp only [ChildRecord.applyBrokerEvent] at h
    split at h
    · next hstate =>
      cases h
      exact ⟨rfl, hne hstate (by decide), nofun⟩
    · cases h
  | filled =>
    simp only [ChildRecord.applyBrokerEvent] at h
    split at h
    · next hstate =>
      have hbefore := hne hstate.2 (by decide)
      split at h
      · cases h
        exact ⟨rfl, hbefore, hbefore⟩
      · obtain ⟨total, -, h⟩ := Option.bind_eq_some_iff.mp h
        split at h
        · cases h
        · cases h
          refine ⟨rfl, hbefore, ?_⟩
          dsimp only
          split <;> nofun
    · cases h
  | cancelled =>
    simp only [ChildRecord.applyBrokerEvent] at h
    split at h
    · next hstate =>
      cases h
      exact ⟨rfl, hne hstate (by decide), nofun⟩
    · cases h
  | rejected =>
    simp only [ChildRecord.applyBrokerEvent] at h
    split at h
    · next hstate =>
      cases h
      exact ⟨rfl, hne hstate (by decide), nofun⟩
    · cases h

/-- **A call on one child** that refuses pending ones lets none leave, and returns none. -/
theorem update_leaves (clientOrderId : String) {f : ChildRecord → Option ChildRecord}
    (hf : ∀ r r', f r = some r' →
      r'.order = r.order ∧ r.state ≠ .pending ∧ r'.state ≠ .pending) (p : ChildPlan) :
    let call := (ChildPlan.update clientOrderId f >>= fun _ => pure [] :
      Fallible ChildPlan PlanError (List ChildOrder)) p
    Kept p.children call.2.children ∧ leaves p.children call.2.children = [] ∧
      ∀ claimed, call.1 = .ok claimed → claimed = [] := by
  rw [bind_apply, ChildPlan.update]
  cases hupdate : ChildPlan.updateList clientOrderId f p.children with
  | none => exact ⟨kept_self _, leaves_self _, nofun⟩
  | some children =>
    obtain ⟨hkept, hleaves⟩ := updateList_kept hf hupdate
    refine ⟨hkept, hleaves, ?_⟩
    rintro claimed ⟨⟩
    rfl

namespace ChildCall

theorem returned_of_ok {c : ChildCall} {claimed : List ChildOrder}
    (h : (c.perform p).1 = .ok claimed) : c.returned p = claimed := by
  rw [returned, h]

theorem returned_eq_nil {c : ChildCall} (h : ∀ claimed, (c.perform p).1 = .ok claimed →
    claimed = []) : c.returned p = [] := by
  rw [returned]
  split
  · next claimed heq => exact h claimed heq
  · rfl

theorem after_claimDue (now : MonoTime) (p : ChildPlan) :
    ((claimDue now).after p).children =
      (p.children.takeWhile (clocked p.createdMonoNs)).map (claim p.createdMonoNs now) ++
        p.children.dropWhile (clocked p.createdMonoNs) := by
  show (ChildPlan.claimList p.createdMonoNs now p.children).1 = _
  rw [claimList_eq]

theorem perform_claimDue (now : MonoTime) (p : ChildPlan) :
    ((claimDue now).perform p).1 =
      if p.children.all (clocked p.createdMonoNs) then
        .ok ((p.children.filter (dueAt p.createdMonoNs now)).map (·.order))
      else .error .invalidSchedule := by
  show (ChildPlan.claimList p.createdMonoNs now p.children).2 = _
  rw [claimList_eq]

/-- The children that leave by a claim: the due ones before the first out of range. -/
theorem leaves_claimDue (now : MonoTime) (p : ChildPlan) :
    leaves p.children ((claimDue now).after p).children =
      ((p.children.takeWhile (clocked p.createdMonoNs)).filter
        (dueAt p.createdMonoNs now)).map (·.order) := by
  rw [after_claimDue]
  calc
    _ = leaves (p.children.takeWhile (clocked p.createdMonoNs) ++
          p.children.dropWhile (clocked p.createdMonoNs)) _ := by
      rw [List.takeWhile_append_dropWhile]
    _ = _ := by
      rw [leaves_append (List.length_map _).symm, leaves_claim, leaves_self, List.append_nil]

/-- **Every call** keeps the children, and lets none become pending. -/
theorem kept (c : ChildCall) (p : ChildPlan) : Kept p.children (c.after p).children := by
  cases c with
  | claimDue now =>
    have hkept : Kept (p.children.takeWhile (clocked p.createdMonoNs) ++
        p.children.dropWhile (clocked p.createdMonoNs)) _ :=
      List.rel_append (kept_claim p.createdMonoNs now _) (kept_self _)
    rw [List.takeWhile_append_dropWhile] at hkept
    rw [after_claimDue]
    exact hkept
  | markSent id => exact (update_leaves id (fun _ _ => markSent_leaves) p).1
  | markUnknown id => exact (update_leaves id (fun _ _ => markUnknown_leaves) p).1
  | applyBrokerEvent event => exact (update_leaves _ (fun _ _ => applyBrokerEvent_leaves) p).1
  | requestCancel id => exact (update_leaves id (fun _ _ => requestCancel_leaves) p).1

/-- **Every call** that does not lose children returns exactly the ones that leave. -/
theorem leaves_iff (c : ChildCall) (p : ChildPlan) :
    leaves p.children (c.after p).children = c.returned p ↔ ¬c.Loses p := by
  have hquiet : ∀ {c : ChildCall}, leaves p.children (c.after p).children = [] →
      (∀ claimed, (c.perform p).1 = .ok claimed → claimed = []) → ¬c.Loses p →
      (leaves p.children (c.after p).children = c.returned p ↔ ¬c.Loses p) := by
    intro c hleaves hreturned hloses
    exact iff_of_true (by rw [hleaves, returned_eq_nil hreturned]) hloses
  cases c with
  | claimDue now =>
    rw [leaves_claimDue]
    have hperform := perform_claimDue now p
    by_cases hall : p.children.all (clocked p.createdMonoNs) = true
    · rw [if_pos hall] at hperform
      rw [returned_of_ok hperform]
      refine iff_of_true ?_ ?_
      · rw [List.takeWhile_eq_self_iff.mpr (List.all_eq_true.mp hall)]
      · rintro ⟨⟨r, hr, hclock⟩, -⟩
        rw [List.all_eq_true.mp hall r hr] at hclock
        cases hclock
    · rw [if_neg hall] at hperform
      rw [returned_eq_nil (by rw [hperform]; nofun), List.map_eq_nil_iff, List.filter_eq_nil_iff]
      have hout : ∃ r ∈ p.children, clocked p.createdMonoNs r = false := by
        by_contra hnone
        push Not at hnone
        exact hall (List.all_eq_true.mpr fun r hr => by simpa using hnone r hr)
      constructor
      · rintro hnone ⟨-, r, hr, hdue⟩
        exact hnone r hr hdue
      · intro hnot r hr hdue
        exact hnot ⟨hout, r, hr, hdue⟩
  | markSent id =>
    have h := update_leaves id (fun _ _ => markSent_leaves) p
    exact hquiet (c := .markSent id) h.2.1 h.2.2 not_false
  | markUnknown id =>
    have h := update_leaves id (fun _ _ => markUnknown_leaves) p
    exact hquiet (c := .markUnknown id) h.2.1 h.2.2 not_false
  | applyBrokerEvent event =>
    have h := update_leaves event.clientOrderId (f := (·.applyBrokerEvent event))
      (fun _ _ => applyBrokerEvent_leaves) p
    exact hquiet (c := .applyBrokerEvent event) h.2.1 h.2.2 not_false
  | requestCancel id =>
    have h := update_leaves id (fun _ _ => requestCancel_leaves) p
    exact hquiet (c := .requestCancel id) h.2.1 h.2.2 not_false

/-- **Every call** returns pending children only, and what it returns is pending no more. -/
theorem returned_append_pendingOrders (c : ChildCall) (p : ChildPlan) :
    (c.returned p ++ pendingOrders (c.after p).children).Subperm (pendingOrders p.children) := by
  have hperm := leaves_append_pendingOrders (c.kept p)
  by_cases hloses : c.Loses p
  · have hnone : c.returned p = [] := by
      cases c with
      | claimDue now =>
        obtain ⟨⟨r, hr, hclock⟩, -⟩ := hloses
        have hall : ¬p.children.all (clocked p.createdMonoNs) = true := by
          intro hall
          rw [List.all_eq_true.mp hall r hr] at hclock
          cases hclock
        refine returned_eq_nil ?_
        rw [perform_claimDue, if_neg hall]
        nofun
      | _ => exact hloses.elim
    rw [hnone, List.nil_append]
    exact (List.sublist_append_right _ _).subperm.trans hperm.subperm
  · rw [← (c.leaves_iff p).mpr hloses]
    exact hperm.subperm

/-- **Over every run** the returned children are children that were pending, each at most once. -/
theorem returned_once (p : ChildPlan) (run : List ChildCall) :
    ((Runs.calls after p run).flatMap fun c => c.2.returned c.1).Subperm
      (pendingOrders p.children) := by
  induction run generalizing p with
  | nil => exact List.nil_subperm
  | cons c run ih =>
    rw [Runs.calls, List.flatMap_cons]
    exact ((List.subperm_append_left _).mpr (ih (c.after p))).trans (c.returned_append_pendingOrders p)

end ChildCall

end Calls

/-- The runs over which a child stops being pending exactly when a claim returns it, and once:
those without a claim that loses children. -/
theorem claimed_exactly_iff (p : ChildPlan) (run : List ChildCall) :
    ClaimedExactly p run ↔ ∀ c ∈ Runs.calls ChildCall.after p run, ¬c.2.Loses c.1 := by
  constructor
  · intro h c hc
    exact (c.2.leaves_iff c.1).mp (h.returned c hc)
  · intro h
    exact {
      returned := fun c hc => (c.2.leaves_iff c.1).mpr (h c hc)
      kept := fun c _ => c.2.kept c.1
      once := ChildCall.returned_once p run }

namespace Sample

/-- A purchase of two. -/
def pair : OrderIntent :=
  ⟨"i-1", 1, 7, "o-1", .buy, 2, .market, none, .day, .riskApproved, 1⟩

/-- Two slices of the purchase, the second due at the end of the clock's range after the first. -/
def slowPlan : ChildPlan :=
  ⟨"o-1", 1, [
    ⟨⟨"o-1", 1, "o-1-child-1", 1, 0, .buy, .market, none⟩, .pending, 0, none⟩,
    ⟨⟨"o-1", 2, "o-1-child-2", 1, u64Max, .buy, .market, none⟩, .pending, 0, none⟩]⟩

end Sample

/-- A plan whose second due time is out of range loses its first child: the claim fails, the child
is marked, and no later claim returns it. -/
theorem claim_loses_slowPlan :
    ChildPlan.new Sample.pair (.twap 2 u64Max) 1 = .ok Sample.slowPlan ∧
      ¬ClaimedExactly Sample.slowPlan [.claimDue 1] := by
  refine ⟨by rfl, fun h => ?_⟩
  have hreturned := h.returned _ List.mem_cons_self
  exact absurd hreturned (by decide)

end InsiderTrader
