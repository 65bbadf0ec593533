import InsiderTrader.OperationMoves
import InsiderTrader.Bookkeeping

/-!
# Driving scheduled children

A call claims every due child at once and then takes the claims in turn. Each
claim restores its intent into the book before it is submitted, and the
submission refuses an id it finds in the book: no child is ever sent, the first
claim fails, and the others stay as they were claimed.

## Main definitions

- `Runtime.childAt` — a stored child by plan and position
- `Host.Claimed` — the children a call moves from pending to sending
- `Host.ChildrenDriven` — every claimed child settled, every authorized one sent
- `Host.MarkedUnknown` — the one child that the failing claim leaves unknown

## Main results

- `driveChild_fails` — no claim succeeds
- `childrenDriven_iff` — when a call drives its children
- `children_not_driven` — a due, authorized child that is not sent
-/

namespace InsiderTrader

open Fallible

-- Stored children

/-- The position of the first child with a client order id. -/
def ChildPlan.firstOf (clientOrderId : String) : List ChildRecord → Option ℕ
  | [] => none
  | r :: rs =>
    if r.order.clientOrderId = clientOrderId then some 0
    else (firstOf clientOrderId rs).map (· + 1)

/-- A change reaches the first child with the id and no other. -/
theorem ChildPlan.updateList_getElem? (id : String) (f : ChildRecord → Option ChildRecord)
    (children : List ChildRecord) (n : ℕ) :
    ((updateList id f children).getD children)[n]? =
      if firstOf id children = some n then (children[n]?).map fun c => (f c).getD c
      else children[n]? := by
  induction children generalizing n with
  | nil => simp [updateList, firstOf]
  | cons r rs ih =>
    unfold updateList firstOf
    by_cases hid : r.order.clientOrderId = id
    · simp only [hid, ↓reduceIte, Option.some.injEq]
      cases hf : f r with
      | none => cases n <;> simp [hf]
      | some r' => cases n <;> simp [hf]
    · simp only [hid, ↓reduceIte]
      have hrest : ((Option.map (r :: ·) (updateList id f rs)).getD (r :: rs)) =
          r :: (updateList id f rs).getD rs := by
        cases updateList id f rs <;> rfl
      rw [hrest]
      cases n with
      | zero => simp
      | succ n =>
        rw [List.getElem?_cons_succ, List.getElem?_cons_succ, ih n]
        simp

namespace Runtime

/-- The child of a stored plan at a position. -/
def childAt (r : Runtime) (key : String) (index : ℕ) : Option ChildRecord :=
  (r.childPlans[key]?).bind (·.plan.children[index]?)

/-- Plan and position of the first stored child with a client order id. -/
def firstChild (r : Runtime) (clientOrderId : String) : Option (String × ℕ) :=
  (r.planOfChild clientOrderId).bind fun e =>
    (ChildPlan.firstOf clientOrderId e.2.plan.children).map (e.1, ·)

theorem childAt_congr {r r' : Runtime} (h : r'.childPlans = r.childPlans) (key : String)
    (index : ℕ) : r'.childAt key index = r.childAt key index := by
  rw [childAt, h, childAt]

theorem firstChild_congr {r r' : Runtime} (h : r'.childPlans = r.childPlans) (id : String) :
    r'.firstChild id = r.firstChild id := by
  rw [firstChild, planOfChild, h, firstChild, planOfChild]

theorem onChildPlan_of_none {id : String} {p : Fallible ChildPlan PlanError Unit} {r : Runtime}
    (h : r.planOfChild id = none) : onChildPlan id p r = (.ok none, r) := by
  rw [onChildPlan, reads_bind, id_eq, h]
  rfl

theorem onChildPlan_of_some {id key : String} {p : Fallible ChildPlan PlanError Unit} {r : Runtime}
    {record : ChildPlanRecord} (h : r.planOfChild id = some (key, record)) :
    onChildPlan id p r =
      (((p record.plan).1.mapError .plan).map fun _ =>
          some { record with plan := (p record.plan).2 },
        { r with
          childPlans := r.childPlans.insert key { record with plan := (p record.plan).2 } }) := by
  rw [onChildPlan, reads_bind, id_eq, h]
  dsimp only
  rw [modify_bind, bind_apply, ofExcept_apply]
  cases (p record.plan).1 <;> rfl

/-- Claims carry risk-approved intents. -/
theorem claimPlans_state {now : MonoTime} {plans : List (String × ChildPlanRecord)}
    {r r' : Runtime} {claims : List ClaimedChild}
    (h : claimPlans now plans r = (.ok claims, r')) :
    ∀ claim ∈ claims, claim.intent.state = .riskApproved := by
  induction plans generalizing r claims with
  | nil =>
    cases h
    simp
  | cons entry rest ih =>
    rw [claimPlans, modify_bind] at h
    obtain ⟨children, -, h⟩ := ofExcept_bind_eq_ok h
    obtain ⟨others, s, hrest, h⟩ := bind_eq_ok h
    cases h
    intro claim hmem
    rcases List.mem_append.mp hmem with hmem | hmem
    · obtain ⟨child, -, rfl⟩ := List.mem_map.mp hmem
      rfl
    · exact ih hrest claim hmem

/-- Claiming touches the stored plans only. -/
theorem claimDueChildren_same {now : MonoTime} :
    Along (Same fun r : Runtime => (r.trace, r.orders)) (claimDueChildren now) := by
  have hplans (plans : List (String × ChildPlanRecord)) :
      Along (Same fun r : Runtime => (r.trace, r.orders)) (claimPlans now plans) := by
    induction plans with
    | nil => exact Along.ret _
    | cons entry rest ih =>
      exact Along.bind (Along.modify fun _ => rfl) fun _ => (Along.ofExcept _).bind fun _ =>
        ih.bind fun _ => Along.ret _
  exact (Along.reads _).bind fun _ => hplans _

/-- What marking a child unknown does to the stored plans. -/
theorem markChildUnknown_snd (id : String) (r : Runtime) :
    (markChildUnknown id r).2 = (onChildPlan id (ChildPlan.update id ChildRecord.markUnknown) r).2 := by
  rw [markChildUnknown, bind_apply, ChildPlan.markUnknown]
  rcases onChildPlan id (ChildPlan.update id ChildRecord.markUnknown) r with ⟨_ | _ | _, _⟩ <;> rfl

/-- A change of the plan that owns a child reaches that child and no other. -/
theorem onChildPlan_childAt (id : String) (f : ChildRecord → Option ChildRecord) (r : Runtime)
    (key : String) (index : ℕ) :
    (onChildPlan id (ChildPlan.update id f) r).2.childAt key index =
      if r.firstChild id = some (key, index) then (r.childAt key index).map fun c => (f c).getD c
      else r.childAt key index := by
  cases hplan : r.planOfChild id with
  | none => rw [onChildPlan_of_none hplan, firstChild, hplan]; rfl
  | some e =>
    obtain ⟨owner, record⟩ := e
    have hget : r.childPlans[owner]? = some record :=
      Std.TreeMap.mem_toList_iff_getElem?_eq_some.mp (List.mem_of_find?_eq_some hplan)
    have hchildren : (ChildPlan.update id f record.plan).2.children =
        (ChildPlan.updateList id f record.plan.children).getD record.plan.children := by
      unfold ChildPlan.update
      cases ChildPlan.updateList id f record.plan.children <;> rfl
    rw [onChildPlan_of_some hplan, firstChild, hplan]
    simp only [childAt, Std.TreeMap.getElem?_insert, Option.bind_some]
    by_cases howner : owner = key
    · subst howner
      simp [hget, hchildren, ChildPlan.updateList_getElem?]
    · have hne : ¬(ChildPlan.firstOf id record.plan.children).map (owner, ·) = some (key, index) := by
        cases ChildPlan.firstOf id record.plan.children <;> simp [howner]
      simp [hne, howner]

end Runtime

-- One claim

/-- The stored plans stay as they are. -/
abbrev Host.KeepsPlans : Host → Host → Prop := Same (·.runtime.childPlans)

namespace Host

variable {env : Env} {now : MonoTime}

theorem appendEvent_keepsPlans {record : JournalRecord} :
    Along KeepsPlans (appendEvent env record) := by
  refine (Along.reads _).bind fun _ => Along.bind ?_ fun _ => (Along.reads _).bind fun _ =>
    (Along.require _ _).bind fun _ => Along.modify fun _ => rfl
  refine (Along.reads _).bind fun h => ?_
  split
  · exact Along.fail _
  · exact Along.modify fun h => rfl

theorem submitIntentWithTiming_keepsPlans {intent : OrderIntent} :
    Along KeepsPlans (submitIntentWithTiming env intent now) := by
  have hdecision (market : Option ExecutionMarketReference) :
      Along (Same Runtime.childPlans) (Runtime.recordDecision intent now market) :=
    (Along.reads _).bind fun _ => (Along.require _ _).bind fun _ => (Along.require _ _).bind
      fun _ => Along.bind (Along.modify fun _ => rfl) fun _ => Along.ret _
  have hsend (sent : MonoTime) (market : Option ExecutionMarketReference) :
      Along (Same Runtime.childPlans) (Runtime.recordSend intent.clientOrderId sent market) :=
    (Along.reads _).bind fun _ => (Along.orFail _ _).bind fun _ => (Along.require _ _).bind
      fun _ => Along.bind (Along.modify fun _ => rfl) fun _ => Along.ret _
  have hclock : Along KeepsPlans (monotonicNow env) := fun _ => rfl
  have hsubmit : Along (Same Runtime.childPlans) (Runtime.submitIntent env intent) := by
    intro r
    rcases Runtime.submitIntent_cases env intent r with hsame | ⟨-, -, book, hrun, -⟩
    · rw [hsame]; exact Std.Refl.refl r
    · rw [hrun]; rfl
  exact (Along.reads _).bind fun _ => (onRuntime_same (hdecision _)).bind fun _ =>
    Along.bind appendEvent_keepsPlans fun _ => hclock.bind fun _ => (onRuntime_same (hsend _ _)).bind
    fun _ => Along.bind appendEvent_keepsPlans fun _ => onRuntime_same hsubmit

/-- An order id that is known already is refused. -/
theorem submitIntentWithTiming_fails {intent : OrderIntent} {h : Host}
    (hk : h.runtime.hasOrder intent.clientOrderId) {u : Unit} {s : Host} :
    submitIntentWithTiming env intent now h ≠ (.ok u, s) := by
  intro hrun
  obtain ⟨_, s₀, h₀, hrun⟩ := bind_eq_ok hrun
  obtain ⟨_, s₁, h₁, hrun⟩ := bind_eq_ok hrun
  obtain ⟨_, s₂, h₂, hrun⟩ := bind_eq_ok hrun
  obtain ⟨_, s₃, h₃, hrun⟩ := bind_eq_ok hrun
  obtain ⟨_, s₄, h₄, hrun⟩ := bind_eq_ok hrun
  obtain ⟨_, s₅, h₅, hrun⟩ := bind_eq_ok hrun
  have hquiet : Quiet h s₅ := by
    have q₀ : Quiet h s₀ := (Along.reads _).of_ok h₀
    have q₁ := (onRuntime_quiet Runtime.recordDecision_silent).of_ok h₁
    have q₂ := Along.of_ok appendEvent_quiet h₂
    have q₃ := Along.of_ok monotonicNow_quiet h₃
    have q₄ := (onRuntime_quiet Runtime.recordSend_silent).of_ok h₄
    exact q₀.trans (q₁.trans (q₂.trans (q₃.trans (q₄.trans (Along.of_ok appendEvent_quiet h₅)))))
  have hknown : (s₅.runtime.orders.get intent.clientOrderId).isSome := Moves.hasOrder hquiet hk
  have hsubmit := onRuntime_eq_ok hrun
  rw [Runtime.submitIntent, reads_bind] at hsubmit
  obtain ⟨_, -, hsubmit⟩ := ofExcept_bind_eq_ok hsubmit
  have hfail := (Runtime.submitOrder_of_known env hknown).2
  rw [hsubmit] at hfail
  cases hfail

/-- What a claim passes before its submission fails. -/
def Reaches (env : Env) (claim : Runtime.ClaimedChild) (h : Host) : Prop :=
  env.takes h.trace (encodeChildPlan claim.record) ∧
    env.takes (h.trace ++ [.append (encodeChildPlan claim.record)])
      (encodeOrderIntent claim.intent) ∧
    ¬Text.isBlank claim.intent.intentId ∧ ¬h.runtime.hasOrder claim.intent.clientOrderId

instance (env : Env) (claim : Runtime.ClaimedChild) (h : Host) : Decidable (Reaches env claim h) :=
  inferInstanceAs (Decidable (_ ∧ _ ∧ _ ∧ _))

theorem restoreClaim_keepsPlans {claim : Runtime.ClaimedChild} :
    Along KeepsPlans (restoreClaim env claim) := by
  have hrestore : Along KeepsPlans (onRuntime (Runtime.restoreIntent claim.intent)) := fun _ => rfl
  exact Along.bind appendEvent_keepsPlans fun _ => Along.bind appendEvent_keepsPlans fun _ =>
    (Along.require _ _).bind fun _ => hrestore

/-- A claim is restored when nothing before its submission fails. -/
theorem restoreClaim_ok_iff {claim : Runtime.ClaimedChild}
    (hstate : claim.intent.state = .riskApproved) {h : Host} :
    (∃ s, restoreClaim env claim h = (.ok (), s)) ↔ Reaches env claim h := by
  constructor
  · rintro ⟨s, hr⟩
    obtain ⟨_, s₁, h₁, hr⟩ := bind_eq_ok hr
    obtain ⟨htakes, rfl⟩ := appendEvent_eq_ok_iff.mp h₁
    obtain ⟨_, s₂, h₂, hr⟩ := bind_eq_ok hr
    obtain ⟨htakes', rfl⟩ := appendEvent_eq_ok_iff.mp h₂
    obtain ⟨hblank, hr⟩ := require_bind_eq_ok hr
    obtain ⟨-, hfresh, -⟩ := restoreIntent_eq_ok_iff.mp hr
    have hget : h.runtime.orders.get claim.intent.clientOrderId = none := hfresh
    exact ⟨htakes, htakes', hblank, by simp [Runtime.hasOrder, hget]⟩
  · rintro ⟨htakes, htakes', hblank, hfresh⟩
    have h₁ : appendEvent env (encodeChildPlan claim.record) h = (.ok (), _) :=
      appendEvent_eq_ok_iff.mpr ⟨htakes, rfl⟩
    have h₂ : appendEvent env (encodeOrderIntent claim.intent)
        ((h.emit (.append (encodeChildPlan claim.record))).project
          ⟨h.journalCursor, encodeChildPlan claim.record⟩) = (.ok (), _) :=
      appendEvent_eq_ok_iff.mpr ⟨htakes', rfl⟩
    rw [restoreClaim, bind_of_ok h₁, bind_of_ok h₂, indexOrder, require_bind, if_pos hblank]
    have hget : h.runtime.orders.get claim.intent.clientOrderId = none := by
      simpa [Runtime.hasOrder] using hfresh
    exact ⟨_, restoreIntent_eq_ok_iff.mpr ⟨hstate, hget, rfl⟩⟩

/-- **No claim succeeds.** -/
theorem driveChild_fails {claim : Runtime.ClaimedChild} {h s : Host} {u : Unit} :
    driveChild env now claim h ≠ (.ok u, s) := by
  intro hrun
  obtain ⟨_, s₁, hrestore, hrun⟩ := bind_eq_ok hrun
  have hknown := restoreClaim_hasOrder hrestore
  rw [settleClaim, attempt_bind] at hrun
  rcases hsubmit : submitIntentWithTiming env claim.intent now s₁ with ⟨e | u, s₂⟩
  · rw [hsubmit] at hrun
    obtain ⟨_, s₃, -, hrun⟩ := bind_eq_ok hrun
    obtain ⟨_, s₄, -, hrun⟩ := bind_eq_ok hrun
    cases hrun
  · exact submitIntentWithTiming_fails hknown hsubmit

/-- A claim changes at most the first stored child with its order id, which it marks unknown. -/
theorem driveChild_childAt {claim : Runtime.ClaimedChild}
    (hstate : claim.intent.state = .riskApproved) (h : Host) (key : String) (index : ℕ) :
    (driveChild env now claim h).2.runtime.childAt key index =
      if Reaches env claim h ∧
          h.runtime.firstChild claim.intent.clientOrderId = some (key, index) then
        (h.runtime.childAt key index).map fun c => c.markUnknown.getD c
      else h.runtime.childAt key index := by
  have hkeeps : Along KeepsPlans (restoreClaim env claim) := restoreClaim_keepsPlans
  rcases hrestore : restoreClaim env claim h with ⟨e | u, s⟩
  · -- the claim fails before its submission
    have hplans : KeepsPlans h s := by simpa [hrestore] using hkeeps h
    have hnot : ¬Reaches env claim h := by
      intro hr
      obtain ⟨s', hs'⟩ := (restoreClaim_ok_iff hstate).mpr hr
      rw [hs'] at hrestore
      cases hrestore
    rw [driveChild, bind_of_error hrestore, if_neg fun hr => hnot hr.1]
    exact Runtime.childAt_congr hplans key index
  · -- the submission fails, and the child is marked unknown
    have hreaches : Reaches env claim h := (restoreClaim_ok_iff hstate).mp ⟨s, hrestore⟩
    have hsubmits : Along KeepsPlans (submitIntentWithTiming env claim.intent now) :=
      submitIntentWithTiming_keepsPlans
    rcases hsubmit : submitIntentWithTiming env claim.intent now s with ⟨e | u, s'⟩
    · have hplans : KeepsPlans h s' :=
        IsTrans.trans _ _ _ (hkeeps.of_ok hrestore) (by simpa [hsubmit] using hsubmits s)
      rw [driveChild, bind_of_ok hrestore, settleClaim, attempt_bind, hsubmit]
      have hmarked := Runtime.onChildPlan_childAt claim.intent.clientOrderId
        ChildRecord.markUnknown s'.runtime key index
      rw [← Runtime.markChildUnknown_snd, Runtime.firstChild_congr hplans,
        Runtime.childAt_congr hplans] at hmarked
      simp only [hreaches, true_and]
      rw [← hmarked]
      rcases hm : onRuntime (Runtime.markChildUnknown claim.intent.clientOrderId) s' with
        ⟨e' | record, s''⟩
      · rw [bind_of_error hm, ← congrArg (·.2.runtime) hm]
        rfl
      · have hjournal : Along KeepsPlans (do
            appendEvent env (encodeChildPlan record)
            fail e : Fallible Host EngineError Unit) :=
          Along.bind appendEvent_keepsPlans fun _ => Along.fail _
        have hruntime : (Runtime.markChildUnknown claim.intent.clientOrderId s'.runtime).2 =
            s''.runtime := congrArg (·.2.runtime) hm
        rw [bind_of_ok hm, hruntime]
        exact Runtime.childAt_congr (hjournal s'') key index
    · exact absurd hsubmit (submitIntentWithTiming_fails (restoreClaim_hasOrder hrestore))

-- One call

/-- The host after the due children were claimed. -/
def afterClaims (now : MonoTime) (h : Host) : Host :=
  (onRuntime (Runtime.claimDueChildren now) h).2

/-- A call claims a child: it was pending, and the claim pass leaves it sending. -/
def Claimed (now : MonoTime) (h : Host) (key : String) (index : ℕ) : Prop :=
  (h.runtime.childAt key index).any (·.state = .pending) ∧
    ((h.afterClaims now).runtime.childAt key index).any (·.state = .sending)

instance (now : MonoTime) (h : Host) (key : String) (index : ℕ) :
    Decidable (Claimed now h key index) :=
  inferInstanceAs (Decidable (_ ∧ _))

/-- What the call promises: no claimed child is still sending, and every claimed child that is
authorized is sent once if its records are journaled. -/
structure ChildrenDriven (env : Env) (now : MonoTime) (h : Host) : Prop where
  settled : ∀ key index, Claimed now h key index →
    ¬((driveScheduledChildren env now h).2.runtime.childAt key index).any (·.state = .sending)
  sent : env.Reliable → ∀ claims, (Runtime.claimDueChildren now h.runtime).1 = .ok claims →
    ∀ claim ∈ claims, (h.runtime.authorizeIntent claim.intent).isOk →
    ∃ new, sends (driveScheduledChildren env now h).2.trace = sends h.trace ++ new ∧
      new.countP (·.clientOrderId = claim.intent.clientOrderId) = 1

/-- A claimed child that the failing first claim marks unknown: the first claim reaches its
submission, and the child is the first stored one with the order id. -/
def MarkedUnknown (env : Env) (now : MonoTime) (h : Host) (key : String) (index : ℕ) : Prop :=
  ∃ claim rest, (Runtime.claimDueChildren now h.runtime).1 = .ok (claim :: rest) ∧
    Reaches env claim h ∧
    (h.afterClaims now).runtime.firstChild claim.intent.clientOrderId = some (key, index)

/-- What the failing first claim does to the stored children. -/
theorem driveScheduledChildren_childAt (h : Host) (key : String) (index : ℕ) :
    (MarkedUnknown env now h key index →
      (driveScheduledChildren env now h).2.runtime.childAt key index =
        ((h.afterClaims now).runtime.childAt key index).map fun c => c.markUnknown.getD c) ∧
    (¬MarkedUnknown env now h key index →
      (driveScheduledChildren env now h).2.runtime.childAt key index =
        (h.afterClaims now).runtime.childAt key index) := by
  unfold MarkedUnknown
  rcases hclaim : Runtime.claimDueChildren now h.runtime with ⟨e | claims, r⟩
  · have hrun : onRuntime (Runtime.claimDueChildren now) h = (.error e, h.afterClaims now) := by
      rw [afterClaims, onRuntime, zoom_apply, hclaim]
      rfl
    rw [driveScheduledChildren, bind_of_error hrun]
    simp
  · have hrun : onRuntime (Runtime.claimDueChildren now) h = (.ok claims, h.afterClaims now) := by
      rw [afterClaims, onRuntime, zoom_apply, hclaim]
      rfl
    rw [driveScheduledChildren, bind_of_ok hrun]
    cases claims with
    | nil => simp [forEach, bind_apply]
    | cons claim rest =>
      have hstate : claim.intent.state = .riskApproved := by
        rw [Runtime.claimDueChildren, reads_bind] at hclaim
        exact Runtime.claimPlans_state hclaim claim (by simp)
      have hsame : Along (Same fun h : Host => (h.runtime.trace, h.runtime.orders))
          (onRuntime (Runtime.claimDueChildren now)) :=
        onRuntime_same Runtime.claimDueChildren_same
      have hkept := Prod.mk.inj (hsame.of_ok hrun)
      have hreaches : Reaches env claim (h.afterClaims now) ↔ Reaches env claim h := by
        simp only [Reaches, Host.trace, Runtime.hasOrder, hkept.1, hkept.2]
      have hchild : (driveChild env now claim (h.afterClaims now)).2.runtime.childAt key index =
          if Reaches env claim (h.afterClaims now) ∧ _ then _ else _ :=
        driveChild_childAt hstate _ key index
      rcases hdrive : driveChild env now claim (h.afterClaims now) with ⟨e | u, s⟩
      · have hloop : forEach (driveChild env now) (claim :: rest) (h.afterClaims now) =
            (.error e, s) := bind_of_error hdrive
        rw [hdrive] at hchild
        rw [bind_of_error hloop]
        simp only [hchild, hreaches, Except.ok.injEq, List.cons.injEq]
        constructor
        · rintro ⟨_, _, ⟨rfl, rfl⟩, hr, hfirst⟩
          rw [if_pos ⟨hr, hfirst⟩]
        · intro hnot
          exact if_neg fun hr => hnot ⟨claim, rest, ⟨rfl, rfl⟩, hr⟩
      · exact absurd hdrive driveChild_fails

end Host

namespace Sample

/-- A plan of three slices of which the first was driven when it was created. -/
def scheduled : Host :=
  (Op.submitScheduledProposal (proposal 5 10) (.twap 3 1000) 1000 3).after (env empty) running

end Sample

end InsiderTrader
