import InsiderTrader.Library.Runs
import InsiderTrader.Operation
import InsiderTrader.PlanEvents

/-!
# Replaying the plan events

The plan store writes an event for each change, and a later process replays the
events, read back from their bytes, into an empty store. A lifecycle step past
the expiry of a plan writes an expiry whatever was asked, also of a plan that
was rejected or is being executed; the replay does not take such a step.

## Main definitions

- `PlanStore.approve` — evaluate the policy, then approve the plan
- `PlanCall` — a call on the store
- `PlanStore.Replays` — the events of a store replay to its records
- `PlanStore.KeepsFinal` — the plans that were done stay as they were
- `PlanCall.Breaks` — a call that the replay does not take

## Main results

- `PlanCall.replays_apply_iff` — one call, at a store that replays
- `PlanStore.replays_along_iff` — the runs whose stores replay, and whose plans stay done
-/

namespace InsiderTrader

open PlanEvents

/-- Constraints of the automation. -/
structure AutonomyPolicy where
  mode : AutonomyMode
  allowEntries : Bool
  maxScale : F64
  deriving DecidableEq

/-- Why the policy rejects an action. -/
inductive RejectReason where
  | manualMode
  | policy
  | proposalUnavailable
  | scaleLimit
  | strategyUnavailable
  | instrumentUnavailable
  | notionalLimit
  deriving DecidableEq

/-- The actions that were approved, and the others with the reasons. -/
abbrev Approval : Type := List ApprovedAction × List (AutonomousAction × RejectReason)

/-- The proposal may open or increase a position. -/
def Proposal.isEntry (p : Proposal) : Bool :=
  match p.action with
  | .increase quantityTicks | .targetQuantity quantityTicks => 0 < quantityTicks
  | _ => false

/-- Evaluate the policy for one action. -/
def approveAction (float : FloatArith) (policy : AutonomyPolicy) (proposals : List Proposal)
    (action : AutonomousAction) : Except RejectReason ApprovedAction :=
  if policy.mode = .manual then .error .manualMode
  else
    let proposal := action.proposalId.bind fun id =>
      proposals.find? (displayIdentity "proposal" ·.proposalId = id)
    if (action.actionType = .executeProposal ∨ action.actionType = .executeProposalScaled)
        ∧ proposal.isNone then .error .proposalUnavailable
    else
      let scale := action.scale.getD float.one
      if ¬float.isFinite scale ∨ float.atMost scale float.zero
          ∨ float.exceeds scale policy.maxScale then .error .scaleLimit
      else if policy.mode = .hybrid ∧ ¬policy.allowEntries ∧ proposal.any (·.isEntry) then
        .error .policy
      else .ok ⟨action, scale⟩

/-- Evaluate the policy for each action of a plan. -/
def approvePlan (float : FloatArith) (plan : Plan) (now : MonoTime) (policy : AutonomyPolicy)
    (proposals : List Proposal) : Except String Approval := do
  plan.validate float now
  if float.inPositiveUnit policy.maxScale then
    let outcomes := plan.actions.map fun action =>
      (action, approveAction float policy proposals action)
    pure (outcomes.filterMap (·.2.toOption), outcomes.filterMap fun (action, outcome) =>
      match outcome with
      | .ok _ => none
      | .error reason => some (action, reason))
  else .error "policy max_scale must be finite and in (0,1]"

/-- Evaluate the policy, then approve a plan. -/
def PlanStore.approve (float : FloatArith) (planId : String) (now : MonoTime)
    (policy : AutonomyPolicy) (proposals : List Proposal) :
    Fallible PlanStore PlanStoreError Approval := do
  let s ← Fallible.reads id
  let record ← Fallible.orFail (s.get planId) .notFound
  let approval ← Fallible.ofExcept
    ((approvePlan float record.plan now policy proposals).mapError .invalid)
  PlanStore.transition planId .approved now
  pure approval

/-- A call on the store. -/
inductive PlanCall where
  | submit (plan : Plan) (now : MonoTime)
  | transition (planId : String) (next : PlanState) (now : MonoTime)
  | approve (planId : String) (now : MonoTime) (policy : AutonomyPolicy)
      (proposals : List Proposal)

/-- The store after a call, whatever its outcome. -/
def PlanCall.apply (float : FloatArith) : PlanCall → PlanStore → PlanStore
  | .submit plan now, s => (s.submit float plan now).2
  | .transition planId next now, s => (s.transition planId next now).2
  | .approve planId now policy proposals, s => (s.approve float planId now policy proposals).2

namespace PlanStore

variable {float : FloatArith} {s t t' : PlanStore} {planId : String} {record : PlanRecord}
  {plan : Plan} {next state : PlanState} {now : MonoTime}

-- The replay

/-- Replay one event, read back from its bytes. -/
def replayEvent (float : FloatArith) (s : PlanStore) (event : PlanEvent) : Option PlanStore :=
  match decodePlanEvent float (encodePlanEvent event) with
  | .error _ => none
  | .ok decoded =>
    match restoreEvent float decoded s with
    | (.ok _, s') => some s'
    | (.error _, _) => none

/-- Replay events into an empty store; the first one that is refused ends the replay. -/
def replay (float : FloatArith) (events : List PlanEvent) : Option PlanStore :=
  events.foldlM (replayEvent float) new

/-- The events of a store replay to its records. -/
def Replays (float : FloatArith) (s : PlanStore) : Prop :=
  ∃ t, replay float s.events = some t ∧ ∀ id, t.get id = s.get id

theorem replay_append (events : List PlanEvent) (event : PlanEvent) :
    replay float (events ++ [event]) =
      (replay float events).bind fun t => replayEvent float t event := by
  rw [replay, List.foldlM_append]
  refine congrArg _ (funext fun t => ?_)
  rw [List.foldlM_cons]
  exact bind_pure _

/-- The records of a store after one more event. -/
theorem replays_append_iff {event : PlanEvent} (ht : replay float s.events = some t)
    {records : Std.TreeMap String PlanRecord} :
    Replays float ⟨records, s.events ++ [event]⟩ ↔
      ∃ t', replayEvent float t event = some t' ∧ ∀ id : String, t'.get id = records[id]? := by
  rw [Replays, replay_append, ht]
  exact Iff.rfl

theorem get_insert (records : Std.TreeMap String PlanRecord) (events : List PlanEvent)
    (planId id : String) (record : PlanRecord) :
    (⟨records.insert planId record, events⟩ : PlanStore).get id =
      if planId = id then some record else records[id]? := by
  simp [get, Std.TreeMap.getElem?_insert]

theorem replayEvent_transition (hid : (Wire.utf8 planId).length ≤ maxStringBytes)
    (hget : t.get planId = some record) (state : PlanState) :
    replayEvent float t (.transition planId state) =
      if record.state = state then some t
      else if legalPlanTransition record.state state then
        some { t with records := t.records.insert planId { record with state := state } }
      else none := by
  have hrun : restoreEvent float (.transition planId state) t =
      (if record.state = state then pure ()
      else if legalPlanTransition record.state state then
        Fallible.modify fun s =>
          { s with records := s.records.insert planId { record with state := state } }
      else Fallible.fail (.invalidTransition record.state state) :
        Fallible PlanStore PlanStoreError Unit) t := by
    rw [restoreEvent, Fallible.reads_bind, id]
    dsimp only
    rw [hget]
  rw [replayEvent, decodePlanEvent_transition hid]
  dsimp only
  rw [hrun]
  by_cases hstate : record.state = state
  · rw [if_pos hstate, if_pos hstate]
    rfl
  · rw [if_neg hstate, if_neg hstate]
    by_cases hlegal : legalPlanTransition record.state state = true
    · rw [if_pos hlegal, if_pos hlegal]
      rfl
    · rw [if_neg hlegal, if_neg hlegal]
      rfl

theorem replayEvent_submitted (hfits : plan.Fits) (hvalid : plan.validate float now = .ok ())
    (hnew : t.get plan.planId = none) : replayEvent float t (.submitted plan) = some t' ↔
      plan.Stored ∧ t' = { t with records := t.records.insert plan.planId ⟨plan, .pending⟩ } := by
  rw [replayEvent]
  cases hdecode : decodePlanEvent float (encodePlanEvent (.submitted plan)) with
  | error e =>
    refine iff_of_false nofun fun h => ?_
    rw [(decodePlanEvent_submitted_iff hfits hvalid).mpr ⟨rfl, h.1⟩] at hdecode
    cases hdecode
  | ok event =>
    obtain ⟨rfl, hstored⟩ := (decodePlanEvent_submitted_iff hfits hvalid).mp hdecode
    have hrestored : plan.validate float plan.generatedAt = .ok () :=
      (validate_generatedAt_iff hvalid).mpr hstored.interval
    have hrun : restoreEvent float (.submitted plan) t =
        (.ok (), { t with records := t.records.insert plan.planId ⟨plan, .pending⟩ }) := by
      rw [restoreEvent, Fallible.reads_bind, id]
      dsimp only
      rw [hrestored, hnew]
      rfl
    dsimp only
    rw [hrun, and_iff_right hstored, Option.some.injEq]
    exact eq_comm

/-- **A lifecycle step** of a store that replays replays when the replay takes it. -/
theorem replays_emit_iff (h : Replays float s) (hid : (Wire.utf8 planId).length ≤ maxStringBytes)
    (hget : s.get planId = some record) : Replays float (s.emit planId record state) ↔
      record.state = state ∨ legalPlanTransition record.state state = true := by
  obtain ⟨t, ht, hsame⟩ := h
  rw [emit, replays_append_iff ht, replayEvent_transition hid ((hsame planId).trans hget)]
  have hinserted : ∀ id, (⟨t.records.insert planId { record with state := state }, t.events⟩ :
      PlanStore).get id = (s.records.insert planId { record with state := state })[id]? := by
    intro id
    have hother : t.records[id]? = s.records[id]? := hsame id
    rw [get_insert, Std.TreeMap.getElem?_insert, hother]
    simp
  split
  · next hstate =>
    refine iff_of_true ⟨t, rfl, fun id => ?_⟩ (.inl hstate)
    rw [← hinserted, get_insert, ← hstate]
    split
    · next heq => rw [← heq, hsame, hget]
    · rfl
  · next hstate =>
    split
    · next hlegal => exact iff_of_true ⟨_, rfl, hinserted⟩ (.inr hlegal)
    · next hillegal =>
      refine iff_of_false ?_ fun h => h.elim hstate hillegal
      rintro ⟨_, hnone, -⟩
      cases hnone

/-- **A submission** to a store that replays replays when the decoder takes its plan. -/
theorem replays_submitted_iff (h : Replays float s) (hfits : plan.Fits)
    (hvalid : plan.validate float now = .ok ()) (hnew : s.get plan.planId = none) :
    Replays float ⟨s.records.insert plan.planId ⟨plan, .pending⟩, s.events ++ [.submitted plan]⟩ ↔
      plan.Stored := by
  obtain ⟨t, ht, hsame⟩ := h
  rw [replays_append_iff ht]
  constructor
  · rintro ⟨t', ht', -⟩
    exact ((replayEvent_submitted hfits hvalid ((hsame plan.planId).trans hnew)).mp ht').1
  · intro hstored
    refine ⟨_, (replayEvent_submitted hfits hvalid ((hsame plan.planId).trans hnew)).mpr
      ⟨hstored, rfl⟩, fun id => ?_⟩
    have hother : t.records[id]? = s.records[id]? := hsame id
    rw [get_insert, Std.TreeMap.getElem?_insert, hother]
    simp

-- The calls

/-- What a submission does: nothing, or it stores a plan that is valid and new. -/
theorem submit_cases (float : FloatArith) (plan : Plan) (now : MonoTime) (s : PlanStore) :
    (s.submit float plan now).2 = s ∧
        ¬(plan.validate float now = .ok () ∧ s.get plan.planId = none) ∨
      plan.validate float now = .ok () ∧ s.get plan.planId = none ∧
        (s.submit float plan now).2 =
          ⟨s.records.insert plan.planId ⟨plan, .pending⟩, s.events ++ [.submitted plan]⟩ := by
  rw [submit, Fallible.reads_bind, id]
  cases hvalid : plan.validate float now with
  | error text => exact .inl ⟨rfl, nofun⟩
  | ok _ =>
    dsimp only
    cases hnew : s.get plan.planId with
    | none => exact .inr ⟨rfl, rfl, rfl⟩
    | some record => exact .inl ⟨rfl, nofun⟩

/-- The plan is past its expiry, and was rejected or is being executed. -/
def Overdue (s : PlanStore) (planId : String) (next : PlanState) (now : MonoTime) : Prop :=
  ∃ record, s.get planId = some record ∧ record.state ≠ next ∧ record.plan.expiresAt ≤ now ∧
    (record.state = .rejected ∨ record.state = .executing)

/-- What a lifecycle step does: nothing, a step that the replay takes, or the expiry of a plan that
was rejected or is being executed. -/
theorem transition_cases (planId : String) (next : PlanState) (now : MonoTime) (s : PlanStore) :
    (transition planId next now s).2 = s ∧ ¬s.Overdue planId next now ∨
      (∃ record state, s.get planId = some record ∧ ¬s.Overdue planId next now ∧
        (transition planId next now s).2 = s.emit planId record state ∧
          (record.state = .expired ∧ state = .expired ∨
            legalPlanTransition record.state state = true)) ∨
      ∃ record, s.get planId = some record ∧ s.Overdue planId next now ∧
        (transition planId next now s).2 = s.emit planId record .expired ∧
          (record.state = .rejected ∨ record.state = .executing) := by
  have hrecord : ∀ {record}, s.get planId = some record → (s.Overdue planId next now ↔
      record.state ≠ next ∧ record.plan.expiresAt ≤ now ∧
        (record.state = .rejected ∨ record.state = .executing)) := by
    intro record hget
    constructor
    · rintro ⟨found, hfound, hoverdue⟩
      rw [hget] at hfound
      cases hfound
      exact hoverdue
    · exact fun hoverdue => ⟨record, hget, hoverdue⟩
  rw [transition, Fallible.reads_bind, id]
  cases hget : s.get planId with
  | none =>
    refine .inl ⟨rfl, ?_⟩
    rintro ⟨record, hfound, -⟩
    rw [hget] at hfound
    cases hfound
  | some record =>
    dsimp only
    rw [hrecord hget]
    by_cases hsame : record.state = next
    · rw [if_pos hsame]
      exact .inl ⟨rfl, fun h => h.1 hsame⟩
    · rw [if_neg hsame]
      by_cases hexpired : record.plan.expiresAt ≤ now ∧ record.state ≠ .completed ∧
          record.state ≠ .failed
      · rw [if_pos hexpired, Fallible.modify_bind, Fallible.require]
        have hemit : ((if next = .expired then pure () else Fallible.fail .expired :
            Fallible PlanStore PlanStoreError Unit) (s.emit planId record .expired)).2 =
              s.emit planId record .expired := by
          split <;> rfl
        rw [hemit]
        by_cases hoverdue : record.state = .rejected ∨ record.state = .executing
        · exact .inr (.inr ⟨record, rfl, ⟨hsame, hexpired.1, hoverdue⟩, rfl, hoverdue⟩)
        · refine .inr (.inl ⟨record, .expired, rfl, fun h => hoverdue h.2.2, rfl, ?_⟩)
          obtain ⟨-, hcompleted, hfailed⟩ := hexpired
          cases hstate : record.state <;> simp_all [legalPlanTransition]
      · rw [if_neg hexpired]
        have hnot : ¬(record.state ≠ next ∧ record.plan.expiresAt ≤ now ∧
            (record.state = .rejected ∨ record.state = .executing)) := by
          rintro ⟨-, hpast, hstate⟩
          refine hexpired ⟨hpast, ?_⟩
          rcases hstate with hstate | hstate <;> rw [hstate] <;> decide
        by_cases hlegal : legalPlanTransition record.state next = true
        · rw [if_pos hlegal]
          exact .inr (.inl ⟨record, next, rfl, hnot, rfl, .inr hlegal⟩)
        · rw [if_neg hlegal]
          exact .inl ⟨rfl, hnot⟩

/-- What an approval does: nothing, or a lifecycle step before the expiry of the plan. -/
theorem approve_cases (float : FloatArith) (planId : String) (now : MonoTime)
    (policy : AutonomyPolicy) (proposals : List Proposal) (s : PlanStore) :
    (s.approve float planId now policy proposals).2 = s ∨
      ¬s.Overdue planId .approved now ∧ (s.approve float planId now policy proposals).2 =
        (transition planId .approved now s).2 := by
  rw [approve, Fallible.reads_bind, id]
  cases hget : s.get planId with
  | none => exact .inl rfl
  | some record =>
    rw [Fallible.orFail, Fallible.pure_bind]
    cases happroved : approvePlan float record.plan now policy proposals with
    | error text => exact .inl rfl
    | ok approval =>
      right
      obtain ⟨⟨⟩, hvalid, -⟩ := Wire.bind_eq_ok.mp happroved
      have hlive : now < record.plan.expiresAt := by
        rw [Plan.validate] at hvalid
        split at hvalid
        · cases hvalid
        · split at hvalid
          · cases hvalid
          · next hlive => exact Nat.not_le.mp hlive
      refine ⟨?_, ?_⟩
      · rintro ⟨found, hfound, -, hpast, -⟩
        rw [hget] at hfound
        cases hfound
        exact Nat.not_le.mpr hlive hpast
      · show ((transition planId .approved now >>= fun _ => pure approval :
          Fallible PlanStore PlanStoreError Approval) s).2 = _
        exact Fallible.bind_pure_snd _ _ s

/-- Every plan that was rejected, expired, completed or failed stays as it was. -/
def KeepsFinal (s s' : PlanStore) : Prop :=
  ∀ planId record, s.get planId = some record →
    (record.state = .rejected ∨ record.state = .expired ∨ record.state = .completed ∨
      record.state = .failed) → s'.get planId = some record

instance : IsTrans PlanStore KeepsFinal :=
  ⟨fun _ _ _ h h' planId record hget hfinal => h' planId record (h planId record hget hfinal) hfinal⟩

theorem KeepsFinal.refl (s : PlanStore) : KeepsFinal s s := fun _ _ hget _ => hget

/-- A step that the replay takes leaves the plans that were done. -/
theorem keepsFinal_emit (hget : s.get planId = some record)
    (hstep : record.state = .expired ∧ state = .expired ∨
      legalPlanTransition record.state state = true) : KeepsFinal s (s.emit planId record state) := by
  intro id found hfound hfinal
  rw [get_emit]
  split
  · next heq =>
    subst heq
    rw [hget] at hfound
    cases hfound
    rcases hstep with ⟨hexpired, rfl⟩ | hlegal
    · rw [← hexpired]
    · rcases hfinal with h | h | h | h <;> rw [h] at hlegal <;> cases state <;> cases hlegal
  · exact hfound

/-- The events replay to the records, and the identities of the records are short. -/
structure Journaled (float : FloatArith) (s : PlanStore) : Prop where
  replays : s.Replays float
  short : ∀ planId record, s.get planId = some record →
    (Wire.utf8 planId).length ≤ maxStringBytes

theorem Journaled.new (float : FloatArith) : Journaled float PlanStore.new :=
  ⟨⟨PlanStore.new, rfl, fun _ => rfl⟩, by simp [PlanStore.new, get]⟩

/-- One lifecycle step keeps a store journaled, unless the plan is overdue. -/
theorem Journaled.transition (h : Journaled float s) (hkeeps : ¬s.Overdue planId next now) :
    Journaled float (PlanStore.transition planId next now s).2 ∧
      KeepsFinal s (PlanStore.transition planId next now s).2 := by
  obtain ⟨hsame, -⟩ | ⟨record, state, hget, -, hemitted, hstep⟩ | ⟨_, -, hoverdue, -⟩ :=
    transition_cases planId next now s
  · rw [hsame]
    exact ⟨h, .refl s⟩
  · rw [hemitted]
    have hreplays : record.state = state ∨ legalPlanTransition record.state state = true :=
      hstep.imp_left fun hexpired => hexpired.1.trans hexpired.2.symm
    refine ⟨⟨(replays_emit_iff h.replays (h.short planId record hget) hget).mpr hreplays, ?_⟩,
      keepsFinal_emit hget hstep⟩
    intro id found hfound
    rw [get_emit] at hfound
    split at hfound
    · next heq => exact heq ▸ h.short planId record hget
    · exact h.short id found hfound
  · exact absurd hoverdue hkeeps

/-- The expiry of an overdue plan does not replay. -/
theorem not_replays_transition (h : Journaled float s) (hoverdue : s.Overdue planId next now) :
    ¬Replays float (PlanStore.transition planId next now s).2 := by
  obtain ⟨-, hnot⟩ | ⟨_, _, -, hnot, -⟩ | ⟨record, hget, -, hemitted, hstate⟩ :=
    transition_cases planId next now s
  · exact absurd hoverdue hnot
  · exact absurd hoverdue hnot
  · rw [hemitted, replays_emit_iff h.replays (h.short planId record hget) hget]
    rcases hstate with hstate | hstate <;> rw [hstate] <;> decide

end PlanStore

namespace PlanCall

open PlanStore

variable {float : FloatArith} {s : PlanStore}

/-- The numbers of a submitted plan have 64 bits. -/
def Fits : PlanCall → Prop
  | submit plan _ => plan.Fits
  | transition .. | approve .. => True

/-- A call that the replay does not take: the submission of a plan that the decoder does not take
back, or a lifecycle step of a plan that is overdue. -/
def Breaks (float : FloatArith) : PlanCall → PlanStore → Prop
  | submit plan now, s =>
    plan.validate float now = .ok () ∧ s.get plan.planId = none ∧ ¬plan.Stored
  | transition planId next now, s => s.Overdue planId next now
  | approve .., _ => False

/-- **One call** keeps a store journaled and the plans that were done, unless it breaks. -/
theorem journaled_apply {call : PlanCall} (h : PlanStore.Journaled float s) (hfits : call.Fits)
    (hkeeps : ¬call.Breaks float s) :
    PlanStore.Journaled float (call.apply float s) ∧ KeepsFinal s (call.apply float s) := by
  cases call with
  | submit plan now =>
    rw [PlanCall.apply]
    obtain ⟨hsame, -⟩ | ⟨hvalid, hnew, hstored⟩ := submit_cases float plan now s
    · rw [hsame]
      exact ⟨h, .refl s⟩
    · have hplan : plan.Stored := by
        by_contra hnot
        exact hkeeps ⟨hvalid, hnew, hnot⟩
      rw [hstored]
      refine ⟨⟨(replays_submitted_iff h.replays hfits hvalid hnew).mpr hplan, ?_⟩, ?_⟩
      · intro id found hfound
        rw [get_insert] at hfound
        split at hfound
        · next heq => exact heq ▸ hplan.planId
        · exact h.short id found hfound
      · intro id found hfound _
        rw [get_insert]
        split
        · next heq =>
          rw [← heq, hnew] at hfound
          cases hfound
        · exact hfound
  | transition planId next now => exact h.transition hkeeps
  | approve planId now policy proposals =>
    rw [PlanCall.apply]
    obtain hsame | ⟨hnot, hstep⟩ := approve_cases float planId now policy proposals s
    · rw [hsame]
      exact ⟨h, .refl s⟩
    · rw [hstep]
      exact h.transition hnot

/-- **Exactly the calls that break** end in a store that does not replay. -/
theorem replays_apply_iff {call : PlanCall} (h : PlanStore.Journaled float s) (hfits : call.Fits) :
    Replays float (call.apply float s) ↔ ¬call.Breaks float s := by
  refine ⟨fun hreplays hbreaks => ?_, fun hkeeps => (journaled_apply h hfits hkeeps).1.replays⟩
  cases call with
  | submit plan now =>
    rw [PlanCall.apply] at hreplays
    obtain ⟨hvalid, hnew, hnot⟩ := hbreaks
    obtain ⟨-, hrefused⟩ | ⟨-, -, hstored⟩ := submit_cases float plan now s
    · exact hrefused ⟨hvalid, hnew⟩
    · rw [hstored] at hreplays
      exact hnot ((replays_submitted_iff h.replays hfits hvalid hnew).mp hreplays)
  | transition planId next now => exact not_replays_transition h hbreaks hreplays
  | approve planId now policy proposals => exact hbreaks

end PlanCall

/-- **Exactly the runs without a call that breaks** replay at every point to the records of the
store, and leave the plans that were done. -/
theorem replays_along_iff (float : FloatArith) (calls : List PlanCall)
    (hfits : ∀ call ∈ calls, call.Fits) :
    ((∀ s ∈ Runs.states (PlanCall.apply float) PlanStore.new calls, s.Replays float) ∧
        (Runs.states (PlanCall.apply float) PlanStore.new calls).Pairwise PlanStore.KeepsFinal) ↔
      ∀ c ∈ Runs.calls (PlanCall.apply float) PlanStore.new calls, ¬c.2.Breaks float c.1 := by
  have hnew := PlanStore.Journaled.new float
  rw [Runs.states_iff_of_inv (A := PlanCall.Fits) (I := PlanStore.Journaled float)
    (B := PlanCall.Breaks float)
    (fun _ _ hfits h hkeeps => (PlanCall.journaled_apply h hfits hkeeps).1)
    (fun _ _ hfits h => PlanCall.replays_apply_iff h hfits) hnew hnew.replays hfits]
  refine and_iff_left_of_imp fun hkeeps => ?_
  have hcalls := Runs.calls_of_step (A := PlanCall.Fits) (I := PlanStore.Journaled float)
    (G := fun call s => ¬call.Breaks float s)
    (fun _ _ hfits h hkeeps => (PlanCall.journaled_apply h hfits hkeeps).1) hnew hfits hkeeps
  refine Runs.states_pairwise_of_calls fun c hc => ?_
  obtain ⟨hcall, hjournaled⟩ := hcalls c hc
  exact (PlanCall.journaled_apply hjournaled hcall (hkeeps c hc)).2

namespace Sample

/-- A plan without actions that expires at 10. -/
def idlePlan : Plan := ⟨"p", 0, 10, []⟩

theorem idlePlan_fits : idlePlan.Fits := ⟨by decide, by decide, nofun⟩

theorem idlePlan_stored : idlePlan.Stored :=
  ⟨by decide, by decide, by decide, nofun, by decide⟩

theorem fits_of_rejected {call : PlanCall} {rest : List PlanCall}
    (h : call ∈ .submit idlePlan 0 :: .transition "p" .rejected 0 :: rest)
    (hrest : ∀ call ∈ rest, call.Fits) : call.Fits := by
  rcases List.mem_cons.mp h with rfl | h
  · exact idlePlan_fits
  · rcases List.mem_cons.mp h with rfl | h
    · trivial
    · exact hrest call h

end Sample

/-- A plan that is submitted and rejected before its expiry. -/
theorem replays_along_rejected :
    (∀ s ∈ Runs.states (PlanCall.apply Sample.float) PlanStore.new
        [.submit Sample.idlePlan 0, .transition "p" .rejected 0], s.Replays Sample.float) ∧
      (Runs.states (PlanCall.apply Sample.float) PlanStore.new
        [.submit Sample.idlePlan 0, .transition "p" .rejected 0]).Pairwise PlanStore.KeepsFinal := by
  refine (replays_along_iff Sample.float _ fun call hcall =>
    Sample.fits_of_rejected hcall fun _ h => absurd h List.not_mem_nil).mpr fun c hc => ?_
  rcases List.mem_cons.mp hc with rfl | hc
  · exact fun hbreaks => hbreaks.2.2 Sample.idlePlan_stored
  · rw [List.mem_singleton.mp hc]
    rintro ⟨record, hget, -, hpast, -⟩
    cases hget
    exact absurd hpast (by decide)

/-- **The expiry of a rejected plan does not replay**: a step of the rejected plan at 10, when it
expires, rewrites it to expired. -/
theorem rejected_plan_not_replayed : ¬∀ (float : FloatArith) (calls : List PlanCall),
    (∀ call ∈ calls, call.Fits) →
      (∀ s ∈ Runs.states (PlanCall.apply float) PlanStore.new calls, s.Replays float) ∧
        (Runs.states (PlanCall.apply float) PlanStore.new calls).Pairwise PlanStore.KeepsFinal := by
  intro h
  have hreplays := (h Sample.float [.submit Sample.idlePlan 0, .transition "p" .rejected 0,
    .transition "p" .approved 10] fun call hcall => Sample.fits_of_rejected hcall fun call hlast => by
      rw [List.mem_singleton.mp hlast]
      trivial).1 _ (Runs.final_mem_states _ _)
  obtain ⟨t, ht, -⟩ := hreplays
  have hnone : (PlanStore.replay Sample.float (Runs.final (PlanCall.apply Sample.float)
      PlanStore.new [.submit Sample.idlePlan 0, .transition "p" .rejected 0,
        .transition "p" .approved 10]).events).isNone = true := by decide
  rw [ht] at hnone
  cases hnone

end InsiderTrader
