import InsiderTrader.OrderMaking
import InsiderTrader.SubmissionMoves

/-!
# Which orders the host makes

The host makes orders under the names of proposals, and children of stored
plans, which name none. So an order that names a proposal is named after it,
whichever path made it.

## Main definitions

- `Host.strategyOf` — the strategy of a recorded proposal
- `Host.Makes` — new orders have an id of a kind, and the summaries stay
- `Host.MakesNamed` — new orders that name a proposal are named after it

## Main results

- `Host.submitProposal_makes`, `Host.submitManualPreview_makes` — orders of
  proposals
- `Host.driveScheduledChildren_orderly` — children
-/

namespace InsiderTrader

open Fallible

-- The coordinator

namespace Coordinator

variable {c : Coordinator}

/-- The recorded proposal of a number. -/
def proposalOf (c : Coordinator) (proposalId : ProposalId) : Option Proposal :=
  (c.record proposalId).map (·.proposal)

theorem proposalOf_setState (c : Coordinator) (id : ProposalId) (state : ProposalState) :
    (c.setState id state).proposalOf = c.proposalOf := by
  funext p
  unfold setState
  cases hrecord : c.records[id]? with
  | none => rfl
  | some record =>
    simp only [proposalOf, Coordinator.record, Std.TreeMap.getElem?_insert]
    split
    · next heq =>
      rw [← Std.LawfulEqCmp.eq_of_compare heq, hrecord]
      rfl
    · rfl

/-- A resolution changes the states of the recorded proposals only. -/
theorem proposalOf_resolveAt (float : FloatArith) (policy : StrategyPolicy) (now : MonoTime)
    (c : Coordinator) : (c.resolveAt float policy now).2.proposalOf = c.proposalOf := by
  have hfold : ∀ {α : Type} (f : Coordinator → α → Coordinator) (l : List α) (c : Coordinator),
      (∀ c a, (f c a).proposalOf = c.proposalOf) → (l.foldl f c).proposalOf = c.proposalOf := by
    intro α f l
    induction l with
    | nil => exact fun _ _ => rfl
    | cons a l ih => exact fun c hf => (ih (f c a) hf).trans (hf c a)
  have hresolve : ∀ c : Coordinator, (c.resolve float policy).2.proposalOf = c.proposalOf :=
    fun c => hfold _ c.pending c fun c p => proposalOf_setState c _ _
  exact (hresolve _).trans (hfold _ _ c fun c p => proposalOf_setState c _ _)

end Coordinator

namespace Host

/-- The strategy of a recorded proposal. -/
def strategyOf (h : Host) (proposalId : ProposalId) : Option String :=
  (h.strategyCoordinator.proposalOf proposalId).map (·.strategyId)

/-- Only orders with an id in `N` are made, and the recorded proposals stay. -/
structure Books (N : String → Prop) (h h' : Host) : Prop where
  runtime : Runtime.Makes N h.runtime h'.runtime
  proposals : h'.strategyCoordinator.proposalOf = h.strategyCoordinator.proposalOf

/-- Of what attribution goes by, only orders with an id in `N` are new. -/
structure Makes (N : String → Prop) (h h' : Host) : Prop extends Books N h h' where
  summaries : h'.strategyExecutionSummaries = h.strategyExecutionSummaries

variable {N N' : String → Prop} {env : Env}

instance : Std.Refl (Books N) := ⟨fun _ => ⟨Std.Refl.refl _, rfl⟩⟩

instance : IsTrans Host (Books N) where
  trans _ _ _ h h' := ⟨IsTrans.trans _ _ _ h.runtime h'.runtime, h'.proposals.trans h.proposals⟩

instance : Std.Refl (Makes N) := ⟨fun _ => ⟨Std.Refl.refl _, rfl⟩⟩

instance : IsTrans Host (Makes N) where
  trans _ _ _ h h' := ⟨IsTrans.trans _ _ _ h.toBooks h'.toBooks, h'.summaries.trans h.summaries⟩

theorem Makes.mono {h h' : Host} (hm : Makes N h h') (hN : ∀ id, N id → N' id) : Makes N' h h' :=
  ⟨⟨hm.runtime.mono hN, hm.proposals⟩, hm.summaries⟩

/-- New orders that name a proposal are named after it. -/
def MakesNamed (h h' : Host) : Prop := Makes h.runtime.NamedAfter h h'

/-- The names of the orders stay the same. -/
theorem Books.name {h h' : Host} (hb : Books N h h') (p : ProposalId) :
    h'.runtime.clientOrderIdForProposal p = h.runtime.clientOrderIdForProposal p := by
  unfold Runtime.clientOrderIdForProposal
  rw [hb.runtime.accountId]

/-- What an order is named after stays the same. -/
theorem Books.namedAfter {h h' : Host} (hb : Books N h h') {id : String}
    (hid : h'.runtime.NamedAfter id) : h.runtime.NamedAfter id :=
  fun p hp => (hid p hp).trans (hb.name p)

instance : Std.Refl MakesNamed := ⟨fun h => (Std.Refl.refl h : Makes _ h h)⟩

instance : IsTrans Host MakesNamed where
  trans _ _ _ h h' :=
    IsTrans.trans (r := Makes _) _ _ _ h (Makes.mono h' fun _ => h.namedAfter)

theorem Makes.named {h h' : Host} (hm : Makes (fun _ => False) h h') : MakesNamed h h' :=
  hm.mono fun _ hid => hid.elim

theorem makes_of_eq {h h' : Host} (hr : h'.runtime = h.runtime)
    (hc : h'.strategyCoordinator = h.strategyCoordinator)
    (hs : h'.strategyExecutionSummaries = h.strategyExecutionSummaries) : Makes N h h' :=
  ⟨⟨by rw [hr]; exact Std.Refl.refl _, by rw [hc]⟩, hs⟩

theorem onRuntime_makes {α : Type} {p : Fallible Runtime EngineError α}
    (hp : Along (Runtime.Makes N) p) : Along (Makes N) (onRuntime p) :=
  hp.zoom fun _ _ hr => ⟨⟨hr, rfl⟩, rfl⟩

theorem emit_makes (effect : Effect) (h : Host) : Makes N h (h.emit effect) :=
  ⟨⟨Runtime.makes_of_eq rfl rfl rfl, rfl⟩, rfl⟩

theorem appendJournal_makes {record : JournalRecord} :
    Along (Makes N) (appendJournal env record) := by
  refine (Along.reads _).bind fun h => ?_
  split
  · exact Along.fail _
  · exact Along.modify fun h => emit_makes _ h

theorem appendEvent_makes {record : JournalRecord} : Along (Makes N) (appendEvent env record) :=
  (Along.reads _).bind fun _ => Along.bind appendJournal_makes fun _ => (Along.reads _).bind
    fun _ => (Along.require _ _).bind fun _ => Along.modify fun _ => makes_of_eq rfl rfl rfl

theorem monotonicNow_makes : Along (Makes N) (monotonicNow env) := fun _ => makes_of_eq rfl rfl rfl

theorem indexPortfolio_makes {known : ℕ} : Along (Makes N) (indexPortfolio known) :=
  (Along.reads _).bind fun _ _ => makes_of_eq rfl rfl rfl

theorem requireRunning_makes : Along (Makes N) requireRunning :=
  (Along.reads _).bind fun _ => Along.require _ _

theorem onMarketData_makes {α : Type} {p : Fallible MarketDataHub HubError α} :
    Along (Makes N) (onMarketData p) := fun _ => makes_of_eq rfl rfl rfl

-- Orders

theorem submitIntentWithTiming_makes {intent : OrderIntent} {now : MonoTime} :
    Along (Makes (· = intent.clientOrderId)) (submitIntentWithTiming env intent now) :=
  (Along.reads _).bind fun _ => (onRuntime_makes Runtime.recordDecision_makes).bind fun _ =>
    Along.bind appendEvent_makes fun _ => Along.bind monotonicNow_makes fun _ =>
    (onRuntime_makes Runtime.recordSend_makes).bind fun _ => Along.bind appendEvent_makes fun _ =>
    onRuntime_makes Runtime.submitIntent_makes

theorem submitPlanned_makes {intent : OrderIntent} {traceId : TraceId} {proposalId : ProposalId}
    {now : MonoTime} :
    Along (Makes (· = intent.clientOrderId)) (submitPlanned env intent traceId proposalId now) :=
  (Along.reads _).bind fun _ => (Along.ofExcept _).bind fun _ => Along.bind appendEvent_makes
    fun _ => Along.bind appendEvent_makes fun _ => (Along.require _ _).bind fun _ =>
    submitIntentWithTiming_makes

theorem planProposal_makes {proposal : Proposal} {now : MonoTime} {traceId : TraceId} :
    Along (Makes N) (planProposal env proposal now traceId) :=
  Along.bind requireRunning_makes fun _ => (Along.reads _).bind fun _ => (Along.ofExcept _).bind
    fun _ => (Along.ofExcept _).bind fun _ =>
    onRuntime_makes (Runtime.paced_makes Runtime.prepareProposal_paced)

/-- A planned order is named after its target. -/
theorem planTarget_name {strategyId : Option String} {target : Target} {now : MonoTime}
    {traceId : TraceId} {deviation : Option Int} {r r' : Runtime} {intent : OrderIntent}
    (hplan : Runtime.planTarget env strategyId target now traceId deviation r = (.ok intent, r')) :
    intent.clientOrderId = r.clientOrderIdForProposal target.proposalId := by
  rw [Runtime.planTarget, reads_bind] at hplan
  obtain ⟨inputs, _, -, hplan⟩ := bind_eq_ok hplan
  rw [ofExcept_apply, Prod.mk.injEq, mapError_eq_ok] at hplan
  obtain ⟨safe, delta, -, -, -, -, rfl⟩ := planTargetWithGuardrails_eq_ok hplan.1
  have hlead : "client-intent-" = "client-" ++ "intent-" := by decide
  simp only [deltaIntent, Runtime.clientOrderIdForProposal, hlead, String.append_assoc, id_eq]

/-- The order of a proposal is named after it. -/
theorem planProposal_name {proposal : Proposal} {now : MonoTime} {traceId : TraceId} {h s : Host}
    {intent : OrderIntent} (hplan : planProposal env proposal now traceId h = (.ok intent, s)) :
    intent.clientOrderId = h.runtime.clientOrderIdForProposal proposal.proposalId := by
  obtain ⟨_, s₀, hrunning, hrest⟩ := bind_eq_ok hplan
  obtain ⟨-, rfl⟩ := requireRunning_eq_ok hrunning
  rw [reads_bind] at hrest
  obtain ⟨_, -, hrest⟩ := ofExcept_bind_eq_ok hrest
  obtain ⟨_, -, hrest⟩ := ofExcept_bind_eq_ok hrest
  have hprepare := onRuntime_eq_ok hrest
  unfold Runtime.prepareProposal at hprepare
  obtain ⟨_, -, hprepare⟩ := ofExcept_bind_eq_ok hprepare
  rw [reads_bind] at hprepare
  obtain ⟨target, htarget, hprepare⟩ := ofExcept_bind_eq_ok hprepare
  rw [planTarget_name hprepare,
    (Portfolio.targetFromProposal_eq_ok (mapError_eq_ok.mp htarget)).2]

/-- The manual order of a proposal is named after it. -/
theorem prepareManualTarget_name {instrumentId : InstrumentId} {quantity : Int}
    {proposalId : ProposalId} {now : MonoTime} {traceId : TraceId} {orderType : OrderType}
    {limit : Option Int} {r r' : Runtime} {intent : OrderIntent}
    (h : Runtime.prepareManualTargetWithOrder env instrumentId quantity proposalId now traceId
      orderType limit r = (.ok intent, r')) :
    intent.clientOrderId = r.clientOrderIdForProposal proposalId := by
  obtain ⟨-, h⟩ := require_bind_eq_ok h
  rw [reads_bind] at h
  obtain ⟨planned, _, hplan, hrest⟩ := bind_eq_ok h
  rw [pure_apply, Prod.mk.injEq, Except.ok.injEq] at hrest
  rw [← hrest.1]
  dsimp only
  rw [planTarget_name hplan]

/-- An order that is submitted under the name of a proposal. -/
theorem submitPlanned_named {intent : OrderIntent} {traceId : TraceId} {proposalId : ProposalId}
    {now : MonoTime} {h : Host}
    (hname : intent.clientOrderId = h.runtime.clientOrderIdForProposal proposalId) :
    MakesNamed h (submitPlanned env intent traceId proposalId now h).2 := by
  refine Makes.mono (submitPlanned_makes h) fun id hid => ?_
  rw [hid, hname]
  exact h.runtime.namedAfter_whole proposalId

theorem submitProposal_makes {proposal : Proposal} {now : MonoTime} {traceId : TraceId} :
    Along MakesNamed (submitProposal env proposal now traceId) := by
  intro h
  have hplanned : Makes (fun _ => False) h (planProposal env proposal now traceId h).2 :=
    planProposal_makes h
  refine Along.bind_at hplanned.named fun intent s hplan => ?_
  rw [hplan] at hplanned
  refine Along.bind_at (submitPlanned_named ?_) fun _ _ _ => Std.Refl.refl _
  rw [planProposal_name hplan, hplanned.name]

theorem submitManualPreview_makes {preview : ManualOrderPreview} {now : MonoTime}
    {confirmation : String} :
    Along MakesNamed (submitManualPreview env preview now confirmation) := by
  have hrunning : Along MakesNamed requireRunning :=
    requireRunning_makes.mono fun _ _ => Makes.named
  refine hrunning.bind fun _ => (Along.require _ _).bind fun _ => (Along.require _ _).bind
    fun _ => (Along.reads _).bind fun _ => (Along.require _ _).bind fun _ h => ?_
  have hprepared : Makes (fun _ => False) h (onRuntime (Runtime.prepareManualTargetWithOrder env
      preview.intent.instrumentId preview.targetQuantityTicks preview.proposalId now
      preview.intent.traceId preview.intent.orderType preview.intent.limitPriceTicks) h).2 :=
    onRuntime_makes (Runtime.paced_makes Runtime.prepareManualTargetWithOrder_paced) h
  refine Along.bind_at hprepared.named fun intent s hplan => ?_
  rw [hplan] at hprepared
  rw [require_bind]
  split
  · refine Along.bind_at (submitPlanned_named ?_) fun _ _ _ => Std.Refl.refl _
    rw [prepareManualTarget_name (onRuntime_eq_ok hplan), hprepared.name]
  · exact Std.Refl.refl _

theorem scaledProposal_makes {proposal : Proposal} {scale : F64} {now : MonoTime}
    {traceId : TraceId} :
    Along MakesNamed (scaledProposal env proposal scale >>= fun scaled =>
      submitProposal env scaled now traceId) :=
  ((Along.orFail _ _).bind fun _ => Along.ret _).bind fun _ => submitProposal_makes

theorem submitScaledProposal_makes {proposalId : ProposalId} {scale : F64} {now : MonoTime}
    {traceId : TraceId} :
    Along MakesNamed (submitScaledProposal env proposalId scale now traceId) :=
  (Along.require _ _).bind fun _ => (Along.reads _).bind fun _ => (Along.orFail _ _).bind
    fun _ => scaledProposal_makes

theorem submitApprovedAction_makes {approved : ApprovedAction} {proposal : Proposal}
    {now : MonoTime} {traceId : TraceId} :
    Along MakesNamed (submitApprovedAction env approved proposal now traceId) :=
  Along.bind (requireRunning_makes.mono fun _ _ => Makes.named) fun _ => (Along.orFail _ _).bind
    fun _ => (Along.require _ _).bind fun _ => (Along.require _ _).bind fun _ =>
    scaledProposal_makes

-- Children

theorem restoreClaim_makes {claim : Runtime.ClaimedChild} :
    Along (Makes (· = claim.intent.clientOrderId)) (restoreClaim env claim) :=
  Along.bind appendEvent_makes fun _ => Along.bind appendEvent_makes fun _ =>
    (Along.require _ _).bind fun _ => onRuntime_makes Runtime.restoreIntent_makes

theorem driveChild_makes {now : MonoTime} {claim : Runtime.ClaimedChild} :
    Along (Makes (· = claim.intent.clientOrderId)) (driveChild env now claim) := by
  refine Along.bind restoreClaim_makes fun _ =>
    Along.bind (Along.attempt submitIntentWithTiming_makes) fun result => ?_
  cases result with
  | ok _ =>
    exact (onRuntime_makes Runtime.markChildSent_makes).bind fun _ => appendEvent_makes
  | error e =>
    exact (onRuntime_makes Runtime.markChildUnknown_makes).bind fun _ =>
      Along.bind appendEvent_makes fun _ => Along.fail _

/-- While no child of a stored plan names a proposal, new orders that name one are named
after it. -/
def Orderly (h h' : Host) : Prop := h.runtime.Nameless → MakesNamed h h'

instance : Std.Refl Orderly := ⟨fun h _ => Std.Refl.refl h⟩

instance : IsTrans Host Orderly where
  trans _ _ _ h h' hn := IsTrans.trans _ _ _ (h hn) (h' ((h hn).runtime.nameless hn))

theorem Makes.orderly {h h' : Host} (hm : Makes (fun _ => False) h h') : Orderly h h' :=
  fun _ => hm.named

theorem driveScheduledChildren_orderly {now : MonoTime} :
    Along Orderly (driveScheduledChildren env now) := by
  intro h hnameless
  obtain ⟨hmakes, hclaims⟩ :=
    Runtime.claimDueChildren_makes (N := fun _ => False) now hnameless
  have hclaimed : Makes (fun _ => False) h (onRuntime (Runtime.claimDueChildren now) h).2 :=
    ⟨⟨hmakes, rfl⟩, rfl⟩
  refine Along.bind_at hclaimed.named fun claims s hrun => ?_
  refine Along.bind (Along.forEach fun claim hclaim => ?_) (fun _ => Along.ret _) s
  refine Along.mono driveChild_makes fun t t' hm => Makes.mono hm ?_
  rintro id rfl
  exact t.runtime.namedAfter_of_none
    (hclaims claims (congrArg Prod.fst (onRuntime_eq_ok hrun)) claim hclaim)

theorem submitScheduledProposal_orderly {proposal : Proposal} {schedule : Schedule}
    {now : MonoTime} {traceId : TraceId} :
    Along Orderly (submitScheduledProposal env proposal schedule now traceId) := by
  have hnone : ∀ {α : Type} {p : Fallible Host EngineError α},
      Along (Makes fun _ => False) p → Along Orderly p :=
    fun hp => hp.mono fun _ _ => Makes.orderly
  exact (hnone planProposal_makes).bind fun _ => (Along.reads _).bind fun _ =>
    (Along.ofExcept _).bind fun _ =>
    (hnone (onRuntime_makes Runtime.createChildPlan_makes)).bind fun _ =>
    (hnone appendEvent_makes).bind fun _ => (hnone appendEvent_makes).bind fun _ =>
    Along.bind driveScheduledChildren_orderly fun _ => Along.ret _

end Host

end InsiderTrader
