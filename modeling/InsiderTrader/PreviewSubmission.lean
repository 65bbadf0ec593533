import InsiderTrader.PlanRecovery
import InsiderTrader.PlanVerdict
import InsiderTrader.ReductionPlan
import InsiderTrader.Library.Wire

/-!
# The submission of a previewed proposal

The preview of a strategy proposal keeps the quantity of the order it planned.
The submission takes this quantity for the position that is to be held, plans
again and asks for the same order.

## Main definitions

- `Env.Submits` — a journal that takes every record and a broker that accepts every order
- `Host.SubmitsAsPreviewed` — the submission sends the order of its preview
- `Host.Resubmits` — planning again gives the same order, which can still be sent

## Main results

- `Host.submitPlanned_cases` — when a planned order goes out
- `preview_submits_iff` — when a previewed proposal is submitted as it was previewed
-/

namespace InsiderTrader

open MachineInt Fallible

/-- The journal takes every record and the broker accepts every order. -/
structure Env.Submits (env : Env) : Prop where
  reliable : env.Reliable
  accepts : ∀ calls intent, (env.gateway.send calls intent).isOk = true

-- When a planned order goes out

namespace Host

variable {env : Env} {h : Host} {intent : OrderIntent} {now : MonoTime}

/-- A market reference has a positive midpoint and no negative spread. -/
theorem marketReference_valid (h : Host) (instrumentId : InstrumentId) :
    ¬(h.marketReference instrumentId).any fun m => m.midTicks ≤ 0 ∨ m.spreadTicks < 0 := by
  intro hany
  obtain ⟨m, hm, hbad⟩ := (Option.any_eq_true _ _).mp hany
  simp only [marketReference, Option.bind_eq_bind, Option.bind_eq_some_iff] at hm
  obtain ⟨s, -, ⟨bid, ask⟩, -, hm⟩ := hm
  dsimp only at hm
  split at hm
  · cases hm
  next hquote =>
  simp only [Option.bind_eq_some_iff, narrow_eq_some] at hm
  obtain ⟨sum, -, spread, ⟨-, rfl⟩, hm⟩ := hm
  split at hm
  · next hpos =>
    cases hm
    rw [decide_eq_true_eq] at hbad
    dsimp only at hbad
    omega
  · cases hm

/-- What the send of an order needs besides the clock and a new id. -/
structure Sendable (h : Host) (intent : OrderIntent) : Prop where
  authorized : h.runtime.authorizeIntent intent = .ok ()
  riskApproved : intent.state = .riskApproved
  named : ¬Text.isBlank intent.intentId
  arrival : ¬(intent.limitPriceTicks.or
    (h.runtime.portfolio.markPrice intent.instrumentId)).any (· ≤ 0)

/-- The clock has come to the decision, and no order of this id is known. -/
def CanSend (env : Env) (now : MonoTime) (clientOrderId : String) (h : Host) : Prop :=
  now ≤ env.clock h.clockReads ∧ h.runtime.orders.get clientOrderId = none

theorem appendEvent_of_reliable (hreliable : env.Reliable) (record : JournalRecord) (h : Host) :
    appendEvent env record h =
      (.ok (), (h.emit (.append record)).project ⟨h.journalCursor, record⟩) :=
  appendEvent_eq_ok_iff.mpr ⟨hreliable _ _, rfl⟩

/-- An authorized order of a new id goes out; one of a known id is refused. -/
theorem submitIntent_cases_of_authorized {r : Runtime} (hsubmits : env.Submits)
    (hauthorized : r.authorizeIntent intent = .ok ()) (hstate : intent.state = .riskApproved) :
    r.orders.get intent.clientOrderId = none ∧ (∃ r', Runtime.submitIntent env intent r =
        (.ok (), r') ∧ sends r'.trace = sends r.trace ++ [intent]) ∨
      r.orders.get intent.clientOrderId ≠ none ∧
        (Runtime.submitIntent env intent r).1.isOk = false := by
  rw [Runtime.submitIntent, reads_bind, id, hauthorized, bind_of_ok (ofExcept_apply _ _)]
  cases hget : r.orders.get intent.clientOrderId with
  | none =>
    obtain ⟨book, hrun, -⟩ := Runtime.submitOrder_of_fresh env hstate hget
    have haccepted := hsubmits.accepts (brokerCalls r.trace) intent
    cases hanswer : env.gateway.send (brokerCalls r.trace) intent with
    | error message =>
      rw [hanswer] at haccepted
      cases haccepted
    | ok u =>
      rw [hanswer] at hrun
      exact .inl ⟨rfl, _, hrun, sends_append _ _⟩
  | some record =>
    exact .inr ⟨Option.some_ne_none record,
      (Runtime.submitOrder_of_known env (by rw [hget]; rfl)).2⟩

/-- The same on a host that has come from another with its orders, and has sent nothing since. -/
theorem onRuntime_submitIntent_cases {s : Host} (hsubmits : env.Submits)
    (horders : s.runtime.orders = h.runtime.orders) (hsends : sends s.trace = sends h.trace)
    (hauthorized : s.runtime.authorizeIntent intent = .ok ())
    (hstate : intent.state = .riskApproved) :
    h.runtime.orders.get intent.clientOrderId = none ∧ (∃ h', onRuntime (Runtime.submitIntent env
        intent) s = (.ok (), h') ∧ sends h'.trace = sends h.trace ++ [intent]) ∨
      h.runtime.orders.get intent.clientOrderId ≠ none ∧
        (onRuntime (Runtime.submitIntent env intent) s).1.isOk = false := by
  rw [← horders, ← hsends]
  obtain ⟨hfresh, r, hrun, hsent⟩ | ⟨hknown, hfails⟩ :=
    submitIntent_cases_of_authorized hsubmits hauthorized hstate
  · exact .inl ⟨hfresh, _, onRuntime_of_ok hrun, hsent⟩
  · refine .inr ⟨hknown, ?_⟩
    rw [onRuntime, zoom_apply]
    cases hrun : (Runtime.submitIntent env intent s.runtime).1 with
    | error e => rfl
    | ok u =>
      rw [hrun] at hfails
      cases hfails

/-- **An order that can be sent is**, and nothing else; another is refused. -/
theorem submitIntentWithTiming_cases (hsubmits : env.Submits) (hsend : h.Sendable intent) :
    CanSend env now intent.clientOrderId h ∧ (∃ h', submitIntentWithTiming env intent now h =
        (.ok (), h') ∧ sends h'.trace = sends h.trace ++ [intent]) ∨
      ¬CanSend env now intent.clientOrderId h ∧
        (submitIntentWithTiming env intent now h).1.isOk = false := by
  obtain ⟨decision, hnow, hdecision⟩ : ∃ decision : ExecutionTiming,
      decision.decisionMonoNs = now ∧ _ := Runtime.recordDecision_of_arrival
    (h.marketReference_valid intent.instrumentId) hsend.arrival
  have htiming : (h.runtime.timings.insert intent.clientOrderId decision)[intent.clientOrderId]? =
      some decision := Std.TreeMap.getElem?_insert_self
  let decided : Host := project ⟨h.journalCursor, .executionTiming decision⟩
    (emit (.append (.executionTiming decision)) { h with runtime :=
      { h.runtime with timings := h.runtime.timings.insert intent.clientOrderId decision } })
  let stamped : Host := { decided with clockReads := h.clockReads + 1 }
  rw [submitIntentWithTiming, reads_bind, id, bind_of_ok (onRuntime_of_ok hdecision),
    bind_of_ok (appendEvent_of_reliable hsubmits.reliable _ _), bind_of_ok (monotonicNow_apply _)]
  change _ ∧ (∃ h', (onRuntime (Runtime.recordSend intent.clientOrderId (env.clock h.clockReads)
      (h.marketReference intent.instrumentId)) >>= _) stamped = _ ∧ _) ∨ _ ∧
    ((onRuntime (Runtime.recordSend intent.clientOrderId (env.clock h.clockReads)
      (h.marketReference intent.instrumentId)) >>= _) stamped).1.isOk = false
  by_cases hclock : now ≤ env.clock h.clockReads
  · obtain ⟨sent, hsent⟩ := Runtime.recordSend_of_decision (r := decided.runtime)
      (h.marketReference intent.instrumentId) htiming (hnow ▸ hclock)
    rw [bind_of_ok (onRuntime_of_ok (h := stamped) hsent),
      bind_of_ok (appendEvent_of_reliable hsubmits.reliable _ _)]
    let ready : Host := project ⟨stamped.journalCursor, .executionTiming sent⟩
      (emit (.append (.executionTiming sent)) { stamped with runtime :=
        { decided.runtime with
          timings := decided.runtime.timings.insert intent.clientOrderId sent } })
    have hsends : sends ready.trace = sends h.trace := by
      change sends (h.trace ++ [.append (.executionTiming decision)] ++
        [.append (.executionTiming sent)]) = _
      rw [sends_append, sends_append, sends_record, sends_record, List.append_nil, List.append_nil]
    obtain ⟨hfresh, hsent⟩ | ⟨hknown, hfails⟩ := onRuntime_submitIntent_cases (h := h)
      (s := ready) hsubmits rfl hsends hsend.authorized hsend.riskApproved
    · exact .inl ⟨⟨hclock, hfresh⟩, hsent⟩
    · exact .inr ⟨fun hcan => hknown hcan.2, hfails⟩
  · have hearly : Runtime.recordSend intent.clientOrderId (env.clock h.clockReads)
        (h.marketReference intent.instrumentId) stamped.runtime =
        (.error .invalidRequest, stamped.runtime) := by
      rw [Runtime.recordSend, reads_bind, id, show stamped.runtime.timings[intent.clientOrderId]? =
        some decision from htiming, orFail_bind_some rfl, require_bind, if_neg (by rwa [hnow])]
    refine .inr ⟨fun hcan => hclock hcan.1, ?_⟩
    rw [onRuntime, bind_apply, zoom_apply, hearly]
    rfl

/-- **A planned order that can be sent is**, and nothing else; another is refused. -/
theorem submitPlanned_cases {traceId : TraceId} {proposalId : ProposalId} (hsubmits : env.Submits)
    (hsend : h.Sendable intent) :
    CanSend env now intent.clientOrderId h ∧ (∃ h', submitPlanned env intent traceId proposalId now
        h = (.ok (), h') ∧ sends h'.trace = sends h.trace ++ [intent]) ∨
      ¬CanSend env now intent.clientOrderId h ∧
        (submitPlanned env intent traceId proposalId now h).1.isOk = false := by
  have hindex : ∀ s, indexOrder intent s = (.ok (), s) := by
    intro s
    rw [indexOrder, Fallible.require, if_pos hsend.named]
    rfl
  rw [submitPlanned, reads_bind, id, hsend.authorized, bind_of_ok (ofExcept_apply _ _),
    bind_of_ok (appendEvent_of_reliable hsubmits.reliable _ _),
    bind_of_ok (appendEvent_of_reliable hsubmits.reliable _ _), bind_of_ok (hindex _)]
  let linked : Host := project ⟨h.journalCursor, .traceLink traceId "proposal" (toString proposalId)⟩
    (emit (.append (.traceLink traceId "proposal" (toString proposalId))) h)
  let journaled : Host := project ⟨linked.journalCursor, encodeOrderIntent intent⟩
    (emit (.append (encodeOrderIntent intent)) linked)
  have hsends : sends journaled.trace = sends h.trace := by
    change sends (h.trace ++ [.append (.traceLink traceId "proposal" (toString proposalId))] ++
      [.append (encodeOrderIntent intent)]) = _
    rw [sends_append, sends_append, sends_record, sends_record, List.append_nil, List.append_nil]
  rw [← hsends]
  exact submitIntentWithTiming_cases (h := journaled) hsubmits
    ⟨hsend.authorized, hsend.riskApproved, hsend.named, hsend.arrival⟩

end Host

-- Planning again

section Planning

open RiskEngine

variable {env : Env} {r : Runtime} {risk : RiskEngine} {target : Target} {now : MonoTime}

theorem RiskEngine.accepts_unique {p : Portfolio} {safe safe' : Int}
    (h : risk.Accepts p target safe) (h' : risk.Accepts p target safe') : safe = safe' := by
  obtain ⟨hcheck, rfl⟩ | hcheck := h
  · obtain ⟨-, rfl⟩ | hcheck' := h'
    · rfl
    · rw [hcheck] at hcheck'
      cases hcheck'
  · obtain ⟨hcheck', -⟩ | hcheck' := h'
    · rw [hcheck] at hcheck'
      cases hcheck'
    · rw [hcheck] at hcheck'
      injection hcheck'

theorem effectiveRisk_guardrails (r : Runtime) (strategyId : Option String)
    (instrumentId : InstrumentId) (now : MonoTime) :
    (r.effectiveRisk strategyId instrumentId now).guardrails = r.risk.guardrails := by
  unfold Runtime.effectiveRisk
  split <;> rfl

/-- Observations at another message rate. -/
theorem riskInputs_of_rate {risk' : RiskEngine} {target' : Target} {rate rate' : ℕ}
    {inputs : Option RiskInputs} (hguardrails : risk'.guardrails = risk.guardrails)
    (hinstrument : target'.instrumentId = target.instrumentId)
    (h : r.riskInputs env risk target none rate = .ok inputs) :
    r.riskInputs env risk' target' none rate' =
      .ok (inputs.map fun observed => { observed with messageRate := rate' }) := by
  unfold Runtime.riskInputs at h ⊢
  rw [hguardrails, hinstrument]
  dsimp only at h ⊢
  by_cases hnone : risk.guardrails = {}
  · rw [if_pos hnone] at h ⊢
    cases h
    rfl
  rw [if_neg hnone] at h ⊢
  cases hleverage : Runtime.observedLeverage env.float r.portfolio risk.guardrails with
  | error e =>
    rw [hleverage] at h
    cases h
  | ok leverage =>
    cases hdrawdown : Runtime.observedDrawdown r.portfolio risk.guardrails with
    | error e =>
      rw [hleverage, hdrawdown] at h
      cases h
    | ok drawdownBps =>
      rw [hleverage, hdrawdown] at h
      simp only [bind, Except.bind] at h ⊢
      split at h
      · cases h
      next hdeviation =>
      split at h
      · cases h
      next hmarket =>
      cases h
      rw [if_neg hdeviation, if_neg hmarket]
      rfl

/-- Observations that pass at one message rate pass at another that is within the limit. -/
theorem guardrailsPass_of_rate {float : FloatArith} {g : Guardrails} {observed : RiskInputs}
    {rate : ℕ} (h : GuardrailsPass float g observed) :
    GuardrailsPass float g { observed with messageRate := rate } ↔
      ¬g.maxMessageRate.any (· < rate) := by
  constructor
  · exact fun hpass => hpass.messages
  · intro hrate
    exact ⟨h.prices, h.clock, h.session, h.distinct, h.observed, h.leverage, h.drawdown,
      h.volatility, h.participation, h.outstanding, hrate, h.deviation⟩

/-- Orders that close two distances for one proposal are the same when the distances are. -/
theorem sameOrderIdentity_deltaIntent {accountId : AccountId} {traceId traceId' : TraceId}
    {target' : Target} {delta delta' : Int} (hinstrument : target'.instrumentId = target.instrumentId)
    (hproposal : target'.proposalId = target.proposalId) (hne : delta ≠ 0) :
    sameOrderIdentity (deltaIntent accountId traceId' target' delta' delta'.natAbs)
      (deltaIntent accountId traceId target delta delta.natAbs) = true ↔ delta' = delta := by
  unfold sameOrderIdentity deltaIntent
  simp only [hinstrument, hproposal, decide_eq_true_eq]
  constructor
  · rintro ⟨-, -, -, -, hside, hquantity, -⟩
    split at hside
    · split at hside
      · omega
      · cases hside
    · split at hside
      · cases hside
      · omega
  · rintro rfl
    simp

/-- A distance that is planned as a market order when it is the one to close. -/
structure Runtime.Plans (env : Env) (r : Runtime) (target : Target) (delta : Int) : Prop where
  market : env.gateway.capabilities.market
  nonzero : delta ≠ 0
  fits : Fits 64 delta
  fits_natAbs : Fits 64 delta.natAbs
  observed : ∃ rate inputs, r.riskInputs env r.risk target none rate = .ok inputs ∧
    ∀ o ∈ inputs, GuardrailsPass env.float r.risk.guardrails o

/-- Planning leaves what it can plan. -/
theorem Runtime.Plans.of_paced {r' : Runtime} {delta : Int} (h : r.Plans env target delta)
    (hpaced : r.Paced r') : r'.Plans env target delta := by
  obtain ⟨ts, rfl⟩ := hpaced
  exact ⟨h.market, h.nonzero, h.fits, h.fits_natAbs, h.observed⟩

/-- The observations are missing where nothing is guarded, and are at the given rate elsewhere. -/
theorem riskInputs_cases {rate : ℕ} {inputs : Option RiskInputs}
    (h : r.riskInputs env risk target none rate = .ok inputs) :
    inputs = none ∧ risk.guardrails = {} ∨ ∃ o, inputs = some o ∧ o.messageRate = rate := by
  unfold Runtime.riskInputs at h
  dsimp only at h
  by_cases hnone : risk.guardrails = {}
  · rw [if_pos hnone] at h
    cases h
    exact .inl ⟨rfl, hnone⟩
  · rw [if_neg hnone] at h
    cases hleverage : Runtime.observedLeverage env.float r.portfolio risk.guardrails with
    | error e =>
      rw [hleverage] at h
      cases h
    | ok leverage =>
      cases hdrawdown : Runtime.observedDrawdown r.portfolio risk.guardrails with
      | error e =>
        rw [hleverage, hdrawdown] at h
        cases h
      | ok drawdownBps =>
        rw [hleverage, hdrawdown] at h
        simp only [bind, Except.bind] at h
        split at h
        · cases h
        split at h
        · cases h
        cases h
        exact .inr ⟨_, rfl, rfl⟩

theorem planVerdict_eq_ok_iff {traceId : TraceId} {rate : ℕ} {intent : OrderIntent} :
    r.planVerdict env target traceId none risk rate = .ok intent ↔
      ∃ inputs, r.riskInputs env risk target none rate = .ok inputs ∧
        planTargetWithGuardrails env.float r.accountId traceId r.portfolio target risk
          env.gateway.capabilities inputs = .ok intent := by
  refine Wire.bind_eq_ok.trans (exists_congr fun inputs => and_congr_right fun _ => ?_)
  exact mapError_eq_ok

/-- **What is planned** is a distance to an accepted quantity, at an allowed message rate. -/
theorem plans_of_planVerdict {traceId : TraceId} {rate : ℕ} {intent : OrderIntent}
    (hguardrails : risk.guardrails = r.risk.guardrails)
    (h : r.planVerdict env target traceId none risk rate = .ok intent) :
    ∃ delta, r.Plans env target delta ∧
      intent = deltaIntent r.accountId traceId target delta delta.natAbs ∧
      ¬r.risk.guardrails.maxMessageRate.any (· < rate) ∧
      risk.Accepts r.portfolio target (r.portfolio.quantity target.instrumentId + delta) := by
  obtain ⟨inputs, hinputs, hplan⟩ := planVerdict_eq_ok_iff.mp h
  obtain ⟨hpass, hmarket, safe, haccepts, hne, hfits, hfits', rfl⟩ :=
    planTargetWithGuardrails_eq_ok_iff.mp hplan
  rw [hguardrails] at hpass
  have hself : r.riskInputs env r.risk target none rate = .ok inputs := by
    unfold Runtime.riskInputs at hinputs ⊢
    rwa [hguardrails] at hinputs
  refine ⟨_, ⟨hmarket, hne, hfits, hfits', rate, inputs, hself, hpass⟩, rfl, ?_, ?_⟩
  · obtain ⟨-, hnone⟩ | ⟨o, rfl, rfl⟩ := riskInputs_cases hself
    · rw [hnone]
      exact Bool.false_ne_true
    · exact (hpass o rfl).messages
  · rwa [add_sub_cancel]

/-- **The same distance again**: it is planned once more when the rate still allows it and the same
quantity is accepted. -/
theorem planVerdict_of_plans {target' : Target} {traceId : TraceId} {rate : ℕ} {delta : Int}
    (hplans : r.Plans env target delta) (hguardrails : risk.guardrails = r.risk.guardrails)
    (hinstrument : target'.instrumentId = target.instrumentId)
    (hproposal : target'.proposalId = target.proposalId)
    (hrate : ¬r.risk.guardrails.maxMessageRate.any (· < rate))
    (haccepts : risk.Accepts r.portfolio target'
      (r.portfolio.quantity target.instrumentId + delta)) :
    r.planVerdict env target' traceId none risk rate =
      .ok (deltaIntent r.accountId traceId target delta delta.natAbs) := by
  obtain ⟨rate', inputs, hinputs, hpass⟩ := hplans.observed
  have hdistance : r.portfolio.quantity target.instrumentId + delta -
      r.portfolio.quantity target'.instrumentId = delta := by rw [hinstrument]; omega
  refine planVerdict_eq_ok_iff.mpr ⟨_, riskInputs_of_rate hguardrails hinstrument hinputs,
    planTargetWithGuardrails_eq_ok_iff.mpr ⟨?_, hplans.market, _, haccepts, ?_⟩⟩
  · intro o ho
    obtain ⟨o', ho', rfl⟩ := Option.mem_map.mp ho
    rw [hguardrails]
    exact (guardrailsPass_of_rate (hpass o' ho')).mpr hrate
  · rw [hdistance]
    refine ⟨hplans.nonzero, hplans.fits, hplans.fits_natAbs, ?_⟩
    unfold deltaIntent
    rw [hinstrument, hproposal]

end Planning

-- The submission

namespace Host

variable {env : Env} {h h1 : Host} {proposal : Proposal} {state : ProposalState} {scale : F64}
  {now₀ now : MonoTime} {traceId : TraceId} {ttlNs : ℕ} {preview : ManualOrderPreview}

/-- **What is previewed**: a planned distance, with its length for the target to submit. -/
theorem previewStrategyProposal_eq_ok
    (hstored : h.strategyCoordinator.record proposal.proposalId = some ⟨proposal, state⟩)
    (hpreview : previewStrategyProposal env proposal.proposalId scale now₀ traceId ttlNs h =
      (.ok preview, h1)) :
    h1.lifecycle = h.lifecycle ∧ ∃ target delta, target.proposalId = proposal.proposalId ∧
      h1.runtime.Plans env target delta ∧
      preview = previewOf (deltaIntent h1.runtime.accountId traceId target delta delta.natAbs)
        delta.natAbs target.proposalId now₀ ttlNs h1 := by
  obtain ⟨-, hpreview⟩ := require_bind_eq_ok hpreview
  rw [reads_bind, id] at hpreview
  obtain ⟨record, hrecord, hpreview⟩ := orFail_bind_eq_ok hpreview
  obtain rfl := Option.some.inj (hstored.symm.trans hrecord)
  obtain ⟨scaled, h0, hscaled, hpreview⟩ := bind_eq_ok hpreview
  obtain ⟨action, -, hscaled⟩ := orFail_bind_eq_ok hscaled
  cases hscaled
  obtain ⟨marketTarget, hmarketTarget, hpreview⟩ := ofExcept_bind_eq_ok hpreview
  obtain ⟨-, -, hpreview⟩ := ofExcept_bind_eq_ok hpreview
  obtain ⟨intent, h', hplanned, hpreview⟩ := bind_eq_ok hpreview
  cases hpreview
  obtain ⟨hintent, rfl⟩ := Prod.mk.inj hplanned
  rw [mapError_eq_ok] at hintent
  have hrun : Runtime.prepareProposal env { proposal with action := action } now₀ traceId
      h.runtime = (.ok intent, (Runtime.prepareProposal env { proposal with action := action } now₀
        traceId h.runtime).2) := Prod.ext hintent rfl
  have hpaced := Runtime.prepareProposal_paced.of_ok hrun
  obtain ⟨-, -, hverdict⟩ := ofExcept_bind_eq_ok hrun
  rw [reads_bind, id] at hverdict
  obtain ⟨target, htarget, hverdict⟩ := ofExcept_bind_eq_ok hverdict
  have hanswer := congrArg Prod.fst hverdict
  rw [Runtime.planTarget_verdict] at hanswer
  obtain ⟨delta, hplans, rfl, -, -⟩ := plans_of_planVerdict (effectiveRisk_guardrails _ _ _ _) hanswer
  have hproposal := (Portfolio.targetFromProposal_eq_ok (mapError_eq_ok.mp htarget)).2
  refine ⟨rfl, target, delta, hproposal, hplans.of_paced hpaced, ?_⟩
  rw [hproposal]
  obtain ⟨ts, hts⟩ := hpaced
  change previewOf _ _ _ _ _ { h with runtime := _ } = previewOf _ _ _ _ _ { h with runtime := _ }
  rw [hts]
  rfl

/-- **Confirming a preview**: it is checked and planned again. -/
theorem submitManualPreview_of_current (env : Env) (hrunning : h.lifecycle = .running)
    (hnow : now ≤ preview.expiresMonoNs) (hcurrent : h.journalCursor = preview.expectedStateVersion) :
    submitManualPreview env preview now "CONFIRM" h =
      (onRuntime (Runtime.prepareManualTargetWithOrder env preview.intent.instrumentId
          preview.targetQuantityTicks preview.proposalId now preview.intent.traceId
          preview.intent.orderType preview.intent.limitPriceTicks) >>= fun refreshed => do
        Fallible.require (sameOrderIdentity refreshed preview.intent) .stalePreview
        submitPlanned env refreshed refreshed.traceId preview.proposalId now
        pure refreshed.clientOrderId) h := by
  have hready : requireRunning h = (.ok (), h) := by
    rw [requireRunning, reads_bind, id, Fallible.require, if_pos hrunning]
    rfl
  rw [submitManualPreview, bind_of_ok hready, require_bind, if_pos rfl, require_bind, if_pos hnow,
    reads_bind, id, require_bind, if_pos hcurrent]

/-- The submission of a preview succeeds, and what it sends is the order of the preview. -/
def SubmitsAsPreviewed (env : Env) (preview : ManualOrderPreview) (now : MonoTime) (h : Host) :
    Prop :=
  ∃ clientOrderId h' intent, submitManualPreview env preview now "CONFIRM" h =
      (.ok clientOrderId, h') ∧ sends h'.trace = sends h.trace ++ [intent] ∧
    intent.instrumentId = preview.intent.instrumentId ∧ intent.side = preview.intent.side ∧
    intent.quantityTicks = preview.intent.quantityTicks ∧
    intent.orderType = preview.intent.orderType ∧
    intent.limitPriceTicks = preview.intent.limitPriceTicks

/-- The order of a preview can be sent, and planning its quantity as a target comes to it again:
under the limits without the strategy's own, that target passes at the position after the order. -/
structure Resubmits (env : Env) (preview : ManualOrderPreview) (now : MonoTime) (h : Host) :
    Prop where
  canSend : CanSend env now preview.intent.clientOrderId h
  paced : ¬h.runtime.risk.guardrails.maxMessageRate.any (· < h.runtime.messageCount now)
  passes : (h.runtime.effectiveRisk none preview.intent.instrumentId now).Passes h.runtime.portfolio
    ⟨preview.intent.instrumentId, preview.intent.quantityTicks, preview.proposalId⟩
    (h.runtime.portfolio.quantity preview.intent.instrumentId + preview.intent.signedTicks)

/-- A market target is prepared as it is planned. -/
theorem prepareMarketTarget_eq_ok_iff {r : Runtime} {target : Target} {intent : OrderIntent} :
    (Runtime.prepareManualTargetWithOrder env target.instrumentId target.quantityTicks
        target.proposalId now traceId .market none r).1 = .ok intent ↔
      r.planVerdict env target traceId none (r.effectiveRisk none target.instrumentId now)
        (r.messageCount now) = .ok intent := by
  let market : ManualTarget := ⟨target.instrumentId, target.quantityTicks, target.proposalId,
    traceId, .market, none⟩
  have hwell : market.WellFormed := by
    rintro (⟨-, h⟩ | ⟨h, -⟩) <;> cases h
  have hmarket : ∀ planned, r.planVerdict env target traceId none
      (r.effectiveRisk none target.instrumentId now) (r.messageCount now) = .ok planned →
      { planned with orderType := .market, limitPriceTicks := none } = planned := by
    intro planned hplanned
    obtain ⟨delta, -, rfl, -⟩ := plans_of_planVerdict (effectiveRisk_guardrails _ _ _ _) hplanned
    rfl
  rw [Runtime.prepareManualTargetWithOrder_verdict env r market now, if_pos hwell]
  refine Wire.bind_eq_ok.trans ?_
  constructor
  · rintro ⟨planned, hplanned, heq⟩
    cases heq
    exact hplanned.trans (congrArg _ (hmarket planned hplanned).symm)
  · intro h
    exact ⟨intent, h, congrArg _ (hmarket intent h)⟩

/-- Planning again leaves an order that can be sent as such. -/
theorem sendable_of_passes {r : Runtime} {target t : Target} {delta safe : Int}
    {risk : RiskEngine} (hpaced : h.runtime.Paced r)
    (hinstrument : t.instrumentId = target.instrumentId)
    (hauthorized : h.runtime.authorizeIntent
      (deltaIntent h.runtime.accountId traceId target delta delta.natAbs) = .ok ())
    (hpasses : risk.Passes h.runtime.portfolio t safe) :
    { h with runtime := r }.Sendable
      (deltaIntent h.runtime.accountId traceId target delta delta.natAbs) := by
  obtain ⟨ts, rfl⟩ := hpaced
  refine ⟨hauthorized, rfl, ?_, ?_⟩
  · change ¬Text.isBlank ("intent-" ++ _ ++ "-" ++ _)
    rw [Text.isBlank_append, Text.isBlank_append, Text.isBlank_append]
    exact Bool.false_ne_true
  · intro hany
    obtain ⟨mark, hmark, hle⟩ := (Option.any_eq_true _ _).mp hany
    obtain ⟨price, -, hprice, hpos, -⟩ := hpasses.valued
    change h.runtime.portfolio.markPrice target.instrumentId = some mark at hmark
    rw [Portfolio.valuationPrice, hinstrument, hmark] at hprice
    cases hprice
    exact absurd (of_decide_eq_true hle) (by omega)

/-- The same for the preview of a planned distance. -/
theorem submitsAsPreviewed_iff_of_plans {target : Target} {delta : Int} (hsubmits : env.Submits)
    (hrunning : h.lifecycle = .running) (hplans : h.runtime.Plans env target delta)
    (hpreview : preview = previewOf (deltaIntent h.runtime.accountId traceId target delta
      delta.natAbs) delta.natAbs target.proposalId now₀ ttlNs h)
    (hnow : now ≤ preview.expiresMonoNs)
    (hauthorized : h.runtime.authorizeIntent preview.intent = .ok ()) :
    SubmitsAsPreviewed env preview now h ↔ Resubmits env preview now h := by
  let again : Target := ⟨target.instrumentId, delta.natAbs, target.proposalId⟩
  let intent := deltaIntent h.runtime.accountId traceId target delta delta.natAbs
  have hguardrails := effectiveRisk_guardrails h.runtime none target.instrumentId now
  have hsigned := deltaIntent_signedTicks h.runtime.accountId traceId target delta
  have hpaced : Fallible.Along Runtime.Paced (Runtime.prepareManualTargetWithOrder env
      target.instrumentId delta.natAbs target.proposalId now traceId .market none) :=
    Runtime.prepareManualTargetWithOrder_paced
  let planned : Host := { h with runtime := (Runtime.prepareManualTargetWithOrder env
    target.instrumentId delta.natAbs target.proposalId now traceId .market none h.runtime).2 }
  have hkept : (CanSend env now intent.clientOrderId planned ↔
      CanSend env now intent.clientOrderId h) ∧ planned.trace = h.trace := by
    obtain ⟨ts, hts⟩ := hpaced h.runtime
    rw [show planned = { h with runtime := _ } from congrArg ({ h with runtime := · }) hts]
    exact ⟨Iff.rfl, rfl⟩
  have hrun := submitManualPreview_of_current env hrunning hnow (by rw [hpreview]; rfl)
  subst hpreview
  have hresubmits : Resubmits env (previewOf intent delta.natAbs target.proposalId now₀ ttlNs h) now
      h ↔ CanSend env now intent.clientOrderId h ∧
        ¬h.runtime.risk.guardrails.maxMessageRate.any (· < h.runtime.messageCount now) ∧
        (h.runtime.effectiveRisk none target.instrumentId now).Passes h.runtime.portfolio again
          (h.runtime.portfolio.quantity target.instrumentId + delta) := by
    rw [← hsigned]
    exact ⟨fun h => ⟨h.canSend, h.paced, h.passes⟩, fun h => ⟨h.1, h.2.1, h.2.2⟩⟩
  constructor
  · rintro ⟨clientOrderId, h', sent, hsubmit, -⟩
    rw [hrun] at hsubmit
    obtain ⟨refreshed, h2, hprepare, hsubmit⟩ := bind_eq_ok hsubmit
    obtain ⟨hsame, hsubmit⟩ := require_bind_eq_ok hsubmit
    obtain ⟨u, h3, hsubmit, -⟩ := bind_eq_ok hsubmit
    obtain ⟨hprepared, rfl⟩ := Prod.mk.inj hprepare
    have hverdict : h.runtime.planVerdict env again traceId none
        (h.runtime.effectiveRisk none target.instrumentId now) (h.runtime.messageCount now) =
        .ok refreshed := prepareMarketTarget_eq_ok_iff.mp (mapError_eq_ok.mp hprepared)
    obtain ⟨delta', -, hrefreshed, hrate, haccepts⟩ := plans_of_planVerdict hguardrails hverdict
    have hdelta : delta' = delta := by
      rw [hrefreshed] at hsame
      exact (sameOrderIdentity_deltaIntent rfl rfl hplans.nonzero).mp hsame
    subst hdelta
    obtain rfl : refreshed = intent := hrefreshed
    have hpasses := RiskEngine.accepts_iff_passes.mp haccepts
    obtain ⟨hcan, -⟩ | ⟨-, hfails⟩ := submitPlanned_cases hsubmits
      (sendable_of_passes (hpaced h.runtime) (t := again) rfl hauthorized hpasses)
    · exact hresubmits.mpr ⟨hkept.1.mp hcan, hrate, hpasses⟩
    · exact absurd (hfails.symm.trans (congrArg (·.1.isOk) hsubmit)) Bool.false_ne_true
  · intro hagain
    obtain ⟨hcan, hrate, hpasses⟩ := hresubmits.mp hagain
    have hverdict : h.runtime.planVerdict env again traceId none
        (h.runtime.effectiveRisk none target.instrumentId now) (h.runtime.messageCount now) =
        .ok intent := planVerdict_of_plans hplans hguardrails rfl rfl hrate
      (RiskEngine.accepts_iff_passes.mpr hpasses)
    have hprepared := prepareMarketTarget_eq_ok_iff.mpr hverdict
    obtain ⟨-, h', hsubmit, hsent⟩ | ⟨hnot, -⟩ := submitPlanned_cases hsubmits
      (sendable_of_passes (hpaced h.runtime) (t := again) rfl hauthorized hpasses)
    · refine ⟨intent.clientOrderId, h', intent, ?_, hkept.2 ▸ hsent, rfl, rfl, rfl, rfl, rfl⟩
      have hprepare : onRuntime (Runtime.prepareManualTargetWithOrder env again.instrumentId
          again.quantityTicks again.proposalId now traceId .market none) h = (.ok intent, _) :=
        Prod.ext (mapError_eq_ok.mpr hprepared) rfl
      have hsame : sameOrderIdentity intent intent = true :=
        (sameOrderIdentity_deltaIntent rfl rfl hplans.nonzero).mpr rfl
      rw [hrun]
      refine (bind_of_ok hprepare).trans ((require_bind _ _ _ _).trans ?_)
      exact (if_pos hsame).trans (bind_of_ok hsubmit)
    · exact absurd (hkept.1.mpr hcan) hnot

/-- Where the check does not resize the quantity, planning again comes to the order only when it
buys from a flat position or sells half of a long one. -/
theorem Resubmits.flat_or_halved (hagain : Resubmits env preview now h)
    (hallow : (h.runtime.effectiveRisk none preview.intent.instrumentId now).check
      h.runtime.portfolio ⟨preview.intent.instrumentId, preview.intent.quantityTicks,
        preview.proposalId⟩ = .allow) :
    preview.intent.side = .buy ∧ h.runtime.portfolio.quantity preview.intent.instrumentId = 0 ∨
      preview.intent.side = .sell ∧ h.runtime.portfolio.quantity preview.intent.instrumentId =
        2 * preview.intent.quantityTicks := by
  have hsafe := RiskEngine.accepts_unique (RiskEngine.accepts_iff_passes.mpr hagain.passes)
    (.inl ⟨hallow, rfl⟩)
  unfold OrderIntent.signedTicks at hsafe
  dsimp only at hsafe
  cases hside : preview.intent.side with
  | buy =>
    rw [hside, if_pos rfl] at hsafe
    exact .inl ⟨rfl, by omega⟩
  | sell =>
    rw [hside, if_neg nofun] at hsafe
    exact .inr ⟨rfl, by omega⟩

end Host

/-- **Exactly when a preview is submitted as it was previewed**: on a running host, with an
environment that authorizes the previewed order and takes it, before the preview expires, the
submission sends the order of the preview exactly when planning its quantity as a target comes to
that order again. -/
theorem preview_submits_iff {env : Env} {h h1 : Host} {proposal : Proposal} {state : ProposalState}
    {scale : F64} {now₀ now : MonoTime} {traceId : TraceId} {ttlNs : ℕ}
    {preview : ManualOrderPreview} (hrunning : h.lifecycle = .running)
    (hstored : h.strategyCoordinator.record proposal.proposalId = some ⟨proposal, state⟩)
    (hpreview : Host.previewStrategyProposal env proposal.proposalId scale now₀ traceId ttlNs h =
      (.ok preview, h1))
    (hnow : now ≤ preview.expiresMonoNs) (hsubmits : env.Submits)
    (hauthorized : h1.runtime.authorizeIntent preview.intent = .ok ()) :
    h1.SubmitsAsPreviewed env preview now ↔ h1.Resubmits env preview now := by
  obtain ⟨hlifecycle, target, delta, -, hplans, hpreviewed⟩ :=
    Host.previewStrategyProposal_eq_ok hstored hpreview
  exact Host.submitsAsPreviewed_iff_of_plans hsubmits (hlifecycle.trans hrunning) hplans hpreviewed
    hnow hauthorized

namespace Sample

/-- A running host that holds a quantity of instrument 7 and stores a proposal to hold another. -/
def invested (held wanted : Int) : Host :=
  { Host.start { settings with portfolio := Portfolio.new.setPosition 7 ⟨held, 100⟩ } with
    lifecycle := .running
    strategyCoordinator := ⟨Std.TreeMap.empty.insert 5 ⟨proposal 5 wanted, .pending⟩, []⟩ }

/-- The preview of the distance from what is held. -/
def distance (held wanted : Int) : ManualOrderPreview :=
  Host.previewOf (deltaIntent 1 3 ⟨7, wanted, 5⟩ (wanted - held) (wanted - held).natAbs)
    (wanted - held).natAbs 5 1000 1000 (invested held wanted)

theorem env_submits : (env empty).Submits := ⟨fun _ _ => rfl, fun _ _ => rfl⟩

end Sample

set_option maxRecDepth 20000 in
/-- From a flat position, the previewed purchase of 10 is submitted. -/
theorem preview_submits_flat :
    (Sample.invested 0 10).SubmitsAsPreviewed (Sample.env Sample.empty) (Sample.distance 0 10)
      1000 := by
  have haccepts : (Sample.invested 0 10).runtime.risk.check (Sample.invested 0 10).runtime.portfolio
      ⟨7, 10, 5⟩ = .allow := by decide
  have hstored : (Sample.invested 0 10).strategyCoordinator.record (Sample.proposal 5 10).proposalId =
      some ⟨Sample.proposal 5 10, .pending⟩ := rfl
  have hpreview : Host.previewStrategyProposal (Sample.env Sample.empty)
      (Sample.proposal 5 10).proposalId Sample.one 1000 3 1000 (Sample.invested 0 10) =
      (.ok (Sample.distance 0 10), Sample.invested 0 10) := by rfl
  exact (preview_submits_iff rfl hstored hpreview (by decide) Sample.env_submits rfl).mpr
    ⟨⟨by decide, rfl⟩, by decide, RiskEngine.accepts_iff_passes.mp (.inl ⟨haccepts, rfl⟩)⟩

set_option maxRecDepth 20000 in
/-- **A preview that cannot be submitted**: 60 are held and the proposal is to hold 20. The preview
is the sale of 40; its submission plans to hold 40, which is the sale of 20, and is refused. -/
theorem preview_submits_long :
    ¬∀ (env : Env) (h h1 : Host) (proposal : Proposal) (state : ProposalState) (scale : F64)
        (now₀ now : MonoTime) (traceId : TraceId) (ttlNs : ℕ) (preview : ManualOrderPreview),
      h.lifecycle = .running →
      h.strategyCoordinator.record proposal.proposalId = some ⟨proposal, state⟩ →
      Host.previewStrategyProposal env proposal.proposalId scale now₀ traceId ttlNs h =
        (.ok preview, h1) →
      now ≤ preview.expiresMonoNs → env.Submits →
      h1.runtime.authorizeIntent preview.intent = .ok () →
      h1.SubmitsAsPreviewed env preview now := by
  intro hclaim
  have hrefused : (Host.submitManualPreview (Sample.env Sample.empty) (Sample.distance 60 20) 1000
      "CONFIRM" (Sample.invested 60 20)).1.isOk = false := by decide
  have hpreview : Host.previewStrategyProposal (Sample.env Sample.empty)
      (Sample.proposal 5 20).proposalId Sample.one 1000 3 1000 (Sample.invested 60 20) =
      (.ok (Sample.distance 60 20), Sample.invested 60 20) := by rfl
  obtain ⟨clientOrderId, h', intent, hsubmit, -⟩ := hclaim _ _ _ _ .pending _ _ 1000 _ _ _ rfl rfl
    hpreview (by decide) Sample.env_submits rfl
  rw [hsubmit] at hrefused
  cases hrefused

end InsiderTrader
