import InsiderTrader.Command
import InsiderTrader.Effects
import InsiderTrader.PlanVerdict

/-!
# Observational commands

Commands of the observational kinds are bound to the current version because
they are not supposed to change the state. Two of them write: an evaluation
admits its proposal, and an action of the LLM may alert the operator.

## Main definitions

- `Observed` — what an observational command may not change
- `Writes` — the two ways one changes it

## Main results

- `evaluateThresholdStrategy_observed_iff`, `llmAutonomousAction_observed_iff` — the
  two operations behind them
- `observational_iff` — an observational command observes unless it writes
-/

namespace InsiderTrader

open Fallible

namespace Host

/-- Journal, orders, portfolio, risk, plans and proposals are the same. -/
structure Observed (h h' : Host) : Prop where
  journal : journalOf h'.trace = journalOf h.trace
  orders : h'.runtime.orders = h.runtime.orders
  portfolio : h'.runtime.portfolio = h.runtime.portfolio
  risk : h'.runtime.risk = h.runtime.risk
  autonomyPlans : h'.autonomyPlans = h.autonomyPlans
  proposals : h'.strategyCoordinator = h.strategyCoordinator

instance : Std.Refl Observed := ⟨fun _ => ⟨rfl, rfl, rfl, rfl, rfl, rfl⟩⟩

instance : IsTrans Host Observed :=
  ⟨fun _ _ _ a b => ⟨b.journal.trans a.journal, b.orders.trans a.orders,
    b.portfolio.trans a.portfolio, b.risk.trans a.risk, b.autonomyPlans.trans a.autonomyPlans,
    b.proposals.trans a.proposals⟩⟩

theorem monotonicNow_observed {env : Env} : Along Observed (monotonicNow env) :=
  (Along.reads _).bind fun _ =>
    Along.bind (Along.modify fun _ => ⟨rfl, rfl, rfl, rfl, rfl, rfl⟩) fun _ => Along.ret _

theorem previewStrategyProposal_observed {env : Env} {proposalId : ProposalId} {scale : F64}
    {now : MonoTime} {traceId : TraceId} {ttlNs : ℕ} :
    Along Observed (previewStrategyProposal env proposalId scale now traceId ttlNs) := by
  have hprepare : ∀ scaled : Proposal,
      Along Observed (onRuntime (Runtime.prepareProposal env scaled now traceId)) := fun scaled =>
    Along.zoom Runtime.prepareProposal_paced fun h r hr => by
      obtain ⟨ts, rfl⟩ := hr
      exact ⟨rfl, rfl, rfl, rfl, rfl, rfl⟩
  exact (Along.require _ _).bind fun _ => (Along.reads _).bind fun _ => (Along.orFail _ _).bind
    fun _ => ((Along.orFail _ _).bind fun _ => Along.ret _).bind fun _ => (Along.ofExcept _).bind
    fun _ => (Along.ofExcept _).bind fun _ => (hprepare _).bind fun _ => Along.reads _

theorem brokerStatusSnapshot_observed {env : Env} :
    Along Observed (brokerStatusSnapshot env) := by
  have hcall : Along Observed (onRuntime (Runtime.brokerSnapshot env)) := by
    refine fun h => ⟨?_, rfl, rfl, rfl, rfl, rfl⟩
    change journalOf (h.trace ++ [.call .snapshot]) = _
    rw [journalOf, List.filterMap_append]
    exact List.append_nil _
  exact hcall.bind fun _ => Along.ret _

/-- A host whose journal grew is not the one observed. -/
theorem not_observed_of_journaled {h h' : Host} {record : JournalRecord}
    (htrace : h'.trace = h.trace ++ [.append record]) : ¬Observed h h' := by
  intro hobserved
  have hgrown : journalOf h'.trace = journalOf h.trace ++ [record] := by
    rw [htrace, journalOf, List.filterMap_append]
    rfl
  have hlength := congrArg List.length (hgrown.symm.trans hobserved.journal)
  rw [List.length_append] at hlength
  exact absurd hlength (Nat.succ_ne_self _)

/-- **An append is observed** exactly when the journal takes it. -/
theorem appendEvent_observed_iff (env : Env) (record : JournalRecord) (h : Host) :
    Observed h (appendEvent env record h).2 ↔ env.journal h.trace record ≠ none := by
  rw [appendEvent_apply]
  cases hjournal : env.journal h.trace record with
  | some error => exact ⟨fun _ => Option.some_ne_none error, fun _ => Std.Refl.refl h⟩
  | none =>
    have hunobserved : ∀ h' : Host, h'.trace = h.trace ++ [.append record] → ¬Observed h h' :=
      fun _ => not_observed_of_journaled
    refine iff_of_false (hunobserved _ ?_) (not_not.mpr rfl)
    dsimp only
    split <;> rfl

/-- The coordinator admits a valid proposal whose identity is new. -/
theorem submitChecked_of_valid {float : FloatArith} {proposal : Proposal} {now : MonoTime}
    (c : Coordinator) (hvalid : proposal.validate float now = .ok ()) :
    (Coordinator.submitChecked float proposal now c).1 =
      if (c.record proposal.proposalId).isSome then
        .error (.duplicateProposal proposal.proposalId)
      else .ok () := by
  rw [Coordinator.submitChecked, reads_bind, hvalid]
  dsimp only [id]
  split <;> rfl

/-- A proposal that is refused, or that the journal refuses, changes nothing. -/
theorem submitStrategyProposal_refused {env : Env} {proposal : Proposal} {now : MonoTime}
    {h : Host} (hvalid : proposal.validate env.float now = .ok ())
    (hrefused : ¬(h.strategyCoordinator.record proposal.proposalId = none ∧
      env.journal h.trace (.strategyProposal proposal) = none)) :
    (submitStrategyProposal env proposal now h).2 = h := by
  have hadmission := submitChecked_of_valid h.strategyCoordinator hvalid
  rw [submitStrategyProposal, reads_bind]
  dsimp only [id]
  rw [hadmission]
  cases hrecord : h.strategyCoordinator.record proposal.proposalId with
  | some record => rfl
  | none =>
    have happend : ∃ error, appendEvent env (.strategyProposal proposal) h = (.error error, h) := by
      rw [appendEvent_apply]
      cases hjournal : env.journal h.trace (.strategyProposal proposal) with
      | some error => exact ⟨_, rfl⟩
      | none => exact absurd ⟨hrecord, hjournal⟩ hrefused
    obtain ⟨error, happend⟩ := happend
    exact congrArg Prod.snd ((bind_of_ok rfl).trans (bind_of_error happend))

/-- An admitted proposal is journaled once the journal takes it. -/
theorem submitStrategyProposal_journaled {env : Env} {proposal : Proposal} {now : MonoTime}
    {h : Host} (hvalid : proposal.validate env.float now = .ok ())
    (hfresh : h.strategyCoordinator.record proposal.proposalId = none)
    (hjournal : env.journal h.trace (.strategyProposal proposal) = none) :
    (submitStrategyProposal env proposal now h).2.trace =
      h.trace ++ [.append (.strategyProposal proposal)] := by
  have hadmission := submitChecked_of_valid h.strategyCoordinator hvalid
  rw [submitStrategyProposal, reads_bind]
  dsimp only [id]
  rw [hadmission, hfresh]
  change ((appendEvent env (.strategyProposal proposal) >>= fun _ => _) h).2.trace = _
  rw [bind_apply, appendEvent_apply, hjournal]
  dsimp only
  by_cases hread : env.readModel
      (h.trace ++ [.append (.strategyProposal proposal)]) (.strategyProposal proposal) = true
  · rw [if_pos hread]
    rfl
  · rw [if_neg hread]
    rfl

/-- **An evaluation is observed** when its proposal is new and the journal takes it. -/
theorem evaluateThresholdStrategy_observed_iff (env : Env) (config : ThresholdConfig)
    (metric : MetricOutput) (now : MonoTime) (h : Host) :
    Observed h (evaluateThresholdStrategy env config metric now h).2 ↔
      ¬∃ proposal, thresholdProposal env.float config metric now = .ok proposal
        ∧ h.strategyCoordinator.record proposal.proposalId = none
        ∧ env.journal h.trace (.strategyProposal proposal) = none := by
  cases hproposal : thresholdProposal env.float config metric now with
  | error e =>
    refine iff_of_true ?_ (by rintro ⟨_, ⟨⟩, -⟩)
    rw [evaluateThresholdStrategy, hproposal]
    exact Std.Refl.refl h
  | ok proposal =>
    have hvalid := thresholdProposal_valid hproposal
    have hrun : (evaluateThresholdStrategy env config metric now h).2 =
        (submitStrategyProposal env proposal now h).2 := by
      rw [evaluateThresholdStrategy, ofExcept_bind_ok hproposal]
      exact bind_pure_snd _ _ _
    rw [hrun]
    by_cases hadmitted : h.strategyCoordinator.record proposal.proposalId = none
        ∧ env.journal h.trace (.strategyProposal proposal) = none
    · exact iff_of_false
        (not_observed_of_journaled
          (submitStrategyProposal_journaled hvalid hadmitted.1 hadmitted.2))
        (not_not.mpr ⟨proposal, rfl, hadmitted⟩)
    · refine iff_of_true ?_ ?_
      · rw [submitStrategyProposal_refused hvalid hadmitted]
        exact Std.Refl.refl h
      · rintro ⟨_, ⟨⟩, hfresh⟩
        exact hadmitted hfresh

end Host

/-- What an observational command may not change: the observed parts of the host, the pending
alerts, and the registries with the configuration. -/
structure Desk.Observed {ρ : Type} (d d' : Desk ρ) : Prop where
  host : d.host.Observed d'.host
  alerts : d.alerts.SamePending d'.alerts
  registries : d'.registries = d.registries

namespace Desk

variable {ρ : Type}

instance : Std.Refl (@Observed ρ) :=
  ⟨fun d => ⟨Std.Refl.refl _, d.alerts.samePending_refl, rfl⟩⟩

instance : IsTrans (Desk ρ) Observed :=
  ⟨fun _ _ _ a b => ⟨IsTrans.trans _ _ _ a.host b.host,
    fun key => (b.alerts key).trans (a.alerts key), b.registries.trans a.registries⟩⟩

/-- A change of the supervisor alone. -/
theorem observed_supervisor (d : Desk ρ) (s : Supervisor) : Observed d { d with supervisor := s } :=
  ⟨Std.Refl.refl _, d.alerts.samePending_refl, rfl⟩

theorem supervisor_observed_iff {d d' : Desk ρ} {s : Supervisor} :
    Observed { d with supervisor := s } d' ↔ Observed d d' :=
  ⟨fun h => ⟨h.host, h.alerts, h.registries⟩, fun h => ⟨h.host, h.alerts, h.registries⟩⟩

theorem onHost_observed {α : Type} {p : Fallible Host EngineError α}
    (hp : Along Host.Observed p) : Along Observed (onHost p : Fallible (Desk ρ) EngineError α) :=
  hp.zoom fun d _ hh => ⟨hh, d.alerts.samePending_refl, rfl⟩

theorem askLlm_observed {α : Type} {ask : LlmProvider → Except LlmError α} :
    Along Observed (askLlm ask : Fallible (Desk ρ) EngineError α) :=
  (Along.reads _).bind fun _ => (Along.orFail _ _).bind fun _ =>
    Along.bind (Along.modify fun d => d.observed_supervisor _) fun _ => Along.ofExcept _

theorem setSupervisorHealth_observed {name : String} {health : SupervisorHealth} :
    Along Observed (setSupervisorHealth name health : Fallible (Desk ρ) EngineError Unit) :=
  (Along.reads _).bind fun _ =>
    Along.bind (Along.modify fun d => d.observed_supervisor _) fun _ => Along.require _ _

theorem supervisorSnapshot_observed {world : World ρ} : Along Observed (supervisorSnapshot world) :=
  ((Along.reads _).bind fun _ => Along.bind setSupervisorHealth_observed fun _ =>
    Along.bind setSupervisorHealth_observed fun _ => Along.bind setSupervisorHealth_observed fun _ =>
    setSupervisorHealth_observed).bind fun _ => Along.reads _

/-- The alert of an action joins the pending ones. -/
def Alerting (d : Desk ρ) (alert : Alert) : Prop :=
  d.alerts.cooling alert.dedupeKey .inApp alert.occurredMs = false
    ∧ d.alerts.pending.size < d.alerts.maxPending
    ∧ d.alerts.pending[(alert.alertId, Channel.inApp)]? ≠ some (alert, .inApp)

/-- The fields of an action's alert are never blank. -/
theorem llmAlert_sound (request : LlmRequest) (action : AutonomousAction) (now : MonoTime) :
    [(llmAlert request action now).alertId, (llmAlert request action now).dedupeKey,
      (llmAlert request action now).source,
      (llmAlert request action now).message].any Text.isBlank = false := by
  have hid : Text.isBlank "llm-alert-" = false := by decide
  have hkey : Text.isBlank "llm-alert:" = false := by decide
  have hsource : Text.isBlank "llm-autonomy" = false := by decide
  have hmessage : Text.isBlank "AI control alert [" = false := by decide
  simp [llmAlert, Text.isBlank_append, hid, hkey, hsource, hmessage]

/-- **An alert is observed** when the journal takes it or when it joins the pending ones. -/
theorem publishLlmAlert_observed_iff (env : Env) (request : LlmRequest)
    (action : AutonomousAction) (d : Desk ρ) :
    Observed d (publishLlmAlert env request action d).2 ↔
      ¬(env.journal d.host.trace (.other "alert") = none
        ∨ d.Alerting (llmAlert request action (env.clock d.host.clockReads))) := by
  have hread : d.host.Observed { d.host with clockReads := d.host.clockReads + 1 } :=
    ⟨rfl, rfl, rfl, rfl, rfl, rfl⟩
  have happend := Host.appendEvent_observed_iff env (.other "alert")
    { d.host with clockReads := d.host.clockReads + 1 }
  generalize halert : llmAlert request action (env.clock d.host.clockReads) = alert
  have hrun : (publishLlmAlert env request action d).2 = { d with
      host := (Host.appendEvent env (.other "alert")
        { d.host with clockReads := d.host.clockReads + 1 }).2
      alerts := (AlertRouter.route alert .inApp alert.occurredMs d.alerts).2 } := by
    rw [← halert]
    rfl
  have hroute := AlertRouter.route_inApp d.alerts
    (halert ▸ llmAlert_sound request action (env.clock d.host.clockReads)) (le_refl alert.occurredMs)
  rw [hrun]
  constructor
  · rintro hobserved (htaken | ⟨hwarm, hroom, hnew⟩)
    · have hhost := hobserved.host
      exact happend.mp ⟨hhost.journal, hhost.orders, hhost.portfolio, hhost.risk,
        hhost.autonomyPlans, hhost.proposals⟩ htaken
    · have hpending := hobserved.alerts
      rw [hroute, if_pos ⟨hwarm, hroom⟩] at hpending
      exact hnew ((AlertRouter.queue_samePending_iff _ _ _ _).mp hpending)
  · intro hquiet
    rw [not_or] at hquiet
    refine ⟨IsTrans.trans _ _ _ hread (happend.mpr hquiet.1), ?_, rfl⟩
    rw [hroute]
    split
    · next hqueued =>
      refine (AlertRouter.queue_samePending_iff _ _ _ _).mpr (by_contra fun hnew => ?_)
      exact hquiet.2 ⟨hqueued.1, hqueued.2, hnew⟩
    · exact d.alerts.samePending_refl

/-- The installed provider answers a request with an action that operators are alerted to. -/
def AnsweredAlarm (float : FloatArith) (d : Desk ρ) (request : LlmRequest)
    (action : AutonomousAction) : Prop :=
  ∃ provider response, d.llmProvider = some provider
    ∧ provider.complete request = .ok response ∧ response.traceId = request.traceId
    ∧ parseAutonomousAction float response.content = .ok action ∧ alarming action

theorem AnsweredAlarm.unique {float : FloatArith} {d : Desk ρ} {request : LlmRequest}
    {a b : AutonomousAction} (ha : d.AnsweredAlarm float request a)
    (hb : d.AnsweredAlarm float request b) : a = b := by
  obtain ⟨provider, response, hprovider, hanswer, -, hparse, -⟩ := ha
  obtain ⟨provider', response', hprovider', hanswer', -, hparse', -⟩ := hb
  obtain rfl := Option.some.inj (hprovider.symm.trans hprovider')
  obtain rfl := Except.ok.inj (hanswer.symm.trans hanswer')
  exact Except.ok.inj (hparse.symm.trans hparse')

/-- A completed request was answered by the installed provider. -/
theorem llmComplete_eq_ok {request : LlmRequest} {response : LlmResponse} {d d' : Desk ρ}
    (h : llmComplete request d = (.ok response, d')) :
    ∃ provider, d.llmProvider = some provider ∧ provider.complete request = .ok response := by
  obtain ⟨provider, hprovider, h⟩ := orFail_bind_eq_ok h
  exact ⟨provider, hprovider, mapError_eq_ok.mp (congrArg Prod.fst h)⟩

/-- An answer without an alarm leaves the desk as it is observed. -/
theorem llmAutonomousAction_of_quiet {env : Env} {request : LlmRequest} {d : Desk ρ}
    (hquiet : ∀ action, ¬d.AnsweredAlarm env.float request action) :
    Observed d (llmAutonomousAction env request d).2 := by
  refine Along.bind_at (askLlm_observed d) fun response d₁ hcomplete => ?_
  obtain ⟨provider, hprovider, hanswer⟩ := llmComplete_eq_ok hcomplete
  rw [require_bind]
  split
  · next htrace =>
    cases hparse : parseAutonomousAction env.float response.content with
    | error e => exact Std.Refl.refl d₁
    | ok action =>
      have hcalm : ¬alarming action := fun halarm =>
        hquiet action ⟨provider, response, hprovider, hanswer, htrace, hparse, halarm⟩
      rw [ofExcept_bind_ok (mapError_eq_ok.mpr (rfl : Except.ok action = .ok action)),
        ofExcept_bind_ok (mapError_eq_ok.mpr (parseAutonomousAction_valid hparse))]
      refine Along.bind_at ?_ fun _ _ _ => Along.ret _ _
      rw [Fallible.when, if_neg hcalm]
      exact Std.Refl.refl d₁
  · exact Std.Refl.refl d₁

/-- An answer with an alarm publishes its alert. -/
theorem llmAutonomousAction_of_alarm {env : Env} {request : LlmRequest} {d : Desk ρ}
    {action : AutonomousAction} (h : d.AnsweredAlarm env.float request action) :
    ∃ s : Supervisor, (llmAutonomousAction env request d).2 =
      (publishLlmAlert env request action { d with supervisor := s }).2 := by
  obtain ⟨provider, response, hprovider, hanswer, htrace, hparse, halarm⟩ := h
  refine ⟨(d.supervisor.setHealth "llm" .healthy).2, ?_⟩
  have hcomplete : llmComplete request d =
      (.ok response, { d with supervisor := (d.supervisor.setHealth "llm" .healthy).2 }) := by
    have hask : askLlm (·.complete request) d = ((provider.complete request).mapError .llm,
        { d with supervisor := (d.supervisor.setHealth "llm"
          (if (provider.complete request).isOk then .healthy else .degraded)).2 }) := by
      rw [askLlm, reads_bind, id, orFail_bind_some hprovider]
      rfl
    rw [llmComplete, hask, hanswer]
    rfl
  rw [llmAutonomousAction, bind_of_ok hcomplete, require_bind, if_pos htrace,
    ofExcept_bind_ok (mapError_eq_ok.mpr hparse),
    ofExcept_bind_ok (mapError_eq_ok.mpr (parseAutonomousAction_valid hparse)),
    Fallible.when, if_pos halarm]
  exact bind_pure_snd _ _ _

/-- The alert of an alarming answer is journaled or joins the pending ones. -/
def AlarmWrites (env : Env) (d : Desk ρ) (request : LlmRequest) : Prop :=
  ∃ action, d.AnsweredAlarm env.float request action
    ∧ (env.journal d.host.trace (.other "alert") = none
      ∨ d.Alerting (llmAlert request action (env.clock d.host.clockReads)))

theorem llmAutonomousAction_observed_iff (env : Env) (request : LlmRequest) (d : Desk ρ) :
    Observed d (llmAutonomousAction env request d).2 ↔ ¬d.AlarmWrites env request := by
  by_cases halarm : ∃ action, d.AnsweredAlarm env.float request action
  · obtain ⟨action, hanswer⟩ := halarm
    obtain ⟨s, hrun⟩ := llmAutonomousAction_of_alarm hanswer
    rw [hrun, ← supervisor_observed_iff (s := s), publishLlmAlert_observed_iff]
    refine not_congr ⟨fun hwrites => ⟨action, hanswer, hwrites⟩, ?_⟩
    rintro ⟨action', hanswer', hwrites⟩
    rwa [hanswer.unique hanswer']
  · rw [not_exists] at halarm
    exact iff_of_true (llmAutonomousAction_of_quiet halarm)
      fun ⟨action, hanswer, _⟩ => halarm action hanswer

end Desk

-- Commands

namespace EngineCommandService

variable {ρ : Type}

/-- The clock reading of an evaluation yields a new proposal, and the journal takes it. -/
def EvaluationWrites (world : World ρ) (d : Desk ρ) (config : ThresholdConfig)
    (metric : MetricOutput) : Prop :=
  ∃ proposal, thresholdProposal world.float config
      { metric with generatedMono := world.clock d.host.clockReads }
      (world.clock d.host.clockReads) = .ok proposal
    ∧ d.host.strategyCoordinator.record proposal.proposalId = none
    ∧ world.journal d.host.trace (.strategyProposal proposal) = none

/-- The two ways an observational command writes: an admitted proposal, and an alert. -/
def Writes (world : World ρ) (d : Desk ρ) : Payload → Prop
  | .strategyEvaluate config metric _ => EvaluationWrites world d config metric
  | .llmAction request => d.AlarmWrites world.toEnv request
  | _ => False

theorem run_observed {α : Type} {context : String} {p : Fallible (Desk ρ) EngineError α}
    (hp : Along Desk.Observed p) : Along Desk.Observed (run context p) :=
  hp.zoom fun _ _ h => h

theorem respond_observed {reply : Reply} :
    Along Desk.Observed (respond reply : Fallible (Desk ρ) HandlerError _) :=
  Along.reads _

theorem consult_observed {world : World ρ} {context : String} {question : Lookup} :
    Along Desk.Observed (consult world context question) :=
  (Along.reads _).bind fun _ => (run_observed (Along.ofExcept _)).bind fun _ => respond_observed

theorem respondTrace_observed {world : World ρ} {context : String} {traceId : TraceId} :
    Along Desk.Observed (respondTrace world context traceId) :=
  (Along.require _ _).bind fun _ => (Along.reads _).bind fun _ =>
    (run_observed (Along.ofExcept _)).bind fun _ => respond_observed

theorem handleProposalPreview_observed {world : World ρ} {proposalId : ProposalId} {scale : F64}
    {traceId : TraceId} {ttlNs : ℕ} :
    Along Desk.Observed (handleProposalPreview world proposalId scale traceId ttlNs) :=
  (run_observed (Desk.onHost_observed Host.monotonicNow_observed)).bind fun _ =>
    (run_observed (Desk.onHost_observed Host.previewStrategyProposal_observed)).bind fun _ =>
    respond_observed

/-- A response leaves what was run before it. -/
theorem run_respond_snd {α : Type} (context : String) (p : Fallible (Desk ρ) EngineError α)
    (reply : α → Reply) (d : Desk ρ) :
    ((run context p >>= fun a => respond (reply a)) d).2 = (p d).2 := by
  rw [bind_apply, run, zoom_apply, id]
  rcases p d with ⟨_ | a, d'⟩ <;> rfl

theorem handleStrategyEvaluate_observed_iff (world : World ρ) (d : Desk ρ)
    (config : ThresholdConfig) (metric : MetricOutput) :
    Desk.Observed d (handleStrategyEvaluate world config metric d).2 ↔
      ¬EvaluationWrites world d config metric := by
  have hhost := Host.evaluateThresholdStrategy_observed_iff world.toEnv config
    { metric with generatedMono := world.clock d.host.clockReads } (world.clock d.host.clockReads)
    { d.host with clockReads := d.host.clockReads + 1 }
  have hrun : (handleStrategyEvaluate world config metric d).2 = { d with
      host := (Host.evaluateThresholdStrategy world.toEnv config
        { metric with generatedMono := world.clock d.host.clockReads }
        (world.clock d.host.clockReads) { d.host with clockReads := d.host.clockReads + 1 }).2 } :=
    (run_respond_snd _ _ _ _)
  rw [hrun]
  refine Iff.trans ?_ hhost
  exact ⟨fun h => ⟨h.host.journal, h.host.orders, h.host.portfolio, h.host.risk,
      h.host.autonomyPlans, h.host.proposals⟩,
    fun h => ⟨⟨h.journal, h.orders, h.portfolio, h.risk, h.autonomyPlans, h.proposals⟩,
      d.alerts.samePending_refl, rfl⟩⟩

/-- **Observational commands observe** unless they admit a proposal or raise an alert. -/
theorem observational_iff (world : World ρ) (d : Desk ρ) (command : Payload)
    (hkind : command.kind.observational = true) :
    Desk.Observed d (handle world command d).2 ↔ ¬Writes world d command := by
  have quiet : ∀ {p : Fallible (Desk ρ) HandlerError (CommandResponse Reply)},
      Along Desk.Observed p → (Desk.Observed d (p d).2 ↔ ¬False) :=
    fun hp => iff_of_true (hp d) not_false
  cases command with
  | strategyEvaluate config metric clientNow =>
    exact handleStrategyEvaluate_observed_iff world d config metric
  | llmAction request =>
    rw [handle, run_respond_snd]
    exact Desk.llmAutonomousAction_observed_iff world.toEnv request d
  | malformed kind message => exact quiet (Along.fail _)
  | snapshot => exact quiet ((Along.reads _).bind fun _ => respond_observed)
  | events cursor limit =>
    exact quiet ((Along.require _ _).bind fun _ => (Along.reads _).bind fun _ =>
      (run_observed (Along.ofExcept _)).bind fun _ => respond_observed)
  | resolveSymbol symbol day assets => exact quiet consult_observed
  | readModelStatus => exact quiet ((Along.reads _).bind fun _ => respond_observed)
  | traceEvents traceId => exact quiet respondTrace_observed
  | traceExport traceId => exact quiet respondTrace_observed
  | newsPage scope symbol after => exact quiet consult_observed
  | newsDetail itemId => exact quiet consult_observed
  | llmComplete request =>
    exact quiet ((run_observed Desk.askLlm_observed).bind fun _ => respond_observed)
  | llmStream request =>
    exact quiet ((run_observed Desk.askLlm_observed).bind fun _ => respond_observed)
  | proposalPreview proposalId scale clientNow traceId ttlNs =>
    exact quiet handleProposalPreview_observed
  | contextSearch text embedding root maxDepth limit => exact quiet consult_observed
  | experimentList => exact quiet consult_observed
  | modelList => exact quiet consult_observed
  | strategyResolutionList => exact quiet ((Along.reads _).bind fun _ => respond_observed)
  | strategyExecutionList => exact quiet ((Along.reads _).bind fun _ => respond_observed)
  | strategyRegistryList => exact quiet consult_observed
  | metricRegistryList => exact quiet consult_observed
  | configStatus => exact quiet consult_observed
  | newsProviderStatus => exact quiet consult_observed
  | supervisorStatus =>
    exact quiet ((run_observed Desk.supervisorSnapshot_observed).bind fun _ => respond_observed)
  | riskPolicyStatus => exact quiet ((Along.reads _).bind fun _ => respond_observed)
  | brokerStatus =>
    exact quiet ((run_observed (Desk.onHost_observed Host.brokerStatusSnapshot_observed)).bind
      fun _ => respond_observed)
  | alertsGet => exact quiet ((Along.reads _).bind fun _ => respond_observed)
  | _ => cases hkind

end EngineCommandService

namespace Sample

/-- A provider that answers every request with the wish to pause a strategy. -/
def pausing : LlmProvider where
  complete request := .ok ⟨request.traceId,
    "\x7b\"type\":\"PAUSE_STRATEGY\",\"reason_codes\":[\"DRAWDOWN\"]\x7d", "stop"⟩
  stream _ := .error .timeout

/-- A request for one action. -/
def request : LlmRequest := ⟨"t-1", "v1", "m", "action", "c", "positions", 64, .responses⟩

end Sample

namespace EngineCommandService

open Sample

example : (handle world (.llmAction request) (desk running (some pausing))).1.isOk = true := by
  decide

/-- The status of the supervisor is observed only. -/
theorem observational_iff_supervisorStatus :
    Desk.Observed (desk running none) (handle world .supervisorStatus (desk running none)).2 ↔
      ¬Writes world (desk running none) .supervisorStatus :=
  observational_iff world (desk running none) .supervisorStatus rfl

/-- An action of the LLM is observational by its kind, and its alert is journaled. -/
theorem observational_writes :
    ¬∀ (world : World Unit) (d : Desk Unit) (command : Payload),
      command.kind.observational = true → Desk.Observed d (handle world command d).2 := by
  intro hclaim
  have hobserved := hclaim world (desk running (some pausing)) (.llmAction request) rfl
  have hlength := congrArg List.length hobserved.host.journal
  revert hlength
  decide

end EngineCommandService

end InsiderTrader
