import InsiderTrader.Bookkeeping
import InsiderTrader.OrderFlow
import InsiderTrader.Restart

/-!
# Orders in flight after a restart

A sweep asks the broker about unknown orders and misses working orders that the
snapshot does not report. An order that is restored from its intent alone is
neither: it is still risk-approved, as if it had never been sent.

## Main definitions

- `OrderState.unsent` — states before the send
- `Host.Absorbs` — nothing is unsent again and the broker is not asked
- `Host.Reported`, `Host.Resolved` — what the broker says about an order in a sweep

## Main results

- `OrderState.cases_of_open` — working, unsent or terminal
- `reopened_accounted` — the restored orders a sweep accounts for
-/

namespace InsiderTrader

open Fallible

-- States before the send

/-- States before the send. -/
def OrderState.unsent : OrderState → Bool
  | .created | .riskApproved => true
  | _ => false

/-- A state that is not terminal is a working one or comes before the send. -/
theorem OrderState.cases_of_open {s : OrderState} (h : s.terminal = false) :
    Runtime.workingState s = true ∨ s.unsent = true := by
  revert h
  cases s <;> decide

/-- No lifecycle step leads back before the send. -/
theorem sent_of_legalTransition {s next : OrderState} (h : legalTransition s next = true) :
    next.unsent = false := by
  revert h
  cases next with
  | created => cases s <;> decide
  | riskApproved => cases s <;> decide
  | queued => exact fun _ => rfl
  | sending => exact fun _ => rfl
  | sent => exact fun _ => rfl
  | acknowledged => exact fun _ => rfl
  | partiallyFilled => exact fun _ => rfl
  | filled => exact fun _ => rfl
  | cancelPending => exact fun _ => rfl
  | replacePending => exact fun _ => rfl
  | cancelled => exact fun _ => rfl
  | rejected => exact fun _ => rfl
  | expired => exact fun _ => rfl
  | unknown => exact fun _ => rfl

namespace OrderRecord

/-- An order that was sent stays sent. -/
def StaysSent (record record' : OrderRecord) : Prop :=
  record'.state.unsent = true → record.state.unsent = true

instance : Std.Refl StaysSent := ⟨fun _ h => h⟩

instance : IsTrans OrderRecord StaysSent := ⟨fun _ _ _ h h' hu => h (h' hu)⟩

theorem transition_staysSent (next : OrderState) : Along StaysSent (transition next) := by
  intro record
  rw [transition_apply]
  split
  · next hlegal =>
    intro hunsent
    exact absurd ((sent_of_legalTransition hlegal).symm.trans hunsent) Bool.false_ne_true
  · exact Std.Refl.refl record

theorem applyBrokerEvent_staysSent (event : BrokerEvent) :
    Along StaysSent (applyBrokerEvent event) := by
  refine (Along.reads _).bind fun record => ?_
  cases event with
  | acknowledged =>
    exact Along.ite (fun _ => Along.ite (fun _ => Along.ret _) fun _ => Along.fail _)
      fun _ => Along.bind (Along.modify fun _ hu => hu) fun _ => transition_staysSent _
  | filled =>
    refine Along.ite (fun _ => Along.fail _) fun _ => Along.ite (fun _ => Along.ret _) fun _ => ?_
    split
    · exact Along.fail _
    · exact Along.ite (fun _ => Along.fail _) fun _ =>
        Along.bind (Along.modify fun _ hu => hu) fun _ => transition_staysSent _
  | rejected => exact Along.ite (fun _ => Along.ret _) fun _ => transition_staysSent _
  | cancelled => exact Along.ite (fun _ => Along.ret _) fun _ => transition_staysSent _

end OrderRecord

namespace OrderBook

/-- Orders that were sent stay sent, and no unsent order is added. -/
def StaysSent (book book' : OrderBook) : Prop :=
  ∀ id record', book'.get id = some record' → record'.state.unsent = true →
    ∃ record, book.get id = some record ∧ record.state.unsent = true

instance : Std.Refl StaysSent := ⟨fun _ _ record h hu => ⟨record, h, hu⟩⟩

instance : IsTrans OrderBook StaysSent := ⟨fun _ _ _ h h' id record'' hget hu => by
  obtain ⟨record', hget', hu'⟩ := h' id record'' hget hu
  exact h id record' hget' hu'⟩

theorem onRecord_staysSent {ε : Type} {unknown : ε} {id : String}
    {p : Fallible OrderRecord ε Unit} (hp : Along OrderRecord.StaysSent p) :
    Along StaysSent (onRecord unknown id p) := by
  intro book
  cases hget : book.get id with
  | none =>
    rw [onRecord_of_none hget]
    exact Std.Refl.refl book
  | some record =>
    rw [onRecord_of_get hget]
    intro id' record' hget' hunsent
    dsimp only at hget'
    rw [get_put] at hget'
    split at hget'
    · next hid =>
      cases hget'
      exact ⟨record, hid ▸ hget, hp record hunsent⟩
    · exact ⟨record', hget', hunsent⟩

end OrderBook

-- The sweep

/-- Orders that were sent stay sent. -/
def Runtime.StaysSent (r r' : Runtime) : Prop := r.orders.StaysSent r'.orders

instance : Std.Refl Runtime.StaysSent := ⟨fun r => Std.Refl.refl r.orders⟩

instance : IsTrans Runtime Runtime.StaysSent :=
  ⟨fun r r' r'' => IsTrans.trans (r := OrderBook.StaysSent) r.orders r'.orders r''.orders⟩

theorem Runtime.applyReconciledBrokerEvent_staysSent (event : BrokerEvent) :
    Along StaysSent (applyReconciledBrokerEvent event) := by
  have horders : Along StaysSent
      (onOrders EngineError.transition (OrderBook.applyBrokerEvent event)) :=
    (OrderBook.onRecord_staysSent (OrderRecord.applyBrokerEvent_staysSent event)).zoom
      fun _ _ hbook => hbook
  refine (Along.reads _).bind fun r => ?_
  cases event with
  | filled orderId ticks price =>
    dsimp only
    split
    · exact Along.fail _
    · exact Along.ite (fun _ => horders) fun _ => Along.ite (fun hupdate => by cases hupdate)
        fun _ => horders.bind fun _ => Along.modify fun r => Std.Refl.refl r.orders
  | acknowledged => exact horders
  | rejected => exact horders
  | cancelled => exact horders

namespace Host

/-- Orders that were sent stay sent, and the broker is asked nothing. -/
structure Absorbs (h h' : Host) : Prop where
  orders : h.runtime.StaysSent h'.runtime
  calls : brokerCalls h'.trace = brokerCalls h.trace

instance : Std.Refl Absorbs := ⟨fun h => ⟨Std.Refl.refl h.runtime, rfl⟩⟩

instance : IsTrans Host Absorbs := ⟨fun _ _ _ h h' =>
  ⟨IsTrans.trans (r := Runtime.StaysSent) _ _ _ h.orders h'.orders, h'.calls.trans h.calls⟩⟩

variable {env : Env}

theorem absorbs_of_bookkeeping {α : Type} {p : Fallible Host EngineError α}
    (hp : Along (Bookkeeping fun _ => True) p) : Along Absorbs p := by
  refine hp.mono fun h h' hbooks => ⟨?_, ?_⟩
  · unfold Runtime.StaysSent
    rw [hbooks.orders]
    exact Std.Refl.refl _
  · obtain ⟨records, -, htrace⟩ := hbooks.trace
    rw [htrace, brokerCalls_append]
    simp [brokerCalls]

theorem onRuntime_absorbs {α : Type} {p : Fallible Runtime EngineError α}
    (hp : Along Runtime.StaysSent p) (hs : Along Runtime.Silent p) :
    Along Absorbs (onRuntime p) :=
  fun h => ⟨hp h.runtime, congrArg brokerCalls (hs h.runtime).trace⟩

theorem applyReconciledEvent_absorbs (event : BrokerEvent) :
    Along Absorbs (applyReconciledEvent env event) :=
  (absorbs_of_bookkeeping (appendEvent_bookkeeping trivial)).bind fun _ =>
    (absorbs_of_bookkeeping (recordTiming_bookkeeping fun _ => trivial)).bind fun _ =>
    (onRuntime_absorbs (Runtime.applyReconciledBrokerEvent_staysSent event)
      Runtime.applyBrokerEventInner_silent).bind fun _ =>
    (absorbs_of_bookkeeping indexFillNow_bookkeeping).bind fun _ =>
    absorbs_of_bookkeeping (recordChildEvent_bookkeeping fun _ => trivial)

theorem applySnapshotEvent_absorbs (event : BrokerEvent) (summary : ReconcileSummary) :
    Along Absorbs (applySnapshotEvent env event summary) := by
  have hevent : Along Absorbs (onRuntime (Runtime.applyReconciledBrokerEvent event)) :=
    onRuntime_absorbs (Runtime.applyReconciledBrokerEvent_staysSent event)
      Runtime.applyBrokerEventInner_silent
  refine (absorbs_of_bookkeeping (appendEvent_bookkeeping trivial)).bind fun _ =>
    (absorbs_of_bookkeeping (recordTiming_bookkeeping fun _ => trivial)).bind fun _ =>
    (Along.reads _).bind fun _ => hevent.attempt.bind fun outcome => ?_
  cases outcome with
  | error e => exact Along.ret _
  | ok _ =>
    exact (absorbs_of_bookkeeping indexFillNow_bookkeeping).bind fun _ =>
      (absorbs_of_bookkeeping (recordAttribution_bookkeeping fun _ => trivial)).bind fun _ =>
      (absorbs_of_bookkeeping (recordChildEvent_bookkeeping fun _ => trivial)).bind fun _ =>
      Along.ret _

theorem reconcileSnapshotOrders_absorbs (orders : List BrokerOrderSnapshot)
    (summary : ReconcileSummary) :
    Along Absorbs (reconcileSnapshotOrders env orders summary) := by
  induction orders generalizing summary with
  | nil => exact Along.ret _
  | cons order orders ih =>
    refine (Along.reads _).bind fun h => Along.ite (fun _ => ?_) fun _ => ih _
    split
    · exact ih _
    · exact (applySnapshotEvent_absorbs _ _).bind fun _ => ih _

theorem adoptSnapshot_absorbs (snapshot : BrokerSnapshot) :
    Along Absorbs (adoptSnapshot env snapshot) := by
  have hadopt : Along Absorbs (onRuntime (Runtime.applyBrokerSnapshot snapshot)) :=
    onRuntime_absorbs
      ((Along.ofExcept _).bind fun _ => Along.modify fun r => Std.Refl.refl r.orders)
      Runtime.applyBrokerSnapshot_silent
  exact (Along.ofExcept _).bind fun _ =>
    (absorbs_of_bookkeeping (appendEvent_bookkeeping trivial)).bind fun _ => hadopt.bind fun _ =>
    (absorbs_of_bookkeeping monotonicNow_bookkeeping).bind fun _ =>
    (absorbs_of_bookkeeping indexPortfolio_bookkeeping).bind fun _ =>
    (Along.reads _).bind fun _ => absorbs_of_bookkeeping (appendEvent_bookkeeping trivial)

/-- Queries that succeed ask the broker about every order of the list. -/
theorem queryOrders_eq_ok {ids : List String} {summary queried : ReconcileSummary} {h h' : Host}
    (hrun : queryOrders env ids summary h = (.ok queried, h')) :
    h.runtime.StaysSent h'.runtime ∧
      brokerCalls h'.trace = brokerCalls h.trace ++ ids.map .reconcile := by
  induction ids generalizing summary h with
  | nil =>
    cases hrun
    exact ⟨Std.Refl.refl (r := Runtime.StaysSent) _, by simp⟩
  | cons id ids ih =>
    rw [queryOrders] at hrun
    obtain ⟨answer, asked, hcall, hrun⟩ := bind_eq_ok hrun
    have hasked : asked = h.emit (.call (.reconcile id)) := (Prod.mk.inj hcall).2.symm
    have hcalls : brokerCalls asked.trace = brokerCalls h.trace ++ [.reconcile id] := by
      rw [hasked, trace_emit, brokerCalls_append, brokerCalls_call]
    have horders : h.runtime.StaysSent asked.runtime := by
      rw [hasked]
      exact (Std.Refl.refl h.runtime : h.runtime.StaysSent h.runtime)
    have hrest {s : Host} (habsorbed : Absorbs asked s)
        (hs : s.runtime.StaysSent h'.runtime ∧
          brokerCalls h'.trace = brokerCalls s.trace ++ ids.map .reconcile) :
        h.runtime.StaysSent h'.runtime ∧
          brokerCalls h'.trace = brokerCalls h.trace ++ (id :: ids).map .reconcile := by
      refine ⟨IsTrans.trans (r := Runtime.StaysSent) _ _ _ horders
        (IsTrans.trans _ _ _ habsorbed.orders hs.1), ?_⟩
      rw [hs.2, habsorbed.calls, hcalls, List.append_assoc]
      rfl
    split at hrun
    · obtain ⟨_, s, hevent, hrun⟩ := bind_eq_ok hrun
      exact hrest ((applyReconciledEvent_absorbs _).of_ok hevent) (ih hrun)
    · exact hrest (Std.Refl.refl asked) (ih hrun)
    · exact hrest (Std.Refl.refl asked) (ih hrun)

-- What a sweep says

/-- The broker calls before the snapshot of a sweep: every unknown order is asked about. -/
def sweepCalls (h : Host) : List BrokerCall :=
  brokerCalls h.trace ++ h.runtime.unknownOrderIds.map .reconcile

/-- The snapshot that answers the sweep of a host reports an order. -/
def Reported (env : Env) (h : Host) (id : String) : Prop :=
  ∃ snapshot, env.gateway.snapshot h.sweepCalls = .ok snapshot ∧
    id ∈ snapshot.orders.map (·.clientOrderId)

/-- The query of the sweep of a host about an order is answered with an event. -/
def Resolved (env : Env) (h : Host) (id : String) : Prop :=
  ∃ before after event, h.runtime.unknownOrderIds = before ++ id :: after ∧
    env.gateway.reconcile (brokerCalls h.trace ++ before.map .reconcile) id = .ok (some event)

/-- **Specification of the sweep**: it queries the unknown orders, asks for one snapshot and counts
the working orders that the snapshot does not report. -/
theorem reconcileSnapshot_eq_ok {h h' : Host} {summary : ReconcileSummary}
    (hrun : reconcileSnapshot env h = (.ok summary, h')) :
    h.runtime.StaysSent h'.runtime ∧
      brokerCalls h'.trace = h.sweepCalls ++ [.snapshot] ∧
      ∃ snapshot, env.gateway.snapshot h.sweepCalls = .ok snapshot ∧
        summary.missingAtBroker = h'.missingAtBroker snapshot := by
  unfold reconcileSnapshot at hrun
  obtain ⟨queried, h₁, hquery, hrun⟩ := bind_eq_ok hrun
  obtain ⟨snapshot, h₂, hsnapshot, hrun⟩ := bind_eq_ok hrun
  obtain ⟨observed, h₃, horders, hrun⟩ := bind_eq_ok hrun
  obtain ⟨_, h₄, hadopt, hrun⟩ := bind_eq_ok hrun
  rw [reads_bind, pure_apply, Prod.mk.injEq, Except.ok.injEq] at hrun
  obtain ⟨rfl, rfl⟩ := hrun
  rw [onRuntime, zoom_apply, Runtime.brokerSnapshot, bind_of_ok (Runtime.callBroker_apply _ _ _),
    ofExcept_apply, Prod.mk.injEq, mapError_eq_ok, mapError_eq_ok] at hsnapshot
  obtain ⟨hanswer, rfl⟩ := hsnapshot
  obtain ⟨hqueried, hcalls⟩ := queryOrders_eq_ok hquery
  have habsorbed : Absorbs (h₁.emit (.call .snapshot)) h₄ := IsTrans.trans _ _ _
    ((reconcileSnapshotOrders_absorbs _ _).of_ok horders)
    ((adoptSnapshot_absorbs snapshot).of_ok hadopt)
  refine ⟨IsTrans.trans (r := Runtime.StaysSent) _ _ _ hqueried habsorbed.orders, ?_,
    snapshot, ?_, rfl⟩
  · rw [habsorbed.calls, trace_emit, brokerCalls_append, brokerCalls_call, hcalls]
    rfl
  · rw [← hanswer]
    exact congrArg env.gateway.snapshot hcalls.symm

/-- A sweep that sets the host running was clean. -/
theorem reconcileSweep_running {h : Host} (hrunning : (reconcileSweep env h).2.lifecycle = .running) :
    ∃ summary s, reconcileSnapshot env { h with lifecycle := .reconciling } = (.ok summary, s) ∧
      summary.clean = true ∧ (reconcileSweep env h).2 = { s with lifecycle := .running } := by
  by_cases hstopped : h.lifecycle = .stopped
  · have hbegin : beginSweep h = (.error .notRunning, h) := by
      rw [beginSweep, reads_bind, require_bind]
      split
      · next hne => exact absurd hstopped hne
      · rfl
    rw [reconcileSweep, bind_of_error hbegin, hstopped] at hrunning
    cases hrunning
  · have hbegin : beginSweep h = (.ok (), { h with lifecycle := .reconciling }) := by
      rw [beginSweep, reads_bind, require_bind]
      split
      · rfl
      · next heq => exact absurd (not_not.mp heq) hstopped
    rw [reconcileSweep, bind_of_ok hbegin] at hrunning ⊢
    have hquiet : (reconcileSnapshot env { h with lifecycle := .reconciling }).2.lifecycle =
        .reconciling := Moves.lifecycle (reconcileSnapshot_quiet _)
    rcases hrun : reconcileSnapshot env { h with lifecycle := .reconciling } with ⟨e | summary, s⟩
    · rw [bind_of_error hrun] at hrunning
      rw [hrun] at hquiet
      cases hrunning.symm.trans hquiet
    · rw [hrun] at hquiet
      rw [bind_of_ok hrun] at hrunning ⊢
      have hlifecycle : s.lifecycle = .reconciling := hquiet
      by_cases hclean : summary.clean = true
      · refine ⟨summary, s, rfl, hclean, ?_⟩
        simp [Fallible.when, hclean, endSweep, hlifecycle, modify_bind]
      · simp [Fallible.when, hclean, hlifecycle] at hrunning

/-- Resuming the plans of a host leaves its lifecycle. -/
theorem reconcileTrigger_lifecycle (h : Host) :
    (reconcileTrigger env h).2.lifecycle = (reconcileSweep env h).2.lifecycle := by
  rw [reconcileTrigger, bind_apply]
  rcases reconcileSweep env h with ⟨e | summary, s⟩
  · rfl
  · dsimp only
    rw [bind_pure_snd]
    unfold when
    split
    · exact Moves.lifecycle (resumePlans_moves s)
    · rfl

/-- A working order that a clean sweep leaves was reported. -/
theorem mem_orders_of_missingAtBroker {h : Host} {snapshot : BrokerSnapshot} {id : String}
    {record : OrderRecord} (hnone : h.missingAtBroker snapshot = 0)
    (hget : h.runtime.orders.get id = some record)
    (hworking : Runtime.workingState record.state = true) :
    id ∈ snapshot.orders.map (·.clientOrderId) := by
  by_contra hmissing
  have hkey : id ∈ h.runtime.orders.clientOrderIds := by
    have hsome : h.runtime.orders.orders[id]?.isSome = true := by
      rw [show h.runtime.orders.orders[id]? = some record from hget]
      rfl
    exact Std.TreeMap.mem_keys.mpr (Std.TreeMap.mem_iff_isSome_getElem?.mpr hsome)
  have hid : id ∈ h.runtime.workingOrderIds :=
    List.mem_filter.mpr ⟨hkey, by rw [hget]; exact hworking⟩
  have hnil := List.length_eq_zero_iff.mp hnone
  exact List.not_mem_nil (hnil ▸ List.mem_filter.mpr ⟨hid, decide_eq_true hmissing⟩)

/-- **A clean sweep accounts for the working orders**; those that were unsent before it may be
left. -/
theorem swept_accounted {h : Host} (hrunning : (reconcileSweep env h).2.lifecycle = .running) :
    brokerCalls (reconcileSweep env h).2.trace = h.sweepCalls ++ [.snapshot] ∧
      ∀ id record, (reconcileSweep env h).2.runtime.orders.get id = some record →
        record.state.terminal = true ∨ Reported env h id ∨
          ∃ record, h.runtime.orders.get id = some record ∧ record.state.unsent = true := by
  obtain ⟨summary, s, hrun, hclean, hswept⟩ := reconcileSweep_running hrunning
  obtain ⟨hstays, hcalls, snapshot, hanswer, hmissing⟩ := reconcileSnapshot_eq_ok hrun
  rw [hswept]
  refine ⟨hcalls, fun id record hget => ?_⟩
  have hnone : s.missingAtBroker snapshot = 0 := by
    rw [← hmissing]
    simp only [ReconcileSummary.clean, decide_eq_true_eq] at hclean
    exact hclean.2.2.2
  cases hterminal : record.state.terminal with
  | true => exact .inl rfl
  | false =>
    rcases OrderState.cases_of_open hterminal with hworking | hunsent
    · exact .inr (.inl ⟨snapshot, hanswer, mem_orders_of_missingAtBroker hnone hget hworking⟩)
    · exact .inr (.inr (hstays id record hget hunsent))

end Host

/-- **Orders in flight**: when the sweep of a reopened host sets it running, it has asked the broker
about the unknown orders and then for one snapshot, and every journaled order is in a terminal
state, reported by that snapshot or resolved by one of the queries, if the snapshot reports the
orders that were restored as risk-approved. -/
theorem reopened_accounted {float : FloatArith} {settings : Settings} {journal : List JournalRecord}
    {h : Host} {env : Env} (ho : Host.openJournal float settings journal = .ok h)
    (hrunning : (Op.reconcileTrigger.after env h).lifecycle = .running)
    (hunsent : ∀ id record, h.runtime.orders.get id = some record → record.state.unsent = true →
      Host.Reported env h id) :
    brokerCalls (Op.reconcileTrigger.decisionHost env h).trace = h.sweepCalls ++ [.snapshot] ∧
      ∀ r, .orderIntent r ∈ journal →
        ∃ record, (Op.reconcileTrigger.decisionHost env h).runtime.orders.get r.clientOrderId =
            some record ∧
          (record.state.terminal = true ∨ Host.Reported env h r.clientOrderId ∨
            Host.Resolved env h r.clientOrderId) := by
  have hswept : (Host.reconcileSweep env h).2.lifecycle = .running := by
    rw [← Host.reconcileTrigger_lifecycle]
    rw [Op.after, Op.run, discard_snd] at hrunning
    exact hrunning
  obtain ⟨hcalls, haccounted⟩ := Host.swept_accounted hswept
  refine ⟨hcalls, fun r hmem => ?_⟩
  have hknown : (Host.reconcileSweep env h).2.runtime.hasOrder r.clientOrderId := by
    have hmoves : Moves _ (fun _ _ => True) h (Host.reconcileSweep env h).2 :=
      Host.reconcileSweep_moves h
    exact Moves.hasOrder hmoves (Host.openJournal_hasOrder ho hmem)
  obtain ⟨record, hget⟩ := Option.isSome_iff_exists.mp hknown
  refine ⟨record, hget, ?_⟩
  rcases haccounted _ record hget with hterminal | hreported | ⟨restored, hrestored, hu⟩
  · exact .inl hterminal
  · exact .inr (.inl hreported)
  · exact .inr (.inl (hunsent _ restored hrestored hu))

namespace Sample

/-- A running host that has sent the order of a proposal. -/
def ordered : Host := (submit 5 10).after (env empty) running

/-- The order is acknowledged. -/
def orderedAcknowledged : Host :=
  (Op.applyBrokerEvent (.acknowledged (orderId 5) "b-1")).after (env empty) ordered

/-- The intent of the order is journaled. -/
def journalsOrder : JournalRecord → Bool
  | .orderIntent r => r.clientOrderId = orderId 5
  | _ => false

theorem exists_of_journalsOrder {journal : List JournalRecord} (h : journal.any journalsOrder = true) :
    ∃ r, .orderIntent r ∈ journal ∧ r.clientOrderId = orderId 5 := by
  obtain ⟨record, hmem, hrecord⟩ := List.any_eq_true.mp h
  cases record with
  | orderIntent r => exact ⟨r, hmem, of_decide_eq_true hrecord⟩
  | _ => cases hrecord

/-- A broker that reports the order as acknowledged, under a clock that has gone on. -/
def reporting : Env :=
  { env ⟨[⟨orderId 5, .acknowledged (orderId 5) "b-1", none⟩], [], ∅⟩ with
    clock := fun reads => 2000 + reads }

end Sample

set_option maxRecDepth 20000 in
/-- An acknowledged order is restored, and the snapshot reports it. -/
theorem reopened_accounted_acknowledged :
    ∃ record, (Op.reconcileTrigger.decisionHost Sample.reporting
        (Sample.reopen Sample.orderedAcknowledged)).runtime.orders.get (Sample.orderId 5) =
        some record ∧
      (record.state.terminal = true ∨
        Host.Reported Sample.reporting (Sample.reopen Sample.orderedAcknowledged)
          (Sample.orderId 5) ∨
        Host.Resolved Sample.reporting (Sample.reopen Sample.orderedAcknowledged)
          (Sample.orderId 5)) := by
  have hrun : (Host.openJournal Sample.float Sample.settings
        (journalOf Sample.orderedAcknowledged.trace)).isOk ∧
      (Op.reconcileTrigger.after Sample.reporting
        (Sample.reopen Sample.orderedAcknowledged)).lifecycle = .running ∧
      (∀ e ∈ (Sample.reopen Sample.orderedAcknowledged).runtime.orders.orders.toList,
        e.2.state.unsent = false) ∧
      (journalOf Sample.orderedAcknowledged.trace).any Sample.journalsOrder = true := by
    decide +kernel
  obtain ⟨hopen, hrunning, hsent, hjournaled⟩ := hrun
  obtain ⟨r, hmem, hid⟩ := Sample.exists_of_journalsOrder hjournaled
  rw [← hid]
  refine (reopened_accounted (Sample.openJournal_reopen hopen) hrunning ?_).2 r hmem
  intro id record hget hunsent
  have hmember := Std.TreeMap.mem_toList_iff_getElem?_eq_some.mpr hget
  cases (hsent (id, record) hmember).symm.trans hunsent

set_option maxRecDepth 20000 in
/-- **A restored order is forgotten**: the order was sent and the broker took it, but the engine
stopped before any event. The reopened host takes it for unsent, asks nothing about it, misses it in
no snapshot and runs again. -/
theorem reopened_forgets :
    Host.openJournal Sample.float Sample.settings (journalOf Sample.ordered.trace) =
        .ok (Sample.reopen Sample.ordered) ∧
      (Op.reconcileTrigger.after (Sample.env Sample.empty)
        (Sample.reopen Sample.ordered)).lifecycle = .running ∧
      ∃ r, .orderIntent r ∈ journalOf Sample.ordered.trace ∧
        ¬∃ record, (Op.reconcileTrigger.decisionHost (Sample.env Sample.empty)
            (Sample.reopen Sample.ordered)).runtime.orders.get r.clientOrderId = some record ∧
          (record.state.terminal = true ∨
            Host.Reported (Sample.env Sample.empty) (Sample.reopen Sample.ordered)
              r.clientOrderId ∨
            Host.Resolved (Sample.env Sample.empty) (Sample.reopen Sample.ordered)
              r.clientOrderId) := by
  have hrun : (Host.openJournal Sample.float Sample.settings
        (journalOf Sample.ordered.trace)).isOk ∧
      (Op.reconcileTrigger.after (Sample.env Sample.empty)
        (Sample.reopen Sample.ordered)).lifecycle = .running ∧
      (∀ e ∈ (Op.reconcileTrigger.decisionHost (Sample.env Sample.empty)
        (Sample.reopen Sample.ordered)).runtime.orders.orders.toList,
        e.2.state.terminal = false) ∧
      (journalOf Sample.ordered.trace).any Sample.journalsOrder = true := by
    decide
  obtain ⟨hopen, hrunning, hleft, hjournaled⟩ := hrun
  obtain ⟨r, hmem, hid⟩ := Sample.exists_of_journalsOrder hjournaled
  refine ⟨Sample.openJournal_reopen hopen, hrunning, r, hmem, ?_⟩
  rintro ⟨record, hget, hterminal | hreported | hresolved⟩
  · have hmember := Std.TreeMap.mem_toList_iff_getElem?_eq_some.mpr hget
    cases (hleft (r.clientOrderId, record) hmember).symm.trans hterminal
  · obtain ⟨snapshot, hanswer, hid⟩ := hreported
    cases hanswer
    exact List.not_mem_nil hid
  · obtain ⟨before, after, event, -, hanswer⟩ := hresolved
    cases hanswer

end InsiderTrader
