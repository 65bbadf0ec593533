import InsiderTrader.Operation
import InsiderTrader.ReadModelMirror

/-!
# The cancellations of a halt

A change of the risk state to halted tries to cancel every working order, one
after the other, and counts the failures. The orders it looks for, the lifecycle
in which it may cancel and the states from which an order may become cancel
pending are decided in three places, which do not agree.

## Main definitions

- `Host.Withdrawn` — an order that the broker was asked to cancel, or that is done
- `Host.cancellable` — the requests that reach the broker
- `Host.AllAsked` — the same along the orders of a halt

## Main results

- `Host.cancelOrder_spec`, `Host.cancelOrders_spec` — one request, and all of them
- `halt_withdraws_iff` — the halts that withdraw every working order
-/

namespace InsiderTrader

open Fallible

/-- A broker that accepts cancels. -/
structure Env.AcceptsCancels (env : Env) : Prop where
  supported : env.gateway.capabilities.cancelReplace = true
  accepted : ∀ calls id, (env.gateway.cancel calls id).isOk = true

namespace Runtime

variable {env : Env} {r : Runtime} {id : String}

/-- An order that may become cancel pending does, and the broker is asked. -/
theorem cancelOrder_of_legal (hcancels : env.AcceptsCancels) {record : OrderRecord}
    (hget : r.orders.get id = some record) (hlegal : legalTransition record.state .cancelPending) :
    (cancelOrder env id r).2 =
      { r with
        orders := r.orders.put id (record.setState .cancelPending)
        trace := r.trace ++ [.call (.cancel id)] } := by
  rw [cancelOrder, require_bind, if_pos hcancels.supported,
    bind_of_ok (onOrders_transition record hget hlegal), bind_of_ok (callBroker_apply _ _ _)]
  dsimp only
  cases hanswer : env.gateway.cancel (brokerCalls r.trace) id with
  | ok u => rfl
  | error message =>
    have hok := hcancels.accepted (brokerCalls r.trace) id
    rw [hanswer] at hok
    cases hok

/-- Another order stays as it is, and the broker is not asked. -/
theorem cancelOrder_of_not_legal (hcancels : env.AcceptsCancels)
    (hnot : ¬(r.orders.get id).any fun record => legalTransition record.state .cancelPending) :
    ∃ book : OrderBook, (cancelOrder env id r).2 = { r with orders := book } ∧
      ∀ id', book.get id' = r.orders.get id' := by
  rw [cancelOrder, require_bind, if_pos hcancels.supported]
  cases hget : r.orders.get id with
  | none =>
    have hunknown : OrderBook.onRecord TransitionError.unknownOrder id
        (OrderRecord.transition .cancelPending) r.orders = (.error .unknownOrder, r.orders) :=
      OrderBook.onRecord_of_none hget
    refine ⟨r.orders, ?_, fun _ => rfl⟩
    rw [bind_apply, onOrders_apply, OrderBook.transition, hunknown]
    rfl
  | some record =>
    rw [hget, Option.any_some] at hnot
    have hrefused : OrderRecord.transition .cancelPending record =
        (.error (.invalidTransition record.state .cancelPending), record) := by
      rw [OrderRecord.transition, reads_bind, id_eq, if_neg hnot]
      rfl
    refine ⟨r.orders.put id record, ?_, fun id' => ?_⟩
    · rw [bind_apply, onOrders_apply, OrderBook.transition, OrderBook.onRecord_of_get hget, hrefused]
      rfl
    · rw [OrderBook.get_put]
      split
      · next hid => rw [← hid, hget]
      · rfl

end Runtime

namespace Host

/-- The broker was asked to cancel the order. -/
def CancelAsked (id : String) (h : Host) : Prop := .cancel id ∈ brokerCalls h.trace

/-- The broker was asked to cancel the order, or it is in a terminal state. -/
def Withdrawn (id : String) (h : Host) : Prop :=
  h.CancelAsked id ∨ (h.runtime.orders.get id).any (·.state.terminal) = true

instance (id : String) (h : Host) : Decidable (h.CancelAsked id) :=
  inferInstanceAs (Decidable (_ ∈ _))

instance (id : String) (h : Host) : Decidable (h.Withdrawn id) :=
  inferInstanceAs (Decidable (_ ∨ _))

/-- The host is running, and the order may become cancel pending. -/
def cancellable (id : String) (h : Host) : Bool :=
  h.lifecycle = .running ∧
    (h.runtime.orders.get id).any fun record => legalTransition record.state .cancelPending

/-- What one request leaves in the trace. -/
def cancelEffects (env : Env) (h : Host) (trace : List Effect) (id : String) : List Effect :=
  if h.lifecycle = .running ∧ env.journal trace (.cancelRequest id) = none then
    .append (.cancelRequest id) :: if h.cancellable id then [.call (.cancel id)] else []
  else []

/-- Each of the orders, in their turn, has been cancelled before, or can be cancelled with the
journal taking the request. -/
def AllAsked (env : Env) (h : Host) : List String → List Effect → Prop
  | [], _ => True
  | id :: ids, trace =>
    (h.CancelAsked id ∨ h.cancellable id ∧ env.journal trace (.cancelRequest id) = none) ∧
      h.AllAsked env ids (trace ++ h.cancelEffects env trace id)

-- One request

variable {env : Env} {h g : Host} {id : String} {ids : List String}

theorem mem_brokerCalls_cancelEffects {trace : List Effect} {c : BrokerCall} :
    c ∈ brokerCalls (h.cancelEffects env trace id) ↔
      c = .cancel id ∧ h.cancellable id ∧ env.journal trace (.cancelRequest id) = none := by
  unfold cancelEffects
  by_cases hjournaled : h.lifecycle = .running ∧ env.journal trace (.cancelRequest id) = none
  · rw [if_pos hjournaled]
    by_cases hcan : h.cancellable id
    · simp [hcan, hjournaled.2, brokerCalls]
    · simp [hcan, brokerCalls]
  · rw [if_neg hjournaled]
    refine iff_of_false List.not_mem_nil ?_
    rintro ⟨-, hcan, hnone⟩
    exact hjournaled ⟨(of_decide_eq_true hcan).1, hnone⟩

/-- What a request leaves as it was. -/
structure CancelStep (env : Env) (id : String) (h h' : Host) : Prop where
  trace : h'.trace = h.trace ++ h.cancelEffects env h.trace id
  lifecycle : h'.lifecycle = h.lifecycle
  others : ∀ id', id' ≠ id → h'.runtime.orders.get id' = h.runtime.orders.get id'
  working : ∀ id', (h.runtime.orders.get id').any (Runtime.workingState ·.state) →
    (h'.runtime.orders.get id').any (Runtime.workingState ·.state)

/-- **One request**: it is journaled while the host runs, and goes out if the order may become
cancel pending. -/
theorem cancelOrder_spec (hcancels : env.AcceptsCancels) (id : String) (h : Host) :
    CancelStep env id h (cancelOrder env id h).2 := by
  by_cases hrun : h.lifecycle = .running
  swap
  · have hguard : requireRunning h = (.error .notRunning, h) := by
      rw [requireRunning, reads_bind, id_eq, require, if_neg hrun, fail_apply]
    rw [cancelOrder, bind_of_error hguard]
    refine ⟨?_, rfl, fun _ _ => rfl, fun _ hw => hw⟩
    rw [cancelEffects, if_neg fun hboth => hrun hboth.1, List.append_nil]
  have hguard : requireRunning h = (.ok (), h) := by
    rw [requireRunning, reads_bind, id_eq, require, if_pos hrun, pure_apply]
  rw [cancelOrder, bind_of_ok hguard]
  cases hj : env.journal h.trace (.cancelRequest id) with
  | some error =>
    rw [bind_of_error (appendJournal_of_some hj)]
    refine ⟨?_, rfl, fun _ _ => rfl, fun _ hw => hw⟩
    rw [cancelEffects, if_neg fun hboth => Option.some_ne_none _ (hj.symm.trans hboth.2),
      List.append_nil]
  | none =>
    rw [bind_of_ok (appendJournal_of_none hj)]
    by_cases hlegal : (h.runtime.orders.get id).any fun record =>
        legalTransition record.state .cancelPending
    · have hcan : h.cancellable id = true := decide_eq_true ⟨hrun, hlegal⟩
      obtain ⟨record, hget, hlegal⟩ := (Option.any_eq_true _ _).mp hlegal
      have hafter : (onRuntime (Runtime.cancelOrder env id) (h.emit (.append (.cancelRequest id)))).2 =
          { h with runtime := { h.runtime with
              orders := h.runtime.orders.put id (record.setState .cancelPending)
              trace := h.trace ++ [.append (.cancelRequest id)] ++ [.call (.cancel id)] } } :=
        congrArg (fun r => { h with runtime := r }) (Runtime.cancelOrder_of_legal
          (r := (h.emit (.append (.cancelRequest id))).runtime) hcancels hget hlegal)
      rw [hafter]
      refine ⟨?_, rfl, fun id' hid => ?_, fun id' hw => ?_⟩
      · rw [cancelEffects, if_pos ⟨hrun, hj⟩, if_pos hcan]
        exact List.append_assoc _ _ _
      · dsimp only
        rw [OrderBook.get_put, if_neg (Ne.symm hid)]
      · dsimp only
        rw [OrderBook.get_put]
        split
        · rfl
        · exact hw
    · have hcan : ¬h.cancellable id = true := fun hcan => hlegal (of_decide_eq_true hcan).2
      obtain ⟨book, hbook, hsame⟩ := Runtime.cancelOrder_of_not_legal
        (r := (h.emit (.append (.cancelRequest id))).runtime) hcancels hlegal
      have hafter : (onRuntime (Runtime.cancelOrder env id) (h.emit (.append (.cancelRequest id)))).2 =
          { h with runtime := { h.runtime with
              orders := book
              trace := h.trace ++ [.append (.cancelRequest id)] } } :=
        congrArg (fun r => { h with runtime := r }) hbook
      rw [hafter]
      refine ⟨?_, rfl, fun id' _ => hsame id', fun id' hw => ?_⟩
      · rw [cancelEffects, if_pos ⟨hrun, hj⟩, if_neg hcan]
      · dsimp only
        rw [hsame]
        exact hw

-- All of them

theorem cancelOrders_cons (env : Env) (id : String) (ids : List String) (h : Host) :
    (cancelOrders env (id :: ids) h).2 = (cancelOrders env ids (cancelOrder env id h).2).2 := rfl

theorem CancelStep.asked_iff (hstep : CancelStep env id h g) (id' : String) :
    g.CancelAsked id' ↔ h.CancelAsked id' ∨
      id' = id ∧ h.cancellable id ∧ env.journal h.trace (.cancelRequest id) = none := by
  rw [CancelAsked, CancelAsked, hstep.trace, brokerCalls_append, List.mem_append,
    mem_brokerCalls_cancelEffects, BrokerCall.cancel.injEq]

theorem CancelStep.cancellable_of_ne (hstep : CancelStep env id h g) {id' : String}
    (hne : id' ≠ id) : g.cancellable id' = h.cancellable id' := by
  rw [cancellable, cancellable, hstep.lifecycle, hstep.others id' hne]

/-- Hosts that agree on the orders. -/
theorem allAsked_congr (hlifecycle : g.lifecycle = h.lifecycle)
    (hasked : ∀ id ∈ ids, (g.CancelAsked id ↔ h.CancelAsked id))
    (hcan : ∀ id ∈ ids, g.cancellable id = h.cancellable id) (trace : List Effect) :
    g.AllAsked env ids trace ↔ h.AllAsked env ids trace := by
  induction ids generalizing trace with
  | nil => exact Iff.rfl
  | cons id ids ih =>
    obtain ⟨hasked', hasked⟩ := List.forall_mem_cons.mp hasked
    obtain ⟨hcan', hcan⟩ := List.forall_mem_cons.mp hcan
    have heffects : g.cancelEffects env trace id = h.cancelEffects env trace id := by
      rw [cancelEffects, cancelEffects, hlifecycle, hcan']
    rw [AllAsked, AllAsked, hasked', hcan', heffects, ih hasked hcan]

/-- A request about one order changes nothing for the others. -/
theorem CancelStep.allAsked_iff (hstep : CancelStep env id h g) (hid : id ∉ ids)
    (trace : List Effect) : g.AllAsked env ids trace ↔ h.AllAsked env ids trace := by
  have hne : ∀ id' ∈ ids, id' ≠ id := fun id' hmem heq => hid (heq ▸ hmem)
  refine allAsked_congr hstep.lifecycle (fun id' hmem => ?_)
    (fun id' hmem => hstep.cancellable_of_ne (hne id' hmem)) trace
  rw [hstep.asked_iff]
  simp only [hne id' hmem, false_and, or_false]

/-- **All requests of a halt**: each of the orders has been asked about in the end exactly when each
can be, in its turn; no other order is; and no working order is done. -/
theorem cancelOrders_spec (hcancels : env.AcceptsCancels) (hnodup : ids.Nodup) :
    ((∀ id ∈ ids, (cancelOrders env ids h).2.CancelAsked id) ↔ h.AllAsked env ids h.trace) ∧
      (∀ id, id ∉ ids → ((cancelOrders env ids h).2.CancelAsked id ↔ h.CancelAsked id)) ∧
      ∀ id, (h.runtime.orders.get id).any (Runtime.workingState ·.state) →
        ((cancelOrders env ids h).2.runtime.orders.get id).any (Runtime.workingState ·.state) := by
  induction ids generalizing h with
  | nil => exact ⟨⟨fun _ => trivial, fun _ _ hid => absurd hid List.not_mem_nil⟩,
      fun _ _ => Iff.rfl, fun _ hw => hw⟩
  | cons id ids ih =>
    obtain ⟨hid, hnodup⟩ := List.nodup_cons.mp hnodup
    have hstep := cancelOrder_spec hcancels id h
    obtain ⟨hall, hothers, hworking⟩ := ih (h := (cancelOrder env id h).2) hnodup
    rw [cancelOrders_cons]
    refine ⟨?_, fun id' hid' => ?_, fun id' hw => hworking id' (hstep.working id' hw)⟩
    · rw [List.forall_mem_cons, hall, hothers id hid, hstep.asked_iff, hstep.allAsked_iff hid,
        hstep.trace, AllAsked, eq_self, true_and]
    · obtain ⟨hne, hid'⟩ := List.ne_and_not_mem_of_not_mem_cons hid'
      rw [hothers id' hid', hstep.asked_iff]
      simp only [hne, false_and, or_false]

theorem cancelOrders_isOk (env : Env) (ids : List String) (h : Host) :
    cancelOrders env ids h = (.ok (), (cancelOrders env ids h).2) := by
  induction ids generalizing h with
  | nil => rfl
  | cons id ids ih => exact ih (cancelOrder env id h).2

/-- The host with the change to halted on record, before any cancellation. -/
def halted (authorization : String) (h : Host) : Host :=
  { h with runtime := { h.runtime with
      risk := { h.runtime.risk with state := .halted }
      trace := h.trace ++ [.append (.riskState .halted authorization)] } }

/-- A change to halted that succeeds: the record and the state, then the cancellations, then the
alert. -/
theorem transitionRiskState_halted {authorization : String}
    (hok : (transitionRiskState env .halted authorization h).1.isOk) :
    (transitionRiskState env .halted authorization h).2 =
      (publishAlert env
        (cancelOrders env h.runtime.workingOrderIds (h.halted authorization)).2).2 := by
  rw [transitionRiskState, reads_bind, id_eq] at hok ⊢
  cases hv : h.runtime.risk.validateTransition .halted authorization with
  | error e =>
    rw [hv] at hok
    cases hok
  | ok u =>
    have hvalid : (ofExcept (Except.mapError EngineError.riskState (.ok u)) :
        Fallible Host EngineError Unit) h = (.ok u, h) := rfl
    rw [hv, bind_of_ok hvalid] at hok
    rw [bind_of_ok hvalid]
    cases hj : env.journal h.trace (.riskState .halted authorization) with
    | some error =>
      rw [bind_of_error (appendJournal_of_some hj)] at hok
      cases hok
    | none =>
      have hchange : onRuntime (Runtime.transitionRiskState .halted authorization)
          (h.emit (.append (.riskState .halted authorization))) =
          (.ok (), h.halted authorization) := by
        simp only [onRuntime, zoom_apply]
        rw [Runtime.transitionRiskState, reads_bind, id_eq, emit, ofExcept_bind_ok
          (show Except.mapError EngineError.riskState (h.runtime.risk.validateTransition .halted
            authorization) = .ok u by rw [hv]; rfl)]
        rfl
      rw [bind_of_ok (appendJournal_of_none hj), bind_of_ok hchange, reads_bind, id_eq]
      simp only [when, if_true]
      rw [bind_of_ok (cancelOrders_isOk _ _ _)]
      rfl

/-- The alert asks nothing of the broker, and changes no order. -/
theorem publishAlert_same : Along (Same fun h : Host => (brokerCalls h.trace, h.runtime.orders))
    (publishAlert env) := by
  have happend : Along (Same fun h : Host => (brokerCalls h.trace, h.runtime.orders))
      (appendEvent env (.other "alert")) := by
    refine (Along.reads _).bind fun sequence => Along.bind ?_ fun _ => (Along.reads _).bind fun _ =>
      (Along.require _ _).bind fun _ => Along.modify fun _ => rfl
    intro h
    rw [appendJournal, reads_bind, id_eq]
    cases env.journal h.trace (.other "alert") with
    | some error => rfl
    | none => exact Prod.ext ((brokerCalls_append _ _).trans (List.append_nil _)) rfl
  exact Along.bind ((Along.reads _).bind fun _ => Along.bind (Along.modify fun _ => rfl) fun _ =>
    Along.ret _) fun _ => (Along.attempt happend).bind fun _ => Along.ret _

end Host

/-- **Halts that withdraw every working order**: a change to halted that succeeds leaves each order
that was working before cancelled at the broker or done, exactly when each has been cancelled before
or the host runs, the order may become cancel pending and the journal takes the request. -/
theorem halt_withdraws_iff (env : Env) (hcancels : env.AcceptsCancels) (h : Host)
    (authorization : String) (hok : (Host.transitionRiskState env .halted authorization h).1.isOk) :
    (∀ id ∈ h.runtime.workingOrderIds,
        (Host.transitionRiskState env .halted authorization h).2.Withdrawn id) ↔
      h.AllAsked env h.runtime.workingOrderIds
        (h.trace ++ [.append (.riskState .halted authorization)]) := by
  rw [Host.transitionRiskState_halted hok]
  have hsame := @Host.publishAlert_same env
    (Host.cancelOrders env h.runtime.workingOrderIds (h.halted authorization)).2
  obtain ⟨hcalls, horders⟩ := Prod.mk.inj hsame
  have hnodup : h.runtime.workingOrderIds.Nodup := Std.TreeMap.nodup_keys.filter _
  obtain ⟨hall, -, hworking⟩ := Host.cancelOrders_spec (h := h.halted authorization) hcancels hnodup
  have hbefore : brokerCalls (h.halted authorization).trace = brokerCalls h.trace :=
    (brokerCalls_append _ _).trans (List.append_nil _)
  have hcongr : (h.halted authorization).AllAsked env h.runtime.workingOrderIds
      (h.halted authorization).trace ↔ h.AllAsked env h.runtime.workingOrderIds
        (h.trace ++ [.append (.riskState .halted authorization)]) :=
    Host.allAsked_congr (g := h.halted authorization) (h := h) rfl
      (fun id _ => Iff.of_eq (congrArg (BrokerCall.cancel id ∈ ·) hbefore)) (fun _ _ => rfl) _
  refine Iff.trans (forall₂_congr fun id hid => ?_) (hall.trans hcongr)
  -- an order that was working is not done
  have hopen := hworking id (List.mem_filter.mp hid).2
  rw [Host.Withdrawn, Host.CancelAsked, hcalls, horders, Host.CancelAsked]
  refine or_iff_left fun hterminal => ?_
  obtain ⟨record, hget, hw⟩ := (Option.any_eq_true _ _).mp hopen
  rw [hget, Option.any_some] at hterminal
  revert hw hterminal
  cases record.state <;> decide

namespace Sample

/-- A host with a purchase that the broker has, and has not acknowledged. -/
def unacknowledged : Host := afterAll running [(env empty, submit 5 10)]

/-- A host with an acknowledged purchase. -/
def acknowledgedOrder : Host :=
  afterAll unacknowledged [(env empty, .applyBrokerEvent (.acknowledged (orderId 5) "b-1"))]

theorem acceptsCancels : (env empty).AcceptsCancels := ⟨rfl, fun _ _ => rfl⟩

end Sample

/-- An acknowledged order is cancelled by a halt. -/
theorem halt_withdraws_acknowledged :
    (Host.transitionRiskState (Sample.env Sample.empty) .halted ""
      Sample.acknowledgedOrder).2.Withdrawn (Sample.orderId 5) := by
  have hids : Sample.acknowledgedOrder.runtime.workingOrderIds = [Sample.orderId 5] := by
    decide +kernel
  have hcan : Sample.acknowledgedOrder.cancellable (Sample.orderId 5) = true := by
    decide +kernel
  refine (halt_withdraws_iff (Sample.env Sample.empty) Sample.acceptsCancels Sample.acknowledgedOrder
    "" (by decide +kernel)).mpr ?_ _ (by rw [hids]; exact List.mem_singleton_self _)
  rw [hids]
  exact ⟨.inr ⟨hcan, rfl⟩, trivial⟩

namespace Sample

/-- A change to halted succeeds, and the order 5 was working and stays with the broker. -/
def LeavesOrder (h : Host) : Prop :=
  (Host.transitionRiskState (env empty) .halted "" h).1.isOk ∧
    orderId 5 ∈ h.runtime.workingOrderIds ∧
    ¬(Host.transitionRiskState (env empty) .halted "" h).2.Withdrawn (orderId 5)

instance (h : Host) : Decidable (LeavesOrder h) := inferInstanceAs (Decidable (_ ∧ _ ∧ _))

end Sample

/-- An order that was sent is working, and stays with the broker through a halt; so does an
acknowledged one of a host that drains. -/
theorem halt_withdraws_sent : Sample.LeavesOrder Sample.unacknowledged ∧
    Sample.LeavesOrder (afterAll Sample.acknowledgedOrder [(Sample.env Sample.empty, .drain)]) := by
  decide +kernel

end InsiderTrader
