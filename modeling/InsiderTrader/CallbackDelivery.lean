import InsiderTrader.IbkrGateway
import InsiderTrader.Library.Runs
import Mathlib.Algebra.BigOperators.Group.List.Basic
import Mathlib.Algebra.Order.Ring.Int

/-!
# Delivery of fills by the IBKR gateway

The engine takes the callbacks that the adapter has queued, and the events that
reconciliations return. Callbacks carry no identity: one that is equal to a
queued one is dropped, and a reconciliation queues the event that it returns.

## Main definitions

- `Delivery.step`, `Delivery.hands` — what a call does to the queue, and hands to the engine
- `Delivery.executed` — the fills that the broker delivers by a call
- `Delivery.lostTicks`, `Delivery.doubledTicks` — fills that are dropped, and handed twice

## Main results

- `Delivery.ledger` — what a run hands to the engine
- `fills_handed_iff` — the runs that hand every fill once
-/

namespace InsiderTrader

/-- The quantity of a fill of an order. -/
def BrokerEvent.fillTicks (clientOrderId : String) : BrokerEvent → Int
  | filled id quantityTicks _ => if id = clientOrderId then quantityTicks else 0
  | acknowledged _ _ | rejected _ _ | cancelled _ => 0

/-- A call of the adapter that hands on events; the transport's answer to a reconciliation is
given. -/
inductive Delivery where
  | callback (event : BrokerEvent)
  | reconcile (clientOrderId : String) (answer : Except String (Option BrokerEvent))
  | drain

namespace Delivery

def step : Delivery → AdapterState → AdapterState
  | callback event, s => (AdapterState.onCallback event s).2
  | reconcile id answer, s => (AdapterState.reconcile id answer s).2
  | drain, s => (AdapterState.drainCallbacks s).2

/-- The events that a call hands to the engine. -/
def hands : Delivery → AdapterState → List BrokerEvent
  | callback _, _ => []
  | reconcile id answer, s =>
    match (AdapterState.reconcile id answer s).1 with
    | .ok (some event) => [event]
    | _ => []
  | drain, s =>
    match (AdapterState.drainCallbacks s).1 with
    | .ok events => events
    | .error _ => []

/-- The events that the broker delivers by a call. -/
def executed : Delivery → List BrokerEvent
  | callback event => [event]
  | reconcile id (.ok (some event)) => if Text.isBlank id then [] else [event]
  | reconcile _ _ | drain => []

/-- The event of a call is neither queued nor found in the queue. -/
def Refused (event : BrokerEvent) (s : AdapterState) : Prop :=
  Text.isBlank event.clientOrderId ∨ event ∉ s.callbacks ∧ maxCallbackQueue ≤ s.callbacks.length

/-- The event of a call is put into the queue. -/
def Queued (event : BrokerEvent) (s : AdapterState) : Prop :=
  ¬Text.isBlank event.clientOrderId ∧ event ∉ s.callbacks ∧ s.callbacks.length < maxCallbackQueue

instance (event : BrokerEvent) (s : AdapterState) : Decidable (Refused event s) :=
  inferInstanceAs (Decidable (_ ∨ _))

instance (event : BrokerEvent) (s : AdapterState) : Decidable (Queued event s) :=
  inferInstanceAs (Decidable (_ ∧ _))

/-- The quantity that a call drops: of a callback that is not queued, and of a reconciliation that
is refused. -/
def lostTicks (client : String) : Delivery → AdapterState → Int
  | callback event, s => if Queued event s then 0 else event.fillTicks client
  | reconcile id (.ok (some event)), s =>
    if ¬Text.isBlank id ∧ Refused event s then event.fillTicks client else 0
  | reconcile _ _, _ | drain, _ => 0

/-- The quantity that a reconciliation both returns and queues. -/
def doubledTicks (client : String) : Delivery → AdapterState → Int
  | reconcile id (.ok (some event)), s =>
    if ¬Text.isBlank id ∧ Queued event s then event.fillTicks client else 0
  | callback _, _ | reconcile _ _, _ | drain, _ => 0

/-- The calls of a run that ends with a drain. -/
def delivered (run : List Delivery) : List (AdapterState × Delivery) :=
  Runs.calls step .new (run ++ [.drain])

/-- The quantity of an order that a run hands to the engine. -/
def handedTicks (client : String) (run : List Delivery) : Int :=
  (((delivered run).flatMap fun c => c.2.hands c.1).map (BrokerEvent.fillTicks client)).sum

/-- The quantity of an order that the broker executes in a run. -/
def executedTicks (client : String) (run : List Delivery) : Int :=
  ((run.flatMap executed).map (BrokerEvent.fillTicks client)).sum

variable {event : BrokerEvent} {s : AdapterState} {client : String}

-- One call

theorem Refused.not_queued (h : Refused event s) : ¬Queued event s := by
  rintro ⟨hblank, -, hroom⟩
  obtain hblank' | ⟨-, hfull⟩ := h
  · exact hblank hblank'
  · exact absurd hroom (Nat.not_lt.mpr hfull)

theorem onCallback_cases (event : BrokerEvent) (s : AdapterState) :
    Queued event s ∧ AdapterState.onCallback event s =
        (.ok true, { s with callbacks := s.callbacks ++ [event] }) ∨
      ¬Queued event s ∧ ¬Refused event s ∧
        AdapterState.onCallback event s = (.ok false, s) ∨
      ¬Queued event s ∧ Refused event s ∧ ∃ e, AdapterState.onCallback event s = (.error e, s) := by
  unfold AdapterState.onCallback
  rw [Fallible.require_bind]
  by_cases hblank : Text.isBlank event.clientOrderId = true
  · rw [if_neg (not_not.mpr hblank)]
    exact .inr (.inr ⟨fun h => h.1 hblank, .inl hblank, _, rfl⟩)
  rw [if_pos hblank, Fallible.reads_bind]
  by_cases hmem : event ∈ s.callbacks
  · rw [if_pos hmem]
    refine .inr (.inl ⟨fun h => h.2.1 hmem, ?_, rfl⟩)
    rintro (hblank' | ⟨hnot, -⟩)
    · exact hblank hblank'
    · exact hnot hmem
  rw [if_neg hmem, Fallible.require_bind]
  by_cases hroom : s.callbacks.length < maxCallbackQueue
  · rw [if_pos hroom]
    exact .inl ⟨⟨hblank, hmem, hroom⟩, rfl⟩
  · rw [if_neg hroom]
    exact .inr (.inr ⟨fun h => hroom h.2.2, .inr ⟨hmem, Nat.not_lt.mp hroom⟩, _, rfl⟩)

/-- The quantity of an order that waits in the queue. -/
def queuedTicks (client : String) (s : AdapterState) : Int :=
  (s.callbacks.map (BrokerEvent.fillTicks client)).sum

theorem queuedTicks_append :
    queuedTicks client { s with callbacks := s.callbacks ++ [event] } =
      queuedTicks client s + event.fillTicks client := by
  rw [queuedTicks, List.map_append, List.sum_append, List.map_singleton, List.sum_singleton,
    queuedTicks]

/-- A reconciliation is refused, or hands on the transport's answer and queues it. -/
theorem reconcile_cases (id : String) (answer : Except String (Option BrokerEvent))
    (s : AdapterState) :
    (∃ e, AdapterState.reconcile id answer s = (.error e, s) ∧
        ∀ event, answer = .ok (some event) → Text.isBlank id ∨ Refused event s) ∨
      AdapterState.reconcile id answer s = (.ok none, s) ∧ answer = .ok none ∨
      ∃ event, answer = .ok (some event) ∧ ¬Text.isBlank id ∧ ¬Refused event s ∧
        AdapterState.reconcile id answer s =
          (.ok (some event), (AdapterState.onCallback event s).2) := by
  unfold AdapterState.reconcile
  rw [Fallible.require_bind]
  by_cases hblank : Text.isBlank id = true
  · rw [if_neg (not_not.mpr hblank)]
    exact .inl ⟨_, rfl, fun _ _ => .inl hblank⟩
  rw [if_pos hblank]
  rcases answer with e | _ | event
  · exact .inl ⟨_, rfl, fun _ h => by cases h⟩
  · exact .inr (.inl ⟨rfl, rfl⟩)
  · rw [Fallible.ofExcept_bind_ok rfl]
    dsimp only
    obtain ⟨hqueued, hrun⟩ | ⟨-, hkept, hrun⟩ | ⟨-, hrefused, e, hrun⟩ := onCallback_cases event s
    · exact .inr (.inr ⟨event, rfl, hblank, fun h => h.not_queued hqueued,
        Fallible.bind_of_ok (Fallible.bind_of_ok hrun |>.trans (by rw [hrun]; rfl))⟩)
    · exact .inr (.inr ⟨event, rfl, hblank, hkept,
        Fallible.bind_of_ok (Fallible.bind_of_ok hrun |>.trans (by rw [hrun]; rfl))⟩)
    · refine .inl ⟨e, Fallible.bind_of_error (Fallible.bind_of_error hrun), ?_⟩
      rintro event' h
      cases h
      exact .inr hrefused

/-- **One call** hands on what it takes from the queue and what the broker delivers by it, less
what it drops, and what it doubles as well. -/
theorem ledger_step (client : String) (call : Delivery) (s : AdapterState) :
    ((call.hands s).map (BrokerEvent.fillTicks client)).sum + queuedTicks client (call.step s) +
        call.lostTicks client s =
      (call.executed.map (BrokerEvent.fillTicks client)).sum + call.doubledTicks client s +
        queuedTicks client s := by
  cases call with
  | callback event =>
    rw [hands, step, lostTicks, executed, doubledTicks, List.map_nil, List.sum_nil,
      List.map_singleton, List.sum_singleton]
    obtain ⟨hqueued, hrun⟩ | ⟨hdropped, -, hrun⟩ | ⟨hdropped, -, e, hrun⟩ := onCallback_cases event s
    · rw [hrun, if_pos hqueued, queuedTicks_append]
      omega
    · rw [hrun, if_neg hdropped, zero_add, add_zero, add_comm]
    · rw [hrun, if_neg hdropped, zero_add, add_zero, add_comm]
  | reconcile id answer =>
    rw [hands, step]
    obtain ⟨e, hrun, hrefused⟩ | ⟨hrun, rfl⟩ | ⟨event, rfl, hblank, hkept, hrun⟩ :=
      reconcile_cases id answer s
    · rw [hrun]
      rcases answer with e | _ | event
      · simp [lostTicks, doubledTicks, executed]
      · simp [lostTicks, doubledTicks, executed]
      · rw [lostTicks, doubledTicks, executed]
        by_cases hblank : Text.isBlank id = true
        · simp [hblank]
        · have hrefused := (hrefused event rfl).resolve_left hblank
          simp [hblank, hrefused, hrefused.not_queued, add_comm]
    · rw [hrun]
      simp [lostTicks, doubledTicks, executed]
    · rw [hrun, lostTicks, doubledTicks, executed, if_neg hblank, if_neg fun h => hkept h.2]
      dsimp only
      rw [List.map_singleton, List.sum_singleton, add_zero, add_assoc]
      congr 1
      obtain ⟨hqueued, hcallback⟩ | ⟨hdropped, -, hcallback⟩ | ⟨-, hrefused, -⟩ :=
        onCallback_cases event s
      · rw [hcallback, queuedTicks_append, if_pos ⟨hblank, hqueued⟩, add_comm]
      · rw [hcallback, if_neg fun h => hdropped h.2, zero_add]
      · exact absurd hrefused hkept
  | drain =>
    show ((s.callbacks.map (BrokerEvent.fillTicks client)).sum + 0 + 0 : Int) = 0 + 0 + _
    rw [queuedTicks]
    omega

-- Runs

/-- **A run** hands on what waits at first and what the broker delivers, less what it drops, and
what it doubles as well; the rest waits at the end. -/
theorem ledger (client : String) (s : AdapterState) (run : List Delivery) :
    (((Runs.calls step s run).flatMap fun c => c.2.hands c.1).map
        (BrokerEvent.fillTicks client)).sum +
        queuedTicks client (Runs.final step s run) +
        ((Runs.calls step s run).map fun c => c.2.lostTicks client c.1).sum =
      ((run.flatMap executed).map (BrokerEvent.fillTicks client)).sum +
        ((Runs.calls step s run).map fun c => c.2.doubledTicks client c.1).sum +
        queuedTicks client s := by
  induction run generalizing s with
  | nil => simp [Runs.calls, Runs.final]
  | cons call run ih =>
    have hcall := ledger_step client call s
    have hrest := ih (call.step s)
    rw [Runs.calls, List.flatMap_cons, List.flatMap_cons, List.map_append, List.map_append,
      List.sum_append, List.sum_append, List.map_cons, List.sum_cons, List.map_cons, List.sum_cons]
    rw [Runs.final, List.foldl_cons, ← Runs.final]
    dsimp only at hrest ⊢
    omega

end Delivery

open Delivery

/-- **Exactly the runs whose drops and repeats balance** hand the engine, for every order, the
quantity that the broker executed. -/
theorem fills_handed_iff (run : List Delivery) :
    (∀ client, handedTicks client run = executedTicks client run) ↔
      ∀ client, ((delivered run).map fun c => c.2.lostTicks client c.1).sum =
        ((delivered run).map fun c => c.2.doubledTicks client c.1).sum := by
  refine forall_congr' fun client => ?_
  have hledger := ledger client .new (run ++ [.drain])
  have hempty : queuedTicks client (Runs.final step .new (run ++ [.drain])) = 0 := by
    rw [Runs.final_append]
    rfl
  have hnew : queuedTicks client .new = 0 := rfl
  have hdrain : ((run ++ [Delivery.drain]).flatMap executed).map (BrokerEvent.fillTicks client) =
      (run.flatMap executed).map (BrokerEvent.fillTicks client) := by
    rw [List.flatMap_append, List.flatMap_singleton, show executed .drain = [] from rfl,
      List.append_nil]
  rw [hempty, hnew, hdrain] at hledger
  rw [handedTicks, executedTicks, delivered]
  omega

/-- Two fills of the same quantity and price are handed on as one, while the first is queued. -/
theorem fills_handed_equal : ¬∀ run : List Delivery,
    (∀ c ∈ delivered run, c.1.callbacks.length < maxCallbackQueue) →
      ∀ client, handedTicks client run = executedTicks client run := by
  intro hall
  have hfills := hall [.callback (.filled "c" 5 100), .callback (.filled "c" 5 100)]
    (by decide) "c"
  revert hfills
  decide

end InsiderTrader
