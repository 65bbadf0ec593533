import InsiderTrader.FilledQuantity

/-!
# A cancellation races the broker's events

The broker acknowledges an order, fills it in parts and ends with the
completing fill or a cancellation of the rest, while at most one local request
to cancel comes at any moment between these events. The lifecycle table has no
partial fill of an order whose cancellation is pending, and no cancellation of
a working order that was not asked for.

## Main definitions

- `BrokerRun` — the events of one order and the moment of the local request
- `BrokerRun.Survives` — the runs whose events the table admits

## Main results

- `OrderRecord.forEach_executions` — the parts of an order filled one by one
- `broker_run_accepted_iff` — every event is accepted exactly in these runs
-/

namespace InsiderTrader

open MachineInt Fallible

-- The runs

/-- One execution at the broker. -/
structure Execution where
  quantityTicks : Int
  priceTicks : Int
  deriving DecidableEq

namespace Execution

/-- Quantity and price are positive. -/
def Positive (fill : Execution) : Prop := 0 < fill.quantityTicks ∧ 0 < fill.priceTicks

instance (fill : Execution) : Decidable fill.Positive := inferInstanceAs (Decidable (_ ∧ _))

/-- The event that reports the execution of an order. -/
def event (id : String) (fill : Execution) : BrokerEvent :=
  .filled id fill.quantityTicks fill.priceTicks

/-- The quantity of several executions. -/
def total (fills : List Execution) : Int := (fills.map (·.quantityTicks)).sum

@[simp] theorem total_nil : total [] = 0 := rfl

@[simp] theorem total_cons (fill : Execution) (fills : List Execution) :
    total (fill :: fills) = fill.quantityTicks + total fills := by
  simp [total]

theorem total_append (fills fills' : List Execution) :
    total (fills ++ fills') = total fills + total fills' := by
  simp [total]

theorem total_nonneg {fills : List Execution} (h : ∀ fill ∈ fills, fill.Positive) :
    0 ≤ total fills := by
  induction fills with
  | nil => exact le_rfl
  | cons fill fills ih =>
    obtain ⟨hfill, hrest⟩ := List.forall_mem_cons.mp h
    have hpos := hfill.1
    have hsum := ih hrest
    rw [total_cons]
    omega

theorem total_pos {fills : List Execution} (h : ∀ fill ∈ fills, fill.Positive)
    (hne : fills ≠ []) : 0 < total fills := by
  cases fills with
  | nil => exact absurd rfl hne
  | cons fill fills =>
    obtain ⟨hfill, hrest⟩ := List.forall_mem_cons.mp h
    have hpos := hfill.1
    have hsum := total_nonneg hrest
    rw [total_cons]
    omega

end Execution

/-- How the broker's events of an order end. -/
inductive Ending where
  | completed (fill : Execution)
  | cancelled
  deriving DecidableEq

namespace Ending

/-- The last event of an order. -/
def event (id : String) : Ending → BrokerEvent
  | .completed fill => fill.event id
  | .cancelled => .cancelled id

/-- What the last event fills. -/
def executed : Ending → Int
  | .completed fill => fill.quantityTicks
  | .cancelled => 0

/-- The state of an order after its last event. -/
def state : Ending → OrderState
  | .completed _ => .filled
  | .cancelled => .cancelled

end Ending

/-- The broker's events of one order, and the local request to cancel it: after how many of
the events, and with which gateway. -/
structure BrokerRun where
  brokerOrderId : String
  partials : List Execution
  ending : Ending
  request : Option (ℕ × Env)

namespace BrokerRun

/-- The events of the broker, in order. -/
def events (run : BrokerRun) (id : String) : List BrokerEvent :=
  .acknowledged id run.brokerOrderId ::
    (run.partials.map (Execution.event id) ++ [run.ending.event id])

/-- The events as calls at the book, with the local request between them. -/
def calls (run : BrokerRun) (env : Env) (id : String) : List (Env × BookRequest) :=
  let events := (run.events id).map fun event => (env, BookRequest.applyBrokerEvent event)
  match run.request with
  | none => events
  | some (moment, gatewayEnv) =>
    events.take moment ++ (gatewayEnv, .cancelOrder id) :: events.drop moment

/-- The partial fills are positive and stay within the quantity, and the completing fill is
what they leave of it. -/
def WellFormed (run : BrokerRun) (quantityTicks : Int) : Prop :=
  (∀ fill ∈ run.partials, fill.Positive) ∧
    match run.ending with
    | .completed fill => fill.Positive ∧
        Execution.total run.partials + fill.quantityTicks = quantityTicks
    | .cancelled => Execution.total run.partials ≤ quantityTicks

/-- The request reaches the broker and is taken while partial fills are still to come. -/
def CancelsEarly (run : BrokerRun) (sent : List BrokerCall) (id : String) : Prop :=
  match run.request with
  | none => False
  | some (moment, env) => 1 ≤ moment ∧ moment ≤ run.partials.length ∧
      env.gateway.capabilities.cancelReplace = true ∧ (env.gateway.cancel sent id).isOk = true

/-- The request is made after the last partial fill and before the broker's cancellation. -/
def CancelsLast (run : BrokerRun) : Prop :=
  match run.request with
  | none => False
  | some (moment, env) => moment = run.partials.length + 1 ∧
      env.gateway.capabilities.cancelReplace = true

/-- A completed order was not being cancelled when a partial fill came; a cancelled one was
asked to be cancelled after its last partial fill, with a quantity left. -/
def Survives (run : BrokerRun) (sent : List BrokerCall) (intent : OrderIntent) : Prop :=
  match run.ending with
  | .completed _ => ¬run.CancelsEarly sent intent.clientOrderId
  | .cancelled => run.CancelsLast ∧
      (run.partials = [] ∨ Execution.total run.partials < intent.quantityTicks)

end BrokerRun

-- One record

namespace OrderRecord

/-- The record after several fills that it accepts. -/
def execute (record : OrderRecord) (fills : List Execution) : OrderRecord :=
  if fills = [] then record
  else (record.addFill (Execution.total fills)).setState (record.fillState (Execution.total fills))

theorem execute_filledQuantityTicks (record : OrderRecord) (fills : List Execution) :
    (record.execute fills).filledQuantityTicks =
      record.filledQuantityTicks + Execution.total fills := by
  unfold execute
  split
  · next h => rw [h, Execution.total_nil, add_zero]
  · rfl

theorem execute_quantityTicks (record : OrderRecord) (fills : List Execution) :
    (record.execute fills).intent.quantityTicks = record.intent.quantityTicks := by
  unfold execute
  split <;> rfl

/-- The state admits partial and completing fills. -/
def TakesParts (record : OrderRecord) : Prop :=
  record.state = .acknowledged ∨ record.state = .partiallyFilled ∨ record.state = .unknown

theorem TakesParts.legal {record : OrderRecord} (h : record.TakesParts) {next : OrderState}
    (hnext : next = .filled ∨ next = .partiallyFilled) :
    legalTransition record.state next = true := by
  rcases h with h | h | h <;> rcases hnext with rfl | rfl <;> rw [h] <;> rfl

variable {record : OrderRecord} {id : String}

/-- One fill of an order that admits it. -/
theorem apply_execution (hparts : record.TakesParts) {fill : Execution} (hpos : fill.Positive)
    (hnonneg : 0 ≤ record.filledQuantityTicks) (hfits : Fits 64 record.intent.quantityTicks)
    (hle : record.filledQuantityTicks + fill.quantityTicks ≤ record.intent.quantityTicks) :
    applyBrokerEvent (fill.event id) record = (.ok (), record.execute [fill]) := by
  obtain ⟨hquantity, hprice⟩ := hpos
  have hopen : record.state ≠ .filled := by
    rcases hparts with h | h | h <;> rw [h] <;> decide
  have hzero : Fits 64 0 := by decide
  have htakes : record.TakesFill fill.quantityTicks fill.priceTicks :=
    ⟨hquantity, hprice, hopen, fits_of_between hzero hfits (by omega) hle, hle⟩
  rw [Execution.event, applyBrokerEvent_of_takesFill htakes,
    if_pos (hparts.legal (record.fillState_cases _)), execute, if_neg (by simp), Execution.total_cons,
    Execution.total_nil, add_zero]

/-- A cancellation is a step of the lifecycle. -/
theorem applyBrokerEvent_cancelled (id : String) (h : record.state ≠ .cancelled) :
    applyBrokerEvent (.cancelled id) record = transition .cancelled record := by
  simp only [applyBrokerEvent, reads_bind, id_eq, if_neg h]

theorem cancelled_succeeds_iff (id : String) (h : record.state ≠ .cancelled) :
    (applyBrokerEvent (.cancelled id)).Succeeds record ↔
      legalTransition record.state .cancelled = true := by
  rw [← transition_succeeds_iff, Succeeds, applyBrokerEvent_cancelled id h, Succeeds]

/-- **The parts of an order**, filled one by one, are all accepted and add up. -/
theorem forEach_executions (id : String) (hparts : record.TakesParts) {fills : List Execution}
    (hpos : ∀ fill ∈ fills, fill.Positive) (hnonneg : 0 ≤ record.filledQuantityTicks)
    (hfits : Fits 64 record.intent.quantityTicks)
    (hle : record.filledQuantityTicks + Execution.total fills ≤ record.intent.quantityTicks) :
    Fallible.forEach applyBrokerEvent (fills.map (Execution.event id)) record =
      (.ok (), record.execute fills) := by
  induction fills generalizing record with
  | nil => rfl
  | cons fill fills ih =>
    obtain ⟨hfill, hrest⟩ := List.forall_mem_cons.mp hpos
    have hquantity := hfill.1
    have hsum := Execution.total_nonneg hrest
    rw [Execution.total_cons] at hle
    rw [List.map_cons, forEach, bind_of_ok (apply_execution hparts hfill hnonneg hfits (by omega))]
    by_cases hlast : fills = []
    · rw [hlast]
      rfl
    · -- a fill that is not the last one leaves the order partially filled
      have hmore := Execution.total_pos hrest hlast
      have hstate : record.fillState fill.quantityTicks = .partiallyFilled := if_neg (by omega)
      have hnext : record.execute [fill] =
          (record.addFill fill.quantityTicks).setState .partiallyFilled := by
        rw [execute, if_neg (by simp), Execution.total_cons, Execution.total_nil, add_zero, hstate]
      rw [hnext, ih (.inr (.inl rfl)) hrest]
      · rw [execute, if_neg hlast, execute, if_neg (by simp), Execution.total_cons]
        simp only [addFill, OrderRecord.setState, fillState, add_assoc]
      · show 0 ≤ record.filledQuantityTicks + fill.quantityTicks
        omega
      · exact hfits
      · show record.filledQuantityTicks + fill.quantityTicks + Execution.total fills ≤
          record.intent.quantityTicks
        omega

/-- The record after a local request to cancel it. -/
def cancelRequested (record : OrderRecord) (env : Env) (sent : List BrokerCall) (id : String) :
    OrderRecord :=
  if env.gateway.capabilities.cancelReplace ∧ legalTransition record.state .cancelPending then
    record.setState (if (env.gateway.cancel sent id).isOk then .cancelPending else .unknown)
  else record

theorem cancelRequested_of_illegal {env : Env} {sent : List BrokerCall}
    (h : legalTransition record.state .cancelPending = false) :
    record.cancelRequested env sent id = record :=
  if_neg fun hboth => Bool.false_ne_true (h.symm.trans hboth.2)

theorem cancelRequested_of_incapable {env : Env} {sent : List BrokerCall}
    (h : ¬env.gateway.capabilities.cancelReplace = true) :
    record.cancelRequested env sent id = record :=
  if_neg fun hboth => h hboth.1

end OrderRecord

-- From the book to the record

/-- A call that is no event, or an event that is accepted. -/
def BookRequest.Accepted (call : Runtime × (Env × BookRequest)) : Prop :=
  match call.2.2 with
  | .applyBrokerEvent _ => (call.2.2.run call.2.1).Succeeds call.1
  | _ => True

instance (call : Runtime × (Env × BookRequest)) : Decidable (BookRequest.Accepted call) :=
  match call with
  | (r, env, .applyBrokerEvent event) =>
    inferInstanceAs (Decidable (((BookRequest.applyBrokerEvent event).run env).Succeeds r))
  | (_, _, .submitOrder _) => inferInstanceAs (Decidable True)
  | (_, _, .cancelOrder _) => inferInstanceAs (Decidable True)
  | (_, _, .replaceOrder _ _ _) => inferInstanceAs (Decidable True)
  | (_, _, .applyCumulativeFill _ _) => inferInstanceAs (Decidable True)

namespace Runtime

/-- The record of an order, and what the broker was asked so far. -/
def Holds (r : Runtime) (id : String) (sent : List BrokerCall) (record : OrderRecord) : Prop :=
  r.orders.get id = some record ∧ brokerCalls r.trace = sent

variable {r : Runtime} {id : String} {sent : List BrokerCall} {record : OrderRecord}

/-- An event at the book is an event at its record. -/
theorem Holds.event (env : Env) (h : r.Holds id sent record) {event : BrokerEvent}
    (hid : event.clientOrderId = id) :
    (((BookRequest.applyBrokerEvent event).run env).Succeeds r ↔
        (OrderRecord.applyBrokerEvent event).Succeeds record) ∧
      (BookRequest.after (env, .applyBrokerEvent event) r).Holds id sent
        (OrderRecord.applyBrokerEvent event record).2 := by
  subst hid
  have hrun := onOrders_applyBrokerEvent h.1
  dsimp only at hrun
  constructor
  · rw [Succeeds, BookRequest.run, hrun, Succeeds]
    rcases (OrderRecord.applyBrokerEvent event record).1 with _ | _ <;> exact Iff.rfl
  · rw [BookRequest.after, BookRequest.run, hrun]
    exact ⟨by rw [OrderBook.get_put, if_pos rfl], h.2⟩

/-- **Events at the book** are accepted together exactly when their record accepts them one
after the other, and they leave the book with that record. -/
theorem Holds.events (env : Env) (h : r.Holds id sent record) (events : List BrokerEvent)
    (hids : ∀ event ∈ events, event.clientOrderId = id) :
    let calls := events.map fun event => (env, BookRequest.applyBrokerEvent event)
    ((∀ call ∈ Runs.calls BookRequest.after r calls, BookRequest.Accepted call) ↔
        (Fallible.forEach OrderRecord.applyBrokerEvent events).Succeeds record) ∧
      ((Fallible.forEach OrderRecord.applyBrokerEvent events).Succeeds record →
        (Runs.final BookRequest.after r calls).Holds id sent
          (Fallible.forEach OrderRecord.applyBrokerEvent events record).2) := by
  induction events generalizing r record with
  | nil => exact ⟨iff_of_true (by simp [Runs.calls]) rfl, fun _ => h⟩
  | cons event events ih =>
    obtain ⟨hid, hids⟩ := List.forall_mem_cons.mp hids
    obtain ⟨hevent, hnext⟩ := h.event env hid
    obtain ⟨hrest, hfinal⟩ := ih hnext hids
    have hsplit : (∀ call ∈ Runs.calls BookRequest.after r
          ((event :: events).map fun event => (env, BookRequest.applyBrokerEvent event)),
          BookRequest.Accepted call) ↔
        (OrderRecord.applyBrokerEvent event).Succeeds record ∧
          (Fallible.forEach OrderRecord.applyBrokerEvent events).Succeeds
            (OrderRecord.applyBrokerEvent event record).2 := by
      rw [List.map_cons, Runs.calls, List.forall_mem_cons, ← hevent, ← hrest]
      exact Iff.rfl
    rcases hrecord : OrderRecord.applyBrokerEvent event record with ⟨e | u, record'⟩
    · have hfail : ¬(OrderRecord.applyBrokerEvent event).Succeeds record := by
        rw [Succeeds, hrecord]
        exact Bool.false_ne_true
      have hforEach : ¬(Fallible.forEach OrderRecord.applyBrokerEvent (event :: events)).Succeeds
          record := by
        rw [Succeeds, forEach, bind_of_error hrecord]
        exact Bool.false_ne_true
      exact ⟨hsplit.trans (iff_of_false (fun hboth => hfail hboth.1) hforEach),
        fun hok => absurd hok hforEach⟩
    · have hok : (OrderRecord.applyBrokerEvent event).Succeeds record := by
        rw [Succeeds, hrecord]
        rfl
      rw [hrecord] at hsplit hfinal
      have hforEach : Fallible.forEach OrderRecord.applyBrokerEvent (event :: events) record =
          Fallible.forEach OrderRecord.applyBrokerEvent events record' := by
        rw [forEach, bind_of_ok hrecord]
      rw [Succeeds, hforEach]
      exact ⟨hsplit.trans (and_iff_right hok), hfinal⟩

/-- A local request to cancel changes the state of the record at most. -/
theorem Holds.cancel (env : Env) (h : r.Holds id sent record) :
    ∃ sent', (BookRequest.after (env, .cancelOrder id) r).Holds id sent'
      (record.cancelRequested env sent id) := by
  obtain ⟨hget, rfl⟩ := h
  rw [BookRequest.after, BookRequest.run, cancelOrder, OrderRecord.cancelRequested]
  dsimp only
  rw [require_bind]
  by_cases hcap : env.gateway.capabilities.cancelReplace = true
  · rw [if_pos hcap]
    by_cases hlegal : legalTransition record.state .cancelPending = true
    · rw [if_pos ⟨hcap, hlegal⟩, bind_of_ok (onOrders_transition record hget hlegal),
        bind_of_ok (callBroker_apply _ _ _)]
      cases env.gateway.cancel (brokerCalls r.trace) id with
      | error message =>
        dsimp only
        rw [bind_of_ok (onOrders_transition (record.setState .cancelPending)
          (by rw [OrderBook.get_put, if_pos rfl]) rfl)]
        exact ⟨_, by rw [fail_apply, OrderBook.get_put, if_pos rfl]; rfl, rfl⟩
      | ok _ =>
        dsimp only
        exact ⟨_, by rw [pure_apply, OrderBook.get_put, if_pos rfl]; rfl, rfl⟩
    · rw [if_neg fun hboth => hlegal hboth.2]
      have hrefused : OrderBook.transition id .cancelPending r.orders =
          (.error (.invalidTransition record.state .cancelPending), r.orders.put id record) := by
        rw [OrderBook.transition, OrderBook.onRecord_of_get hget, OrderRecord.transition_apply,
          if_neg hlegal]
      rw [bind_of_error (by rw [onOrders_apply, hrefused]; rfl)]
      exact ⟨_, by rw [OrderBook.get_put, if_pos rfl], rfl⟩
  · rw [if_neg hcap, if_neg fun hboth => hcap hboth.1]
    exact ⟨_, hget, rfl⟩

end Runtime

-- Which runs are accepted

namespace BrokerRun

variable {run : BrokerRun} {env : Env} {intent : OrderIntent} {sent : List BrokerCall}

/-- What the run fills in all. -/
def executed (run : BrokerRun) : Int := Execution.total run.partials + run.ending.executed

/-- The record of the order at the end of the run is what the broker says. -/
def Concludes (run : BrokerRun) (record : OrderRecord) : Prop :=
  record.filledQuantityTicks = run.executed ∧ record.state = run.ending.state

/-- A list of events is accepted by a record and leaves it concluded. -/
def Plays (run : BrokerRun) (events : List BrokerEvent) (record : OrderRecord) : Prop :=
  (Fallible.forEach OrderRecord.applyBrokerEvent events).Succeeds record ∧
    run.Concludes (Fallible.forEach OrderRecord.applyBrokerEvent events record).2

/-- A submitted order after the acknowledgement. -/
def acked (run : BrokerRun) (intent : OrderIntent) : OrderRecord :=
  ⟨{ intent with state := .acknowledged }, some run.brokerOrderId, 0⟩

/-- The acknowledgement of an order that was sent, with whatever answer. -/
theorem acknowledge (run : BrokerRun) (intent : OrderIntent) (answer : Except String Unit) :
    OrderRecord.applyBrokerEvent (.acknowledged intent.clientOrderId run.brokerOrderId)
      ⟨{ intent with state := Runtime.sentState answer }, none, 0⟩ = (.ok (), run.acked intent) := by
  unfold Runtime.sentState
  cases answer <;> rfl

/-- Events that are accepted may be played ahead. -/
theorem plays_append {events : List BrokerEvent} {record record' : OrderRecord}
    (events' : List BrokerEvent)
    (h : Fallible.forEach OrderRecord.applyBrokerEvent events record = (.ok (), record')) :
    run.Plays (events ++ events') record ↔ run.Plays events' record' := by
  rw [Plays, Plays, Succeeds, Succeeds, forEach_append, bind_of_ok h]

/-- An event that is refused ends the play. -/
theorem not_plays_cons {event : BrokerEvent} {events : List BrokerEvent} {record : OrderRecord}
    (h : ¬(OrderRecord.applyBrokerEvent event).Succeeds record) :
    ¬run.Plays (event :: events) record := by
  rintro ⟨hok, -⟩
  rcases hrecord : OrderRecord.applyBrokerEvent event record with ⟨e | u, record'⟩
  · rw [Succeeds, forEach, bind_of_error hrecord] at hok
    exact Bool.false_ne_true hok
  · rw [Succeeds, hrecord] at h
    exact h rfl

/-- A single event is played when it is accepted and concludes the run. -/
theorem plays_singleton {event : BrokerEvent} {record record' : OrderRecord}
    (h : OrderRecord.applyBrokerEvent event record = (.ok (), record')) :
    run.Plays [event] record ↔ run.Concludes record' := by
  rw [Plays, Succeeds, forEach, bind_of_ok h]
  exact and_iff_right rfl

/-- **The last event**: at an open order with the partial fills of the run it concludes the
run exactly when the lifecycle table has the step. -/
theorem plays_ending_iff {record : OrderRecord} (id : String)
    (hopen : record.state ≠ run.ending.state)
    (hfits : Fits 64 record.intent.quantityTicks) (hpartials : 0 ≤ Execution.total run.partials)
    (hfilled : record.filledQuantityTicks = Execution.total run.partials)
    (hrun : run.WellFormed record.intent.quantityTicks) :
    run.Plays [run.ending.event id] record ↔
      legalTransition record.state run.ending.state = true := by
  obtain ⟨brokerOrderId, partials, ending, request⟩ := run
  obtain ⟨-, hending⟩ := hrun
  cases ending with
  | completed fill =>
    obtain ⟨⟨hquantity, hprice⟩, hsum⟩ := hending
    dsimp only at hfilled hsum hopen hpartials
    have hzero : Fits 64 0 := by decide
    have hfull : record.filledQuantityTicks + fill.quantityTicks = record.intent.quantityTicks := by
      omega
    have htakes : record.TakesFill fill.quantityTicks fill.priceTicks :=
      ⟨hquantity, hprice, hopen, fits_of_between hzero hfits (by omega) hfull.le, hfull.le⟩
    have hstate : record.fillState fill.quantityTicks = .filled := if_pos hfull.ge
    have hrecord : OrderRecord.applyBrokerEvent (fill.event id) record = _ :=
      OrderRecord.applyBrokerEvent_of_takesFill htakes
    rw [hstate] at hrecord
    by_cases hlegal : legalTransition record.state .filled = true
    · rw [if_pos hlegal] at hrecord
      refine (plays_singleton hrecord).trans (iff_of_true ⟨?_, rfl⟩ hlegal)
      show record.filledQuantityTicks + fill.quantityTicks =
        Execution.total partials + fill.quantityTicks
      rw [hfilled]
    · rw [if_neg hlegal] at hrecord
      refine iff_of_false (not_plays_cons ?_) hlegal
      rw [Succeeds]
      show ¬(OrderRecord.applyBrokerEvent (fill.event id) record).1.isOk = true
      rw [hrecord]
      exact Bool.false_ne_true
  | cancelled =>
    have hrecord := OrderRecord.applyBrokerEvent_cancelled id hopen
    rw [OrderRecord.transition_apply] at hrecord
    by_cases hlegal : legalTransition record.state .cancelled = true
    · rw [if_pos hlegal] at hrecord
      refine (plays_singleton hrecord).trans (iff_of_true ⟨?_, rfl⟩ hlegal)
      show record.filledQuantityTicks = Execution.total partials + 0
      rw [hfilled, add_zero]
    · rw [if_neg hlegal] at hrecord
      refine iff_of_false (not_plays_cons ?_) hlegal
      rw [Ending.event, OrderRecord.cancelled_succeeds_iff id hopen]
      exact hlegal

/-- The partial fills stay within the quantity. -/
theorem WellFormed.total_le {quantity : Int} (hrun : run.WellFormed quantity) :
    Execution.total run.partials ≤ quantity := by
  obtain ⟨brokerOrderId, partials, ending, request⟩ := run
  obtain ⟨-, hending⟩ := hrun
  cases ending with
  | completed fill =>
    obtain ⟨⟨hquantity, -⟩, hsum⟩ := hending
    dsimp only at hsum ⊢
    omega
  | cancelled => exact hending

/-- Something is left for a completing fill. -/
theorem WellFormed.total_lt {quantity : Int} (hrun : run.WellFormed quantity)
    (hending : run.ending ≠ .cancelled) : Execution.total run.partials < quantity := by
  obtain ⟨brokerOrderId, partials, ending, request⟩ := run
  obtain ⟨-, hrun⟩ := hrun
  cases ending with
  | completed fill =>
    obtain ⟨⟨hquantity, -⟩, hsum⟩ := hrun
    dsimp only at hsum ⊢
    omega
  | cancelled => exact absurd rfl hending

theorem ending_state (hending : run.ending ≠ .cancelled) : run.ending.state = .filled := by
  cases h : run.ending with
  | completed fill => rfl
  | cancelled => exact absurd h hending

section Rest

variable {record : OrderRecord} {rest : List Execution} {id : String}

/-- **The rest of a run at an order that takes parts**: it concludes a completed run, and a
cancelled one only from the unknown state, with no part to come. -/
theorem plays_rest_iff (hparts : record.TakesParts) (hpos : ∀ fill ∈ rest, fill.Positive)
    (hnonneg : 0 ≤ record.filledQuantityTicks)
    (hsum : record.filledQuantityTicks + Execution.total rest = Execution.total run.partials)
    (hfits : Fits 64 record.intent.quantityTicks)
    (hrun : run.WellFormed record.intent.quantityTicks) :
    run.Plays (rest.map (Execution.event id) ++ [run.ending.event id]) record ↔
      run.ending ≠ .cancelled ∨ rest = [] ∧ record.state = .unknown := by
  have hle := hrun.total_le
  have hrest := Execution.total_nonneg hpos
  have hexecute := OrderRecord.forEach_executions id hparts hpos hnonneg hfits (by omega)
  rw [plays_append _ hexecute]
  by_cases hempty : rest = []
  · have hsame : record.execute rest = record := if_pos hempty
    have htotal : Execution.total rest = 0 := by rw [hempty]; rfl
    rw [hsame]
    by_cases hending : run.ending = .cancelled
    · have hopen : record.state ≠ .cancelled := by
        rcases hparts with h | h | h <;> rw [h] <;> decide
      have hstate : run.ending.state = .cancelled := by rw [hending]; rfl
      rw [plays_ending_iff id (by rwa [hstate]) hfits (by omega) (by omega) hrun, hstate]
      rw [or_iff_right (not_not.mpr hending), and_iff_right hempty]
      rcases hparts with h | h | h <;> rw [h] <;> decide
    · have hopen : record.state ≠ .filled := by
        rcases hparts with h | h | h <;> rw [h] <;> decide
      have hstate := ending_state hending
      rw [plays_ending_iff id (by rwa [hstate]) hfits (by omega) (by omega) hrun, hstate]
      exact iff_of_true (hparts.legal (.inl rfl)) (.inl hending)
  · have hsame : record.execute rest = (record.addFill (Execution.total rest)).setState
        (record.fillState (Execution.total rest)) := if_neg hempty
    rw [hsame]
    have hfits' : Fits 64 ((record.addFill (Execution.total rest)).setState
        (record.fillState (Execution.total rest))).intent.quantityTicks := hfits
    by_cases hending : run.ending = .cancelled
    · have hstate : run.ending.state = .cancelled := by rw [hending]; rfl
      have hillegal : legalTransition (record.fillState (Execution.total rest)) .cancelled ≠ true ∧
          record.fillState (Execution.total rest) ≠ .cancelled := by
        rcases record.fillState_cases (Execution.total rest) with h | h <;> rw [h] <;> decide
      rw [plays_ending_iff id (by rw [hstate]; exact hillegal.2) hfits' (by omega) hsum hrun, hstate]
      refine iff_of_false hillegal.1 ?_
      rintro (hne | ⟨hnil, -⟩)
      · exact hne hending
      · exact hempty hnil
    · have hlt := hrun.total_lt hending
      have hopened : record.fillState (Execution.total rest) = .partiallyFilled :=
        if_neg (by omega)
      have hlegal : legalTransition (record.fillState (Execution.total rest)) .filled = true ∧
          record.fillState (Execution.total rest) ≠ .filled := by
        rw [hopened]
        decide
      have hstate := ending_state hending
      rw [plays_ending_iff id (by rw [hstate]; exact hlegal.2) hfits' (by omega) hsum hrun, hstate]
      exact iff_of_true hlegal.1 (.inl hending)

/-- **The rest of a run at an order that is being cancelled** concludes it exactly when no
partial fill comes first. -/
theorem plays_rest_cancelPending_iff (hpending : record.state = .cancelPending)
    (hpos : ∀ fill ∈ rest, fill.Positive) (hnonneg : 0 ≤ record.filledQuantityTicks)
    (hsum : record.filledQuantityTicks + Execution.total rest = Execution.total run.partials)
    (hfits : Fits 64 record.intent.quantityTicks)
    (hrun : run.WellFormed record.intent.quantityTicks) :
    run.Plays (rest.map (Execution.event id) ++ [run.ending.event id]) record ↔ rest = [] := by
  have hle := hrun.total_le
  cases rest with
  | nil =>
    rw [Execution.total_nil, add_zero] at hsum
    rw [List.map_nil, List.nil_append]
    have hlegal : legalTransition .cancelPending run.ending.state = true ∧
        OrderState.cancelPending ≠ run.ending.state := by
      cases run.ending <;> exact ⟨rfl, fun h => by cases h⟩
    rw [plays_ending_iff id (by rw [hpending]; exact hlegal.2) hfits (by omega) hsum hrun, hpending]
    exact iff_of_true hlegal.1 rfl
  | cons fill rest =>
    obtain ⟨⟨hquantity, hprice⟩, hrest⟩ := List.forall_mem_cons.mp hpos
    have hmore := Execution.total_nonneg hrest
    rw [Execution.total_cons] at hsum
    refine iff_of_false ?_ (List.cons_ne_nil _ _)
    rw [List.map_cons, List.cons_append]
    have hzero : Fits 64 0 := by decide
    have htakes : record.TakesFill fill.quantityTicks fill.priceTicks :=
      ⟨hquantity, hprice, by rw [hpending]; decide,
        fits_of_between hzero hfits (by omega) (by omega), by omega⟩
    have hrecord : OrderRecord.applyBrokerEvent (fill.event id) record = _ :=
      OrderRecord.applyBrokerEvent_of_takesFill htakes
    rw [hpending] at hrecord
    by_cases hfull : record.intent.quantityTicks ≤ record.filledQuantityTicks + fill.quantityTicks
    · -- the parts complete the order: it is filled and can no longer be cancelled
      have hstate : record.fillState fill.quantityTicks = .filled := if_pos hfull
      have hlast : rest = [] := by
        by_contra hne
        have := Execution.total_pos hrest hne
        omega
      have hending : run.ending = .cancelled := by
        by_contra hne
        have := hrun.total_lt hne
        rw [hlast, Execution.total_nil] at hsum
        omega
      rw [hstate, if_pos (show legalTransition .cancelPending .filled = true from rfl)] at hrecord
      rw [hlast, hending, List.map_nil, List.nil_append]
      intro hplays
      have hone : Fallible.forEach OrderRecord.applyBrokerEvent [fill.event id] record =
          (.ok (), (record.addFill fill.quantityTicks).setState .filled) := by
        rw [forEach, bind_of_ok hrecord]
        rfl
      have hplays' := (plays_append [.cancelled id] hone).mp hplays
      refine not_plays_cons ?_ hplays'
      rw [OrderRecord.cancelled_succeeds_iff id (fun h => by cases h)]
      exact Bool.false_ne_true
    · have hstate : record.fillState fill.quantityTicks = .partiallyFilled := if_neg hfull
      rw [hstate, if_neg (show ¬legalTransition .cancelPending .partiallyFilled = true by decide)]
        at hrecord
      refine not_plays_cons ?_
      rw [Succeeds, hrecord]
      exact Bool.false_ne_true

end Rest

/-- A submitted order before its acknowledgement. -/
def submitted (intent : OrderIntent) (answer : Except String Unit) : OrderRecord :=
  ⟨{ intent with state := Runtime.sentState answer }, none, 0⟩

section Submitted

variable (answer : Except String Unit) (hfits : Fits 64 intent.quantityTicks)
  (hrun : run.WellFormed intent.quantityTicks)

include hfits hrun

/-- Without a request that is taken, a run concludes when it is completed. -/
theorem plays_events_iff :
    run.Plays (run.events intent.clientOrderId) (submitted intent answer) ↔
      run.ending ≠ .cancelled := by
  have hack : Fallible.forEach OrderRecord.applyBrokerEvent
      [.acknowledged intent.clientOrderId run.brokerOrderId] (submitted intent answer) =
      (.ok (), run.acked intent) := by
    rw [forEach, submitted, bind_of_ok (acknowledge run intent answer)]
    rfl
  have hplays : run.Plays (run.events intent.clientOrderId) (submitted intent answer) ↔ _ :=
    plays_append _ hack
  refine hplays.trans ((plays_rest_iff (.inl rfl) hrun.1 le_rfl (zero_add _) hfits hrun).trans ?_)
  exact or_iff_left fun hunknown => by cases hunknown.2

omit hfits hrun in
/-- An acknowledged order after some parts: still open, or filled by them. -/
theorem acked_execute_cases (run : BrokerRun) (intent : OrderIntent) (fills : List Execution) :
    (((run.acked intent).execute fills).state = .acknowledged ∨
        ((run.acked intent).execute fills).state = .partiallyFilled) ∧
      (fills = [] ∨ Execution.total fills < intent.quantityTicks) ∨
    ((run.acked intent).execute fills).state = .filled ∧ fills ≠ [] ∧
      intent.quantityTicks ≤ Execution.total fills := by
  by_cases hempty : fills = []
  · exact .inl ⟨.inl (by rw [OrderRecord.execute, if_pos hempty]; rfl), .inl hempty⟩
  · have hstate : ((run.acked intent).execute fills).state =
        if intent.quantityTicks ≤ 0 + Execution.total fills then .filled else .partiallyFilled := by
      rw [OrderRecord.execute, if_neg hempty]
      rfl
    rw [zero_add] at hstate
    by_cases hfull : intent.quantityTicks ≤ Execution.total fills
    · rw [if_pos hfull] at hstate
      exact .inr ⟨hstate, hempty, hfull⟩
    · rw [if_neg hfull] at hstate
      exact .inl ⟨.inr hstate, .inr (by omega)⟩

/-- **A request among the events**: the events before it, the request, and the rest. -/
theorem plays_interrupted_iff (done : ℕ) (hdone : done ≤ run.partials.length) (gatewayEnv : Env)
    (hrequest : run.request = some (done + 1, gatewayEnv)) :
    run.Plays ((run.partials.drop done).map (Execution.event intent.clientOrderId) ++
        [run.ending.event intent.clientOrderId])
      (((run.acked intent).execute (run.partials.take done)).cancelRequested gatewayEnv sent
        intent.clientOrderId) ↔
      run.Survives sent intent := by
  have hpos : ∀ fill ∈ run.partials.drop done, fill.Positive :=
    fun fill hfill => hrun.1 fill (List.mem_of_mem_drop hfill)
  have hsplit : Execution.total (run.partials.take done) + Execution.total (run.partials.drop done) =
      Execution.total run.partials := by
    rw [← Execution.total_append, List.take_append_drop]
  have hnonneg : 0 ≤ Execution.total (run.partials.take done) :=
    Execution.total_nonneg fun fill hfill => hrun.1 fill (List.mem_of_mem_take hfill)
  have hlast : run.partials.drop done = [] ↔ done = run.partials.length := by
    rw [List.drop_eq_nil_iff]
    omega
  have hle := hrun.total_le
  generalize run.partials.drop done = rest at hpos hsplit hlast ⊢
  have hcases := acked_execute_cases run intent (run.partials.take done)
  have hfilled := (run.acked intent).execute_filledQuantityTicks (run.partials.take done)
  have hquantity := (run.acked intent).execute_quantityTicks (run.partials.take done)
  generalize (run.acked intent).execute (run.partials.take done) = record at hcases hfilled hquantity ⊢
  change record.filledQuantityTicks = 0 + _ at hfilled
  change record.intent.quantityTicks = intent.quantityTicks at hquantity
  rw [zero_add] at hfilled
  rw [← hquantity] at hfits hrun
  rw [← hfilled] at hsplit hnonneg
  have hsurvives : run.Survives sent intent ↔ if run.ending = .cancelled then
      (done = run.partials.length ∧ gatewayEnv.gateway.capabilities.cancelReplace = true) ∧
        (run.partials = [] ∨ Execution.total run.partials < intent.quantityTicks)
      else ¬(done < run.partials.length ∧ gatewayEnv.gateway.capabilities.cancelReplace = true ∧
        (gatewayEnv.gateway.cancel sent intent.clientOrderId).isOk = true) := by
    obtain ⟨brokerOrderId, partials, ending, request⟩ := run
    obtain rfl : request = some (done + 1, gatewayEnv) := hrequest
    cases ending with
    | completed fill => simp [Survives, CancelsEarly, Nat.succ_le_iff]
    | cancelled => simp [Survives, CancelsLast]
  rw [hsurvives]
  rcases hcases with ⟨hstate, hopen⟩ | ⟨hstate, hne, hfull⟩
  · have hparts : record.TakesParts := by
      rcases hstate with h | h
      · exact .inl h
      · exact .inr (.inl h)
    have hleft : done = run.partials.length →
        (run.partials = [] ∨ Execution.total run.partials < intent.quantityTicks) := by
      rintro rfl
      rwa [List.take_length] at hopen
    by_cases hcap : gatewayEnv.gateway.capabilities.cancelReplace = true
    · have hlegal : legalTransition record.state .cancelPending = true := by
        rcases hstate with h | h <;> rw [h] <;> rfl
      rw [OrderRecord.cancelRequested, if_pos ⟨hcap, hlegal⟩]
      by_cases htaken : (gatewayEnv.gateway.cancel sent intent.clientOrderId).isOk = true
      · -- the cancellation is pending
        have hplays : run.Plays (rest.map (Execution.event intent.clientOrderId) ++
            [run.ending.event intent.clientOrderId]) (record.setState .cancelPending) ↔ rest = [] :=
          plays_rest_cancelPending_iff rfl hpos hnonneg hsplit hfits hrun
        rw [if_pos htaken, hplays, hlast]
        split
        · exact ⟨fun h => ⟨⟨h, hcap⟩, hleft h⟩, fun h => h.1.1⟩
        · exact ⟨fun h hearly => Nat.ne_of_lt hearly.1 h,
            fun h => by_contra fun hne => h ⟨by omega, hcap, htaken⟩⟩
      · -- the broker may not know of the cancellation
        have hplays : run.Plays (rest.map (Execution.event intent.clientOrderId) ++
            [run.ending.event intent.clientOrderId]) (record.setState .unknown) ↔
            run.ending ≠ .cancelled ∨ rest = [] ∧ _ :=
          plays_rest_iff (.inr (.inr rfl)) hpos hnonneg hsplit hfits hrun
        rw [if_neg htaken, hplays, hlast]
        split
        · next hending =>
          rw [or_iff_right (not_not.mpr hending)]
          exact ⟨fun h => ⟨⟨h.1, hcap⟩, hleft h.1⟩, fun h => ⟨h.1.1, rfl⟩⟩
        · next hending => exact iff_of_true (.inl hending) fun hearly => htaken hearly.2.2
    · rw [OrderRecord.cancelRequested_of_incapable hcap,
        plays_rest_iff hparts hpos hnonneg hsplit hfits hrun]
      have hknown : ¬(rest = [] ∧ record.state = .unknown) := by
        rintro ⟨-, hunknown⟩
        rcases hstate with h | h <;> rw [h] at hunknown <;> cases hunknown
      rw [or_iff_left hknown]
      split
      · next hending => exact iff_of_false (not_not.mpr hending) fun h => hcap h.1.2
      · next hending => exact iff_of_true hending fun hearly => hcap hearly.2.1
  · -- the parts have completed the order, so that nothing is left to cancel
    have hrest : rest = [] := by
      by_contra hmore
      have hmore := Execution.total_pos hpos hmore
      omega
    have hending : run.ending = .cancelled := by
      by_contra hending
      have hlt := hrun.total_lt hending
      rw [hrest, Execution.total_nil] at hsplit
      omega
    rw [OrderRecord.cancelRequested_of_illegal (by rw [hstate]; rfl), hrest, if_pos hending, hending]
    refine iff_of_false (not_plays_cons ?_) ?_
    · have hopen : record.state ≠ .cancelled := by
        rw [hstate]
        decide
      rw [Ending.event, OrderRecord.cancelled_succeeds_iff _ hopen, hstate]
      decide
    · rintro ⟨-, hempty | hlt⟩
      · rw [hempty, List.take_nil] at hne
        exact hne rfl
      · rw [hrest, Execution.total_nil] at hsplit
        omega

end Submitted

theorem clientOrderId_of_mem_events (run : BrokerRun) (id : String) :
    ∀ event ∈ run.events id, event.clientOrderId = id := by
  intro event hevent
  rw [events, List.mem_cons, List.mem_append, List.mem_map, List.mem_singleton] at hevent
  rcases hevent with rfl | ⟨fill, -, rfl⟩ | rfl
  · rfl
  · rfl
  · cases run.ending <;> rfl

/-- Every event of a run is accepted, and the order ends with the sum of the fills, filled or
cancelled as the run says. -/
def AcceptedFrom (run : BrokerRun) (submitted : Runtime) (env : Env) (id : String) : Prop :=
  (∀ call ∈ Runs.calls BookRequest.after submitted (run.calls env id), BookRequest.Accepted call) ∧
    ∃ record, (Runs.final BookRequest.after submitted (run.calls env id)).orders.get id =
      some record ∧ run.Concludes record

variable {r : Runtime} {id : String} {record : OrderRecord}

/-- Events at the book are played at the record. -/
theorem accepted_events_iff (run : BrokerRun) (env : Env) (h : r.Holds id sent record)
    {events : List BrokerEvent}
    (hids : ∀ event ∈ events, event.clientOrderId = id) :
    let calls := events.map fun event => (env, BookRequest.applyBrokerEvent event)
    ((∀ call ∈ Runs.calls BookRequest.after r calls, BookRequest.Accepted call) ∧
        ∃ record', (Runs.final BookRequest.after r calls).orders.get id = some record' ∧
          run.Concludes record') ↔ run.Plays events record := by
  intro calls
  obtain ⟨haccepted, hfinal⟩ := h.events env events hids
  rw [haccepted, Plays]
  refine and_congr_right fun hok => ?_
  have hget := (hfinal hok).1
  constructor
  · rintro ⟨record', hget', hconcludes⟩
    cases hget.symm.trans hget'
    exact hconcludes
  · exact fun hconcludes => ⟨_, hget, hconcludes⟩

/-- **A run with a request** is played in two parts, with the request at the record between. -/
theorem accepted_interrupted_iff (h : r.Holds id sent record) {moment : ℕ} {gatewayEnv : Env}
    (hrequest : run.request = some (moment, gatewayEnv)) :
    run.AcceptedFrom r env id ↔
      (Fallible.forEach OrderRecord.applyBrokerEvent ((run.events id).take moment)).Succeeds record ∧
        run.Plays ((run.events id).drop moment)
          ((Fallible.forEach OrderRecord.applyBrokerEvent ((run.events id).take moment)
            record).2.cancelRequested gatewayEnv sent id) := by
  have hids := run.clientOrderId_of_mem_events id
  obtain ⟨haccepted, hfinal⟩ := h.events env ((run.events id).take moment)
    fun event hevent => hids event (List.mem_of_mem_take hevent)
  have hcalls : run.calls env id =
      ((run.events id).take moment).map (fun event => (env, BookRequest.applyBrokerEvent event)) ++
        (gatewayEnv, .cancelOrder id) ::
          ((run.events id).drop moment).map fun event => (env, BookRequest.applyBrokerEvent event) := by
    rw [calls, hrequest, List.map_take, List.map_drop]
  rw [AcceptedFrom, hcalls, Runs.calls_append, Runs.final_append, Runs.calls, Runs.final_cons,
    List.forall_mem_append, List.forall_mem_cons, haccepted, and_assoc]
  refine and_congr_right fun hok => ?_
  obtain ⟨sent', hnext⟩ := (hfinal hok).cancel gatewayEnv
  have hrest : _ ↔ run.Plays ((run.events id).drop moment) _ := accepted_events_iff run env hnext
    fun event hevent => hids event (List.mem_of_mem_drop hevent)
  exact (and_congr_left fun _ => and_iff_right trivial).trans hrest

/-- A request before the acknowledgement or after the last event changes nothing. -/
theorem plays_outside_iff (answer : Except String Unit) (hfits : Fits 64 intent.quantityTicks)
    (hrun : run.WellFormed intent.quantityTicks) {moment : ℕ} {gatewayEnv : Env}
    (hrequest : run.request = some (moment, gatewayEnv))
    (hmoment : moment = 0 ∨ run.partials.length + 1 < moment) :
    (Fallible.forEach OrderRecord.applyBrokerEvent
          ((run.events intent.clientOrderId).take moment)).Succeeds (submitted intent answer) ∧
        run.Plays ((run.events intent.clientOrderId).drop moment)
          ((Fallible.forEach OrderRecord.applyBrokerEvent
            ((run.events intent.clientOrderId).take moment)
            (submitted intent answer)).2.cancelRequested gatewayEnv sent intent.clientOrderId) ↔
      run.Survives sent intent := by
  have hall := plays_events_iff answer hfits hrun
  have hsurvives : run.Survives sent intent ↔ run.ending ≠ .cancelled := by
    obtain ⟨brokerOrderId, partials, ending, request⟩ := run
    obtain rfl : request = some (moment, gatewayEnv) := hrequest
    dsimp only at hmoment
    cases ending with
    | completed fill =>
      refine iff_of_true (fun hearly => ?_) (by simp)
      obtain ⟨hfirst, hlast, -⟩ := hearly
      dsimp only at hlast
      omega
    | cancelled =>
      refine iff_of_false (fun hlast => ?_) (by simp)
      obtain ⟨⟨hlast, -⟩, -⟩ := hlast
      dsimp only at hlast
      omega
  rw [hsurvives, ← hall]
  rcases hmoment with rfl | hmoment
  · -- the order is only sent, and the table has no step to a pending cancellation
    have hillegal : legalTransition (submitted intent answer).state .cancelPending = false := by
      show legalTransition (Runtime.sentState answer) .cancelPending = false
      unfold Runtime.sentState
      split <;> rfl
    rw [List.take_zero, List.drop_zero]
    refine (and_iff_right rfl).trans ?_
    show run.Plays _ ((submitted intent answer).cancelRequested _ _ _) ↔ _
    rw [OrderRecord.cancelRequested_of_illegal hillegal]
  · -- the order is closed
    have hlength : (run.events intent.clientOrderId).length ≤ moment := by
      simp only [events, List.length_cons, List.length_append, List.length_map, List.length_nil]
      omega
    rw [List.take_of_length_le hlength, List.drop_of_length_le hlength, Plays]
    refine and_congr_right fun _ => ?_
    generalize (Fallible.forEach OrderRecord.applyBrokerEvent (run.events intent.clientOrderId)
      (submitted intent answer)).2 = record
    refine (and_iff_right rfl).trans ?_
    show run.Concludes (record.cancelRequested _ _ _) ↔ _
    by_cases hlegal : legalTransition record.state .cancelPending = true
    · -- neither end of a run leaves an order that can be cancelled
      have hopen : record.state ≠ run.ending.state := by
        intro hstate
        rw [hstate] at hlegal
        cases hending : run.ending <;> rw [hending] at hlegal <;> cases hlegal
      refine iff_of_false (fun hconcludes => ?_) fun hconcludes => hopen hconcludes.2
      have hstate := hconcludes.2
      unfold OrderRecord.cancelRequested at hstate
      split at hstate
      · change (if _ then OrderState.cancelPending else .unknown) = _ at hstate
        cases hending : run.ending <;> rw [hending] at hstate <;> split at hstate <;> cases hstate
      · exact hopen hstate
    · rw [OrderRecord.cancelRequested_of_illegal (eq_false_of_ne_true hlegal)]

/-- **A request between the events.** -/
theorem plays_between_iff (answer : Except String Unit) (hfits : Fits 64 intent.quantityTicks)
    (hrun : run.WellFormed intent.quantityTicks) {done : ℕ} (hdone : done ≤ run.partials.length)
    {gatewayEnv : Env} (hrequest : run.request = some (done + 1, gatewayEnv)) :
    (Fallible.forEach OrderRecord.applyBrokerEvent
          ((run.events intent.clientOrderId).take (done + 1))).Succeeds (submitted intent answer) ∧
        run.Plays ((run.events intent.clientOrderId).drop (done + 1))
          ((Fallible.forEach OrderRecord.applyBrokerEvent
            ((run.events intent.clientOrderId).take (done + 1))
            (submitted intent answer)).2.cancelRequested gatewayEnv sent intent.clientOrderId) ↔
      run.Survives sent intent := by
  have hle := hrun.total_le
  have hsplit : Execution.total (run.partials.take done) + Execution.total (run.partials.drop done) =
      Execution.total run.partials := by
    rw [← Execution.total_append, List.take_append_drop]
  have hdrop : 0 ≤ Execution.total (run.partials.drop done) :=
    Execution.total_nonneg fun fill hfill => hrun.1 fill (List.mem_of_mem_drop hfill)
  have htake : (run.acked intent).filledQuantityTicks +
      Execution.total (run.partials.take done) ≤ intent.quantityTicks := by
    show 0 + Execution.total (run.partials.take done) ≤ intent.quantityTicks
    omega
  have hacked : (run.acked intent).TakesParts := .inl rfl
  have hparts := OrderRecord.forEach_executions intent.clientOrderId hacked
    (fun fill hfill => hrun.1 fill (List.mem_of_mem_take hfill)) le_rfl hfits htake
  have hbefore : Fallible.forEach OrderRecord.applyBrokerEvent
      ((run.events intent.clientOrderId).take (done + 1)) (submitted intent answer) =
      (.ok (), (run.acked intent).execute (run.partials.take done)) := by
    rw [events, List.take_succ_cons, List.take_append_of_le_length (by simpa using hdone),
      ← List.map_take, forEach, submitted, bind_of_ok (acknowledge run intent answer), hparts]
  have hafter : (run.events intent.clientOrderId).drop (done + 1) =
      (run.partials.drop done).map (Execution.event intent.clientOrderId) ++
        [run.ending.event intent.clientOrderId] := by
    rw [events, List.drop_succ_cons, List.drop_append_of_le_length (by simpa using hdone),
      ← List.map_drop]
  rw [Succeeds, hbefore, hafter]
  exact (and_iff_right rfl).trans (plays_interrupted_iff hfits hrun done hdone gatewayEnv hrequest)

end BrokerRun

/-- **Every event is accepted**: after a submission, whatever its answer, the broker's events of
the order are all accepted and leave it with their sum, filled or cancelled accordingly, exactly
when the run survives. -/
theorem broker_run_accepted_iff {start : Runtime} (env : Env) (intent : OrderIntent)
    (run : BrokerRun) (hs : intent.state = .riskApproved)
    (hf : start.orders.get intent.clientOrderId = none) (hfits : Fits 64 intent.quantityTicks)
    (hrun : run.WellFormed intent.quantityTicks) :
    run.AcceptedFrom (BookRequest.after (env, .submitOrder intent) start) env
        intent.clientOrderId ↔
      run.Survives (brokerCalls start.trace ++ [.send intent]) intent := by
  obtain ⟨book, hsubmit, hbook⟩ := Runtime.submitOrder_of_fresh env hs hf
  have hholds : (BookRequest.after (env, .submitOrder intent) start).Holds intent.clientOrderId
      (brokerCalls start.trace ++ [.send intent])
      (BrokerRun.submitted intent (env.gateway.send (brokerCalls start.trace) intent)) := by
    rw [BookRequest.after, BookRequest.run, hsubmit]
    refine ⟨?_, ?_⟩
    · show book.get intent.clientOrderId = _
      rw [hbook, if_pos rfl]
      rfl
    · show brokerCalls (start.trace ++ [.call (.send intent)]) = _
      rw [brokerCalls, List.filterMap_append]
      rfl
  cases hrequest : run.request with
  | none =>
    have hcalls : run.calls env intent.clientOrderId =
        (run.events intent.clientOrderId).map fun event =>
          (env, BookRequest.applyBrokerEvent event) := by
      rw [BrokerRun.calls, hrequest]
    rw [BrokerRun.AcceptedFrom, hcalls]
    refine (BrokerRun.accepted_events_iff run env hholds
      (run.clientOrderId_of_mem_events _)).trans ?_
    refine (BrokerRun.plays_events_iff _ hfits hrun).trans ?_
    obtain ⟨brokerOrderId, partials, ending, request⟩ := run
    obtain rfl : request = none := hrequest
    cases ending <;> simp [BrokerRun.Survives, BrokerRun.CancelsEarly, BrokerRun.CancelsLast]
  | some request =>
    obtain ⟨moment, gatewayEnv⟩ := request
    refine (BrokerRun.accepted_interrupted_iff hholds hrequest).trans ?_
    by_cases houtside : moment = 0 ∨ run.partials.length + 1 < moment
    · exact BrokerRun.plays_outside_iff _ hfits hrun hrequest houtside
    · obtain ⟨done, rfl⟩ : ∃ done, moment = done + 1 := ⟨moment - 1, by omega⟩
      exact BrokerRun.plays_between_iff _ hfits hrun (by omega) hrequest

/-- A purchase of 10 is filled to 4, asked to be cancelled, and cancelled. -/
theorem broker_run_accepted_cancelled :
    BrokerRun.AcceptedFrom ⟨"b-1", [⟨4, 100⟩], .cancelled, some (2, Sample.env Sample.empty)⟩
      (BookRequest.after (Sample.env Sample.empty, .submitOrder Sample.purchase) Sample.flat)
      (Sample.env Sample.empty) "o-1" := by
  refine (broker_run_accepted_iff (Sample.env Sample.empty) Sample.purchase _ rfl
    (by decide) (by decide) ⟨by decide, by decide⟩).mpr ?_
  exact ⟨⟨rfl, rfl⟩, .inr (by decide)⟩

/-- **Two events that are refused**: the cancellation of a working order that nobody asked for,
and a partial fill of an order whose cancellation is pending. -/
theorem broker_run_refused :
    ¬BrokerRun.AcceptedFrom ⟨"b-1", [], .cancelled, none⟩
        (BookRequest.after (Sample.env Sample.empty, .submitOrder Sample.purchase) Sample.flat)
        (Sample.env Sample.empty) "o-1" ∧
      ¬BrokerRun.AcceptedFrom
        ⟨"b-1", [⟨4, 100⟩], .completed ⟨6, 100⟩, some (1, Sample.env Sample.empty)⟩
        (BookRequest.after (Sample.env Sample.empty, .submitOrder Sample.purchase) Sample.flat)
        (Sample.env Sample.empty) "o-1" := by
  have hunasked : ∃ call ∈ Runs.calls BookRequest.after
      (BookRequest.after (Sample.env Sample.empty, .submitOrder Sample.purchase) Sample.flat)
      (BrokerRun.calls ⟨"b-1", [], .cancelled, none⟩ (Sample.env Sample.empty) "o-1"),
      ¬BookRequest.Accepted call := by
    decide
  have hpending : ∃ call ∈ Runs.calls BookRequest.after
      (BookRequest.after (Sample.env Sample.empty, .submitOrder Sample.purchase) Sample.flat)
      (BrokerRun.calls
        ⟨"b-1", [⟨4, 100⟩], .completed ⟨6, 100⟩, some (1, Sample.env Sample.empty)⟩
        (Sample.env Sample.empty) "o-1"), ¬BookRequest.Accepted call := by
    decide
  constructor
  · rintro ⟨haccepted, -⟩
    obtain ⟨call, hcall, hrefused⟩ := hunasked
    exact hrefused (haccepted call hcall)
  · rintro ⟨haccepted, -⟩
    obtain ⟨call, hcall, hrefused⟩ := hpending
    exact hrefused (haccepted call hcall)

end InsiderTrader
