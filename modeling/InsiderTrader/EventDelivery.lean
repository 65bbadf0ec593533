import InsiderTrader.Bookkeeping
import InsiderTrader.Effects
import InsiderTrader.OrderFlow

/-!
# Delivery of broker events

A broker event is journaled, then its arrival is stamped on the stored timing
of the order, then it is applied. The stamp is refused when the clock reads
less than the stored send, which it does after a restart: the clock counts from
the start of the process, the timing is from the journal. The event is then in
the journal and not in the projections.

## Main definitions

- `Runtime.Admits` — the order book and accounting accept the event
- `Host.Applied` — the event is in the order book and the portfolio
- `Host.Delivers` — the event gets past the journal and the stamp

## Main results

- `Host.applyBrokerEvent_applied_iff` — which accepted events are applied
-/

namespace InsiderTrader

open Fallible

namespace Runtime

/-- The order book accepts the event and accounting accepts its fill. -/
def Admits (r : Runtime) (event : BrokerEvent) : Prop :=
  (OrderBook.applyBrokerEvent event r.orders).1 = .ok () ∧
    match event with
    | .filled clientOrderId quantityTicks priceTicks =>
      ∀ record ∈ r.orders.get clientOrderId, record.state ≠ .filled →
        (r.fillTrial record clientOrderId quantityTicks priceTicks).1.isOk
    | _ => True

/-- The portfolio an event leaves: a fill of an open order is booked. -/
def portfolioAfter (r : Runtime) : BrokerEvent → Portfolio
  | .filled clientOrderId quantityTicks priceTicks =>
    match r.orders.get clientOrderId with
    | none => r.portfolio
    | some record =>
      if record.state = .filled then r.portfolio
      else (r.fillTrial record clientOrderId quantityTicks priceTicks).2
  | _ => r.portfolio

/-- **An admitted event** is applied by the runtime. -/
theorem Admits.applyBrokerEvent {r : Runtime} {event : BrokerEvent} (h : r.Admits event) :
    ∃ r', Runtime.applyBrokerEvent event r = (.ok (), r') ∧
      r'.orders = (OrderBook.applyBrokerEvent event r.orders).2 ∧
      r'.portfolio = r.portfolioAfter event := by
  obtain ⟨hbook, hfill⟩ := h
  -- without a fill, or for a filled order, only the book is asked
  have hbooked : onOrders EngineError.transition (OrderBook.applyBrokerEvent event) r =
      (.ok (), { r with orders := (OrderBook.applyBrokerEvent event r.orders).2 }) := by
    rw [onOrders, zoom_apply, hbook]
    rfl
  cases event with
  | acknowledged => exact ⟨_, hbooked, rfl, rfl⟩
  | rejected => exact ⟨_, hbooked, rfl, rfl⟩
  | cancelled => exact ⟨_, hbooked, rfl, rfl⟩
  | filled id quantity price =>
    cases hget : r.orders.get id with
    | none =>
      have hunknown : OrderBook.applyBrokerEvent (.filled id quantity price) r.orders =
          (.error .unknownOrder, r.orders) := OrderBook.onRecord_of_none hget
      rw [hunknown] at hbook
      cases hbook
    | some record =>
      by_cases hfilled : record.state = .filled
      · refine ⟨_, (applyBrokerEvent_of_repeated hget hfilled).trans hbooked, rfl, ?_⟩
        simp [portfolioAfter, hget, hfilled]
      · have hrecord : OrderBook.applyBrokerEvent (.filled id quantity price) r.orders =
            ((OrderRecord.applyBrokerEvent (.filled id quantity price) record).1,
              r.orders.put id
                (OrderRecord.applyBrokerEvent (.filled id quantity price) record).2) :=
          OrderBook.onRecord_of_get hget
        have htrial := hfill record hget hfilled
        rw [hrecord] at hbook ⊢
        rw [applyBrokerEvent_of_open hget hfilled]
        dsimp only at hbook ⊢
        rw [hbook]
        cases hentry : (r.fillTrial record id quantity price).1 with
        | error e => rw [hentry] at htrial; cases htrial
        | ok entry => exact ⟨_, rfl, rfl, by simp [portfolioAfter, hget, hfilled, pushFill]⟩

end Runtime

namespace Host

/-- Since `h`, the event has come into the order book and the portfolio. -/
def Applied (event : BrokerEvent) (h h' : Host) : Prop :=
  (∀ id, h'.runtime.orders.get id =
      (OrderBook.applyBrokerEvent event h.runtime.orders).2.get id) ∧
    h'.runtime.portfolio = h.runtime.portfolioAfter event

/-- The arrival of an event can be stamped on the timing of its order: there is none, or the clock
does not read less than its send and the stamped timing is journaled. -/
def Stamps (env : Env) (h : Host) (event : BrokerEvent) : Prop :=
  ∀ timing ∈ h.runtime.timings[event.clientOrderId]?,
    timing.sendMonoNs.getD timing.decisionMonoNs ≤ env.clock h.clockReads ∧
      env.takes h.trace (.executionTiming (Runtime.stampTiming event (env.clock h.clockReads)
        (h.eventMarketReference event) timing))

/-- The event is journaled and its arrival stamped. -/
def Delivers (env : Env) (h : Host) (event : BrokerEvent) : Prop :=
  env.takes h.trace (.brokerEvent event) ∧ Stamps env (h.emit (.append (.brokerEvent event))) event

/-- The host with an event in the journal and the read model. -/
def withEvent (event : BrokerEvent) (h : Host) : Host :=
  (h.emit (.append (.brokerEvent event))).project ⟨h.journalCursor, .brokerEvent event⟩

variable {env : Env} {h : Host} {event : BrokerEvent}

/-- One stamp of the runtime. -/
theorem recordBrokerTiming_eq (event : BrokerEvent) (now : MonoTime) (market : Option ExecutionMarketReference)
    (r : Runtime) :
    Runtime.recordBrokerTiming event now market r =
      match r.timings[event.clientOrderId]? with
      | none => (.ok none, r)
      | some timing =>
        let stamped := Runtime.stampTiming event now market timing
        if timing.sendMonoNs.getD timing.decisionMonoNs ≤ now then
          (.ok (some stamped),
            { r with timings := r.timings.insert event.clientOrderId stamped })
        else (.error .invalidRequest, r) := by
  rw [Runtime.recordBrokerTiming, reads_bind]
  dsimp only [id]
  cases r.timings[event.clientOrderId]? with
  | none => rfl
  | some timing =>
    dsimp only
    rw [require_bind]
    rfl

/-- **The stamp**: when it succeeds. -/
theorem recordTiming_eq_ok_iff :
    (recordTiming env event h).1 = .ok () ↔ Stamps env h event := by
  have hclock : monotonicNow env h = (.ok (env.clock h.clockReads),
    { h with clockReads := h.clockReads + 1 }) := rfl
  have hstamp := recordBrokerTiming_eq event (env.clock h.clockReads)
    (h.eventMarketReference event) h.runtime
  unfold recordTiming Stamps
  rw [bind_of_ok hclock, reads_bind]
  cases htiming : h.runtime.timings[event.clientOrderId]? with
  | none =>
    rw [htiming] at hstamp
    have hrun : onRuntime (Runtime.recordBrokerTiming event (env.clock h.clockReads)
        (h.eventMarketReference event)) { h with clockReads := h.clockReads + 1 } =
        (.ok none, { h with clockReads := h.clockReads + 1 }) := by
      rw [onRuntime, zoom_apply, hstamp]
      rfl
    refine iff_of_true ?_ (fun timing ht => by cases ht)
    exact congrArg Prod.fst (bind_of_ok hrun)
  | some timing =>
    rw [htiming] at hstamp
    dsimp only at hstamp
    by_cases hlate : timing.sendMonoNs.getD timing.decisionMonoNs ≤ env.clock h.clockReads
    · -- the stamp is made; what is left is the append
      rw [if_pos hlate] at hstamp
      have hrun := congrArg (fun o => (o.1.mapError id,
        ({ h with runtime := o.2, clockReads := h.clockReads + 1 } : Host))) hstamp
      change onRuntime (Runtime.recordBrokerTiming event (env.clock h.clockReads)
        (h.eventMarketReference event)) { h with clockReads := h.clockReads + 1 } = _ at hrun
      have hrest := bind_of_ok (f := fun timing => match timing with
        | none => pure ()
        | some timing => appendEvent env (.executionTiming timing)) hrun
      refine Iff.trans (Eq.to_iff (congrArg (fun o => o.1 = .ok ()) hrest)) ?_
      constructor
      · intro happend t ht
        cases ht
        exact ⟨hlate, (appendEvent_eq_ok_iff.mp (Prod.ext happend rfl)).1⟩
      · intro hstamps
        let stamped := Runtime.stampTiming event (env.clock h.clockReads)
          (h.eventMarketReference event) timing
        let timings := h.runtime.timings.insert event.clientOrderId stamped
        let h' : Host :=
          { h with runtime := { h.runtime with timings := timings }, clockReads := h.clockReads + 1 }
        have happend : appendEvent env (.executionTiming stamped) h' =
            (.ok (), (h'.emit (.append (.executionTiming stamped))).project
              ⟨h'.journalCursor, .executionTiming stamped⟩) :=
          appendEvent_eq_ok_iff.mpr ⟨(hstamps timing rfl).2, rfl⟩
        exact congrArg Prod.fst happend
    · rw [if_neg hlate] at hstamp
      have hrun : onRuntime (Runtime.recordBrokerTiming event (env.clock h.clockReads)
          (h.eventMarketReference event)) { h with clockReads := h.clockReads + 1 } =
          (.error .invalidRequest, { h with clockReads := h.clockReads + 1 }) := by
        rw [onRuntime, zoom_apply, hstamp]
        rfl
      refine iff_of_false ?_ (fun hstamps => hlate (hstamps timing rfl).1)
      intro hok
      have herror := congrArg Prod.fst (bind_of_error (f := fun timing => match timing with
        | none => pure ()
        | some timing => appendEvent env (.executionTiming timing)) hrun)
      cases hok.symm.trans herror

/-- Bookkeeping keeps orders and portfolio. -/
theorem Bookkeeping.keeps {P : JournalRecord → Prop} {h h' : Host} (hb : Bookkeeping P h h') :
    h'.runtime.orders = h.runtime.orders ∧ h'.runtime.portfolio = h.runtime.portfolio :=
  ⟨hb.orders, hb.portfolio⟩

/-- What holds of the append and the stamp holds of an event that does not get past them. -/
theorem applyBrokerEvent_undelivered {R : Host → Host → Prop} [IsTrans Host R]
    (happend : Along R (appendEvent env (.brokerEvent event)))
    (hstamp : Along R (recordTiming env event)) (hdelivers : ¬Delivers env h event) :
    R h (applyBrokerEvent env event h).2 := by
  have hfirst := happend h
  unfold applyBrokerEvent
  rcases ha : appendEvent env (.brokerEvent event) h with ⟨_ | u, s⟩
  · rw [bind_of_error ha]
    rwa [ha] at hfirst
  · rw [bind_of_ok ha]
    rw [ha] at hfirst
    obtain ⟨htakes, rfl⟩ := appendEvent_eq_ok_iff.mp ha
    have hsecond := hstamp (h.withEvent event)
    rcases ht : recordTiming env event (h.withEvent event) with ⟨_ | u, s⟩
    · rw [← withEvent, bind_of_error ht]
      rw [ht] at hsecond
      exact IsTrans.trans _ _ _ hfirst hsecond
    · have hstamps : Stamps env (h.withEvent event) event :=
        recordTiming_eq_ok_iff.mp (congrArg Prod.fst ht)
      exact absurd ⟨htakes, hstamps⟩ hdelivers

/-- An event that does not get past the journal and the stamp changes no order and no position. -/
theorem applyBrokerEvent_of_not_delivers (hdelivers : ¬Delivers env h event) :
    (applyBrokerEvent env event h).2.runtime.orders = h.runtime.orders ∧
      (applyBrokerEvent env event h).2.runtime.portfolio = h.runtime.portfolio := by
  have hbooks : Bookkeeping (fun _ => True) h (applyBrokerEvent env event h).2 :=
    applyBrokerEvent_undelivered (appendEvent_bookkeeping trivial)
      (recordTiming_bookkeeping fun _ => trivial) hdelivers
  exact hbooks.keeps

/-- What follows an applied event: it is indexed, attributed, and told to its child. -/
def afterEvent (env : Env) (event : BrokerEvent) (priorFill : Int) :
    Fallible Host EngineError Unit := do
  indexFillNow env event
  let now ← monotonicNow env
  indexPortfolio now
  recordAttribution env event priorFill
  recordChildEvent env event

theorem afterEvent_bookkeeping (env : Env) (event : BrokerEvent) (priorFill : Int) :
    Along (Bookkeeping fun _ => True) (afterEvent env event priorFill) :=
  Along.bind indexFillNow_bookkeeping fun _ => Along.bind monotonicNow_bookkeeping fun _ =>
    Along.bind indexPortfolio_bookkeeping fun _ =>
    (recordAttribution_bookkeeping fun _ => trivial).bind fun _ =>
    recordChildEvent_bookkeeping fun _ => trivial

/-- A host whose runtime has met an event. -/
def met (event : BrokerEvent) (s : Host) : Host :=
  { s with runtime := (Runtime.applyBrokerEvent event s.runtime).2 }

/-- **A delivered event** reaches the runtime, and is followed up when the runtime applies it. -/
theorem applyBrokerEvent_delivered (hdelivers : Delivers env h event) :
    ∃ s, recordTiming env event (h.withEvent event) = (.ok (), s) ∧
      (applyBrokerEvent env event h).2 =
        if (Runtime.applyBrokerEvent event s.runtime).1 = .ok () then
          (afterEvent env event (s.runtime.filledQuantity event.clientOrderId) (s.met event)).2
        else s.met event := by
  obtain ⟨htakes, hstamps⟩ := hdelivers
  have ha : appendEvent env (.brokerEvent event) h = (.ok (), h.withEvent event) :=
    appendEvent_eq_ok_iff.mpr ⟨htakes, rfl⟩
  rcases ht : recordTiming env event (h.withEvent event) with ⟨o, s⟩
  have ho : o = .ok () := by
    have hok := (recordTiming_eq_ok_iff (h := h.withEvent event)).mpr hstamps
    rwa [ht] at hok
  subst ho
  refine ⟨s, rfl, ?_⟩
  unfold applyBrokerEvent
  rw [bind_of_ok ha, bind_of_ok ht, reads_bind, id_eq]
  have hmet : onRuntime (Runtime.applyBrokerEvent event) s =
      ((Runtime.applyBrokerEvent event s.runtime).1, s.met event) := by
    rw [onRuntime, zoom_apply]
    cases (Runtime.applyBrokerEvent event s.runtime).1 <;> rfl
  split
  · next hok =>
    rw [hok] at hmet
    exact congrArg Prod.snd (bind_of_ok hmet)
  · next hrefused =>
    cases hresult : (Runtime.applyBrokerEvent event s.runtime).1 with
    | ok _ => exact absurd hresult hrefused
    | error e =>
      rw [hresult] at hmet
      exact congrArg Prod.snd (bind_of_error hmet)

/-- **An event that gets past the stamp** and that the order book and accounting accept is
applied, whatever becomes of the bookkeeping after it. -/
theorem applyBrokerEvent_of_delivers (hadmits : h.runtime.Admits event)
    (hdelivers : Delivers env h event) : Applied event h (applyBrokerEvent env event h).2 := by
  have hstamp : Bookkeeping (fun _ => True) (h.withEvent event)
      (recordTiming env event (h.withEvent event)).2 :=
    recordTiming_bookkeeping (fun _ => trivial) _
  obtain ⟨s, ht, hafter⟩ := applyBrokerEvent_delivered hdelivers
  rw [ht] at hstamp
  have horders : s.runtime.orders = h.runtime.orders := hstamp.orders
  have hportfolio : s.runtime.portfolio = h.runtime.portfolio := hstamp.portfolio
  have hadmits' : s.runtime.Admits event := by
    unfold Runtime.Admits Runtime.fillTrial at hadmits ⊢
    rwa [horders, hportfolio]
  obtain ⟨r', hrun, horders', hportfolio'⟩ := hadmits'.applyBrokerEvent
  have hmet : s.met event = { s with runtime := r' } := by rw [met, hrun]
  rw [hafter, if_pos (congrArg Prod.fst hrun), hmet]
  -- what follows is bookkeeping
  have hkeep := (afterEvent_bookkeeping env event (s.runtime.filledQuantity event.clientOrderId)
    { s with runtime := r' }).keeps
  refine ⟨fun id => ?_, ?_⟩
  · rw [hkeep.1]
    show r'.orders.get id = _
    rw [horders', horders]
  · rw [hkeep.2]
    show r'.portfolio = _
    rw [hportfolio']
    unfold Runtime.portfolioAfter Runtime.fillTrial
    rw [horders, hportfolio]

/-- **Delivery**: an event that the order book and accounting accept is applied exactly when it is
journaled and its arrival can be stamped, or when it repeats what the host shows already. -/
theorem applyBrokerEvent_applied_iff (hadmits : h.runtime.Admits event) :
    Applied event h (applyBrokerEvent env event h).2 ↔
      Delivers env h event ∨ Applied event h h := by
  by_cases hdelivers : Delivers env h event
  · exact iff_of_true (applyBrokerEvent_of_delivers hadmits hdelivers) (.inl hdelivers)
  · obtain ⟨horders, hportfolio⟩ := applyBrokerEvent_of_not_delivers hdelivers
    unfold Applied
    rw [horders, hportfolio]
    simp [hdelivers]

end Host

namespace Sample

/-- The reconciled host with a purchase of 10 at the broker. -/
def purchased : Host := (submit 5 10).after (env empty) running

/-- The environment of a new process: the clock starts again. -/
def rebooted (snapshot : BrokerSnapshot) : Env := { env snapshot with clock := id }

/-- The broker acknowledges the purchase. -/
def acknowledgement : BrokerEvent := .acknowledged (orderId 5) "b-1"

end Sample

/-- In the process that sent the order the acknowledgement is applied. -/
theorem event_applied_live :
    Host.Applied Sample.acknowledgement Sample.purchased
      (Host.applyBrokerEvent (Sample.env Sample.empty) Sample.acknowledgement Sample.purchased).2 := by
  have hrun : (OrderBook.applyBrokerEvent Sample.acknowledgement
        Sample.purchased.runtime.orders).1 = .ok () ∧
      ∀ timing ∈ Sample.purchased.runtime.timings[Sample.acknowledgement.clientOrderId]?,
        timing.sendMonoNs.getD timing.decisionMonoNs ≤
          (Sample.env Sample.empty).clock Sample.purchased.clockReads := by
    decide +kernel
  have hadmits : Sample.purchased.runtime.Admits Sample.acknowledgement := ⟨hrun.1, trivial⟩
  exact (Host.applyBrokerEvent_applied_iff hadmits).mpr
    (.inl ⟨rfl, fun timing ht => ⟨hrun.2 timing ht, rfl⟩⟩)

/-- **Dropped after a restart**: the new process reads 0 on its clock, the order was sent at more
than 1000 on the old one. The order book would accept the acknowledgement. -/
theorem event_dropped_after_restart :
    ¬∀ event : BrokerEvent, (Sample.reopen Sample.purchased).runtime.Admits event →
      Host.Applied event (Sample.reopen Sample.purchased)
        (Host.applyBrokerEvent (Sample.rebooted Sample.empty) event
          (Sample.reopen Sample.purchased)).2 := by
  intro happlied
  have hrun : (OrderBook.applyBrokerEvent Sample.acknowledgement
        (Sample.reopen Sample.purchased).runtime.orders).1 = .ok () ∧
      (Host.applyBrokerEvent (Sample.rebooted Sample.empty) Sample.acknowledgement
          (Sample.reopen Sample.purchased)).2.runtime.orders.get (Sample.orderId 5) ≠
        (OrderBook.applyBrokerEvent Sample.acknowledgement
          (Sample.reopen Sample.purchased).runtime.orders).2.get (Sample.orderId 5) := by
    decide +kernel
  have hevent := happlied Sample.acknowledgement ⟨hrun.1, trivial⟩
  exact hrun.2 (hevent.1 (Sample.orderId 5))

end InsiderTrader
