import InsiderTrader.Operation

/-!
# Bookkeeping

Most steps of an operation only write down what happened: timings, child plans,
context facts, fill attributions, and their journal records. Orders, positions
and everything that decides on orders stay as they are.

## Main definitions

- `Host.Bookkeeping` — a change of nothing but the books

## Main results

- `recordTiming_bookkeeping`, `recordChildEvent_bookkeeping`,
  `recordAttribution_bookkeeping` — what follows a broker event is bookkeeping
-/

namespace InsiderTrader

open Fallible

/-- The part of a runtime that decides on orders and positions stays as it is. -/
structure Runtime.Bookkeeping (r r' : Runtime) : Prop where
  accountId : r'.accountId = r.accountId
  portfolio : r'.portfolio = r.portfolio
  risk : r'.risk = r.risk
  scopedRiskPolicy : r'.scopedRiskPolicy = r.scopedRiskPolicy
  orders : r'.orders = r.orders
  liveGuard : r'.liveGuard = r.liveGuard
  trace : r'.trace = r.trace

instance : Std.Refl Runtime.Bookkeeping := ⟨fun _ => ⟨rfl, rfl, rfl, rfl, rfl, rfl, rfl⟩⟩

instance : IsTrans Runtime Runtime.Bookkeeping :=
  ⟨fun _ _ _ h h' => ⟨h'.accountId.trans h.accountId, h'.portfolio.trans h.portfolio,
    h'.risk.trans h.risk, h'.scopedRiskPolicy.trans h.scopedRiskPolicy,
    h'.orders.trans h.orders, h'.liveGuard.trans h.liveGuard, h'.trace.trans h.trace⟩⟩

namespace Host

/-- What an append does: nothing when the journal refuses the record, and without the read model
when that does. -/
theorem appendEvent_apply (env : Env) (record : JournalRecord) (h : Host) :
    appendEvent env record h =
      match env.journal h.trace record with
      | some error => (.error (.journal error), h)
      | none =>
        if env.readModel (h.trace ++ [.append record]) record then
          (.ok (), (h.emit (.append record)).project ⟨h.journalCursor, record⟩)
        else (.error .readModel, h.emit (.append record)) := by
  rw [appendEvent, reads_bind, appendJournal, bind_apply, reads_bind, id]
  cases env.journal h.trace record with
  | some e => rfl
  | none =>
    change (require (env.readModel (h.trace ++ [.append record]) record = true)
      EngineError.readModel >>= fun _ => Fallible.modify (project ⟨h.journalCursor, record⟩))
        (h.emit (.append record)) = _
    rw [require_bind]
    rfl

/-- An append succeeds when the journal and the read model take the record, and adds it to
both. -/
theorem appendEvent_eq_ok_iff {env : Env} {record : JournalRecord} {h s : Host} {u : Unit} :
    appendEvent env record h = (.ok u, s) ↔ env.takes h.trace record ∧
      s = (h.emit (.append record)).project ⟨h.journalCursor, record⟩ := by
  rw [appendEvent_apply, Env.takes]
  cases env.journal h.trace record with
  | some e => simp
  | none =>
    by_cases hr : env.readModel (h.trace ++ [.append record]) record = true
    · simp [hr, eq_comm]
    · simp [hr]

theorem appendEvent_eq_ok {env : Env} {record : JournalRecord} {h s : Host} {u : Unit}
    (ha : appendEvent env record h = (.ok u, s)) :
    s = (h.emit (.append record)).project ⟨h.journalCursor, record⟩ :=
  (appendEvent_eq_ok_iff.mp ha).2

/-- Only the books change, and only records of a kind are journaled. -/
structure Bookkeeping (P : JournalRecord → Prop) (h h' : Host) : Prop where
  accountId : h'.runtime.accountId = h.runtime.accountId
  portfolio : h'.runtime.portfolio = h.runtime.portfolio
  risk : h'.runtime.risk = h.runtime.risk
  scopedRiskPolicy : h'.runtime.scopedRiskPolicy = h.runtime.scopedRiskPolicy
  orders : h'.runtime.orders = h.runtime.orders
  liveGuard : h'.runtime.liveGuard = h.runtime.liveGuard
  lifecycle : h'.lifecycle = h.lifecycle
  autonomyPlans : h'.autonomyPlans = h.autonomyPlans
  marketData : h'.marketData = h.marketData
  strategyCoordinator : h'.strategyCoordinator = h.strategyCoordinator
  autonomyMode : h'.autonomyMode = h.autonomyMode
  trace : ∃ records : List JournalRecord, (∀ r ∈ records, P r) ∧
    h'.trace = h.trace ++ records.map .append

variable {P : JournalRecord → Prop} {env : Env}

instance : Std.Refl (Bookkeeping P) :=
  ⟨fun _ => ⟨rfl, rfl, rfl, rfl, rfl, rfl, rfl, rfl, rfl, rfl, rfl, [], by simp⟩⟩

instance : IsTrans Host (Bookkeeping P) where
  trans _ _ _ h h' := by
    obtain ⟨l, hl, ht⟩ := h.trace
    obtain ⟨l', hl', ht'⟩ := h'.trace
    refine ⟨h'.accountId.trans h.accountId, h'.portfolio.trans h.portfolio, h'.risk.trans h.risk,
      h'.scopedRiskPolicy.trans h.scopedRiskPolicy, h'.orders.trans h.orders,
      h'.liveGuard.trans h.liveGuard, h'.lifecycle.trans h.lifecycle,
      h'.autonomyPlans.trans h.autonomyPlans, h'.marketData.trans h.marketData,
      h'.strategyCoordinator.trans h.strategyCoordinator, h'.autonomyMode.trans h.autonomyMode,
      l ++ l', ?_, ?_⟩
    · intro r hr
      exact (List.mem_append.mp hr).elim (hl r) (hl' r)
    · rw [ht', ht, List.map_append, List.append_assoc]

/-- Changes of the clock, the context graph and the attributions are bookkeeping. -/
theorem bookkeeping_of_eq {h h' : Host} (hr : h'.runtime = h.runtime)
    (hl : h'.lifecycle = h.lifecycle) (hp : h'.autonomyPlans = h.autonomyPlans)
    (hm : h'.marketData = h.marketData) (hs : h'.strategyCoordinator = h.strategyCoordinator)
    (ha : h'.autonomyMode = h.autonomyMode) : Bookkeeping P h h' := by
  refine ⟨?_, ?_, ?_, ?_, ?_, ?_, hl, hp, hm, hs, ha, [], by simp, ?_⟩ <;> simp [hr, Host.trace]

theorem onRuntime_bookkeeping {α : Type} {p : Fallible Runtime EngineError α}
    (hp : Along Runtime.Bookkeeping p) : Along (Bookkeeping P) (onRuntime p) :=
  hp.zoom fun _ _ hr => ⟨hr.accountId, hr.portfolio, hr.risk, hr.scopedRiskPolicy, hr.orders,
    hr.liveGuard, rfl, rfl, rfl, rfl, rfl, [], by simp, by simpa using hr.trace⟩

/-- What a computation keeps of the runtime, it keeps of the host. -/
theorem onRuntime_same {α β : Type} {f : Runtime → β} {p : Fallible Runtime EngineError α}
    (hp : Along (Same f) p) : Along (Same fun h : Host => f h.runtime) (onRuntime p) :=
  hp.zoom fun _ _ hr => hr

theorem monotonicNow_bookkeeping : Along (Bookkeeping P) (monotonicNow env) :=
  (Along.reads _).bind fun _ =>
    Along.bind (Along.modify fun _ => bookkeeping_of_eq rfl rfl rfl rfl rfl rfl) fun _ =>
    Along.ret _

theorem appendJournal_bookkeeping {record : JournalRecord} (hp : P record) :
    Along (Bookkeeping P) (appendJournal env record) := by
  refine (Along.reads _).bind fun h => ?_
  split
  · exact Along.fail _
  · exact Along.modify fun h => ⟨rfl, rfl, rfl, rfl, rfl, rfl, rfl, rfl, rfl, rfl, rfl,
      [record], by simpa using hp, rfl⟩

theorem appendEvent_bookkeeping {record : JournalRecord} (hp : P record) :
    Along (Bookkeeping P) (appendEvent env record) :=
  (Along.reads _).bind fun _ => (appendJournal_bookkeeping hp).bind fun _ =>
    (Along.reads _).bind fun _ => (Along.require _ _).bind fun _ =>
    Along.modify fun _ => bookkeeping_of_eq rfl rfl rfl rfl rfl rfl

theorem indexPortfolio_bookkeeping {known : ℕ} : Along (Bookkeeping P) (indexPortfolio known) :=
  (Along.reads _).bind fun _ _ => bookkeeping_of_eq rfl rfl rfl rfl rfl rfl

theorem indexFill_bookkeeping {event : BrokerEvent} :
    Along (Bookkeeping P) (indexFill event) := by
  cases event with
  | filled => exact Along.require _ _
  | acknowledged => exact Along.ret _
  | rejected => exact Along.ret _
  | cancelled => exact Along.ret _

theorem indexFillNow_bookkeeping {event : BrokerEvent} :
    Along (Bookkeeping P) (indexFillNow env event) := by
  cases event with
  | filled => exact Along.bind monotonicNow_bookkeeping fun _ => indexFill_bookkeeping
  | acknowledged => exact Along.ret _
  | rejected => exact Along.ret _
  | cancelled => exact Along.ret _

theorem recordTiming_bookkeeping {event : BrokerEvent} (hp : ∀ t, P (.executionTiming t)) :
    Along (Bookkeeping P) (recordTiming env event) := by
  have htiming (now : MonoTime) (market : Option ExecutionMarketReference) :
      Along Runtime.Bookkeeping (Runtime.recordBrokerTiming event now market) := by
    refine (Along.reads _).bind fun r => ?_
    split
    · exact Along.ret _
    · exact (Along.require _ _).bind fun _ =>
        Along.bind (Along.modify fun _ => ⟨rfl, rfl, rfl, rfl, rfl, rfl, rfl⟩) fun _ => Along.ret _
  refine Along.bind monotonicNow_bookkeeping fun _ => (Along.reads _).bind fun _ =>
    (onRuntime_bookkeeping (htiming _ _)).bind fun timing => ?_
  cases timing with
  | none => exact Along.ret _
  | some timing => exact appendEvent_bookkeeping (hp timing)

theorem onChildPlan_bookkeeping {id : String} {p : Fallible ChildPlan PlanError Unit} :
    Along Runtime.Bookkeeping (Runtime.onChildPlan id p) := by
  refine (Along.reads _).bind fun r => ?_
  split
  · exact Along.ret _
  · exact Along.bind (Along.modify fun _ => ⟨rfl, rfl, rfl, rfl, rfl, rfl, rfl⟩) fun _ =>
      (Along.ofExcept _).bind fun _ => Along.ret _

theorem recordChildEvent_bookkeeping {event : BrokerEvent}
    (hp : ∀ record, P (encodeChildPlan record)) :
    Along (Bookkeeping P) (recordChildEvent env event) := by
  refine (onRuntime_bookkeeping onChildPlan_bookkeeping).bind fun record => ?_
  cases record with
  | none => exact Along.ret _
  | some record => exact appendEvent_bookkeeping (hp record)

theorem recordAttribution_bookkeeping {event : BrokerEvent} {priorFill : Int}
    (hp : ∀ summary, P (.strategyExecution summary)) :
    Along (Bookkeeping P) (recordAttribution env event priorFill) := by
  refine (Along.reads _).bind fun h => Along.ite (fun _ => ?_) fun _ => Along.ret _
  refine Along.bind ?_ fun summary => ?_
  · refine (Along.reads _).bind fun h => ?_
    cases event with
    | filled id quantity price =>
      dsimp only
      split
      · exact Along.ret _
      · exact (Along.orFail _ _).bind fun _ =>
          Along.bind (fun _ => bookkeeping_of_eq rfl rfl rfl rfl rfl rfl) fun _ => Along.ret _
    | acknowledged => exact Along.ret _
    | rejected => exact Along.ret _
    | cancelled => exact Along.ret _
  · cases summary with
    | none => exact Along.ret _
    | some summary => exact appendEvent_bookkeeping (hp summary)

end Host

end InsiderTrader
