import InsiderTrader.OperationMoves

/-!
# What the read model takes

Operations journal through one path, which hands each record on to the read
model. The steps of the host move the read model along with the trace: of the
new records it takes those that it does not refuse.

## Main definitions

- `projectedFrom` — the records the read model takes of the effects after a trace
- `RefusedIn` — one of them is refused
- `Host.Follows` — the read model took what it was handed

## Main results

- `projectedFrom_of_taken`, `projectedFrom_length` — all that was journaled, or less
- `Host.appendEvent_follows` — the shared path
-/

namespace InsiderTrader

open Fallible

-- What the read model takes

@[simp] theorem journalOf_append (t u : List Effect) :
    journalOf (t ++ u) = journalOf t ++ journalOf u := by
  simp [journalOf]

@[simp] theorem journalOf_record (record : JournalRecord) :
    journalOf [.append record] = [record] := rfl

@[simp] theorem journalOf_call (c : BrokerCall) : journalOf [.call c] = [] := rfl

/-- The journal of a trace of appends. -/
theorem journalOf_journal (journal : List JournalRecord) :
    journalOf (journal.map .append) = journal := by
  induction journal with
  | nil => rfl
  | cons record rest ih =>
    change record :: journalOf (rest.map .append) = _
    rw [ih]

/-- The records the read model takes of the effects after a trace. -/
def projectedFrom (env : Env) : List Effect → List Effect → List ProjectionRecord
  | _, [] => []
  | t, .append record :: rest =>
    (if env.readModel (t ++ [.append record]) record then
      [⟨(journalOf t).length, record⟩] else []) ++ projectedFrom env (t ++ [.append record]) rest
  | t, .call c :: rest => projectedFrom env (t ++ [.call c]) rest

theorem projectedFrom_append (env : Env) (t u v : List Effect) :
    projectedFrom env t (u ++ v) = projectedFrom env t u ++ projectedFrom env (t ++ u) v := by
  induction u generalizing t with
  | nil => simp [projectedFrom]
  | cons effect rest ih => cases effect <;> simp [projectedFrom, ih]

/-- Calls hand nothing to the read model. -/
theorem projectedFrom_calls (env : Env) (t : List Effect) (calls : List BrokerCall) :
    projectedFrom env t (calls.map .call) = [] := by
  induction calls generalizing t with
  | nil => rfl
  | cons c rest ih => exact ih _

/-- A record handed to the read model after a trace, up to another one, is refused. -/
def RefusedIn (env : Env) (t u : List Effect) : Prop :=
  ∃ front record, t <+: front ∧ front ++ [.append record] <+: u ∧
    ¬env.readModel (front ++ [.append record]) record

/-- A refusal in a longer trace is the first step's or a later one. -/
theorem refusedIn_cons {env : Env} {t rest : List Effect} {effect : Effect} :
    RefusedIn env t (t ++ effect :: rest) ↔
      (∃ record, effect = .append record ∧ ¬env.readModel (t ++ [.append record]) record) ∨
        RefusedIn env (t ++ [effect]) ((t ++ [effect]) ++ rest) := by
  constructor
  · rintro ⟨front, record, ⟨between, rfl⟩, hprefix, hrefused⟩
    rw [List.append_assoc, List.prefix_append_right_inj] at hprefix
    cases between with
    | nil =>
      obtain ⟨hhead, -⟩ := List.cons_prefix_cons.mp hprefix
      rw [List.append_nil] at hrefused
      exact .inl ⟨record, hhead.symm, hrefused⟩
    | cons effect' between =>
      obtain ⟨rfl, htail⟩ := List.cons_prefix_cons.mp hprefix
      refine .inr ⟨(t ++ [effect']) ++ between, record, List.prefix_append _ _, ?_, ?_⟩
      · rw [List.append_assoc, List.prefix_append_right_inj]
        exact htail
      · simpa using hrefused
  · rintro (⟨record, rfl, hrefused⟩ | ⟨front, record, hfront, hprefix, hrefused⟩)
    · exact ⟨t, record, List.prefix_rfl, by simp, hrefused⟩
    · refine ⟨front, record, (List.prefix_append _ _).trans hfront, ?_, hrefused⟩
      rwa [List.append_assoc] at hprefix

/-- **What is taken is what was journaled**, unless something is refused. -/
theorem projectedFrom_of_taken {env : Env} {t fresh : List Effect}
    (htaken : ¬RefusedIn env t (t ++ fresh)) :
    (ProjectionStore.rebuild (journalOf t)).records ++ projectedFrom env t fresh =
      (ProjectionStore.rebuild (journalOf (t ++ fresh))).records := by
  induction fresh generalizing t with
  | nil => simp [projectedFrom]
  | cons effect rest ih =>
    rw [refusedIn_cons, not_or] at htaken
    obtain ⟨hfirst, hrest⟩ := htaken
    have hlater := ih hrest
    rw [List.append_assoc, List.singleton_append] at hlater
    rw [← hlater]
    cases effect with
    | call c => rw [journalOf_append, journalOf_call, List.append_nil]; rfl
    | append record =>
      have htake : env.readModel (t ++ [.append record]) record = true :=
        not_not.mp fun hrefused => hfirst ⟨record, rfl, hrefused⟩
      rw [projectedFrom, if_pos htake, journalOf_append, journalOf_record,
        ProjectionStore.rebuild_append, ProjectionStore.push, List.append_assoc]

/-- No more is taken than was journaled, and less when something is refused. -/
theorem projectedFrom_length {env : Env} {t fresh : List Effect} :
    (projectedFrom env t fresh).length ≤ (journalOf fresh).length ∧
      (RefusedIn env t (t ++ fresh) →
        (projectedFrom env t fresh).length < (journalOf fresh).length) := by
  induction fresh generalizing t with
  | nil =>
    refine ⟨Nat.le_refl _, ?_⟩
    rintro ⟨front, record, ⟨between, rfl⟩, hprefix, -⟩
    have hlength := hprefix.length_le
    simp only [List.length_append, List.length_singleton, List.length_nil] at hlength
    omega
  | cons effect rest ih =>
    obtain ⟨hle, hlt⟩ := ih (t := t ++ [effect])
    rw [refusedIn_cons]
    cases effect with
    | call c =>
      refine ⟨hle, ?_⟩
      rintro (⟨record, hrecord, -⟩ | hlater)
      · cases hrecord
      · exact hlt hlater
    | append record =>
      have hjournal : (journalOf (.append record :: rest)).length = (journalOf rest).length + 1 :=
        rfl
      rw [projectedFrom, List.length_append, hjournal]
      split
      · next htake =>
        refine ⟨by rw [List.length_singleton]; omega, ?_⟩
        rintro (⟨record', hrecord, hrefused⟩ | hlater)
        · cases hrecord
          exact absurd htake hrefused
        · have := hlt hlater
          rw [List.length_singleton]
          omega
      · refine ⟨by rw [List.length_nil]; omega, fun _ => ?_⟩
        rw [List.length_nil]
        omega

-- The runtime

namespace Runtime

/-- Only broker calls leave the process. -/
def Calling (r r' : Runtime) : Prop :=
  ∃ calls : List BrokerCall, r'.trace = r.trace ++ calls.map .call

instance : Std.Refl Calling := ⟨fun _ => ⟨[], by simp⟩⟩

instance : IsTrans Runtime Calling where
  trans r _ _ h h' := by
    obtain ⟨calls, hcalls⟩ := h
    obtain ⟨calls', hcalls'⟩ := h'
    exact ⟨calls ++ calls', by rw [hcalls', hcalls, List.map_append, List.append_assoc]⟩

theorem calling_of_silent {α : Type} {p : Fallible Runtime EngineError α}
    (hp : Along Silent p) : Along Calling p :=
  hp.mono fun _ _ hs => ⟨[], by simpa using hs.trace⟩

theorem callBroker_calling {α : Type} {c : BrokerCall}
    {answer : List BrokerCall → Except String α} : Along Calling (callBroker c answer) :=
  (Along.reads _).bind fun _ => Along.bind (Along.modify fun _ => ⟨[c], rfl⟩) fun _ => Along.ret _

theorem submitIntent_calling {env : Env} {intent : OrderIntent} :
    Along Calling (submitIntent env intent) := by
  intro r
  rcases submitIntent_cases env intent r with hsame | ⟨-, -, book, hrun, -⟩
  · rw [hsame]; exact Std.Refl.refl _
  · rw [hrun]; exact ⟨[.send intent], rfl⟩

theorem cancelOrder_calling {env : Env} {clientOrderId : String} :
    Along Calling (cancelOrder env clientOrderId) := by
  have hbook (next : OrderState) : Along Calling (onOrders (fun e => EngineError.cancel (.transition e))
      (OrderBook.transition clientOrderId next)) :=
    calling_of_silent (onOrders_silent (OrderBook.onRecord_keeps _ _ _))
  refine (Along.require _ _).bind fun _ => (hbook _).bind fun _ => Along.bind callBroker_calling
    fun answer => ?_
  cases answer with
  | error message => exact (hbook _).bind fun _ => Along.fail _
  | ok _ => exact Along.ret _

theorem replaceOrder_calling {env : Env} {clientOrderId : String} {quantity : Int}
    {limit : Option Int} : Along Calling (replaceOrder env clientOrderId quantity limit) := by
  refine (Along.require _ _).bind fun _ =>
    (calling_of_silent (onOrders_silent (OrderBook.onRecord_keeps _ _ _))).bind fun _ =>
    Along.bind callBroker_calling fun answer => ?_
  cases answer with
  | error message =>
    exact (calling_of_silent (onOrders_silent (OrderBook.onRecord_keeps _ _ _))).bind
      fun _ => Along.fail _
  | ok _ => exact Along.ret _

end Runtime

-- The steps of the host

namespace Host

/-- The read model took what it was handed of the new effects. -/
def Follows (env : Env) (h h' : Host) : Prop :=
  ∃ fresh, h'.trace = h.trace ++ fresh ∧
    h'.readModel.records = h.readModel.records ++ projectedFrom env h.trace fresh

instance {env : Env} : Std.Refl (Follows env) := ⟨fun _ => ⟨[], by simp [projectedFrom]⟩⟩

instance {env : Env} : IsTrans Host (Follows env) where
  trans _ _ _ hf hf' := by
    obtain ⟨fresh, htrace, hrecords⟩ := hf
    obtain ⟨fresh', htrace', hrecords'⟩ := hf'
    refine ⟨fresh ++ fresh', by rw [htrace', htrace, List.append_assoc], ?_⟩
    rw [hrecords', hrecords, htrace, projectedFrom_append, List.append_assoc]

variable {env : Env}

/-- A change that neither writes nor calls. -/
theorem follows_of_eq {h h' : Host} (htrace : h'.trace = h.trace)
    (hmodel : h'.readModel = h.readModel) : Follows env h h' :=
  ⟨[], by simpa using htrace, by simp [projectedFrom, hmodel]⟩

theorem onRuntime_follows {α : Type} {p : Fallible Runtime EngineError α}
    (hp : Along Runtime.Calling p) : Along (Follows env) (onRuntime p) :=
  hp.zoom fun h r hr => by
    obtain ⟨calls, hcalls⟩ := hr
    exact ⟨calls.map .call, hcalls, by simp [projectedFrom_calls]⟩

theorem onSilent_follows {α : Type} {p : Fallible Runtime EngineError α}
    (hp : Along Runtime.Silent p) : Along (Follows env) (onRuntime p) :=
  onRuntime_follows (Runtime.calling_of_silent hp)

/-- **The shared path**: the read model is handed what the journal took. -/
theorem appendEvent_follows {record : JournalRecord} :
    Along (Follows env) (appendEvent env record) := by
  intro h
  rw [appendEvent_apply]
  cases env.journal h.trace record with
  | some e => exact Std.Refl.refl _
  | none =>
    by_cases htake : env.readModel (h.trace ++ [.append record]) record = true
    · simp only [htake, ↓reduceIte]
      exact ⟨[.append record], rfl, by simp [projectedFrom, htake, project, emit,
        ProjectionStore.push, journalCursor]⟩
    · simp only [htake, Bool.false_eq_true, ↓reduceIte]
      exact ⟨[.append record], rfl, by simp [projectedFrom, htake, emit]⟩

theorem monotonicNow_follows : Along (Follows env) (monotonicNow env) :=
  (Along.reads _).bind fun _ => Along.bind (Along.modify fun _ => follows_of_eq rfl rfl) fun _ =>
    Along.ret _

theorem requireRunning_follows : Along (Follows env) requireRunning :=
  (Along.reads _).bind fun _ => Along.require _ _

theorem indexPortfolio_follows {known : ℕ} : Along (Follows env) (indexPortfolio known) :=
  (Along.reads _).bind fun _ _ => follows_of_eq rfl rfl

theorem indexFillNow_follows {event : BrokerEvent} :
    Along (Follows env) (indexFillNow env event) := by
  cases event with
  | filled => exact Along.bind monotonicNow_follows fun _ => Along.require _ _
  | acknowledged => exact Along.ret _
  | rejected => exact Along.ret _
  | cancelled => exact Along.ret _

theorem recordTiming_follows {event : BrokerEvent} :
    Along (Follows env) (recordTiming env event) := by
  refine Along.bind monotonicNow_follows fun _ => (Along.reads _).bind fun _ =>
    (onSilent_follows Runtime.recordBrokerTiming_silent).bind fun timing => ?_
  cases timing with
  | none => exact Along.ret _
  | some timing => exact appendEvent_follows

theorem recordChildEvent_follows {event : BrokerEvent} :
    Along (Follows env) (recordChildEvent env event) := by
  refine (onSilent_follows Runtime.onChildPlan_silent).bind fun record => ?_
  cases record with
  | none => exact Along.ret _
  | some record => exact appendEvent_follows

theorem recordAttribution_follows {event : BrokerEvent} {priorFill : Int} :
    Along (Follows env) (recordAttribution env event priorFill) := by
  have hattribute : Along (Follows env) (attributeStrategyFill event) := by
    refine (Along.reads _).bind fun h => ?_
    cases event with
    | filled clientOrderId quantity price =>
      dsimp only
      split
      · exact Along.ret _
      · exact (Along.orFail _ _).bind fun _ =>
          Along.bind (fun _ => follows_of_eq rfl rfl) fun _ => Along.ret _
    | acknowledged => exact Along.ret _
    | rejected => exact Along.ret _
    | cancelled => exact Along.ret _
  refine (Along.reads _).bind fun h => Along.ite (fun _ => ?_) fun _ => Along.ret _
  refine hattribute.bind fun summary => ?_
  cases summary with
  | none => exact Along.ret _
  | some summary => exact appendEvent_follows

theorem onMarketData_follows {α : Type} {p : Fallible MarketDataHub HubError α} :
    Along (Follows env) (onMarketData p) :=
  fun _ => follows_of_eq rfl rfl

end Host

end InsiderTrader
