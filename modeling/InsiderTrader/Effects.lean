import InsiderTrader.Bookkeeping
import InsiderTrader.Moves

/-!
# What each operation does to the outside

Every function of the runtime is silent but for the broker requests, and every
operation of the host is a sequence of moves.

## Main results

- `Op.quiet` — operations that neither send nor change the lifecycle
- `submitIntentWithTiming_moves` — the only way a send leaves the host
-/

namespace InsiderTrader

open Fallible

-- The runtime

namespace Runtime

theorem onOrders_silent {ε α : Type} {wrap : ε → EngineError} {p : Fallible OrderBook ε α}
    (hp : Along OrderBook.Keeps p) : Along Silent (onOrders wrap p) :=
  hp.zoom fun _ _ hk => ⟨rfl, hk⟩

theorem messageRate_silent {now : MonoTime} : Along Silent (messageRate now) :=
  Along.bind (Along.modify fun _ => ⟨rfl, fun _ h => h⟩) fun _ => Along.reads _

theorem contextualRiskInputs_silent {env : Env} {p : Portfolio} {risk : RiskEngine}
    {target : Target} {now : MonoTime} {deviation : Option Int} :
    Along Silent (contextualRiskInputs env p risk target now deviation) := by
  unfold contextualRiskInputs
  dsimp only
  split
  · exact Along.ret _
  · exact (Along.ofExcept _).bind fun _ => (Along.ofExcept _).bind fun _ =>
      (Along.reads _).bind fun _ => (Along.require _ _).bind fun _ =>
      (Along.require _ _).bind fun _ => Along.bind messageRate_silent fun _ => Along.ret _

theorem planTarget_silent {env : Env} {strategyId : Option String} {target : Target}
    {now : MonoTime} {traceId : TraceId} {deviation : Option Int} :
    Along Silent (planTarget env strategyId target now traceId deviation) :=
  (Along.reads _).bind fun _ => Along.bind contextualRiskInputs_silent fun _ => Along.ofExcept _

theorem prepareProposal_silent {env : Env} {proposal : Proposal} {now : MonoTime}
    {traceId : TraceId} : Along Silent (prepareProposal env proposal now traceId) :=
  (Along.ofExcept _).bind fun _ => (Along.reads _).bind fun _ => (Along.ofExcept _).bind fun _ =>
    planTarget_silent

theorem prepareManualTargetWithOrder_silent {env : Env} {instrumentId : InstrumentId}
    {quantity : Int} {proposalId : ProposalId} {now : MonoTime} {traceId : TraceId}
    {orderType : OrderType} {limit : Option Int} :
    Along Silent (prepareManualTargetWithOrder env instrumentId quantity proposalId now traceId
      orderType limit) :=
  (Along.require _ _).bind fun _ => (Along.reads _).bind fun _ =>
    Along.bind planTarget_silent fun _ => Along.ret _

theorem recordDecision_silent {intent : OrderIntent} {now : MonoTime}
    {market : Option ExecutionMarketReference} :
    Along Silent (recordDecision intent now market) :=
  (Along.reads _).bind fun _ => (Along.require _ _).bind fun _ => (Along.require _ _).bind fun _ =>
    Along.bind (Along.modify fun _ => ⟨rfl, fun _ h => h⟩) fun _ => Along.ret _

theorem recordSend_silent {id : String} {now : MonoTime}
    {market : Option ExecutionMarketReference} : Along Silent (recordSend id now market) :=
  (Along.reads _).bind fun _ => (Along.orFail _ _).bind fun _ => (Along.require _ _).bind fun _ =>
    Along.bind (Along.modify fun _ => ⟨rfl, fun _ h => h⟩) fun _ => Along.ret _

theorem recordBrokerTiming_silent {event : BrokerEvent} {now : MonoTime}
    {market : Option ExecutionMarketReference} :
    Along Silent (recordBrokerTiming event now market) := by
  refine (Along.reads _).bind fun r => ?_
  split
  · exact Along.ret _
  · exact (Along.require _ _).bind fun _ =>
      Along.bind (Along.modify fun _ => ⟨rfl, fun _ h => h⟩) fun _ => Along.ret _

theorem restoreIntent_silent {intent : OrderIntent} : Along Silent (restoreIntent intent) :=
  onOrders_silent (OrderBook.insert_keeps intent)

theorem createChildPlan_silent {parent : OrderIntent} {schedule : Schedule} {now : MonoTime} :
    Along Silent (createChildPlan parent schedule now) :=
  (Along.ofExcept _).bind fun _ =>
    Along.bind (Along.modify fun _ => ⟨rfl, fun _ h => h⟩) fun _ => Along.ret _

theorem claimPlans_silent {now : MonoTime} {plans : List (String × ChildPlanRecord)} :
    Along Silent (claimPlans now plans) := by
  induction plans with
  | nil => exact Along.ret _
  | cons entry rest ih =>
    exact Along.bind (Along.modify fun _ => ⟨rfl, fun _ h => h⟩) fun _ => (Along.ofExcept _).bind
      fun _ => ih.bind fun _ => Along.ret _

theorem claimDueChildren_silent {now : MonoTime} : Along Silent (claimDueChildren now) :=
  (Along.reads _).bind fun _ => claimPlans_silent

theorem onChildPlan_silent {id : String} {p : Fallible ChildPlan PlanError Unit} :
    Along Silent (onChildPlan id p) := by
  refine (Along.reads _).bind fun r => ?_
  split
  · exact Along.ret _
  · exact Along.bind (Along.modify fun _ => ⟨rfl, fun _ h => h⟩) fun _ => (Along.ofExcept _).bind
      fun _ => Along.ret _

theorem markChildSent_silent {id : String} : Along Silent (markChildSent id) :=
  Along.bind onChildPlan_silent fun _ => Along.orFail _ _

theorem markChildUnknown_silent {id : String} : Along Silent (markChildUnknown id) :=
  Along.bind onChildPlan_silent fun _ => Along.orFail _ _

theorem applyBrokerEventInner_silent {event : BrokerEvent} {updatePortfolio : Bool} :
    Along Silent (applyBrokerEventInner event updatePortfolio) := by
  have horders : Along Silent (onOrders EngineError.transition (OrderBook.applyBrokerEvent event)) :=
    onOrders_silent (OrderBook.onRecord_keeps _ _ _)
  refine (Along.reads _).bind fun r => ?_
  cases event with
  | filled id quantity price =>
    dsimp only
    split
    · exact Along.fail _
    · split
      · exact horders
      · split
        · exact (Along.ofExcept _).bind fun _ => horders.bind fun _ =>
            Along.bind (Along.modify fun _ => ⟨rfl, fun _ h => h⟩) fun _ =>
            Along.modify fun _ => ⟨rfl, fun _ h => h⟩
        · exact horders.bind fun _ => Along.modify fun _ => ⟨rfl, fun _ h => h⟩
  | acknowledged => exact horders
  | rejected => exact horders
  | cancelled => exact horders

theorem onPortfolio_silent {α : Type} {p : Fallible Portfolio AccountingError α} :
    Along Silent (onPortfolio p) :=
  fun _ => ⟨rfl, fun _ hid => hid⟩

theorem onLiveGuard_silent {α : Type} {p : Fallible LiveGuard LiveGuardError α} :
    Along Silent (onLiveGuard p) :=
  fun _ => ⟨rfl, fun _ hid => hid⟩

theorem applyReconciledPortfolio_silent {positions : List (InstrumentId × Int)}
    {cash : Option Int} : Along Silent (applyReconciledPortfolio positions cash) :=
  Along.modify fun _ => ⟨rfl, fun _ h => h⟩

theorem applyBrokerSnapshot_silent {snapshot : BrokerSnapshot} :
    Along Silent (applyBrokerSnapshot snapshot) :=
  (Along.ofExcept _).bind fun _ => applyReconciledPortfolio_silent

theorem applyCorporateAction_silent {instrumentId : InstrumentId} {kind : CorporateActionKind} :
    Along Silent (applyCorporateAction instrumentId kind) :=
  Along.bind onPortfolio_silent fun _ => Along.ret _

theorem transitionRiskState_silent {next : RiskState} {authorization : String} :
    Along Silent (transitionRiskState next authorization) :=
  (Along.reads _).bind fun _ => (Along.ofExcept _).bind fun _ =>
    Along.modify fun _ => ⟨rfl, fun _ h => h⟩

theorem configureLiveLimits_silent {limits : LiveLimits} :
    Along Silent (configureLiveLimits limits) :=
  (Along.reads _).bind fun _ => (Along.require _ _).bind fun _ =>
    Along.modify fun _ => ⟨rfl, fun _ h => h⟩

end Runtime

-- Quiet steps of the host

namespace Host

/-- A silent computation of the runtime is a silent move. -/
theorem onRuntime_quiet {α : Type} {p : Fallible Runtime EngineError α}
    (hp : Along Runtime.Silent p) : Along Quiet (onRuntime p) :=
  hp.zoom fun _ _ hr => .single (.silent hr rfl)

/-- A change outside the runtime and the lifecycle is a silent move. -/
theorem quiet_of_eq {h h' : Host} (hr : h'.runtime = h.runtime)
    (hl : h'.lifecycle = h.lifecycle) : Quiet h h' := by
  refine .single (.silent ?_ hl)
  rw [hr]
  exact Std.Refl.refl _

theorem monotonicNow_quiet {env : Env} : Along Quiet (monotonicNow env) :=
  (Along.reads _).bind fun _ => Along.bind (Along.modify fun _ => quiet_of_eq rfl rfl) fun _ =>
    Along.ret _

theorem appendJournal_quiet {env : Env} {record : JournalRecord} :
    Along Quiet (appendJournal env record) := by
  refine (Along.reads _).bind fun h => ?_
  split
  · exact Along.fail _
  · exact Along.modify fun h => .single (.append h record)

theorem appendEvent_quiet {env : Env} {record : JournalRecord} :
    Along Quiet (appendEvent env record) :=
  (Along.reads _).bind fun _ => Along.bind appendJournal_quiet fun _ => (Along.reads _).bind fun _ =>
    (Along.require _ _).bind fun _ => Along.modify fun _ => quiet_of_eq rfl rfl

theorem requireRunning_quiet : Along Quiet requireRunning :=
  (Along.reads _).bind fun _ => Along.require _ _

theorem indexPortfolio_quiet {known : ℕ} : Along Quiet (indexPortfolio known) :=
  (Along.reads _).bind fun _ _ => quiet_of_eq rfl rfl

theorem indexOrder_quiet {intent : OrderIntent} : Along Quiet (indexOrder intent) :=
  Along.require _ _

theorem indexFill_quiet {event : BrokerEvent} : Along Quiet (indexFill event) := by
  cases event with
  | filled => exact Along.require _ _
  | acknowledged => exact Along.ret _
  | rejected => exact Along.ret _
  | cancelled => exact Along.ret _

theorem indexFillNow_quiet {env : Env} {event : BrokerEvent} :
    Along Quiet (indexFillNow env event) := by
  cases event with
  | filled => exact Along.bind monotonicNow_quiet fun _ => indexFill_quiet
  | acknowledged => exact Along.ret _
  | rejected => exact Along.ret _
  | cancelled => exact Along.ret _

theorem recordTiming_quiet {env : Env} {event : BrokerEvent} :
    Along Quiet (recordTiming env event) := by
  refine Along.bind monotonicNow_quiet fun _ => (Along.reads _).bind fun _ =>
    (onRuntime_quiet Runtime.recordBrokerTiming_silent).bind fun timing => ?_
  cases timing with
  | none => exact Along.ret _
  | some timing => exact appendEvent_quiet

theorem recordChildEvent_quiet {env : Env} {event : BrokerEvent} :
    Along Quiet (recordChildEvent env event) := by
  refine (onRuntime_quiet Runtime.onChildPlan_silent).bind fun record => ?_
  cases record with
  | none => exact Along.ret _
  | some record => exact appendEvent_quiet

theorem addStrategyFill_quiet {strategyId : String} {quantity price : Int} :
    Along Quiet (addStrategyFill strategyId quantity price) :=
  fun _ => quiet_of_eq rfl rfl

theorem attributeStrategyFill_quiet {event : BrokerEvent} :
    Along Quiet (attributeStrategyFill event) := by
  refine (Along.reads _).bind fun h => ?_
  cases event with
  | filled id quantity price =>
    dsimp only
    split
    · exact Along.ret _
    · exact (Along.orFail _ _).bind fun _ => Along.bind addStrategyFill_quiet fun _ =>
        Along.ret _
  | acknowledged => exact Along.ret _
  | rejected => exact Along.ret _
  | cancelled => exact Along.ret _

theorem recordAttribution_quiet {env : Env} {event : BrokerEvent} {priorFill : Int} :
    Along Quiet (recordAttribution env event priorFill) := by
  refine (Along.reads _).bind fun h => Along.ite (fun _ => ?_) fun _ => Along.ret _
  refine Along.bind attributeStrategyFill_quiet fun summary => ?_
  cases summary with
  | none => exact Along.ret _
  | some summary => exact appendEvent_quiet

/-- A passive call is a quiet move. -/
theorem callBroker_quiet {α : Type} {c : BrokerCall} (hc : c.passive)
    {answer : List BrokerCall → Except String α} :
    Along Quiet (onRuntime (Runtime.callBroker c answer)) :=
  fun h => .single (.call h c hc)

end Host

-- The send

namespace Runtime

theorem onOrders_apply {ε α : Type} (wrap : ε → EngineError) (p : Fallible OrderBook ε α)
    (r : Runtime) :
    onOrders wrap p r = ((p r.orders).1.mapError wrap, { r with orders := (p r.orders).2 }) := rfl

theorem onOrders_transition {wrap : TransitionError → EngineError} {r : Runtime} {id : String}
    (record : OrderRecord) {next : OrderState} (h : r.orders.get id = some record)
    (hl : legalTransition record.state next) :
    onOrders wrap (OrderBook.transition id next) r =
      (.ok (), { r with orders := r.orders.put id (record.setState next) }) := by
  rw [onOrders_apply, OrderBook.transition_of_legal h hl]
  rfl

theorem onOrders_insert {wrap : TransitionError → EngineError} {r : Runtime} {intent : OrderIntent}
    (hs : intent.state = .riskApproved) (hf : r.orders.get intent.clientOrderId = none) :
    onOrders wrap (OrderBook.insert intent) r =
      (.ok (), { r with orders := r.orders.put intent.clientOrderId ⟨intent, none, 0⟩ }) := by
  rw [onOrders_apply, OrderBook.insert_of_fresh hs hf]
  rfl

theorem callBroker_apply {α : Type} (c : BrokerCall) (answer : List BrokerCall → Except String α)
    (r : Runtime) : callBroker c answer r =
      (.ok (answer (brokerCalls r.trace)), { r with trace := r.trace ++ [.call c] }) := rfl

/-- The state a send leaves an order in. -/
def sentState (answer : Except String Unit) : OrderState := if answer.isOk then .sent else .unknown

/-- What a send answers. -/
def sendOutcome : Except String Unit → Except EngineError Unit
  | .ok _ => .ok ()
  | .error message => .error (.submit (.gateway message))

/-- **Specification of the send**: a fresh risk-approved intent is stored and sent once, and
its record tells the outcome. -/
theorem submitOrder_of_fresh (env : Env) {intent : OrderIntent} {r : Runtime}
    (hs : intent.state = .riskApproved) (hf : r.orders.get intent.clientOrderId = none) :
    ∃ book : OrderBook,
      submitOrder env intent r =
        (sendOutcome (env.gateway.send (brokerCalls r.trace) intent),
          { r with orders := book, trace := r.trace ++ [.call (.send intent)] }) ∧
      ∀ id, book.get id = if intent.clientOrderId = id then
          some ⟨{ intent with state := sentState (env.gateway.send (brokerCalls r.trace) intent) },
            none, 0⟩
        else r.orders.get id := by
  have hstart : legalTransition intent.state .queued = true := by rw [hs]; rfl
  rw [submitOrder, bind_of_ok (onOrders_insert hs hf),
    bind_of_ok (onOrders_transition ⟨intent, none, 0⟩ (by simp) hstart),
    bind_of_ok (onOrders_transition ⟨{ intent with state := .queued }, none, 0⟩
      (by simp [OrderRecord.setState]) rfl),
    bind_of_ok (callBroker_apply _ _ _)]
  rcases env.gateway.send (brokerCalls r.trace) intent with message | _
  · dsimp only
    rw [OrderBook.markUnknown,
      bind_of_ok (onOrders_transition ⟨{ intent with state := .sending }, none, 0⟩
        (by simp [OrderRecord.setState]) rfl)]
    refine ⟨_, rfl, fun id => ?_⟩
    simp only [OrderBook.get_put]
    split <;> rfl
  · dsimp only
    rw [onOrders_transition ⟨{ intent with state := .sending }, none, 0⟩
        (by simp [OrderRecord.setState]) rfl]
    refine ⟨_, rfl, fun id => ?_⟩
    simp only [OrderBook.get_put]
    split <;> rfl

/-- A known id is never sent again. -/
theorem submitOrder_of_known (env : Env) {intent : OrderIntent} {r : Runtime}
    (hk : (r.orders.get intent.clientOrderId).isSome) :
    (submitOrder env intent r).2 = r ∧ (submitOrder env intent r).1.isOk = false := by
  have hbook := OrderBook.insert_of_known hk
  have hfail := OrderBook.insert_of_known_isOk hk
  rw [submitOrder, bind_apply, onOrders_apply]
  rcases hinsert : OrderBook.insert intent r.orders with ⟨e | _, book⟩
  · obtain rfl : book = r.orders := by rw [hinsert] at hbook; exact hbook
    exact ⟨rfl, rfl⟩
  · rw [hinsert] at hfail
    simp [Except.isOk, Except.toBool] at hfail

/-- An intent that is not risk-approved is refused. -/
theorem submitOrder_of_state (env : Env) {intent : OrderIntent} {r : Runtime}
    (hs : intent.state ≠ .riskApproved) : (submitOrder env intent r).2 = r := by
  have hinsert : OrderBook.insert intent r.orders =
      (.error (.invalidTransition intent.state .riskApproved), r.orders) := by
    simp [OrderBook.insert, hs]
  rw [submitOrder, bind_apply, onOrders_apply, hinsert]
  rfl

/-- An intent is sent when it is fresh, risk-approved and authorized; else nothing happens. -/
theorem submitIntent_cases (env : Env) (intent : OrderIntent) (r : Runtime) :
    (submitIntent env intent r).2 = r ∨
      (r.orders.get intent.clientOrderId = none ∧ r.authorizeIntent intent = .ok () ∧
        ∃ book : OrderBook,
          (submitIntent env intent r).2 =
            { r with orders := book, trace := r.trace ++ [.call (.send intent)] } ∧
          ∀ id, book.get id = if intent.clientOrderId = id then
              some ⟨{ intent with
                state := sentState (env.gateway.send (brokerCalls r.trace) intent) }, none, 0⟩
            else r.orders.get id) := by
  rw [submitIntent, reads_bind, id]
  cases hauth : r.authorizeIntent intent with
  | error e => exact .inl rfl
  | ok _ =>
    change (submitOrder env intent r).2 = r ∨ _ ∧ _ ∧ ∃ book, (submitOrder env intent r).2 = _ ∧ _
    by_cases hs : intent.state = .riskApproved
    · cases hf : r.orders.get intent.clientOrderId with
      | none =>
        obtain ⟨book, hrun, hbook⟩ := submitOrder_of_fresh env hs hf
        exact .inr ⟨rfl, rfl, book, by rw [hrun], hbook⟩
      | some record => exact .inl (submitOrder_of_known env (by rw [hf]; rfl)).1
    · exact .inl (submitOrder_of_state env hs)

end Runtime

namespace Host

variable {L : Lifecycle → Lifecycle → Prop} {Q : Host → BrokerCall → Prop}

/-- A sequence whose first part is quiet. -/
theorem Moves.bind_quiet {α β : Type} {p : Fallible Host EngineError α}
    {f : α → Fallible Host EngineError β} {h : Host} (hp : Along Quiet p)
    (hf : ∀ a s, p h = (.ok a, s) → Quiet h s → Moves L Q s (f a s).2) :
    Moves L Q h ((p >>= f) h).2 :=
  Along.bind_at (Quiet.moves (hp h)) fun a s hs => hf a s hs (hp.of_ok hs)

/-- Sending an intent is one move, if it is sent at all. -/
theorem submitIntent_moves {env : Env} {intent : OrderIntent} {h : Host}
    (hQ : ¬h.runtime.hasOrder intent.clientOrderId → Q h (.send intent)) :
    Moves L Q h (onRuntime (Runtime.submitIntent env intent) h).2 := by
  rcases Runtime.submitIntent_cases env intent h.runtime with hsame | ⟨hf, -, book, hrun, hbook⟩
  · rw [onRuntime, zoom_apply, hsame]
  · have hfresh : ¬h.runtime.hasOrder intent.clientOrderId := by simp [Runtime.hasOrder, hf]
    rw [onRuntime, zoom_apply, hrun]
    refine .single (.send intent (hQ hfresh) hfresh ?_ ?_ rfl rfl)
    · simp [Runtime.hasOrder, hbook]
    · intro id hid
      simp only [Runtime.hasOrder, hbook]
      split
      · rfl
      · exact hid

/-- **The only way out**: an intent is sent after quiet moves, by an order id unknown then. -/
theorem submitIntentWithTiming_moves {env : Env} {intent : OrderIntent} {now : MonoTime} {h : Host}
    (hQ : ∀ s, Quiet h s → ¬s.runtime.hasOrder intent.clientOrderId → Q s (.send intent)) :
    Moves L Q h (submitIntentWithTiming env intent now h).2 := by
  refine Moves.bind_quiet (Along.reads _) fun _ s₀ _ q₀ => ?_
  refine Moves.bind_quiet (onRuntime_quiet Runtime.recordDecision_silent) fun decision s₁ _ q₁ => ?_
  refine Moves.bind_quiet appendEvent_quiet fun _ s₂ _ q₂ => ?_
  refine Moves.bind_quiet monotonicNow_quiet fun _ s₃ _ q₃ => ?_
  refine Moves.bind_quiet (onRuntime_quiet Runtime.recordSend_silent) fun send s₄ _ q₄ => ?_
  refine Moves.bind_quiet appendEvent_quiet fun _ s₅ _ q₅ => ?_
  exact submitIntent_moves (hQ s₅ (q₀.trans (q₁.trans (q₂.trans (q₃.trans (q₄.trans q₅))))))

/-- An order id that is known already is not sent. -/
theorem submitIntentWithTiming_quiet {env : Env} {intent : OrderIntent} {now : MonoTime} {h : Host}
    (hk : h.runtime.hasOrder intent.clientOrderId) :
    Quiet h (submitIntentWithTiming env intent now h).2 :=
  submitIntentWithTiming_moves fun _ q hfresh => hfresh (Moves.hasOrder q hk)

end Host

end InsiderTrader
