import InsiderTrader.Effects
import InsiderTrader.FillAgreement
import InsiderTrader.RefusedCalls
import InsiderTrader.Library.Runs

/-!
# Filled quantity and lifecycle state

A record has filled between nothing and its quantity, and it is filled when
the two are equal. Requests, events and account snapshots keep this together
except at two places: a replacement down to what has been filled already, and a
completing fill that is counted before the lifecycle table refuses it.

## Main definitions

- `OrderRecord.Settled` — filled quantity and state agree
- `BookRequest` — what is asked of a book through a gateway
- `BookRequest.Unsettles` — a request that separates the two

## Main results

- `BookRequest.settled_iff` — one request
- `filled_iff_complete` — the runs from the empty book that keep the agreement
-/

namespace InsiderTrader

open MachineInt Fallible

-- One record

namespace OrderRecord

/-- The filled quantity is between zero and the quantity, and the state is filled exactly
when it has reached the quantity. -/
structure Settled (record : OrderRecord) : Prop where
  filled_nonneg : 0 ≤ record.filledQuantityTicks
  filled_le : record.filledQuantityTicks ≤ record.intent.quantityTicks
  filled_iff : record.state = .filled ↔ record.filledQuantityTicks = record.intent.quantityTicks

instance (record : OrderRecord) : Decidable record.Settled :=
  decidable_of_iff (0 ≤ record.filledQuantityTicks ∧
      record.filledQuantityTicks ≤ record.intent.quantityTicks ∧
      (record.state = .filled ↔ record.filledQuantityTicks = record.intent.quantityTicks))
    ⟨fun ⟨hnonneg, hle, hiff⟩ => ⟨hnonneg, hle, hiff⟩,
      fun ⟨hnonneg, hle, hiff⟩ => ⟨hnonneg, hle, hiff⟩⟩

variable {record : OrderRecord}

/-- No step leaves the filled state. -/
theorem legalTransition_filled (next : OrderState) : legalTransition .filled next = false := by
  cases next <;> rfl

/-- A step between open states keeps the agreement. -/
theorem Settled.setState (h : record.Settled) {next : OrderState} (hopen : record.state ≠ .filled)
    (hnext : next ≠ .filled) : (record.setState next).Settled :=
  ⟨h.filled_nonneg, h.filled_le,
    iff_of_false hnext fun hfull => hopen (h.filled_iff.mpr hfull)⟩

theorem Settled.transition (h : record.Settled) {next : OrderState} (hnext : next ≠ .filled) :
    (OrderRecord.transition next record).2.Settled := by
  rw [transition_apply]
  by_cases hlegal : legalTransition record.state next = true
  · rw [if_pos hlegal]
    refine h.setState (fun hfilled => ?_) hnext
    rw [hfilled, legalTransition_filled] at hlegal
    exact Bool.false_ne_true hlegal
  · rw [if_neg hlegal]
    exact h

/-- An event that is no fill keeps the agreement. -/
theorem Settled.applyBrokerEvent (h : record.Settled) {event : BrokerEvent}
    (hevent : ∀ id quantity price, event ≠ .filled id quantity price) :
    (OrderRecord.applyBrokerEvent event record).2.Settled := by
  cases event with
  | acknowledged orderId brokerOrderId =>
    by_cases hbefore : acknowledgedBefore record.state = true
    · simp only [OrderRecord.applyBrokerEvent, reads_bind, id]
      rw [if_pos hbefore]
      split <;> exact h
    · rw [applyBrokerEvent_acknowledged _ _ (eq_false_of_ne_true hbefore)]
      have hwritten : ({ record with brokerOrderId := some brokerOrderId } : OrderRecord).Settled :=
        ⟨h.filled_nonneg, h.filled_le, h.filled_iff⟩
      exact hwritten.transition (by decide)
  | filled orderId quantity price => exact absurd rfl (hevent _ _ _)
  | rejected orderId reason =>
    simp only [OrderRecord.applyBrokerEvent, reads_bind, id]
    split
    · exact h
    · exact h.transition (by decide)
  | cancelled orderId =>
    simp only [OrderRecord.applyBrokerEvent, reads_bind, id]
    split
    · exact h
    · exact h.transition (by decide)

/-- A fill that completes the order and that the lifecycle table refuses. -/
def LosesCompletion (record : OrderRecord) (quantityTicks priceTicks : Int) : Prop :=
  record.TakesFill quantityTicks priceTicks ∧
    record.filledQuantityTicks + quantityTicks = record.intent.quantityTicks ∧
    legalTransition record.state .filled = false

instance (record : OrderRecord) (quantityTicks priceTicks : Int) :
    Decidable (record.LosesCompletion quantityTicks priceTicks) :=
  inferInstanceAs (Decidable (_ ∧ _ ∧ _))

/-- **A fill** keeps the agreement unless it completes an order that may not be filled. -/
theorem Settled.applyBrokerEvent_filled_iff (h : record.Settled) (orderId : String)
    (quantity price : Int) :
    (OrderRecord.applyBrokerEvent (.filled orderId quantity price) record).2.Settled ↔
      ¬record.LosesCompletion quantity price := by
  by_cases htakes : record.TakesFill quantity price
  · have hpos := htakes.quantity_pos
    have hwithin := htakes.within
    have hnonneg := h.filled_nonneg
    rw [applyBrokerEvent_of_takesFill htakes]
    by_cases hfull : record.filledQuantityTicks + quantity = record.intent.quantityTicks
    · have hstate : record.fillState quantity = .filled := if_pos hfull.ge
      rw [hstate]
      by_cases hlegal : legalTransition record.state .filled = true
      · rw [if_pos hlegal]
        refine iff_of_true ⟨?_, hwithin, iff_of_true rfl hfull⟩ fun hloses =>
          Bool.false_ne_true (hloses.2.2.symm.trans hlegal)
        show 0 ≤ record.filledQuantityTicks + quantity
        omega
      · rw [if_neg hlegal]
        refine iff_of_false (fun hsettled => ?_) fun hkeeps =>
          hkeeps ⟨htakes, hfull, eq_false_of_ne_true hlegal⟩
        exact htakes.unfilled (hsettled.filled_iff.mpr hfull)
    · have hstate : record.fillState quantity = .partiallyFilled := if_neg (by omega)
      rw [hstate]
      refine iff_of_true ?_ fun hloses => hfull hloses.2.1
      split
      · refine ⟨?_, hwithin, iff_of_false (show OrderState.partiallyFilled ≠ .filled by decide) hfull⟩
        show 0 ≤ record.filledQuantityTicks + quantity
        omega
      · refine ⟨?_, hwithin, iff_of_false htakes.unfilled hfull⟩
        show 0 ≤ record.filledQuantityTicks + quantity
        omega
  · rw [(applyBrokerEvent_of_not_takesFill orderId htakes).2]
    exact iff_of_true h fun hloses => htakes hloses.1

/-- A cumulative fill keeps the agreement: the step comes first. -/
theorem Settled.applyCumulativeFill (h : record.Settled) (cumulativeTicks : Int) :
    (OrderRecord.applyCumulativeFill cumulativeTicks record).2.Settled := by
  have hnonneg := h.filled_nonneg
  simp only [OrderRecord.applyCumulativeFill, reads_bind, id]
  split
  · exact h
  · next hrange =>
    split
    · exact h
    · by_cases hfull : record.intent.quantityTicks ≤ cumulativeTicks
      · rw [if_pos hfull]
        by_cases hlegal : legalTransition record.state .filled = true
        · rw [bind_of_ok (by rw [transition_apply, if_pos hlegal])]
          refine ⟨?_, ?_, iff_of_true rfl ?_⟩
          · show 0 ≤ cumulativeTicks
            omega
          · show cumulativeTicks ≤ record.intent.quantityTicks
            omega
          · show cumulativeTicks = record.intent.quantityTicks
            omega
        · rw [bind_of_error (by rw [transition_apply, if_neg hlegal])]
          exact h
      · rw [if_neg hfull]
        by_cases hlegal : legalTransition record.state .partiallyFilled = true
        · rw [bind_of_ok (by rw [transition_apply, if_pos hlegal])]
          refine ⟨?_, ?_, iff_of_false (show OrderState.partiallyFilled ≠ .filled by decide) ?_⟩
          · show 0 ≤ cumulativeTicks
            omega
          · show cumulativeTicks ≤ record.intent.quantityTicks
            omega
          · show ¬cumulativeTicks = record.intent.quantityTicks
            omega
        · rw [bind_of_error (by rw [transition_apply, if_neg hlegal])]
          exact h

/-- A replacement that the record accepts. -/
structure TakesReplace (record : OrderRecord) (quantityTicks : Int) : Prop where
  quantity_pos : 0 < quantityTicks
  filled_le : record.filledQuantityTicks ≤ quantityTicks
  working : record.state = .acknowledged ∨ record.state = .partiallyFilled

instance (record : OrderRecord) (quantityTicks : Int) : Decidable (record.TakesReplace quantityTicks) :=
  decidable_of_iff (0 < quantityTicks ∧ record.filledQuantityTicks ≤ quantityTicks ∧
      (record.state = .acknowledged ∨ record.state = .partiallyFilled))
    ⟨fun ⟨hpos, hle, hworking⟩ => ⟨hpos, hle, hworking⟩,
      fun ⟨hpos, hle, hworking⟩ => ⟨hpos, hle, hworking⟩⟩

/-- The record with a requested replacement. -/
def replaced (record : OrderRecord) (quantityTicks : Int) (limitPriceTicks : Option Int) :
    OrderRecord :=
  { record with intent := { record.intent with
      quantityTicks := quantityTicks
      limitPriceTicks := limitPriceTicks
      state := .replacePending } }

theorem prepareReplace_of_takes {quantity : Int} {limit : Option Int}
    (h : record.TakesReplace quantity) :
    prepareReplace quantity limit record = (.ok (), record.replaced quantity limit) := by
  have hpos := h.quantity_pos
  have hle := h.filled_le
  simp only [prepareReplace, reads_bind, id]
  rw [if_neg (by omega), if_pos h.working]
  rfl

theorem prepareReplace_of_not_takes {quantity : Int} (limit : Option Int)
    (h : ¬record.TakesReplace quantity) :
    ∃ e, prepareReplace quantity limit record = (.error e, record) := by
  simp only [prepareReplace, reads_bind, id]
  by_cases hquantity : quantity ≤ 0 ∨ quantity < record.filledQuantityTicks
  · exact ⟨_, by rw [if_pos hquantity]; rfl⟩
  · rw [if_neg hquantity]
    by_cases hworking : record.state = .acknowledged ∨ record.state = .partiallyFilled
    · exact absurd ⟨by omega, by omega, hworking⟩ h
    · exact ⟨_, by rw [if_neg hworking]; rfl⟩

/-- **A replacement** keeps the agreement unless it asks for what has been filled already. -/
theorem Settled.replaced_iff (h : record.Settled) {quantity : Int} (limit : Option Int)
    (htakes : record.TakesReplace quantity) {next : OrderState} (hnext : next ≠ .filled) :
    ((record.replaced quantity limit).setState next).Settled ↔
      quantity ≠ record.filledQuantityTicks := by
  constructor
  · rintro hsettled rfl
    exact hnext (hsettled.filled_iff.mpr rfl)
  · intro hne
    exact ⟨h.filled_nonneg, htakes.filled_le, iff_of_false hnext (Ne.symm hne)⟩

end OrderRecord

-- The book

namespace OrderBook

/-- Every record of the book agrees with its state. -/
def Settled (book : OrderBook) : Prop :=
  ∀ id record, book.get id = some record → record.Settled

theorem settled_new : new.Settled := fun id record h => by
  rw [get_new] at h
  cases h

/-- Writing a record into a settled book asks for that record only. -/
theorem Settled.put_iff {book : OrderBook} (h : book.Settled) (id : String)
    (record : OrderRecord) : (book.put id record).Settled ↔ record.Settled := by
  constructor
  · intro hput
    exact hput id record (by rw [get_put, if_pos rfl])
  · intro hrecord id' record' hget
    rw [get_put] at hget
    split at hget
    · cases hget
      exact hrecord
    · exact h id' record' hget

/-- Settled books are those whose records are, whatever the tree. -/
theorem settled_congr {book book' : OrderBook} (h : book.SameRecords book') :
    book'.Settled ↔ book.Settled := by
  unfold Settled
  simp only [h _]

/-- A method that keeps the agreement of records keeps that of the book. -/
theorem Settled.onRecord {ε : Type} {unknown : ε} {id : String} {p : Fallible OrderRecord ε Unit}
    {book : OrderBook} (h : book.Settled) (hp : ∀ record, record.Settled → (p record).2.Settled) :
    (OrderBook.onRecord unknown id p book).2.Settled := by
  cases hget : book.get id with
  | none => rwa [onRecord_of_none hget]
  | some record =>
    rw [onRecord_of_get hget]
    exact (h.put_iff id _).mpr (hp record (h id record hget))

/-- A fill keeps the agreement unless it completes an order that may not be filled. -/
theorem Settled.applyBrokerEvent_filled_iff {book : OrderBook} (h : book.Settled) (id : String)
    (quantity price : Int) :
    (OrderBook.applyBrokerEvent (.filled id quantity price) book).2.Settled ↔
      ¬∃ record ∈ book.get id, record.LosesCompletion quantity price := by
  rw [OrderBook.applyBrokerEvent, BrokerEvent.clientOrderId]
  cases hget : book.get id with
  | none =>
    rw [onRecord_of_none hget]
    refine iff_of_true h ?_
    rintro ⟨record, hnone, -⟩
    cases hnone
  | some record =>
    rw [onRecord_of_get hget, h.put_iff, (h id record hget).applyBrokerEvent_filled_iff]
    constructor
    · rintro hkeeps ⟨record', hsame, hloses⟩
      cases hsame
      exact hkeeps hloses
    · exact fun hkeeps hloses => hkeeps ⟨record, rfl, hloses⟩

end OrderBook

-- Requests

/-- What is asked of a book, in part through a gateway. -/
inductive BookRequest where
  | submitOrder (intent : OrderIntent)
  | cancelOrder (clientOrderId : String)
  | replaceOrder (clientOrderId : String) (quantityTicks : Int) (limitPriceTicks : Option Int)
  | applyBrokerEvent (event : BrokerEvent)
  | applyCumulativeFill (clientOrderId : String) (cumulativeTicks : Int)

namespace BookRequest

/-- The request at the book of a runtime, with the gateway of an environment. -/
def run (env : Env) : BookRequest → Fallible Runtime EngineError Unit
  | .submitOrder intent => Runtime.submitOrder env intent
  | .cancelOrder id => Runtime.cancelOrder env id
  | .replaceOrder id quantity limit => Runtime.replaceOrder env id quantity limit
  | .applyBrokerEvent event => Runtime.onOrders .transition (OrderBook.applyBrokerEvent event)
  | .applyCumulativeFill id cumulative =>
    Runtime.onOrders .transition (OrderBook.applyCumulativeFill id cumulative)

/-- The runtime after a request, accepted or not. -/
def after (call : Env × BookRequest) (r : Runtime) : Runtime := (call.2.run call.1 r).2

/-- Submitted quantities are positive. -/
def Positive : BookRequest → Prop
  | .submitOrder intent => 0 < intent.quantityTicks
  | _ => True

instance : (request : BookRequest) → Decidable request.Positive
  | .submitOrder intent => inferInstanceAs (Decidable (0 < intent.quantityTicks))
  | .cancelOrder _ => inferInstanceAs (Decidable True)
  | .replaceOrder _ _ _ => inferInstanceAs (Decidable True)
  | .applyBrokerEvent _ => inferInstanceAs (Decidable True)
  | .applyCumulativeFill _ _ => inferInstanceAs (Decidable True)

/-- An accepted replacement down to what has been filled, or a completing fill that is counted
and refused. -/
def Unsettles (call : Env × BookRequest) (r : Runtime) : Prop :=
  match call.2 with
  | .replaceOrder id quantity _ =>
    call.1.gateway.capabilities.cancelReplace = true ∧
      ∃ record ∈ r.orders.get id,
        record.TakesReplace quantity ∧ quantity = record.filledQuantityTicks
  | .applyBrokerEvent (.filled id quantity price) =>
    ∃ record ∈ r.orders.get id, record.LosesCompletion quantity price
  | _ => False

instance (r : Runtime) : (call : Env × BookRequest) → Decidable (Unsettles call r)
  | (env, .replaceOrder id quantity _) => inferInstanceAs (Decidable
      (env.gateway.capabilities.cancelReplace = true ∧ ∃ record ∈ r.orders.get id,
        record.TakesReplace quantity ∧ quantity = record.filledQuantityTicks))
  | (_, .applyBrokerEvent (.filled id quantity price)) => inferInstanceAs (Decidable
      (∃ record ∈ r.orders.get id, record.LosesCompletion quantity price))
  | (_, .applyBrokerEvent (.acknowledged _ _)) => inferInstanceAs (Decidable False)
  | (_, .applyBrokerEvent (.rejected _ _)) => inferInstanceAs (Decidable False)
  | (_, .applyBrokerEvent (.cancelled _)) => inferInstanceAs (Decidable False)
  | (_, .submitOrder _) => inferInstanceAs (Decidable False)
  | (_, .cancelOrder _) => inferInstanceAs (Decidable False)
  | (_, .applyCumulativeFill _ _) => inferInstanceAs (Decidable False)

end BookRequest

namespace Runtime

variable {r : Runtime} {env : Env}

/-- A submitted order has filled nothing of a positive quantity. -/
theorem submitOrder_settled (h : r.orders.Settled) {intent : OrderIntent}
    (hpos : 0 < intent.quantityTicks) : (submitOrder env intent r).2.orders.Settled := by
  by_cases hs : intent.state = .riskApproved
  · cases hget : r.orders.get intent.clientOrderId with
    | some record =>
      rw [(submitOrder_of_known env (by rw [hget]; rfl)).1]
      exact h
    | none =>
      obtain ⟨book, hrun, hbook⟩ := submitOrder_of_fresh env hs hget
      rw [hrun]
      intro id record hid
      change book.get id = some record at hid
      rw [hbook] at hid
      split at hid
      · cases hid
        refine ⟨le_rfl, hpos.le, iff_of_false ?_ hpos.ne⟩
        show sentState _ ≠ .filled
        unfold sentState
        split <;> decide
      · exact h id record hid
  · rwa [submitOrder_of_state env hs]

theorem onOrders_settled {ε α : Type} {wrap : ε → EngineError} {p : Fallible OrderBook ε α}
    (hp : ∀ book : OrderBook, book.Settled → (p book).2.Settled) :
    Preserves (fun r : Runtime => r.orders.Settled) (onOrders wrap p) :=
  fun r h => hp r.orders h

theorem callBroker_settled {α : Type} {c : BrokerCall} {answer : List BrokerCall → Except String α} :
    Preserves (fun r : Runtime => r.orders.Settled) (callBroker c answer) := fun _ h => h

/-- A cancellation keeps the agreement, whatever the gateway answers. -/
theorem cancelOrder_settled (id : String) :
    Preserves (fun r : Runtime => r.orders.Settled) (cancelOrder env id) := by
  have hstep : ∀ next : OrderState, next ≠ .filled → Preserves (fun r : Runtime => r.orders.Settled)
      (onOrders (fun e => EngineError.cancel (.transition e)) (OrderBook.transition id next)) :=
    fun next hnext => onOrders_settled fun book h => h.onRecord fun record hr => hr.transition hnext
  refine Along.bind (Along.require _ _) fun _ => Along.bind (hstep _ (by decide)) fun _ =>
    Along.bind callBroker_settled fun answer => ?_
  cases answer with
  | error message => exact Along.bind (hstep _ (by decide)) fun _ => Along.fail _
  | ok _ => exact Along.ret _

/-- A replacement that the record does not accept leaves the records as they are. -/
theorem replaceOrder_of_refused {id : String} {quantity : Int} {limit : Option Int}
    (h : ¬∃ record ∈ r.orders.get id, record.TakesReplace quantity) :
    r.orders.SameRecords (replaceOrder env id quantity limit r).2.orders := by
  rw [replaceOrder, require_bind]
  split
  · have herror : ∃ e book, OrderBook.prepareReplace id quantity limit r.orders = (.error e, book) ∧
        r.orders.SameRecords book := by
      cases hget : r.orders.get id with
      | none => exact ⟨_, r.orders, OrderBook.onRecord_of_none hget, fun _ => rfl⟩
      | some record =>
        have hrefused : ¬record.TakesReplace quantity := fun ht => h ⟨record, hget, ht⟩
        obtain ⟨e, hrecord⟩ := OrderRecord.prepareReplace_of_not_takes limit hrefused
        refine ⟨e, r.orders.put id record, ?_, (OrderBook.sameRecords_put_iff hget).mpr rfl⟩
        rw [OrderBook.prepareReplace, OrderBook.onRecord_of_get hget, hrecord]
    obtain ⟨e, book, hbook, hsame⟩ := herror
    rw [bind_of_error (by rw [onOrders_apply, hbook]; rfl)]
    exact hsame
  · exact fun _ => rfl

/-- An accepted replacement is pending, or unknown when the gateway refuses it. -/
theorem replaceOrder_of_accepted {id : String} {quantity : Int} (limit : Option Int)
    {record : OrderRecord} (hcap : env.gateway.capabilities.cancelReplace = true)
    (hget : r.orders.get id = some record) (htakes : record.TakesReplace quantity) :
    ∃ next : OrderState, (next = .unknown ∨ next = .replacePending) ∧
      ∀ id', (replaceOrder env id quantity limit r).2.orders.get id' =
        if id = id' then some ((record.replaced quantity limit).setState next)
        else r.orders.get id' := by
  have hprepare : OrderBook.prepareReplace id quantity limit r.orders =
      (.ok (), r.orders.put id (record.replaced quantity limit)) := by
    rw [OrderBook.prepareReplace, OrderBook.onRecord_of_get hget,
      OrderRecord.prepareReplace_of_takes htakes]
  rw [replaceOrder, require_bind, if_pos hcap,
    bind_of_ok (by rw [onOrders_apply, hprepare]; rfl), bind_of_ok (callBroker_apply _ _ _)]
  cases env.gateway.replace (brokerCalls r.trace) id quantity limit with
  | error message =>
    refine ⟨.unknown, .inl rfl, fun id' => ?_⟩
    dsimp only
    rw [bind_of_ok (onOrders_transition (record.replaced quantity limit)
      (by rw [OrderBook.get_put, if_pos rfl]) rfl)]
    simp only [fail_apply, OrderBook.get_put]
    split <;> rfl
  | ok _ =>
    refine ⟨.replacePending, .inr rfl, fun id' => ?_⟩
    simp only [pure_apply, OrderBook.get_put]
    split <;> rfl

end Runtime

namespace BookRequest

/-- **One request** keeps the agreement exactly when it does not unsettle it. -/
theorem settled_iff (call : Env × BookRequest) (r : Runtime) (hpos : call.2.Positive)
    (h : r.orders.Settled) : (after call r).orders.Settled ↔ ¬Unsettles call r := by
  obtain ⟨env, request⟩ := call
  cases request with
  | submitOrder intent => exact iff_of_true (Runtime.submitOrder_settled h hpos) fun hu => hu
  | cancelOrder id => exact iff_of_true (Runtime.cancelOrder_settled id r h) fun hu => hu
  | replaceOrder id quantity limit =>
    by_cases hcap : env.gateway.capabilities.cancelReplace = true
    · by_cases htakes : ∃ record ∈ r.orders.get id, record.TakesReplace quantity
      · obtain ⟨record, hget, htakes⟩ := htakes
        obtain ⟨next, hnext, hbook⟩ :=
          Runtime.replaceOrder_of_accepted limit hcap hget htakes
        have hsame : (r.orders.put id ((record.replaced quantity limit).setState next)).SameRecords
            (after (env, .replaceOrder id quantity limit) r).orders := fun id' => by
          rw [OrderBook.get_put]
          exact hbook id'
        have hopen : next ≠ .filled := by rcases hnext with rfl | rfl <;> decide
        rw [OrderBook.settled_congr hsame, h.put_iff,
          (h id record hget).replaced_iff limit htakes hopen]
        refine not_congr ⟨fun heq => ⟨hcap, record, hget, htakes, heq⟩, ?_⟩
        rintro ⟨-, record', hget', -, heq⟩
        cases hget.symm.trans hget'
        exact heq
      · refine iff_of_true ?_ fun hu => ?_
        · exact (OrderBook.settled_congr (Runtime.replaceOrder_of_refused htakes)).mpr h
        · obtain ⟨-, record, hget, ht, -⟩ := hu
          exact htakes ⟨record, hget, ht⟩
    · refine iff_of_true ?_ fun hu => hcap hu.1
      show ((require _ _ >>= fun _ => _) r).2.orders.Settled
      rw [require_bind, if_neg hcap]
      exact h
  | applyBrokerEvent event =>
    have hother : (∀ id quantity price, event ≠ .filled id quantity price) →
        (OrderBook.applyBrokerEvent event r.orders).2.Settled := fun hne =>
      h.onRecord fun record hr => hr.applyBrokerEvent hne
    cases event with
    | filled id quantity price => exact h.applyBrokerEvent_filled_iff id quantity price
    | acknowledged => exact iff_of_true (hother fun _ _ _ hne => by cases hne) fun hu => hu
    | rejected => exact iff_of_true (hother fun _ _ _ hne => by cases hne) fun hu => hu
    | cancelled => exact iff_of_true (hother fun _ _ _ hne => by cases hne) fun hu => hu
  | applyCumulativeFill id cumulative =>
    exact iff_of_true (h.onRecord fun record hr => hr.applyCumulativeFill cumulative) fun hu => hu

end BookRequest

/-- **Filled is complete**: along a run from the empty book every record has filled between zero
and its quantity, and is filled exactly when it has filled all of it, if and only if no request of
the run separates the two. -/
theorem filled_iff_complete {start : Runtime} (hempty : start.orders = OrderBook.new)
    (run : List (Env × BookRequest)) (hpos : ∀ call ∈ run, call.2.Positive) :
    (∀ r ∈ Runs.states BookRequest.after start run, r.orders.Settled) ↔
      ∀ call ∈ Runs.calls BookRequest.after start run, ¬BookRequest.Unsettles call.2 call.1 := by
  refine Runs.states_iff (P := fun r : Runtime => r.orders.Settled) BookRequest.settled_iff ?_ hpos
  show start.orders.Settled
  rw [hempty]
  exact OrderBook.settled_new

namespace Sample

/-- The purchase is sent, acknowledged and filled to 4 of 10. -/
def startedPurchase : List (Env × BookRequest) :=
  [(env empty, .submitOrder purchase), (env empty, .applyBrokerEvent (.acknowledged "o-1" "b-1")),
    (env empty, .applyBrokerEvent (.filled "o-1" 4 100))]

/-- The purchase is cancelled. -/
def cancelledPurchase : List (Env × BookRequest) :=
  [(env empty, .submitOrder purchase), (env empty, .applyBrokerEvent (.acknowledged "o-1" "b-1")),
    (env empty, .cancelOrder "o-1"), (env empty, .applyBrokerEvent (.cancelled "o-1"))]

end Sample

/-- A purchase is replaced by a larger one and filled completely. -/
theorem filled_iff_complete_replaced :
    (Runs.states BookRequest.after Sample.flat (Sample.startedPurchase ++
      [(Sample.env Sample.empty, .replaceOrder "o-1" 12 none),
        (Sample.env Sample.empty, .applyBrokerEvent (.filled "o-1" 8 100))])).Forall
      fun r => r.orders.Settled := by
  refine List.forall_iff_forall_mem.mpr ((filled_iff_complete rfl _ (by decide)).mpr ?_)
  decide

/-- **Two ways apart**: a replacement of the purchase to the 4 that are filled leaves a complete
order that is not filled, and so does a fill of all 10 after the cancellation. -/
theorem filled_not_complete :
    (¬∀ r ∈ Runs.states BookRequest.after Sample.flat (Sample.startedPurchase ++
        [(Sample.env Sample.empty, .replaceOrder "o-1" 4 none)]), r.orders.Settled) ∧
      ¬∀ r ∈ Runs.states BookRequest.after Sample.flat (Sample.cancelledPurchase ++
        [(Sample.env Sample.empty, .applyBrokerEvent (.filled "o-1" 10 100))]),
        r.orders.Settled := by
  have hreplaced : ∃ r ∈ Runs.states BookRequest.after Sample.flat (Sample.startedPurchase ++
      [(Sample.env Sample.empty, .replaceOrder "o-1" 4 none)]),
      ∃ record ∈ r.orders.get "o-1", ¬record.Settled := by
    decide
  have hcancelled : ∃ r ∈ Runs.states BookRequest.after Sample.flat (Sample.cancelledPurchase ++
      [(Sample.env Sample.empty, .applyBrokerEvent (.filled "o-1" 10 100))]),
      ∃ record ∈ r.orders.get "o-1", ¬record.Settled := by
    decide
  constructor
  · intro hsettled
    obtain ⟨r, hr, record, hget, hne⟩ := hreplaced
    exact hne (hsettled r hr "o-1" record hget)
  · intro hsettled
    obtain ⟨r, hr, record, hget, hne⟩ := hcancelled
    exact hne (hsettled r hr "o-1" record hget)

end InsiderTrader
