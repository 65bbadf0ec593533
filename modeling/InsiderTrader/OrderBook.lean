import InsiderTrader.Broker
import InsiderTrader.Library.Fallible
import InsiderTrader.Library.MachineInt

/-!
# The order book

The in-memory projection of the durable order journal and the three requests
that reach the broker through it. A record is changed in place: what a method
wrote before an error stays written, also here.

## Main definitions

- `legalTransition` — the lifecycle table of an order
- `OrderRecord.applyBrokerEvent` — one authoritative event at one record
- `OrderBook` — records by client order id
- `submitOrder`, `cancelOrder`, `replaceOrder` — requests through a gateway
-/

namespace InsiderTrader

open MachineInt

/-- Durable order-state transition failure. -/
inductive TransitionError where
  | unknownOrder
  | invalidTransition (source target : OrderState)
  | mismatchedOrder
  deriving DecidableEq

/-- Failure while submitting a persisted order intent. -/
inductive SubmitError where
  | transition (error : TransitionError)
  | gateway (error : String)
  deriving DecidableEq

/-- Failure while requesting cancellation of a working order. -/
inductive CancelError where
  | transition (error : TransitionError)
  | unsupported
  | gateway (error : String)
  deriving DecidableEq

/-- Failure while requesting replacement of a working order. -/
inductive ReplaceError where
  | transition (error : TransitionError)
  | unsupported
  | gateway (error : String)
  | invalidQuantity
  deriving DecidableEq

/-- Locally authoritative order record. -/
structure OrderRecord where
  intent : OrderIntent
  brokerOrderId : Option String
  filledQuantityTicks : Int
  deriving DecidableEq

/-- The lifecycle steps an order may take. A broker event may follow `riskApproved`
directly: after a restart the journaled intent is all that is known of the send. -/
def legalTransition : OrderState → OrderState → Bool
  | .riskApproved, .queued | .riskApproved, .sending | .riskApproved, .acknowledged
  | .riskApproved, .partiallyFilled | .riskApproved, .filled | .riskApproved, .rejected
  | .riskApproved, .cancelled | .riskApproved, .unknown => true
  | .queued, .sending | .queued, .unknown => true
  | .sending, .sent | .sending, .unknown => true
  | .sent, .acknowledged | .sent, .partiallyFilled | .sent, .filled | .sent, .rejected
  | .sent, .unknown => true
  | .replacePending, .acknowledged | .replacePending, .partiallyFilled
  | .replacePending, .filled | .replacePending, .rejected | .replacePending, .unknown => true
  | .acknowledged, .partiallyFilled | .acknowledged, .filled | .acknowledged, .cancelPending
  | .acknowledged, .rejected | .acknowledged, .unknown => true
  | .partiallyFilled, .partiallyFilled | .partiallyFilled, .filled
  | .partiallyFilled, .cancelPending | .partiallyFilled, .unknown => true
  | .cancelPending, .cancelled | .cancelPending, .filled | .cancelPending, .unknown => true
  | .unknown, .acknowledged | .unknown, .rejected | .unknown, .partiallyFilled
  | .unknown, .filled | .unknown, .cancelled => true
  | _, _ => false

/-- States that no lifecycle step leaves. -/
def OrderState.terminal : OrderState → Bool
  | .filled | .cancelled | .rejected | .expired => true
  | _ => false

theorem open_of_legalTransition {s next : OrderState} (h : legalTransition s next = true) :
    s.terminal = false := by
  revert h
  cases s with
  | filled => cases next <;> decide
  | cancelled => cases next <;> decide
  | rejected => cases next <;> decide
  | expired => cases next <;> decide
  | created => exact fun _ => rfl
  | riskApproved => exact fun _ => rfl
  | queued => exact fun _ => rfl
  | sending => exact fun _ => rfl
  | sent => exact fun _ => rfl
  | acknowledged => exact fun _ => rfl
  | partiallyFilled => exact fun _ => rfl
  | cancelPending => exact fun _ => rfl
  | replacePending => exact fun _ => rfl
  | unknown => exact fun _ => rfl

-- One record

namespace OrderRecord

/-- The lifecycle state of a record is that of its intent. -/
abbrev state (record : OrderRecord) : OrderState := record.intent.state

/-- Move a record to a lifecycle state. -/
def setState (record : OrderRecord) (next : OrderState) : OrderRecord :=
  { record with intent := { record.intent with state := next } }

/-- Take one legal lifecycle step. -/
def transition (next : OrderState) : Fallible OrderRecord TransitionError Unit := do
  let record ← Fallible.reads id
  if legalTransition record.state next then
    Fallible.modify (·.setState next)
  else
    Fallible.fail (.invalidTransition record.state next)

/-- States in which an acknowledgement only repeats what is known. -/
def acknowledgedBefore : OrderState → Bool
  | .acknowledged | .partiallyFilled | .filled | .cancelPending | .cancelled | .rejected => true
  | _ => false

/-- Apply an authoritative broker event. The broker id and the filled quantity are
written before the lifecycle step is tried. -/
def applyBrokerEvent (event : BrokerEvent) : Fallible OrderRecord TransitionError Unit := do
  let record ← Fallible.reads id
  match event with
  | .acknowledged _ brokerOrderId =>
    if acknowledgedBefore record.state then
      if record.brokerOrderId = some brokerOrderId then pure ()
      else Fallible.fail .mismatchedOrder
    else
      Fallible.modify ({ · with brokerOrderId := some brokerOrderId })
      transition .acknowledged
  | .filled _ quantityTicks priceTicks =>
    if quantityTicks ≤ 0 ∨ priceTicks ≤ 0 then Fallible.fail .mismatchedOrder
    else if record.state = .filled then pure ()
    else
      match narrow 64 (record.filledQuantityTicks + quantityTicks) with
      | none => Fallible.fail .mismatchedOrder
      | some nextFilled =>
        if record.intent.quantityTicks < nextFilled then Fallible.fail .mismatchedOrder
        else
          Fallible.modify ({ · with filledQuantityTicks := nextFilled })
          transition (if record.intent.quantityTicks ≤ nextFilled then .filled
            else .partiallyFilled)
  | .rejected _ _ =>
    if record.state = .rejected then pure () else transition .rejected
  | .cancelled _ =>
    if record.state = .cancelled then pure () else transition .cancelled

/-- Apply a broker-reported cumulative fill count, which carries no price. -/
def applyCumulativeFill (cumulativeTicks : Int) : Fallible OrderRecord TransitionError Unit := do
  let record ← Fallible.reads id
  if cumulativeTicks < record.filledQuantityTicks
      ∨ record.intent.quantityTicks < cumulativeTicks then
    Fallible.fail .mismatchedOrder
  else if cumulativeTicks = record.filledQuantityTicks then pure ()
  else
    transition (if record.intent.quantityTicks ≤ cumulativeTicks then .filled
      else .partiallyFilled)
    Fallible.modify ({ · with filledQuantityTicks := cumulativeTicks })

/-- Record a requested replacement; nothing is written on an error. -/
def prepareReplace (quantityTicks : Int) (limitPriceTicks : Option Int) :
    Fallible OrderRecord ReplaceError Unit := do
  let record ← Fallible.reads id
  if quantityTicks ≤ 0 ∨ quantityTicks < record.filledQuantityTicks then
    Fallible.fail .invalidQuantity
  else if record.state = .acknowledged ∨ record.state = .partiallyFilled then
    Fallible.modify fun record =>
      { record with intent := { record.intent with
          quantityTicks := quantityTicks
          limitPriceTicks := limitPriceTicks
          state := .replacePending } }
  else
    Fallible.fail (.transition (.invalidTransition record.state .replacePending))

end OrderRecord

-- The book

/-- In-memory projection of the durable order journal. -/
structure OrderBook where
  orders : Std.TreeMap String OrderRecord

namespace OrderBook

/-- The empty book. -/
def new : OrderBook := ⟨∅⟩

/-- The record of a client order id. -/
def get (book : OrderBook) (clientOrderId : String) : Option OrderRecord :=
  book.orders[clientOrderId]?

/-- Client order ids in stable order. -/
def clientOrderIds (book : OrderBook) : List String := book.orders.keys

/-- Records in the order of their ids. -/
def records (book : OrderBook) : List OrderRecord := book.orders.values

/-- Write a record back. -/
def put (book : OrderBook) (clientOrderId : String) (record : OrderRecord) : OrderBook :=
  ⟨book.orders.insert clientOrderId record⟩

/-- Run a record's method on the record of `clientOrderId`. -/
def onRecord {ε : Type} (unknown : ε) (clientOrderId : String)
    (p : Fallible OrderRecord ε Unit) : Fallible OrderBook ε Unit := fun book =>
  match book.get clientOrderId with
  | none => (.error unknown, book)
  | some record => ((p record).1, book.put clientOrderId (p record).2)

/-- Persist a newly risk-approved intent; ids are never reused. -/
def insert (intent : OrderIntent) : Fallible OrderBook TransitionError Unit := do
  let book ← Fallible.reads id
  if intent.state ≠ .riskApproved then
    Fallible.fail (.invalidTransition intent.state .riskApproved)
  else if (book.get intent.clientOrderId).isSome then
    Fallible.fail .mismatchedOrder
  else
    Fallible.modify (·.put intent.clientOrderId ⟨intent, none, 0⟩)

/-- Advance an order by one lifecycle step. -/
def transition (clientOrderId : String) (next : OrderState) :
    Fallible OrderBook TransitionError Unit :=
  onRecord .unknownOrder clientOrderId (OrderRecord.transition next)

/-- Mark an uncertain send; unknown orders are never retried blindly. -/
def markUnknown (clientOrderId : String) : Fallible OrderBook TransitionError Unit :=
  transition clientOrderId .unknown

/-- Apply an authoritative broker event to the order it names. -/
def applyBrokerEvent (event : BrokerEvent) : Fallible OrderBook TransitionError Unit :=
  onRecord .unknownOrder event.clientOrderId (OrderRecord.applyBrokerEvent event)

/-- Apply a cumulative fill count of an account snapshot. -/
def applyCumulativeFill (clientOrderId : String) (cumulativeTicks : Int) :
    Fallible OrderBook TransitionError Unit :=
  onRecord .unknownOrder clientOrderId (OrderRecord.applyCumulativeFill cumulativeTicks)

/-- Mark an order replace-pending with the requested fields. -/
def prepareReplace (clientOrderId : String) (quantityTicks : Int)
    (limitPriceTicks : Option Int) : Fallible OrderBook ReplaceError Unit :=
  onRecord (.transition .unknownOrder) clientOrderId
    (OrderRecord.prepareReplace quantityTicks limitPriceTicks)

-- What the operations do to single records

@[simp] theorem get_new (id : String) : new.get id = none := by
  simp [new, get]

@[simp] theorem get_put (book : OrderBook) (id id' : String) (record : OrderRecord) :
    (book.put id record).get id' = if id = id' then some record else book.get id' := by
  simp [get, put, Std.TreeMap.getElem?_insert]

theorem onRecord_of_get {ε : Type} {unknown : ε} {id : String} {p : Fallible OrderRecord ε Unit}
    {book : OrderBook} {record : OrderRecord} (h : book.get id = some record) :
    onRecord unknown id p book = ((p record).1, book.put id (p record).2) := by
  rw [onRecord, h]

theorem onRecord_of_none {ε : Type} {unknown : ε} {id : String} {p : Fallible OrderRecord ε Unit}
    {book : OrderBook} (h : book.get id = none) :
    onRecord unknown id p book = (.error unknown, book) := by
  rw [onRecord, h]

/-- A legal lifecycle step succeeds. -/
theorem transition_of_legal {book : OrderBook} {id : String} {record : OrderRecord}
    {next : OrderState} (h : book.get id = some record)
    (hl : legalTransition record.state next) :
    transition id next book = (.ok (), book.put id (record.setState next)) := by
  rw [transition, onRecord_of_get h]
  simp [OrderRecord.transition, hl]

/-- A known id is refused and the book stays. -/
theorem insert_of_known {book : OrderBook} {intent : OrderIntent}
    (h : (book.get intent.clientOrderId).isSome) : (insert intent book).2 = book := by
  simp only [insert, Fallible.reads_bind, id]
  split
  · rfl
  · rfl

theorem insert_of_known_isOk {book : OrderBook} {intent : OrderIntent}
    (h : (book.get intent.clientOrderId).isSome) : (insert intent book).1.isOk = false := by
  simp only [insert, Fallible.reads_bind, id]
  split
  · rfl
  · rfl

/-- A new risk-approved intent is stored. -/
theorem insert_of_fresh {book : OrderBook} {intent : OrderIntent}
    (hs : intent.state = .riskApproved) (h : book.get intent.clientOrderId = none) :
    insert intent book = (.ok (), book.put intent.clientOrderId ⟨intent, none, 0⟩) := by
  simp [insert, hs, h]

/-- An insertion succeeds exactly for a new risk-approved intent. -/
theorem insert_eq_ok_iff {book book' : OrderBook} {intent : OrderIntent} {u : Unit} :
    insert intent book = (.ok u, book') ↔
      intent.state = .riskApproved ∧ book.get intent.clientOrderId = none ∧
        book' = book.put intent.clientOrderId ⟨intent, none, 0⟩ := by
  rw [insert, Fallible.reads_bind, id]
  by_cases hs : intent.state = .riskApproved
  · cases hget : book.get intent.clientOrderId with
    | none => simp [hs, eq_comm]
    | some record => simp [hs]
  · simp [hs]

/-- Order ids are never forgotten. -/
def Keeps (book book' : OrderBook) : Prop := ∀ id, (book.get id).isSome → (book'.get id).isSome

instance : Std.Refl Keeps := ⟨fun _ _ h => h⟩

instance : IsTrans OrderBook Keeps := ⟨fun _ _ _ h h' id hid => h' id (h id hid)⟩

theorem keeps_put (book : OrderBook) (id : String) (record : OrderRecord) :
    book.Keeps (book.put id record) := by
  intro id' h
  rw [get_put]
  split
  · rfl
  · exact h

theorem onRecord_keeps {ε : Type} (unknown : ε) (id : String) (p : Fallible OrderRecord ε Unit) :
    Fallible.Along Keeps (onRecord unknown id p) := by
  intro book
  unfold onRecord
  split
  · exact fun _ h => h
  · exact keeps_put _ _ _

theorem insert_keeps (intent : OrderIntent) : Fallible.Along Keeps (insert intent) := by
  refine (Fallible.Along.reads _).bind fun book => ?_
  split
  · exact Fallible.Along.fail _
  · split
    · exact Fallible.Along.fail _
    · exact Fallible.Along.modify fun book => keeps_put _ _ _

end OrderBook

end InsiderTrader
