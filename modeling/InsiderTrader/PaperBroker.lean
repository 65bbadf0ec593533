import InsiderTrader.Broker
import InsiderTrader.Library.Fallible
import InsiderTrader.Library.MachineInt

/-!
# The paper broker

The deterministic exchange simulator behind the gateway contract. It fills an
order at once when it is marketable at the current mark and keeps it resting
otherwise; a new mark fills the resting orders it makes marketable.

## Main definitions

- `PaperBroker` — marks, queued events, the last event and the intent of each order, resting orders
- `PaperBroker.setPrice`, `PaperBroker.send`, `PaperBroker.cancel`, `PaperBroker.replace`,
  `PaperBroker.drainEvents` — what moves it
- `PaperBroker.reconcile`, `PaperBroker.snapshot` — what it reports
-/

namespace InsiderTrader

open MachineInt Fallible

/-- Paper-broker failure. -/
inductive SimError where
  | duplicateClientOrder
  | unknownPrice
  | invalidQuantity
  | unsupportedOrder
  deriving DecidableEq

/-- A refusal by the gateway, which the broker renders as a text. -/
inductive PaperError where
  | sim (error : SimError)
  | duplicate (existing : BrokerEvent)
  | notWorking
  | missingIntent
  | positionOverflow
  deriving DecidableEq

/-- Deterministic in-memory exchange simulator. -/
structure PaperBroker where
  prices : Std.TreeMap InstrumentId Int
  events : List BrokerEvent
  seen : Std.TreeMap String BrokerEvent
  accepted : Std.TreeMap String OrderIntent
  resting : Std.TreeMap String OrderIntent
  nextOrderId : ℕ

/-- The greatest order number. -/
def lastOrderId : ℕ := 2 ^ 64 - 1

/-- Whether a limit is marketable at a price. -/
def Side.crosses (side : Side) (limitTicks priceTicks : Int) : Bool :=
  match side with
  | .buy => priceTicks ≤ limitTicks
  | .sell => limitTicks ≤ priceTicks

/-- Whether an order carries a limit that is marketable at a price. -/
def OrderIntent.crosses (intent : OrderIntent) (priceTicks : Int) : Bool :=
  intent.limitPriceTicks.any (intent.side.crosses · priceTicks)

/-- The text of a paper order number. -/
def paperOrderId (n : ℕ) : String := "paper-" ++ toString n

namespace PaperBroker

/-- A paper broker with market and limit support. -/
def new : PaperBroker := ⟨∅, [], ∅, ∅, ∅, 1⟩

/-- What the paper broker supports. -/
def capabilities : Capabilities := ⟨true, true, false, true⟩

/-- Report an event as the last one of its order. -/
def report (event : BrokerEvent) (b : PaperBroker) : PaperBroker :=
  { b with
    seen := b.seen.insert event.clientOrderId event
    events := b.events ++ [event] }

/-- Take the order of an event out of the book and report the event. -/
def leave (event : BrokerEvent) (b : PaperBroker) : PaperBroker :=
  report event { b with resting := b.resting.erase event.clientOrderId }

/-- Fill one resting order completely at a price. -/
def fillResting (priceTicks : Int) (b : PaperBroker) (clientOrderId : String) : PaperBroker :=
  match b.resting[clientOrderId]? with
  | none => b
  | some intent => leave (.filled clientOrderId intent.quantityTicks priceTicks) b

/-- The resting orders of an instrument that are marketable at a price, by client order id. -/
def candidates (b : PaperBroker) (instrumentId : InstrumentId) (priceTicks : Int) : List String :=
  (b.resting.toList.filter fun (_, intent) =>
    intent.instrumentId = instrumentId ∧ intent.crosses priceTicks).map Prod.fst

/-- Fill every resting order of an instrument that a price makes marketable. -/
def matchResting (instrumentId : InstrumentId) (priceTicks : Int) (b : PaperBroker) : PaperBroker :=
  (b.candidates instrumentId priceTicks).foldl (fillResting priceTicks) b

/-- Set the mark that later fills use. -/
def setPrice (instrumentId : InstrumentId) (priceTicks : Int) :
    Fallible PaperBroker SimError Unit := do
  require (0 < priceTicks) .unknownPrice
  modify fun b => { b with prices := b.prices.insert instrumentId priceTicks }
  modify (matchResting instrumentId priceTicks)

/-- Hand out the queued events in the order of their emission. -/
def drainEvents : Fallible PaperBroker SimError (List BrokerEvent) := do
  let events ← reads (·.events)
  modify fun b => { b with events := [] }
  pure events

/-- Whether an order is filled when it is sent. -/
def marketable (intent : OrderIntent) (priceTicks : Int) : Bool :=
  match intent.orderType with
  | .market => true
  | .limit => intent.crosses priceTicks

/-- Register an intent under the next order number and acknowledge it. -/
def accept (intent : OrderIntent) (b : PaperBroker) : PaperBroker :=
  { b with
    accepted := b.accepted.insert intent.clientOrderId intent
    nextOrderId := min (b.nextOrderId + 1) lastOrderId
    events := b.events ++ [.acknowledged intent.clientOrderId (paperOrderId b.nextOrderId)] }

/-- Keep an accepted order resting. The acknowledgement it is remembered by takes the order
number after the increment. -/
def rest (intent : OrderIntent) (b : PaperBroker) : PaperBroker :=
  { b with
    seen := b.seen.insert intent.clientOrderId
      (.acknowledged intent.clientOrderId (paperOrderId b.nextOrderId))
    resting := b.resting.insert intent.clientOrderId intent }

/-- Accept an order and fill it, or keep it resting. -/
def send (intent : OrderIntent) : Fallible PaperBroker PaperError Unit := do
  require (0 < intent.quantityTicks) (.sim .invalidQuantity)
  let price ← reads (·.prices[intent.instrumentId]?)
  let price ← orFail price (.sim .unknownPrice)
  let existing ← reads (·.seen[intent.clientOrderId]?)
  match existing with
  | some existing => fail (.duplicate existing)
  | none =>
    modify (accept intent)
    if marketable intent price then
      modify (report (.filled intent.clientOrderId intent.quantityTicks price))
    else modify (rest intent)

/-- The last event of an order. -/
def reconcile (b : PaperBroker) (clientOrderId : String) : Option BrokerEvent :=
  b.seen[clientOrderId]?

/-- Add the fill of one order to the quantities of the instruments. -/
def addFill (accepted : Std.TreeMap String OrderIntent) (quantities : Std.TreeMap InstrumentId Int)
    (entry : String × BrokerEvent) : Except PaperError (Std.TreeMap InstrumentId Int) :=
  match entry.2 with
  | .filled _ quantityTicks _ =>
    match accepted[entry.1]? with
    | none => .error .missingIntent
    | some intent =>
      let signed := if intent.side = .buy then quantityTicks else saturatingNeg 64 quantityTicks
      match narrow 64 (quantities.getD intent.instrumentId 0 + signed) with
      | none => .error .positionOverflow
      | some next => .ok (quantities.insert intent.instrumentId next)
  | _ => .ok quantities

/-- One order of the snapshot. -/
def orderSnapshot (entry : String × BrokerEvent) : BrokerOrderSnapshot where
  clientOrderId := entry.1
  event := entry.2
  filledQuantityTicks := match entry.2 with
    | .filled _ quantityTicks _ => some quantityTicks
    | _ => none

/-- The account as the broker reports it: the last event of each order and the positions that
the filled ones add up to. -/
def snapshot (b : PaperBroker) : Except PaperError BrokerSnapshot := do
  let quantities ← b.seen.toList.foldlM (addFill b.accepted) ∅
  .ok {
    orders := b.seen.toList.map orderSnapshot
    positions := (quantities.toList.filter (·.2 ≠ 0)).map fun (i, q) => ⟨i, q⟩
    accountValues := ∅ }

/-- Take a resting order out of the book. -/
def cancel (clientOrderId : String) : Fallible PaperBroker PaperError Unit := do
  let working ← reads (·.resting[clientOrderId]?)
  let _ ← orFail working .notWorking
  modify (leave (.cancelled clientOrderId))

/-- Change quantity and limit of a resting order. -/
def replace (clientOrderId : String) (quantityTicks : Int) (limitPriceTicks : Option Int) :
    Fallible PaperBroker PaperError Unit := do
  require (0 < quantityTicks) (.sim .invalidQuantity)
  let working ← reads (·.resting[clientOrderId]?)
  let intent ← orFail working .notWorking
  require (¬(intent.orderType = .limit ∧ limitPriceTicks = none)) (.sim .unsupportedOrder)
  modify fun b => { b with
    resting := b.resting.insert clientOrderId
      { intent with quantityTicks := quantityTicks, limitPriceTicks := limitPriceTicks } }

end PaperBroker

end InsiderTrader
