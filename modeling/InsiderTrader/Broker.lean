import Mathlib.Data.Nat.Notation
import Std.Data.TreeMap

/-!
# Broker contracts

The broker-neutral order types, the events an adapter reports and the gateway
through which the engine reaches a broker. Quantities and prices are signed
64-bit ticks, kept as `Int` with their range checks where the code has them.

## Main definitions

- `OrderIntent` — a durable order intent
- `BrokerEvent` — an adapter's normalized event
- `BrokerSnapshot` — a broker's account snapshot
- `BrokerGateway` — the answers of a broker
-/

namespace InsiderTrader

/-- Account, instrument, trace and proposal identities are non-zero 128-bit numbers. -/
abbrev AccountId := ℕ

@[inherit_doc AccountId]
abbrev InstrumentId := ℕ

@[inherit_doc AccountId]
abbrev TraceId := ℕ

@[inherit_doc AccountId]
abbrev ProposalId := ℕ

/-- The lower-case hexadecimal digits of `n`, padded with zeros to `width`. -/
def hexDigits : ℕ → ℕ → List Char
  | 0, _ => []
  | width + 1, n => hexDigits width (n / 16) ++ [Nat.digitChar (n % 16)]

/-- The canonical text of an identity with the prefix of its type. -/
def displayIdentity (domain : String) (n : ℕ) : String :=
  domain ++ "_" ++ String.ofList (hexDigits 32 n)

/-- Transport health of a broker session. -/
inductive BrokerHealth where
  | unknown
  | healthy
  | degraded
  | unavailable
  deriving DecidableEq

/-- Order direction. -/
inductive Side where
  | buy
  | sell
  deriving DecidableEq

/-- Broker-neutral order type. -/
inductive OrderType where
  | market
  | limit
  deriving DecidableEq

/-- Time-in-force policy. -/
inductive TimeInForce where
  | day
  | goodTilCancel
  | immediateOrCancel
  deriving DecidableEq

/-- Explicit order lifecycle. -/
inductive OrderState where
  | created
  | riskApproved
  | queued
  | sending
  | sent
  | acknowledged
  | partiallyFilled
  | filled
  | cancelPending
  | replacePending
  | cancelled
  | rejected
  | expired
  | unknown
  deriving DecidableEq

/-- Durable broker-neutral order intent. -/
structure OrderIntent where
  intentId : String
  accountId : AccountId
  instrumentId : InstrumentId
  clientOrderId : String
  side : Side
  quantityTicks : Int
  orderType : OrderType
  limitPriceTicks : Option Int
  timeInForce : TimeInForce
  state : OrderState
  traceId : TraceId
  deriving DecidableEq

/-- The signed quantity of an order. -/
def OrderIntent.signedTicks (intent : OrderIntent) : Int :=
  if intent.side = .buy then intent.quantityTicks else -intent.quantityTicks

/-- Broker event normalized by an adapter. -/
inductive BrokerEvent where
  | acknowledged (clientOrderId brokerOrderId : String)
  | filled (clientOrderId : String) (quantityTicks priceTicks : Int)
  | rejected (clientOrderId reason : String)
  | cancelled (clientOrderId : String)
  deriving DecidableEq

/-- The order an event is about. -/
def BrokerEvent.clientOrderId : BrokerEvent → String
  | acknowledged id _ => id
  | filled id _ _ => id
  | rejected id _ => id
  | cancelled id => id

/-- One order of a broker account snapshot: its latest event and, when the
broker supplies it, its cumulative filled quantity. -/
structure BrokerOrderSnapshot where
  clientOrderId : String
  event : BrokerEvent
  filledQuantityTicks : Option Int
  deriving DecidableEq

/-- One signed position of a broker account snapshot. -/
structure BrokerPositionSnapshot where
  instrumentId : InstrumentId
  quantityTicks : Int
  deriving DecidableEq

/-- Authoritative broker state used during reconciliation. -/
structure BrokerSnapshot where
  orders : List BrokerOrderSnapshot
  positions : List BrokerPositionSnapshot
  accountValues : Std.TreeMap String Int

/-- Canonical account-value key for reporting-currency cash ticks. -/
def accountValueCashTicks : String := "cash_ticks"

/-- Capability declaration of an adapter. -/
structure Capabilities where
  market : Bool
  limit : Bool
  fractionalQuantity : Bool
  cancelReplace : Bool
  deriving DecidableEq

/-- One request to a broker gateway, as the broker receives it. -/
inductive BrokerCall where
  | send (intent : OrderIntent)
  | cancel (clientOrderId : String)
  | replace (clientOrderId : String) (quantityTicks : Int) (limitPriceTicks : Option Int)
  | reconcile (clientOrderId : String)
  | snapshot
  deriving DecidableEq

/-- A broker gateway. Each answer may depend on every call the broker received
before, so that a gateway stands for any sequence of answers. -/
structure BrokerGateway where
  health : BrokerHealth
  capabilities : Capabilities
  send : List BrokerCall → OrderIntent → Except String Unit
  cancel : List BrokerCall → String → Except String Unit
  replace : List BrokerCall → String → Int → Option Int → Except String Unit
  reconcile : List BrokerCall → String → Except String (Option BrokerEvent)
  snapshot : List BrokerCall → Except String BrokerSnapshot

end InsiderTrader
