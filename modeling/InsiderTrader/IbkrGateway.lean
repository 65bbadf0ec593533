import InsiderTrader.Broker
import InsiderTrader.Library.Fallible
import InsiderTrader.Library.Text
import Mathlib.Data.Finset.Basic
import Std.Data.TreeMap.Lemmas

/-!
# The IBKR gateway

The state of the adapter behind its lock, and the sections of its calls that
hold it. A send holds the lock twice: before the transport is asked to place the
order, and after it has answered.

## Main definitions

- `AdapterState` — the session, the orders and the callbacks of the adapter
- `AdapterState.admission`, `AdapterState.settle` — the two sections of a send
- `AdapterState.onCallback`, `AdapterState.drainCallbacks` — the queue of callbacks
- `AdapterState.reconcile` — hand on what the transport knows of an order
-/

namespace InsiderTrader

/-- Adapter session health. -/
inductive SessionState where
  | disconnected
  | connecting
  | ready
  | degraded
  deriving DecidableEq

/-- The name of a state in diagnostics. -/
def SessionState.debug : SessionState → String
  | disconnected => "Disconnected"
  | connecting => "Connecting"
  | ready => "Ready"
  | degraded => "Degraded"

def maxCallbackQueue : ℕ := 8192

/-- What the lock of the adapter guards. -/
structure AdapterState where
  session : SessionState
  accepted : Std.TreeMap String OrderIntent
  pending : Finset String
  callbacks : List BrokerEvent

namespace AdapterState

/-- A disconnected adapter. -/
def new : AdapterState := ⟨.disconnected, ∅, ∅, []⟩

-- The session

/-- Mark the adapter as connecting. -/
def beginConnect : Fallible AdapterState String Unit := do
  let session ← Fallible.reads session
  Fallible.require (session ≠ .ready) "already connected"
  Fallible.modify fun s => { s with session := .connecting }

/-- Publish an authenticated session. -/
def connectReady : Fallible AdapterState String Unit :=
  Fallible.modify fun s => { s with session := .ready }

/-- Mark the session degraded. -/
def markDegraded : Fallible AdapterState String Unit :=
  Fallible.modify fun s => { s with session := .degraded }

/-- Mark the transport disconnected; accepted orders are kept. -/
def disconnect : Fallible AdapterState String Unit :=
  Fallible.modify fun s => { s with session := .disconnected }

-- Sending

def validateClientOrderId (clientOrderId : String) : Except String Unit :=
  if Text.isBlank clientOrderId ∨ 256 < clientOrderId.utf8ByteSize then
    .error "client order ID is invalid"
  else .ok ()

/-- The checks of an order that come before the lock. -/
def validateIntent (capabilities : Capabilities) (intent : OrderIntent) : Except String Unit := do
  validateClientOrderId intent.clientOrderId
  if intent.quantityTicks ≤ 0 then .error "order quantity must be positive"
  else
    match intent.orderType with
    | .market =>
      if ¬capabilities.market then .error "broker does not support market orders"
      else if intent.limitPriceTicks.isSome then .error "market orders cannot carry a limit price"
      else .ok ()
    | .limit =>
      if ¬capabilities.limit then .error "broker does not support limit orders"
      else if intent.limitPriceTicks.all (· ≤ 0) then .error "limit order price must be positive"
      else .ok ()

/-- The first section of a send: whether to ask the transport to place the order, which is not
asked for an order that it has accepted. -/
def admission (capabilities : Capabilities) (intent : OrderIntent) :
    Fallible AdapterState String Bool := do
  Fallible.ofExcept (validateIntent capabilities intent)
  let session ← Fallible.reads session
  Fallible.require (session = .ready) ("session not ready: " ++ session.debug)
  let existing ← Fallible.reads (·.accepted[intent.clientOrderId]?)
  match existing with
  | some existing =>
    Fallible.require (existing = intent) "client order ID reused with different intent"
    pure false
  | none =>
    let pending ← Fallible.reads pending
    Fallible.require (intent.clientOrderId ∉ pending) "client order ID send already in flight"
    Fallible.modify fun s => { s with pending := insert intent.clientOrderId s.pending }
    pure true

/-- The second section of a send, with the transport's answer. -/
def settle (intent : OrderIntent) (answer : Except String Unit) :
    Fallible AdapterState String Unit := do
  Fallible.modify fun s => { s with pending := s.pending.erase intent.clientOrderId }
  match answer with
  | .error e =>
    Fallible.modify fun s => { s with session := .degraded }
    Fallible.fail e
  | .ok _ =>
    Fallible.modify fun s =>
      { s with accepted := s.accepted.insert intent.clientOrderId intent }

-- Callbacks

/-- Queue a callback for the engine, unless an equal one waits there; whether it was queued. -/
def onCallback (event : BrokerEvent) : Fallible AdapterState String Bool := do
  Fallible.require (¬Text.isBlank event.clientOrderId) "callback client order ID is empty"
  let callbacks ← Fallible.reads callbacks
  if event ∈ callbacks then pure false
  else do
    Fallible.require (callbacks.length < maxCallbackQueue)
      "broker callback queue is full; reconciliation required"
    Fallible.modify fun s => { s with callbacks := s.callbacks ++ [event] }
    pure true

/-- Take the callbacks in arrival order. -/
def drainCallbacks : Fallible AdapterState String (List BrokerEvent) := do
  let callbacks ← Fallible.reads callbacks
  Fallible.modify fun s => { s with callbacks := [] }
  pure callbacks

/-- Hand on the transport's answer about an order, and queue it as a callback. The transport is
asked when the identity is not blank. -/
def reconcile (clientOrderId : String) (answer : Except String (Option BrokerEvent)) :
    Fallible AdapterState String (Option BrokerEvent) := do
  Fallible.require (¬Text.isBlank clientOrderId) "client order ID is empty"
  let event ← Fallible.ofExcept answer
  match event with
  | some event => Fallible.discard (onCallback event)
  | none => pure ()
  pure event

end AdapterState

end InsiderTrader
