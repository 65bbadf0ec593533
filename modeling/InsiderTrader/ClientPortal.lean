import InsiderTrader.Broker
import InsiderTrader.Library.Fallible
import InsiderTrader.Library.JsonValue
import InsiderTrader.Library.Text
import Mathlib.Algebra.BigOperators.Group.List.Basic
import Mathlib.Algebra.Order.BigOperators.Group.List
import Mathlib.Data.List.Induction

/-!
# The account snapshot of the Client Portal

The portal lists the orders of an account and its trades, one entry for each
execution. The snapshot takes the orders first and then lets every trade
overwrite the row of its order, so that a row ends with the last execution.

## Main definitions

- `ClientPortal` — the portal as the adapter reaches it
- `ClientPortal.orderEvent`, `ClientPortal.tradeEvent` — one entry of a list
- `ClientPortal.snapshot` — the account snapshot
- `ClientPortal.Cumulative` — the rows report whole orders

## Main results

- `rowsOf_reportedRows` — the rows of an order
- `snapshot_cumulative_iff` — the lists for which the rows report whole orders
-/

namespace InsiderTrader

/-- Bounded HTTPS request. -/
structure HttpRequest where
  method : String
  url : String
  body : Option (List UInt8)
  deriving DecidableEq

/-- Bounded HTTPS response. -/
structure HttpResponse where
  status : ℕ
  body : List UInt8
  deriving DecidableEq

/-- The portal: its account, the transport to it, how a body is parsed, and what its numbers are
worth. -/
structure ClientPortal where
  baseUrl : String
  accountId : String
  send : HttpRequest → Except String HttpResponse
  parseJson : List UInt8 → Option JsonValue
  /-- a number as a double, its fraction cut off, when it is finite and fits 64 bits -/
  truncate : JsonNumber → Option Int
  /-- the same of the double that a text denotes -/
  truncateText : String → Option Int

/-- An order of the portal. -/
structure ListedOrder where
  brokerOrderId : String
  event : BrokerEvent
  filledTicks : Option Int
  deriving DecidableEq

/-- An execution of the portal; its quantity and price are positive. -/
structure PortalTrade where
  brokerOrderId : String
  clientOrderId : String
  quantityTicks : Int
  priceTicks : Int
  positive : 0 < quantityTicks ∧ 0 < priceTicks
  deriving DecidableEq

/-- The event of an execution. -/
def PortalTrade.event (e : PortalTrade) : BrokerEvent :=
  .filled e.clientOrderId e.quantityTicks e.priceTicks

namespace ClientPortal

-- Reading the lists

def valueAsString (value : JsonValue) : Option String :=
  value.asString.or (value.asInt64.map toString)

def valueAsInt64 (portal : ClientPortal) (value : JsonValue) : Option Int :=
  (value.asInt64.or (value.asNumber.bind portal.truncate)).or
    (value.asString.bind fun text =>
      (Text.parseSigned 64 text.toList).or (portal.truncateText text))

/-- Read an entry of the list of orders. -/
def orderEvent (portal : ClientPortal) (order : JsonValue) : Option ListedOrder := do
  let clientId ← (order.fieldAmong ["cOID", "clientOrderId"]).bind JsonValue.asString
  let brokerId ← (order.fieldAmong ["orderId", "id"]).bind valueAsString
  let status := (((order.field "status").bind JsonValue.asString).getD "").map Char.toUpper
  let filled := ((order.field "filledQuantity").bind portal.valueAsInt64).getD 0
  let event :=
    if status = "FILLED" then
      .filled clientId filled (((order.field "avgPrice").bind portal.valueAsInt64).getD 0)
    else if status = "CANCELLED" ∨ status = "CANCELED" then .cancelled clientId
    else if status = "REJECTED" ∨ status = "INACTIVE" then
      let message := ((order.field "message").bind JsonValue.asString).getD "IBKR rejected order"
      .rejected clientId (String.ofList (message.toList.take 512))
    else .acknowledged clientId brokerId
  some ⟨brokerId, event, if 0 < filled then some filled else none⟩

/-- Read an entry of the list of trades. -/
def tradeEvent (portal : ClientPortal) (trade : JsonValue) : Option PortalTrade := do
  let nested := trade.field "order"
  let clientId ← ((trade.fieldAmong ["cOID", "clientOrderId"]).or
    (nested.bind (·.fieldAmong ["cOID", "clientOrderId"]))).bind JsonValue.asString
  let brokerId ← ((trade.field "orderId").or (nested.bind (·.field "orderId"))).bind valueAsString
  let execution := (trade.field "execution").getD trade
  let quantity ← ((execution.fieldAmong ["quantity", "size"]).or (trade.field "quantity")).bind
    portal.valueAsInt64
  let price ← ((execution.fieldAmong ["price", "avgPrice"]).or (trade.field "price")).bind
    portal.valueAsInt64
  if h : 0 < quantity ∧ 0 < price then some ⟨brokerId, clientId, quantity, price, h⟩ else none

-- Requests

/-- Ask the portal; an empty body is a null. -/
def request (portal : ClientPortal) (method path : String) (body : Option (List UInt8)) :
    Except String JsonValue := do
  let response ← portal.send ⟨method, portal.baseUrl ++ path, body⟩
  if ¬(200 ≤ response.status ∧ response.status < 300) then
    .error ("IBKR Client Portal HTTP status " ++ toString response.status)
  else if response.body.isEmpty then .ok .null
  else
    match portal.parseJson response.body with
    | none => .error "IBKR Client Portal returned invalid JSON"
    | some value => .ok value

/-- The entries of a list that stands alone or under a key. -/
def entries (key : String) (value : JsonValue) : Except String (List JsonValue) :=
  let list := (value.field key).or (value.asArray.map fun _ => value)
  match list.bind JsonValue.asArray with
  | some items => .ok items
  | none => .error ("IBKR " ++ key ++ " response missing " ++ key ++ " array")

def orders (portal : ClientPortal) : Except String (List JsonValue) := do
  entries "orders"
    (← portal.request "GET" ("/v1/api/iserver/account/" ++ portal.accountId ++ "/orders") none)

def trades (portal : ClientPortal) : Except String (List JsonValue) := do
  entries "trades" (← portal.request "GET" "/v1/api/iserver/account/trades" none)

/-- Read an entry of the list of positions; one without a contract is left out. -/
def position (portal : ClientPortal) (item : JsonValue) :
    Except String (Option BrokerPositionSnapshot) :=
  match (item.field "conid").bind portal.valueAsInt64 with
  | none => .ok none
  | some conid =>
    match (item.field "position").bind portal.valueAsInt64 with
    | none => .error "IBKR position missing quantity"
    | some quantity =>
      if conid < 0 then .error "IBKR conid is negative"
      else if conid = 0 then .error "IBKR conid is invalid"
      else .ok (some ⟨conid.toNat, quantity⟩)

/-- The positions of the account. -/
def positions (portal : ClientPortal) : Except String (List BrokerPositionSnapshot) := do
  let value ← portal.request "GET" ("/v1/api/portfolio/" ++ portal.accountId ++ "/positions/0") none
  let items ← (value.asArray.getD []).mapM portal.position
  .ok (items.filterMap id)

/-- The account values of the account; there must be a cash value. -/
def accountValues (portal : ClientPortal) : Except String (Std.TreeMap String Int) := do
  let value ← portal.request "GET" ("/v1/api/portfolio/" ++ portal.accountId ++ "/accounts") none
  let item := value.asArray.bind List.head?
  match (item.bind (·.fieldAmong ["totalcashvalue", "cashbalance"])).bind portal.valueAsInt64 with
  | none => .error "IBKR account snapshot missing cash value"
  | some cash => .ok ((∅ : Std.TreeMap String Int).insert accountValueCashTicks cash)

-- The snapshot

/-- Write an execution into the row of its order, or into a new row. -/
def mergeTrade (e : PortalTrade) : List BrokerOrderSnapshot → List BrokerOrderSnapshot
  | [] => [⟨e.clientOrderId, e.event, some e.quantityTicks⟩]
  | row :: rows =>
    if row.clientOrderId = e.clientOrderId then
      { row with event := e.event, filledQuantityTicks := some e.quantityTicks } :: rows
    else row :: mergeTrade e rows

/-- The row of a listed order. -/
def listedRow (order : ListedOrder) : BrokerOrderSnapshot :=
  ⟨order.event.clientOrderId, order.event, order.filledTicks⟩

/-- The rows that orders and executions make. -/
def reportedRows (listed : List ListedOrder) (executed : List PortalTrade) :
    List BrokerOrderSnapshot :=
  executed.foldl (fun rows e => mergeTrade e rows) (listed.map listedRow)

/-- Note the broker's identities of orders. -/
def noteIds (ids : List (String × String)) (known : Std.TreeMap String String) :
    Std.TreeMap String String :=
  ids.foldl (fun known id => known.insert id.1 id.2) known

/-- The account snapshot; the state is the broker's identities of orders. -/
def snapshot (portal : ClientPortal) : Fallible (Std.TreeMap String String) String BrokerSnapshot := do
  let orders ← Fallible.ofExcept portal.orders
  let listed := orders.filterMap portal.orderEvent
  Fallible.modify (noteIds (listed.map fun o => (o.event.clientOrderId, o.brokerOrderId)))
  let trades ← Fallible.ofExcept portal.trades
  let executed := trades.filterMap portal.tradeEvent
  Fallible.modify (noteIds (executed.map fun e => (e.clientOrderId, e.brokerOrderId)))
  let positions ← Fallible.ofExcept portal.positions
  let accountValues ← Fallible.ofExcept portal.accountValues
  pure ⟨reportedRows listed executed, positions, accountValues⟩

variable {portal : ClientPortal} {listed : List ListedOrder} {executed : List PortalTrade}
  {rows : List BrokerOrderSnapshot}

/-- The rows of an order. -/
def rowsOf (clientId : String) (rows : List BrokerOrderSnapshot) : List BrokerOrderSnapshot :=
  rows.filter (·.clientOrderId = clientId)

/-- The executions of an order. -/
def tradesOf (clientId : String) (executed : List PortalTrade) : List PortalTrade :=
  executed.filter (·.clientOrderId = clientId)

theorem rowsOf_cons (clientId : String) (row : BrokerOrderSnapshot)
    (rows : List BrokerOrderSnapshot) : rowsOf clientId (row :: rows) =
      if row.clientOrderId = clientId then row :: rowsOf clientId rows else rowsOf clientId rows := by
  simp [rowsOf, List.filter_cons]

theorem tradesOf_append_singleton (clientId : String) (executed : List PortalTrade)
    (e : PortalTrade) : tradesOf clientId (executed ++ [e]) =
      if e.clientOrderId = clientId then tradesOf clientId executed ++ [e]
      else tradesOf clientId executed := by
  by_cases h : e.clientOrderId = clientId
  · simp [tradesOf, h]
  · simp [tradesOf, h]

/-- The rows of a snapshot come from the two lists. -/
theorem snapshot_rows {orders trades : List JsonValue} {ids ids' : Std.TreeMap String String}
    {s : BrokerSnapshot} (horders : portal.orders = Except.ok orders)
    (htrades : portal.trades = Except.ok trades) (hs : portal.snapshot ids = (Except.ok s, ids')) :
    s.orders = reportedRows (orders.filterMap portal.orderEvent)
      (trades.filterMap portal.tradeEvent) := by
  rw [snapshot, Fallible.ofExcept_bind_ok horders, Fallible.modify_bind,
    Fallible.ofExcept_bind_ok htrades, Fallible.modify_bind] at hs
  obtain ⟨positions, -, hs⟩ := Fallible.ofExcept_bind_eq_ok hs
  obtain ⟨accountValues, -, hs⟩ := Fallible.ofExcept_bind_eq_ok hs
  cases hs
  rfl

/-- The rows of an order, after an execution of it. -/
def overwrite (e : PortalTrade) : List BrokerOrderSnapshot → List BrokerOrderSnapshot
  | [] => [⟨e.clientOrderId, e.event, some e.quantityTicks⟩]
  | row :: rows => { row with event := e.event, filledQuantityTicks := some e.quantityTicks } :: rows

/-- An execution writes the first row of its order, and no other row. -/
theorem rowsOf_mergeTrade (e : PortalTrade) (rows : List BrokerOrderSnapshot) (clientId : String) :
    rowsOf clientId (mergeTrade e rows) =
      if e.clientOrderId = clientId then overwrite e (rowsOf clientId rows)
      else rowsOf clientId rows := by
  induction rows with
  | nil =>
    rw [mergeTrade, rowsOf_cons]
    rfl
  | cons row rows ih =>
    rw [mergeTrade, rowsOf_cons]
    by_cases hrow : row.clientOrderId = e.clientOrderId
    · rw [if_pos hrow, rowsOf_cons]
      by_cases he : e.clientOrderId = clientId
      · rw [if_pos he, if_pos (hrow.trans he), if_pos (hrow.trans he)]
        rfl
      · have hid : ¬row.clientOrderId = clientId := fun h => he (hrow.symm.trans h)
        rw [if_neg he, if_neg hid, if_neg hid]
    · rw [if_neg hrow, rowsOf_cons]
      by_cases hid : row.clientOrderId = clientId
      · have he : ¬e.clientOrderId = clientId := fun h => hrow (hid.trans h.symm)
        rw [if_pos hid, if_pos hid, ih, if_neg he, if_neg he]
      · rw [if_neg hid, if_neg hid, ih]

/-- The row that the last execution of an order leaves. -/
def tradeRow (clientId : String) (e : PortalTrade) : BrokerOrderSnapshot :=
  ⟨clientId, e.event, some e.quantityTicks⟩

/-- The rows of an order after its executions. -/
def settledRows (clientId : String) (rows : List BrokerOrderSnapshot) :
    Option PortalTrade → List BrokerOrderSnapshot
  | none => rows
  | some last => tradeRow clientId last :: rows.tail

theorem overwrite_settledRows {clientId : String} {rows : List BrokerOrderSnapshot}
    (hrows : ∀ row ∈ rows, row.clientOrderId = clientId) (e : PortalTrade)
    (he : e.clientOrderId = clientId) (last : Option PortalTrade) :
    overwrite e (settledRows clientId rows last) = settledRows clientId rows (some e) := by
  cases last with
  | some last => rfl
  | none =>
    cases rows with
    | nil =>
      rw [settledRows, settledRows, tradeRow, ← he]
      rfl
    | cons row rows =>
      have hrow := hrows row (List.mem_cons_self ..)
      rw [settledRows, settledRows, tradeRow, ← hrow]
      rfl

/-- **The rows of an order**: the last of its executions is in the first row, whatever was there;
an order without executions has the rows of the list of orders. -/
theorem rowsOf_reportedRows (listed : List ListedOrder) (executed : List PortalTrade)
    (clientId : String) :
    rowsOf clientId (reportedRows listed executed) =
      settledRows clientId (rowsOf clientId (listed.map listedRow))
        (tradesOf clientId executed).getLast? := by
  induction executed using List.reverseRecOn with
  | nil => rfl
  | append_singleton executed e ih =>
    have hstep : reportedRows listed (executed ++ [e]) =
        mergeTrade e (reportedRows listed executed) := by
      rw [reportedRows, List.foldl_append]
      rfl
    rw [hstep, rowsOf_mergeTrade, ih, tradesOf_append_singleton]
    by_cases he : e.clientOrderId = clientId
    · have hrows : ∀ row ∈ rowsOf clientId (listed.map listedRow), row.clientOrderId = clientId :=
        fun row hrow => of_decide_eq_true (List.mem_filter.mp hrow).2
      rw [if_pos he, if_pos he, List.getLast?_concat, overwrite_settledRows hrows e he]
    · rw [if_neg he, if_neg he]

-- Whole orders

/-- The quantity that an order has executed. -/
def executedTicks (clientId : String) (executed : List PortalTrade) : Int :=
  ((tradesOf clientId executed).map PortalTrade.quantityTicks).sum

/-- An event after which an order executes no more. -/
def Ended : BrokerEvent → Prop
  | .cancelled _ | .rejected _ _ => True
  | _ => False

instance : DecidablePred Ended
  | .cancelled _ | .rejected _ _ => .isTrue trivial
  | .acknowledged _ _ | .filled _ _ _ => .isFalse id

/-- The rows report whole orders. -/
structure Cumulative (rows : List BrokerOrderSnapshot) (listed : List ListedOrder)
    (executed : List PortalTrade) : Prop where
  /-- an executed order has one row, with the sum of its executions -/
  total : ∀ e ∈ executed, ∃ row, rowsOf e.clientOrderId rows = [row] ∧
    row.filledQuantityTicks = some (executedTicks e.clientOrderId executed)
  /-- an order that was cancelled or rejected keeps the event -/
  ended : ∀ o ∈ listed, Ended o.event →
    ∃ row ∈ rowsOf o.event.clientOrderId rows, row.event = o.event

/-- An order executed at once, listed at most once and not as ended. -/
structure AtOnce (clientId : String) (listed : List ListedOrder) (executed : List PortalTrade) :
    Prop where
  single : (tradesOf clientId executed).length = 1
  listedOnce : (listed.filter (·.event.clientOrderId = clientId)).length ≤ 1
  live : ∀ o ∈ listed, o.event.clientOrderId = clientId → ¬Ended o.event

theorem rowsOf_listed (clientId : String) (listed : List ListedOrder) :
    rowsOf clientId (listed.map listedRow) =
      (listed.filter (·.event.clientOrderId = clientId)).map listedRow := by
  rw [rowsOf, List.filter_map]
  rfl

theorem mem_tradesOf {e : PortalTrade} {clientId : String} :
    e ∈ tradesOf clientId executed ↔ e ∈ executed ∧ e.clientOrderId = clientId := by
  simp [tradesOf]

/-- The executions before the last one add to the sum, unless there are none. -/
theorem executedTicks_of_append {clientId : String} {before : List PortalTrade} {last : PortalTrade}
    (h : tradesOf clientId executed = before ++ [last]) :
    executedTicks clientId executed = last.quantityTicks ↔ before = [] := by
  have hsum : executedTicks clientId executed =
      (before.map PortalTrade.quantityTicks).sum + last.quantityTicks := by
    rw [executedTicks, h, List.map_append, List.sum_append]
    simp
  cases before with
  | nil => simp [hsum]
  | cons first others =>
    have hrest : 0 ≤ (others.map PortalTrade.quantityTicks).sum := by
      refine List.sum_nonneg fun q hq => ?_
      obtain ⟨e, -, rfl⟩ := List.mem_map.mp hq
      exact le_of_lt e.positive.1
    have hfirst := first.positive.1
    simp only [hsum, List.map_cons, List.sum_cons, reduceCtorEq, iff_false]
    omega

/-- The rows of an executed order: one row of the last execution, and the rows of its other
entries in the list of orders. -/
theorem rowsOf_executed (listed : List ListedOrder) {clientId : String} {before : List PortalTrade}
    {last : PortalTrade} (h : tradesOf clientId executed = before ++ [last]) :
    rowsOf clientId (reportedRows listed executed) =
      tradeRow clientId last ::
        ((listed.filter (·.event.clientOrderId = clientId)).map listedRow).tail := by
  rw [rowsOf_reportedRows, h, List.getLast?_concat, rowsOf_listed]
  rfl

/-- An executed order has one row with the sum of its executions exactly when it was executed at
once and is listed at most once. -/
theorem total_iff (listed : List ListedOrder) {clientId : String} {before : List PortalTrade}
    {last : PortalTrade} (h : tradesOf clientId executed = before ++ [last]) :
    (∃ row, rowsOf clientId (reportedRows listed executed) = [row] ∧
      row.filledQuantityTicks = some (executedTicks clientId executed)) ↔
      (tradesOf clientId executed).length = 1 ∧
        (listed.filter (·.event.clientOrderId = clientId)).length ≤ 1 := by
  have hone : (tradesOf clientId executed).length = 1 ↔ before = [] := by
    rw [h, List.length_append, List.length_singleton, ← List.length_eq_zero_iff]
    omega
  have htail : ((listed.filter (·.event.clientOrderId = clientId)).map listedRow).tail = [] ↔
      (listed.filter (·.event.clientOrderId = clientId)).length ≤ 1 := by
    rw [← List.length_eq_zero_iff, List.length_tail, List.length_map]
    omega
  rw [rowsOf_executed listed h, hone, ← htail, ← executedTicks_of_append h]
  constructor
  · rintro ⟨row, hrow, hticks⟩
    obtain ⟨rfl, hrest⟩ := List.cons_eq_cons.mp hrow
    exact ⟨(Option.some.inj hticks).symm, hrest⟩
  · rintro ⟨hsum, hrest⟩
    exact ⟨tradeRow clientId last, by rw [hrest], by rw [hsum]; rfl⟩

theorem exists_last {e : PortalTrade} (he : e ∈ executed) :
    ∃ before last, tradesOf e.clientOrderId executed = before ++ [last] := by
  have hmem : e ∈ tradesOf e.clientOrderId executed := mem_tradesOf.mpr ⟨he, rfl⟩
  exact ⟨_, _, (List.dropLast_append_getLast (List.ne_nil_of_mem hmem)).symm⟩

theorem rowsOf_unexecuted (listed : List ListedOrder) {clientId : String}
    (h : tradesOf clientId executed = []) : rowsOf clientId (reportedRows listed executed) =
      (listed.filter (·.event.clientOrderId = clientId)).map listedRow := by
  rw [rowsOf_reportedRows, h, List.getLast?_nil, rowsOf_listed]
  rfl

/-- The rows report whole orders exactly when every executed order was executed at once, is listed
at most once, and is not listed as ended. -/
theorem cumulative_iff (listed : List ListedOrder) (executed : List PortalTrade) :
    Cumulative (reportedRows listed executed) listed executed ↔
      ∀ e ∈ executed, AtOnce e.clientOrderId listed executed := by
  constructor
  · intro h e he
    obtain ⟨before, last, hlast⟩ := exists_last he
    obtain ⟨hsingle, honce⟩ := (total_iff listed hlast).mp (h.total e he)
    refine ⟨hsingle, honce, fun o ho hid hended => ?_⟩
    -- the only row of the order is that of the execution
    obtain ⟨row, hrow, hevent⟩ := h.ended o ho hended
    obtain ⟨only, hrows, -⟩ := h.total e he
    rw [rowsOf_executed listed hlast] at hrows
    rw [hid, rowsOf_executed listed hlast, (List.cons_eq_cons.mp hrows).2,
      List.mem_singleton] at hrow
    rw [hrow] at hevent
    rw [← hevent] at hended
    exact hended
  · intro h
    refine ⟨fun e he => ?_, fun o ho hended => ?_⟩
    · obtain ⟨before, last, hlast⟩ := exists_last he
      exact (total_iff listed hlast).mpr ⟨(h e he).single, (h e he).listedOnce⟩
    · -- an order that is listed as ended has no execution
      have hnone : tradesOf o.event.clientOrderId executed = [] := by
        refine List.eq_nil_iff_forall_not_mem.mpr fun e he => ?_
        obtain ⟨he, hid⟩ := mem_tradesOf.mp he
        exact (h e he).live o ho hid.symm hended
      refine ⟨listedRow o, ?_, rfl⟩
      rw [rowsOf_unexecuted listed hnone]
      exact List.mem_map_of_mem (List.mem_filter.mpr ⟨ho, by simp⟩)

/-- **Cumulative snapshots**: the snapshot reports whole orders exactly when every executed order
was executed at once, is listed at most once, and is not listed as cancelled or rejected. -/
theorem snapshot_cumulative_iff (portal : ClientPortal) {orders trades : List JsonValue}
    {ids ids' : Std.TreeMap String String} {s : BrokerSnapshot}
    (horders : portal.orders = Except.ok orders) (htrades : portal.trades = Except.ok trades)
    (hs : portal.snapshot ids = (Except.ok s, ids')) :
    Cumulative s.orders (orders.filterMap portal.orderEvent)
        (trades.filterMap portal.tradeEvent) ↔
      ∀ e ∈ trades.filterMap portal.tradeEvent, AtOnce e.clientOrderId
        (orders.filterMap portal.orderEvent) (trades.filterMap portal.tradeEvent) := by
  rw [snapshot_rows horders htrades hs]
  exact cumulative_iff _ _

end ClientPortal

namespace Sample

/-- A portal with one listed order and some trades. -/
def portalOf (order : JsonValue) (trades : List JsonValue) : ClientPortal where
  baseUrl := ""
  accountId := "U1"
  send request := .ok ⟨200,
    if request.url = "/v1/api/iserver/account/U1/orders" then [1]
    else if request.url = "/v1/api/iserver/account/trades" then [2]
    else if request.url = "/v1/api/portfolio/U1/accounts" then [3]
    else [4]⟩
  parseJson body := some <|
    if body = [1] then .array [order]
    else if body = [2] then .array trades
    else if body = [3] then .array [.object [("totalcashvalue", .number (.integer 1000))]]
    else .array []
  truncate _ := none
  truncateText _ := none

def filledOrder : JsonValue :=
  .object [("cOID", .string "A"), ("orderId", .string "1"), ("status", .string "Filled"),
    ("filledQuantity", .number (.integer 100)), ("avgPrice", .number (.integer 10))]

def portalTrade (quantity : Int) : JsonValue :=
  .object [("cOID", .string "A"), ("orderId", .string "1"),
    ("quantity", .number (.integer quantity)), ("price", .number (.integer 10))]

theorem portalOf_orders (order : JsonValue) (trades : List JsonValue) :
    (portalOf order trades).orders = Except.ok [order] := by
  have hurl : "" ++ ("/v1/api/iserver/account/" ++ "U1" ++ "/orders") =
      "/v1/api/iserver/account/U1/orders" := by decide
  have hrequest : (portalOf order trades).request "GET"
      ("/v1/api/iserver/account/" ++ "U1" ++ "/orders") none = Except.ok (.array [order]) := by
    simp only [ClientPortal.request, portalOf, hurl]
    rfl
  exact congrArg (fun answer => answer >>= ClientPortal.entries "orders") hrequest

theorem portalOf_trades (order : JsonValue) (trades : List JsonValue) :
    (portalOf order trades).trades = Except.ok trades := by
  have hurl : "" ++ "/v1/api/iserver/account/trades" = "/v1/api/iserver/account/trades" := by
    decide
  have hne : "/v1/api/iserver/account/trades" ≠ "/v1/api/iserver/account/U1/orders" := by
    decide
  have hrequest : (portalOf order trades).request "GET" "/v1/api/iserver/account/trades" none =
      Except.ok (.array trades) := by
    simp only [ClientPortal.request, portalOf, hurl, if_neg hne]
    rfl
  exact congrArg (fun answer => answer >>= ClientPortal.entries "trades") hrequest

theorem filledOrder_event (trades : List JsonValue) :
    [filledOrder].filterMap (portalOf filledOrder trades).orderEvent =
      [⟨"1", .filled "A" 100 10, some 100⟩] := by
  have hevent : (portalOf filledOrder []).orderEvent filledOrder =
      some ⟨"1", .filled "A" 100 10, some 100⟩ := by decide +kernel
  exact congrArg Option.toList hevent

theorem portalTrade_inParts : [portalTrade 40, portalTrade 60].filterMap
    (portalOf filledOrder [portalTrade 40, portalTrade 60]).tradeEvent =
      [⟨"1", "A", 40, 10, by decide⟩, ⟨"1", "A", 60, 10, by decide⟩] := by
  decide

theorem portalTrade_atOnce : [portalTrade 100].filterMap
    (portalOf filledOrder [portalTrade 100]).tradeEvent = [⟨"1", "A", 100, 10, by decide⟩] := by
  decide

theorem exists_snapshot (portal : ClientPortal)
    (h : (portal.snapshot ∅).1.toBool = true) :
    ∃ s ids, portal.snapshot ∅ = (Except.ok s, ids) := by
  generalize hs : portal.snapshot ∅ = answer at h
  obtain ⟨result, ids⟩ := answer
  cases result with
  | error e => cases h
  | ok s => exact ⟨s, ids, rfl⟩

end Sample

namespace ClientPortal

/-- An order that is filled by one execution is reported whole. -/
theorem snapshot_atOnce : ∃ s ids,
    (Sample.portalOf Sample.filledOrder [Sample.portalTrade 100]).snapshot ∅ = (Except.ok s, ids) ∧
      Cumulative s.orders [⟨"1", .filled "A" 100 10, some 100⟩]
        [⟨"1", "A", 100, 10, by decide⟩] := by
  obtain ⟨s, ids, hs⟩ := Sample.exists_snapshot
    (Sample.portalOf Sample.filledOrder [Sample.portalTrade 100]) (by decide)
  have hiff := snapshot_cumulative_iff _ (Sample.portalOf_orders _ _) (Sample.portalOf_trades _ _) hs
  rw [Sample.filledOrder_event, Sample.portalTrade_atOnce] at hiff
  refine ⟨s, ids, hs, hiff.mpr fun e he => ?_⟩
  rw [List.mem_singleton] at he
  rw [he]
  exact ⟨by decide, by decide, fun o ho _ => by rw [List.mem_singleton.mp ho]; decide⟩

/-- **The last execution counts**: an order of 100 that is filled by executions of 40 and 60 is
reported with 60. -/
theorem snapshot_inParts : ¬∀ (portal : ClientPortal) (orders trades : List JsonValue)
    (ids ids' : Std.TreeMap String String) (s : BrokerSnapshot),
    portal.orders = Except.ok orders → portal.trades = Except.ok trades →
    portal.snapshot ids = (Except.ok s, ids') →
    (∀ o ∈ orders.filterMap portal.orderEvent, o.filledTicks.getD 0 =
      executedTicks o.event.clientOrderId (trades.filterMap portal.tradeEvent)) →
    Cumulative s.orders (orders.filterMap portal.orderEvent)
      (trades.filterMap portal.tradeEvent) := by
  intro hclaim
  obtain ⟨s, ids, hs⟩ := Sample.exists_snapshot
    (Sample.portalOf Sample.filledOrder [Sample.portalTrade 40, Sample.portalTrade 60])
    (by decide)
  have horders := Sample.portalOf_orders Sample.filledOrder
    [Sample.portalTrade 40, Sample.portalTrade 60]
  have htrades := Sample.portalOf_trades Sample.filledOrder
    [Sample.portalTrade 40, Sample.portalTrade 60]
  have h := hclaim _ _ _ _ _ s horders htrades hs
  rw [snapshot_rows horders htrades hs, Sample.filledOrder_event, Sample.portalTrade_inParts] at h
  have hcumulative := h fun o ho => by rw [List.mem_singleton.mp ho]; decide
  have hsingle := ((cumulative_iff _ _).mp hcumulative _ (List.mem_cons_self ..)).single
  exact absurd hsingle (by decide)

end ClientPortal

end InsiderTrader
