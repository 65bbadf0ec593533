import InsiderTrader.Broker
import InsiderTrader.MarketData
import InsiderTrader.Responses
import InsiderTrader.Risk

/-!
# The runtime snapshot on the wire

The engine encodes the whole state of the runtime, and the terminal decodes it
into a view. An order is sent with its intent in the encoding of the engine,
whose texts have a length of 32 bits; the terminal reads it with its own texts,
whose length has 16 bits. The action of a proposal stays as it is, where the
terminal formats it; so does what the terminal reads and drops.

## Main definitions

- `Terminal.RuntimeSnapshot` — what the engine encodes
- `Terminal.RuntimeView` — what the terminal decodes
- `Terminal.encodeSnapshot`, `Terminal.decodeSnapshot` — the two sides
- `Terminal.encodeOrderIntent`, `Terminal.decodeOrderIntent` — the intent of an order
-/

namespace InsiderTrader

namespace Terminal

open Wire

-- Codes

def riskStateCode : RiskState → UInt8
  | .running => 1
  | .reduceOnly => 2
  | .cancelOnly => 3
  | .halted => 4

def autonomyModeCode : AutonomyMode → UInt8
  | .manual => 1
  | .hybrid => 2
  | .autonomous => 3

def planStateCode : PlanState → UInt8
  | .pending => 1
  | .approved => 2
  | .rejected => 3
  | .expired => 4
  | .executing => 5
  | .completed => 6
  | .failed => 7

def actionTypeCode : ActionType → UInt8
  | .executeProposal => 1
  | .executeProposalScaled => 2
  | .ignoreProposal => 3
  | .pauseStrategy => 4
  | .resumeStrategy => 5
  | .requestReanalysis => 6
  | .addToWatch => 7
  | .removeFromWatch => 8
  | .reduceAutonomy => 9
  | .noAction => 10

def sideCode : Side → UInt8
  | .buy => 1
  | .sell => 2

def orderTypeCode : OrderType → UInt8
  | .market => 1
  | .limit => 2

def timeInForceCode : TimeInForce → UInt8
  | .day => 1
  | .goodTilCancel => 2
  | .immediateOrCancel => 3

def orderStateCode : OrderState → UInt8
  | .created => 13
  | .riskApproved => 1
  | .queued => 2
  | .sending => 3
  | .sent => 4
  | .acknowledged => 5
  | .partiallyFilled => 6
  | .filled => 7
  | .rejected => 8
  | .cancelPending => 9
  | .cancelled => 10
  | .replacePending => 11
  | .unknown => 12
  | .expired => 14

def proposalStateCode : ProposalState → UInt8
  | .accepted => 1
  | .pending => 2
  | .rejected => 3
  | .superseded => 4
  | .expired => 5

def qualityCode : Quality → UInt8
  | .good => 1
  | .degraded => 2
  | .stale => 3

-- Order intents

structure OrderIntent where
  accountId : Wide
  instrumentId : Wide
  side : Side
  quantityTicks : Int64
  orderType : OrderType
  limitPriceTicks : Option Int64
  timeInForce : TimeInForce
  traceId : Wide
  intentId : String
  clientOrderId : String
  state : OrderState

/-- A text of the engine after its length; what exceeds the greatest length is cut. -/
def pushLongString (value : String) : List UInt8 :=
  LittleEndian.bytes 4 (min (utf8 value).length (2 ^ 32 - 1)) ++ (utf8 value).take (2 ^ 32 - 1)

def encodeOrderIntent (intent : OrderIntent) : List UInt8 :=
  utf8 "IT_ORDER_INTENT_V1\x00" ++
    [le128 intent.accountId, le128 intent.instrumentId, [sideCode intent.side],
      leI64 intent.quantityTicks, [orderTypeCode intent.orderType],
      leI64 (intent.limitPriceTicks.getD 0), [timeInForceCode intent.timeInForce],
      le128 intent.traceId, pushLongString intent.intentId,
      pushLongString intent.clientOrderId].flatten

def sideNames : List String := ["", "BUY", "SELL"]

/-- The client order, the instrument, the side and the quantity of an intent. -/
def orderIntent : Reader (String × Wide × String × Int64) := do
  let _account ← u128
  let instrument ← u128
  let side ← label sideNames
  let quantity ← i64
  let _ ← u8
  let _ ← i64
  let _ ← u8
  let _ ← u128
  let _ ← string
  let clientId ← string
  pure (clientId, instrument, side, quantity)

def decodeOrderIntent : List UInt8 → Except String (String × Wide × String × Int64) :=
  afterMagic "IT_ORDER_INTENT_V1\x00" orderIntent

-- Plans

structure AutonomousAction where
  actionType : ActionType
  proposalId : Option String
  scale : Option FloatBits
  reasonCodes : List String

structure AutonomyPlanSnapshot where
  planId : String
  state : PlanState
  generatedAtNs : UInt64
  expiresAtNs : UInt64
  actions : List AutonomousAction

structure AutonomyActionView where
  action : String
  proposalId : Option String
  scale : Option FloatBits
  reasonCodes : List String

structure AutonomyPlanView where
  id : String
  state : String
  generatedAtNs : UInt64
  expiresAtNs : UInt64
  actions : List AutonomyActionView

def encodeAction (action : AutonomousAction) : List UInt8 :=
  [[actionTypeCode action.actionType], pushString (action.proposalId.getD ""),
    optionBytes le64 0 action.scale,
    shortListBytes pushString (action.reasonCodes.take 256).length
      (action.reasonCodes.take 256)].flatten

def encodePlan : Option AutonomyPlanSnapshot → List UInt8
  | none => flag false
  | some plan =>
    [flag true, pushString plan.planId, [planStateCode plan.state], le64 plan.generatedAtNs,
      le64 plan.expiresAtNs,
      shortListBytes encodeAction (plan.actions.take 4096).length
        (plan.actions.take 4096)].flatten

def actionNames : List String :=
  ["", "EXECUTE PROPOSAL", "EXECUTE SCALED", "IGNORE PROPOSAL", "PAUSE STRATEGY",
    "RESUME STRATEGY", "REQUEST REANALYSIS", "ADD TO WATCH", "REMOVE FROM WATCH",
    "REDUCE AUTONOMY", "NO ACTION"]

def planStateNames : List String :=
  ["", "PENDING", "APPROVED", "REJECTED", "EXPIRED", "EXECUTING", "COMPLETED", "FAILED"]

def actionView : Reader AutonomyActionView := do
  let action ← label actionNames
  let proposal ← string
  let scale ← optionalOf f64
  let reasonCodes ← shortCollection 256 "autonomous reason collection exceeds bound" string
  pure ⟨action, if proposal = "" then none else some proposal, scale, reasonCodes⟩

def planView : Reader (Option AutonomyPlanView) := do
  let marker ← u8
  if marker = 0 then pure none
  else if marker = 1 then do
    let id ← string
    let state ← label planStateNames
    let generatedAtNs ← u64
    let expiresAtNs ← u64
    let actions ← shortCollection 4096 "autonomous action collection exceeds bound" actionView
    pure (some ⟨id, state, generatedAtNs, expiresAtNs, actions⟩)
  else Wire.Reader.fail "invalid autonomous plan marker"

-- Positions, orders and fills

/-- A position, with its average cost when the portfolio knows one. -/
structure Position where
  instrumentId : Wide
  quantityTicks : Int64
  markPriceTicks : Int64
  averageCostPrice : Option Int64

structure PositionView where
  instrument : Wide
  quantity : Int64
  mark : Int64
  averageCost : Int64

def encodePosition (position : Position) : List UInt8 :=
  [le128 position.instrumentId, leI64 position.quantityTicks, leI64 position.markPriceTicks,
    leI64 (position.averageCostPrice.getD position.markPriceTicks)].flatten

def positionView : Reader PositionView := do
  let instrument ← u128
  let quantity ← i64
  let mark ← i64
  let averageCost ← i64
  pure ⟨instrument, quantity, mark, averageCost⟩

structure OrderRecord where
  intent : OrderIntent
  brokerOrderId : Option String
  filledQuantityTicks : Int64

structure OrderView where
  clientOrderId : String
  instrument : Wide
  side : String
  quantity : Int64
  filled : Int64
  state : String

def encodeOrderRecord (order : OrderRecord) : List UInt8 :=
  [nestedBytes (encodeOrderIntent order.intent), pushString (order.brokerOrderId.getD ""),
    leI64 order.filledQuantityTicks, [orderStateCode order.intent.state]].flatten

def orderStateNames : List String :=
  ["", "RISK APPROVED", "QUEUED", "SENDING", "SENT", "ACKNOWLEDGED", "PARTIAL", "FILLED",
    "REJECTED", "CANCEL PENDING", "CANCELLED", "REPLACE PENDING", "UNKNOWN", "CREATED", "EXPIRED"]

def orderView : Reader OrderView := do
  let bytes ← byteVec (1024 * 1024)
  let intent ← Wire.Reader.ofExcept (decodeOrderIntent bytes)
  let _brokerId ← string
  let filled ← i64
  let state ← label orderStateNames
  pure ⟨intent.1, intent.2.1, intent.2.2.1, intent.2.2.2, filled, state⟩

structure FillRecord where
  clientOrderId : String
  instrumentId : Wide
  signedQuantityTicks : Int64
  priceTicks : Int64

/-- A fill as the terminal shows it: all of it. -/
abbrev FillView : Type := FillRecord

def encodeFill (fill : FillRecord) : List UInt8 :=
  [pushString fill.clientOrderId, le128 fill.instrumentId, leI64 fill.signedQuantityTicks,
    leI64 fill.priceTicks].flatten

def fillView : Reader FillView := do
  let clientOrderId ← string
  let instrument ← u128
  let signedQuantity ← i64
  let price ← i64
  pure ⟨clientOrderId, instrument, signedQuantity, price⟩

-- Execution costs and proposals

structure TcaSnapshot where
  clientOrderId : String
  filledQuantityTicks : Int64
  notionalTicks : Wide
  averageFillPriceNumerator : Wide
  averageFillPriceDenominator : Int64
  arrivalPriceTicks : Option Int64
  decisionMonoNs : Option UInt64
  sendMonoNs : Option UInt64
  ackMonoNs : Option UInt64
  firstFillMonoNs : Option UInt64
  implementationShortfallTickValue : Option Wide
  averageSpreadTicks : Option Int64
  adverseSelectionTickValue : Option Wide

/-- Execution costs as the terminal shows them: all of them. -/
abbrev TcaView : Type := TcaSnapshot

def encodeTca (tca : TcaSnapshot) : List UInt8 :=
  [pushString tca.clientOrderId, leI64 tca.filledQuantityTicks, le128 tca.notionalTicks,
    le128 tca.averageFillPriceNumerator, leI64 tca.averageFillPriceDenominator,
    optionBytes leI64 0 tca.arrivalPriceTicks, optionBytes le64 0 tca.decisionMonoNs,
    optionBytes le64 0 tca.sendMonoNs, optionBytes le64 0 tca.ackMonoNs,
    optionBytes le64 0 tca.firstFillMonoNs,
    optionBytes le128 0 tca.implementationShortfallTickValue,
    optionBytes leI64 0 tca.averageSpreadTicks,
    optionBytes le128 0 tca.adverseSelectionTickValue].flatten

def tcaView : Reader TcaView := do
  let clientOrderId ← string
  let filledQuantity ← i64
  let notional ← i128
  let averagePriceNumerator ← i128
  let averagePriceDenominator ← i64
  let arrivalPrice ← optionalOf i64
  let decisionNs ← optionalOf u64
  let sendNs ← optionalOf u64
  let ackNs ← optionalOf u64
  let firstFillNs ← optionalOf u64
  let shortfall ← optionalOf i128
  let spread ← optionalOf i64
  let adverseSelection ← optionalOf i128
  pure ⟨clientOrderId, filledQuantity, notional, averagePriceNumerator, averagePriceDenominator,
    arrivalPrice, decisionNs, sendNs, ackNs, firstFillNs, shortfall, spread, adverseSelection⟩

inductive ProposalAction where
  | noAction
  | targetQuantity (quantityTicks : Int64)
  | targetWeight (weight : FloatBits)
  | increase (quantityTicks : Int64)
  | decrease (quantityTicks : Int64)
  | close

structure Proposal where
  proposalId : Wide
  instrumentId : Wide
  strategyId : String
  action : ProposalAction
  confidence : FloatBits
  generatedMono : UInt64
  ttlNs : UInt64

structure ProposalRecord where
  proposal : Proposal
  state : ProposalState

structure ProposalView where
  id : Wide
  instrument : Wide
  strategy : String
  action : ProposalAction
  confidence : FloatBits
  ttlNs : UInt64
  state : String

def encodeProposalAction : ProposalAction → List UInt8
  | .noAction => [0]
  | .targetQuantity quantityTicks => [[1], leI64 quantityTicks].flatten
  | .increase quantityTicks => [[3], leI64 quantityTicks].flatten
  | .decrease quantityTicks => [[4], leI64 quantityTicks].flatten
  | .targetWeight weight => [[2], le64 weight].flatten
  | .close => [5]

def encodeProposalRecord (record : ProposalRecord) : List UInt8 :=
  [le128 record.proposal.proposalId, le128 record.proposal.instrumentId,
    pushString record.proposal.strategyId, encodeProposalAction record.proposal.action,
    le64 record.proposal.confidence, le64 record.proposal.generatedMono,
    le64 record.proposal.ttlNs, [proposalStateCode record.state]].flatten

def proposalAction : Reader ProposalAction := do
  let action ← u8
  if action = 0 then pure .noAction
  else if action = 1 then do
    let quantity ← i64
    pure (.targetQuantity quantity)
  else if action = 2 then do
    let weight ← f64
    pure (.targetWeight weight)
  else if action = 3 then do
    let quantity ← i64
    pure (.increase quantity)
  else if action = 4 then do
    let quantity ← i64
    pure (.decrease quantity)
  else if action = 5 then pure .close
  else Wire.Reader.fail "invalid proposal action"

def proposalStateNames : List String :=
  ["", "ACCEPTED", "PENDING", "REJECTED", "SUPERSEDED", "EXPIRED"]

def proposalView : Reader ProposalView := do
  let id ← u128
  let instrument ← u128
  let strategy ← string
  let action ← proposalAction
  let confidence ← f64
  let _generatedNs ← u64
  let ttlNs ← u64
  let state ← label proposalStateNames
  pure ⟨id, instrument, strategy, action, confidence, ttlNs, state⟩

-- Markets

structure Quote where
  sequence : UInt64
  receivedMono : UInt64
  bidTicks : Int64
  askTicks : Int64
  bidQuantityTicks : Int64
  askQuantityTicks : Int64

structure Trade where
  sequence : UInt64
  exchangeTime : Int64
  receivedMono : UInt64
  priceTicks : Int64
  quantityTicks : Int64

structure Bar where
  startTime : Int64
  intervalNs : UInt64
  openTicks : Int64
  highTicks : Int64
  lowTicks : Int64
  closeTicks : Int64
  volumeTicks : Int64

structure MarketSnapshot where
  instrumentId : Wide
  quote : Option Quote
  trade : Option Trade
  trades : List Trade
  quoteHealth : Quality
  tradeHealth : Quality
  bookHealth : Option Quality
  bookTop : Option (Int64 × Int64 × Int64 × Int64)
  bars : List Bar

structure MarketView where
  instrument : Wide
  bid : Option Int64
  ask : Option Int64
  last : Option Int64
  quoteQuality : String
  tradeQuality : String
  bookTop : Option (Int64 × Int64 × Int64 × Int64)
  trades : List Trade
  bars : List Bar

def encodeQuote : Option Quote → List UInt8
  | none => flag false
  | some quote =>
    [flag true, le64 quote.sequence, le64 quote.receivedMono, leI64 quote.bidTicks,
      leI64 quote.askTicks, leI64 quote.bidQuantityTicks, leI64 quote.askQuantityTicks].flatten

def encodeLastTrade : Option Trade → List UInt8
  | none => flag false
  | some trade => [flag true, le64 trade.sequence, leI64 trade.priceTicks].flatten

def encodeBookTop : Option (Int64 × Int64 × Int64 × Int64) → List UInt8
  | none => flag false
  | some (bid, bidQuantity, ask, askQuantity) =>
    [flag true, leI64 bid, leI64 bidQuantity, leI64 ask, leI64 askQuantity].flatten

def encodeTrade (trade : Trade) : List UInt8 :=
  [le64 trade.sequence, leI64 trade.exchangeTime, le64 trade.receivedMono, leI64 trade.priceTicks,
    leI64 trade.quantityTicks].flatten

def encodeBar (bar : Bar) : List UInt8 :=
  [leI64 bar.startTime, le64 bar.intervalNs, leI64 bar.openTicks, leI64 bar.highTicks,
    leI64 bar.lowTicks, leI64 bar.closeTicks, leI64 bar.volumeTicks].flatten

/-- The latest trades are written, the count is that of all. -/
def encodeMarket (market : MarketSnapshot) : List UInt8 :=
  [le128 market.instrumentId, encodeQuote market.quote, encodeLastTrade market.trade,
    [qualityCode market.quoteHealth], [qualityCode market.tradeHealth],
    [(market.bookHealth.map qualityCode).getD 0], encodeBookTop market.bookTop,
    shortListBytes encodeTrade market.trades.length (market.trades.reverse.take 512).reverse,
    listBytes encodeBar market.bars].flatten

def quoteView : Reader (Option Int64 × Option Int64) := do
  let marker ← u8
  if marker = 0 then pure (none, none)
  else if marker = 1 then do
    let _ ← u64
    let _ ← u64
    let bid ← i64
    let ask ← i64
    let _ ← i64
    let _ ← i64
    pure (some bid, some ask)
  else Wire.Reader.fail "invalid quote marker"

def lastView : Reader (Option Int64) := do
  let marker ← u8
  if marker = 0 then pure none
  else if marker = 1 then do
    let _ ← u64
    let price ← i64
    pure (some price)
  else Wire.Reader.fail "invalid trade marker"

def bookTopView : Reader (Option (Int64 × Int64 × Int64 × Int64)) := do
  let marker ← u8
  if marker = 0 then pure none
  else if marker = 1 then do
    let bid ← i64
    let bidQuantity ← i64
    let ask ← i64
    let askQuantity ← i64
    pure (some (bid, bidQuantity, ask, askQuantity))
  else Wire.Reader.fail "invalid book marker"

def tradeView : Reader Trade := do
  let sequence ← u64
  let exchangeTimeNs ← i64
  let receivedMonoNs ← u64
  let price ← i64
  let quantity ← i64
  pure ⟨sequence, exchangeTimeNs, receivedMonoNs, price, quantity⟩

def barView : Reader Bar := do
  let startTimeNs ← i64
  let intervalNs ← u64
  Wire.Reader.require (intervalNs ≠ 0) "chart bar interval must be positive"
  let opening ← i64
  let high ← i64
  let low ← i64
  let close ← i64
  let volume ← i64
  pure ⟨startTimeNs, intervalNs, opening, high, low, close, volume⟩

def qualityNames : List String := ["UNKNOWN", "GOOD", "DEGRADED", "STALE"]

def marketView : Reader MarketView := do
  let instrument ← u128
  let quote ← quoteView
  let last ← lastView
  let quoteQuality ← label qualityNames
  let tradeQuality ← label qualityNames
  let _bookQuality ← u8
  let bookTop ← bookTopView
  let trades ← shortCollection 512 "too many trade prints" tradeView
  let bars ← collection 4096 barView
  pure ⟨instrument, quote.1, quote.2, last, quoteQuality, tradeQuality, bookTop, trades, bars⟩

-- Snapshots

structure Portfolio where
  cashTicks : Int64
  realizedPnlTicks : Int64
  feesTicks : Int64
  positions : List Position

/-- The whole state of the runtime. -/
structure RuntimeSnapshot where
  accountId : Wide
  cursor : UInt64
  riskState : RiskState
  autonomyMode : AutonomyMode
  autonomyPlan : Option AutonomyPlanSnapshot
  llmProviderId : Option String
  llmModel : Option String
  portfolio : Portfolio
  orders : List OrderRecord
  fills : List FillRecord
  tca : List TcaSnapshot
  proposals : List ProposalRecord
  markets : List MarketSnapshot
  grossNotionalTicks : Wide
  maxGrossNotionalTicks : Wide
  grossUtilizationBps : Int64
  largestPositionNotionalTicks : Wide
  drawdownBps : Option Int64

/-- The runtime as the terminal shows it. -/
structure RuntimeView where
  accountId : Wide
  cursor : UInt64
  risk : String
  mode : String
  plan : Option AutonomyPlanView
  llmProviderId : Option String
  llmModel : Option String
  cashTicks : Int64
  realizedPnlTicks : Int64
  feesTicks : Int64
  grossNotionalTicks : Wide
  maxGrossNotionalTicks : Wide
  grossUtilizationBps : Int64
  largestPositionNotionalTicks : Wide
  drawdownBps : Option Int64
  positions : List PositionView
  orders : List OrderView
  fills : List FillView
  tca : List TcaView
  proposals : List ProposalView
  markets : List MarketView

def encodeSnapshot (snapshot : RuntimeSnapshot) : List UInt8 :=
  utf8 "IT_RUNTIME_SNAPSHOT_V14\x00" ++
    [le128 snapshot.accountId, le64 snapshot.cursor, [riskStateCode snapshot.riskState],
      [autonomyModeCode snapshot.autonomyMode], encodePlan snapshot.autonomyPlan,
      optionalStringBytes snapshot.llmProviderId, optionalStringBytes snapshot.llmModel,
      leI64 snapshot.portfolio.cashTicks, leI64 snapshot.portfolio.realizedPnlTicks,
      leI64 snapshot.portfolio.feesTicks, le128 snapshot.grossNotionalTicks,
      le128 snapshot.maxGrossNotionalTicks, leI64 snapshot.grossUtilizationBps,
      le128 snapshot.largestPositionNotionalTicks, optionBytes leI64 0 snapshot.drawdownBps,
      listBytes encodePosition snapshot.portfolio.positions,
      listBytes encodeOrderRecord snapshot.orders, listBytes encodeFill snapshot.fills,
      listBytes encodeTca snapshot.tca, listBytes encodeProposalRecord snapshot.proposals,
      listBytes encodeMarket snapshot.markets].flatten

def riskNames : List String := ["", "RUNNING", "REDUCE ONLY", "CANCEL ONLY", "HALTED"]

def modeNames : List String := ["", "MANUAL", "HYBRID", "AUTONOMOUS"]

/-- The mark of an absent drawdown. -/
def drawdownView : Reader (Option Int64) := do
  let present ← u8
  let drawdown ← i64
  if present = 0 then pure none
  else if present = 1 then pure (some drawdown)
  else Wire.Reader.fail "invalid drawdown marker"

def runtimeView : Reader RuntimeView := do
  let accountId ← u128
  let cursor ← u64
  let risk ← label riskNames
  let mode ← label modeNames
  let plan ← planView
  let llmProviderId ← optionalString
  let llmModel ← optionalString
  let cashTicks ← i64
  let realizedPnlTicks ← i64
  let feesTicks ← i64
  let grossNotionalTicks ← i128
  let maxGrossNotionalTicks ← i128
  let grossUtilizationBps ← i64
  let largestPositionNotionalTicks ← i128
  let drawdownBps ← drawdownView
  let positions ← collection 16384 positionView
  let orders ← collection 16384 orderView
  let fills ← collection 10000 fillView
  let tca ← collection 16384 tcaView
  let proposals ← collection 4096 proposalView
  let markets ← collection 4096 marketView
  pure { accountId := accountId, cursor := cursor, risk := risk, mode := mode, plan := plan,
         llmProviderId := llmProviderId, llmModel := llmModel, cashTicks := cashTicks,
         realizedPnlTicks := realizedPnlTicks, feesTicks := feesTicks,
         grossNotionalTicks := grossNotionalTicks,
         maxGrossNotionalTicks := maxGrossNotionalTicks,
         grossUtilizationBps := grossUtilizationBps,
         largestPositionNotionalTicks := largestPositionNotionalTicks,
         drawdownBps := drawdownBps, positions := positions, orders := orders, fills := fills,
         tca := tca, proposals := proposals, markets := markets }

def decodeSnapshot : List UInt8 → Except String RuntimeView :=
  afterMagic "IT_RUNTIME_SNAPSHOT_V14\x00" runtimeView

end Terminal

end InsiderTrader
