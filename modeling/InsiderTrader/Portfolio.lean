import InsiderTrader.Broker
import InsiderTrader.Library.Fallible
import InsiderTrader.Library.MachineInt

/-!
# The portfolio

Positions, trusted marks, average costs and cash, with the fill and corporate
action accounting. Ticks are signed 64-bit values; intermediate products are
computed in 128 bits and narrowed explicitly.

## Main definitions

- `Portfolio.applyFill` — one fill: position, average cost, cash, realized PnL
- `Portfolio.reconcilePositions` — adopt a broker account snapshot
- `Portfolio.applyCorporateAction` — splits, dividends, option and futures settlement
-/

namespace InsiderTrader

open MachineInt

/-- Failure of portfolio accounting. -/
inductive AccountingError where
  | invalidFill
  | overflow
  | invalidCorporateAction
  | nonRepresentableCorporateAction
  deriving DecidableEq

/-- A signed position and its valuation mark. -/
structure Position where
  quantityTicks : Int
  markPriceTicks : Int
  deriving DecidableEq

/-- Corporate action applied to one canonical position. -/
inductive CorporateActionKind where
  | split (numerator denominator : ℕ)
  | cashDividend (amountTicks : Int)
  | optionExercise (underlyingInstrumentId : InstrumentId)
      (optionQuantityDeltaTicks underlyingQuantityDeltaTicks cashDeltaTicks : Int)
  | optionAssignment (underlyingInstrumentId : InstrumentId)
      (optionQuantityDeltaTicks underlyingQuantityDeltaTicks cashDeltaTicks : Int)
  | optionExpiry (optionQuantityDeltaTicks cashDeltaTicks : Int)
  | futuresVariationMargin (cashDeltaTicks : Int)
  deriving DecidableEq

/-- Accounting record of one corporate action. -/
structure CorporateActionEntry where
  instrumentId : InstrumentId
  kind : CorporateActionKind
  quantityBeforeTicks : Int
  quantityAfterTicks : Int
  cashDeltaTicks : Int
  deriving DecidableEq

/-- Account receiving one fill posting. -/
inductive PostingAccount where
  | cash
  | position
  | fees
  deriving DecidableEq

/-- One signed double-entry posting. -/
structure LedgerPosting where
  account : PostingAccount
  amountTicks : Int
  deriving DecidableEq

/-- Double-entry record of one fill. -/
structure FillLedgerEntry where
  instrumentId : InstrumentId
  quantityTicks : Int
  priceTicks : Int
  feeTicks : Int
  cashDeltaTicks : Int
  realizedPnlTicks : Int
  postings : List LedgerPosting
  deriving DecidableEq

/-- Authoritative position and cash projection. The average cost is kept apart from
the valuation mark, so that quotes do not change realized PnL. -/
structure Portfolio where
  positions : Std.TreeMap InstrumentId Position
  marks : Std.TreeMap InstrumentId Int
  costBasis : Std.TreeMap InstrumentId Int
  cashTicks : Int
  realizedPnlTicks : Int
  feesTicks : Int
  ledger : List FillLedgerEntry
  corporateActions : List CorporateActionEntry
  peakEquityTicks : Option Int

/-- A price times `numerator / denominator`, rounded to the nearest tick. -/
def scalePrice (priceTicks : Int) (numerator denominator : ℕ) : Except AccountingError Int :=
  if priceTicks ≤ 0 ∨ numerator = 0 ∨ denominator = 0 then .error .invalidCorporateAction
  else
    match narrow 128 (priceTicks * numerator) with
    | none => .error .overflow
    | some scaled =>
      match narrow 128 (scaled + (denominator / 2 : ℕ)) with
      | none => .error .overflow
      | some shifted =>
        match narrow 64 (shifted / (denominator : Int)) with
        | none => .error .overflow
        | some rounded => .ok rounded

namespace Portfolio

/-- The empty portfolio. -/
def new : Portfolio := ⟨∅, ∅, ∅, 0, 0, 0, [], [], none⟩

/-- The current position in an instrument. -/
def position (p : Portfolio) (instrumentId : InstrumentId) : Option Position :=
  p.positions[instrumentId]?

/-- The signed quantity held; zero without a position. -/
def quantity (p : Portfolio) (instrumentId : InstrumentId) : Int :=
  (p.position instrumentId).elim 0 (·.quantityTicks)

theorem getD_position_quantity (p : Portfolio) (i : InstrumentId) (price : Int) :
    ((p.position i).getD ⟨0, price⟩).quantityTicks = p.quantity i := by
  unfold quantity
  cases p.position i <;> rfl

/-- The latest trusted mark, also without a position. -/
def markPrice (p : Portfolio) (instrumentId : InstrumentId) : Option Int :=
  p.marks[instrumentId]?

/-- The average execution cost of a live position. -/
def averageCostPrice (p : Portfolio) (instrumentId : InstrumentId) : Option Int :=
  p.costBasis[instrumentId]?

/-- Marked account equity, when every 128-bit step is representable. -/
def equityTicks (p : Portfolio) : Option Int :=
  p.positions.values.foldlM (fun total position => do
    let notional ← narrow 128 (position.quantityTicks * position.markPriceTicks)
    narrow 128 (total + notional)) p.cashTicks

/-- Raise the high-water mark to the current equity. -/
def recordEquityPeak (p : Portfolio) : Portfolio :=
  match p.equityTicks with
  | none => p
  | some equity =>
    { p with peakEquityTicks := some (p.peakEquityTicks.elim equity (max · equity)) }

@[simp] theorem recordEquityPeak_positions (p : Portfolio) :
    p.recordEquityPeak.positions = p.positions := by
  unfold recordEquityPeak
  split <;> rfl

/-- Restore a journaled high-water mark; recovery never lowers it. -/
def restorePeakEquityTicks (p : Portfolio) (peak : Option Int) : Portfolio :=
  match peak with
  | none => p
  | some peak => { p with peakEquityTicks := some (max (p.peakEquityTicks.getD peak) peak) }

/-- Drawdown from the peak in basis points. -/
def drawdownBps (p : Portfolio) : Option Int := do
  let peak ← p.peakEquityTicks
  let equity ← p.equityTicks
  if peak ≤ 0 ∨ peak ≤ equity then some 0
  else
    let gap ← narrow 128 (peak - equity)
    let scaled ← narrow 128 (gap * 10000)
    narrow 64 (scaled / peak)

/-- Set an externally reconciled position. -/
def setPosition (p : Portfolio) (instrumentId : InstrumentId) (position : Position) : Portfolio :=
  let p := if 0 < position.markPriceTicks then
      { p with
        marks := p.marks.insert instrumentId position.markPriceTicks
        costBasis := p.costBasis.insert instrumentId position.markPriceTicks }
    else p
  recordEquityPeak { p with positions := p.positions.insert instrumentId position }

/-- Store one position of an account snapshot, with the mark and cost known before it. -/
def adoptPosition (before p : Portfolio) (entry : InstrumentId × Int) : Portfolio :=
  if entry.2 = 0 then p
  else
    let mark := match before.positions[entry.1]? with
      | some position => position.markPriceTicks
      | none => (p.marks[entry.1]?).getD 0
    let cost := (before.costBasis[entry.1]?).getD mark
    { p with
      positions := p.positions.insert entry.1 ⟨entry.2, mark⟩
      costBasis := if 0 < cost then p.costBasis.insert entry.1 cost else p.costBasis }

/-- Replace all positions, and the cash when it is reported, by a broker snapshot.
Zero quantities are dropped. -/
def reconcilePositions (p : Portfolio) (positions : List (InstrumentId × Int))
    (cashTicks : Option Int) : Portfolio :=
  let adopted := positions.foldl (adoptPosition p) { p with positions := ∅, costBasis := ∅ }
  recordEquityPeak { adopted with cashTicks := cashTicks.getD adopted.cashTicks }

/-- Update the trusted mark of an instrument. -/
def setMarkPrice (instrumentId : InstrumentId) (priceTicks : Int) :
    Fallible Portfolio AccountingError Unit :=
  if priceTicks ≤ 0 then Fallible.fail .invalidFill
  else Fallible.modify fun p => recordEquityPeak
    { p with
      marks := p.marks.insert instrumentId priceTicks
      positions := match p.positions[instrumentId]? with
        | some position =>
          p.positions.insert instrumentId { position with markPriceTicks := priceTicks }
        | none => p.positions }

-- Fills

/-- Next quantity, next average cost and realized PnL of one fill. -/
def fillOutcome (held cost quantityTicks priceTicks : Int) :
    Except AccountingError (Int × Int × Int) :=
  let ofOption {α : Type} (o : Option α) : Except AccountingError α :=
    match o with
    | some a => .ok a
    | none => .error .overflow
  if held = 0 ∨ held.sign = quantityTicks.sign then do
    let nextQuantity ← ofOption (narrow 64 (held + quantityTicks))
    let oldNotional ← ofOption (narrow 128 (held.natAbs * cost))
    let newNotional ← ofOption (narrow 128 (quantityTicks.natAbs * priceTicks))
    let total ← ofOption (narrow 128 (oldNotional + newNotional))
    let average ← ofOption (narrow 64 (total.tdiv nextQuantity.natAbs))
    .ok (nextQuantity, average, 0)
  else do
    let closed := min held.natAbs quantityTicks.natAbs
    let gain ← ofOption (narrow 128 (closed * (priceTicks - cost)))
    let realized ← ofOption (narrow 128 (gain * -quantityTicks.sign))
    let remaining ← ofOption (narrow 64 (held + quantityTicks))
    let average := if remaining = 0 then 0
      else if remaining.sign = held.sign then cost
      else priceTicks
    let realized ← ofOption (narrow 64 realized)
    .ok (remaining, average, realized)

/-- Store the position a fill leaves; its price becomes the mark. -/
def storeFillPosition (p : Portfolio) (instrumentId : InstrumentId)
    (quantityTicks averageCostTicks priceTicks : Int) : Portfolio :=
  { p with
    marks := p.marks.insert instrumentId priceTicks
    positions := p.positions.insert instrumentId ⟨quantityTicks, priceTicks⟩
    costBasis := if quantityTicks = 0 then p.costBasis.erase instrumentId
      else p.costBasis.insert instrumentId averageCostTicks }

/-- Apply one authoritative fill. The position is stored before cash, realized PnL and
fees are narrowed to 64 bits. -/
def applyFill (instrumentId : InstrumentId) (quantityTicks priceTicks feeTicks : Int) :
    Fallible Portfolio AccountingError FillLedgerEntry := do
  let p ← Fallible.reads id
  Fallible.require (¬(quantityTicks = 0 ∨ priceTicks ≤ 0 ∨ feeTicks < 0)) .invalidFill
  let previous := (p.position instrumentId).getD ⟨0, priceTicks⟩
  let previousCost := (p.averageCostPrice instrumentId).getD previous.markPriceTicks
  let (nextQuantity, nextAverage, realized) ← Fallible.ofExcept
    (fillOutcome previous.quantityTicks previousCost quantityTicks priceTicks)
  let notional ← Fallible.orFail (narrow 128 (quantityTicks * priceTicks)) .overflow
  let cashDelta ← Fallible.orFail (narrow 128 (-notional - feeTicks)) .overflow
  let nextCash ← Fallible.orFail (narrow 128 (p.cashTicks + cashDelta)) .overflow
  let nextRealized ← Fallible.orFail (narrow 128 (p.realizedPnlTicks + realized)) .overflow
  let nextFees ← Fallible.orFail (narrow 128 (p.feesTicks + feeTicks)) .overflow
  let cashDeltaTicks ← Fallible.orFail (narrow 64 cashDelta) .overflow
  let entry : FillLedgerEntry := {
    instrumentId := instrumentId
    quantityTicks := quantityTicks
    priceTicks := priceTicks
    feeTicks := feeTicks
    cashDeltaTicks := cashDeltaTicks
    realizedPnlTicks := realized
    postings := [⟨.cash, cashDelta⟩, ⟨.position, notional⟩, ⟨.fees, feeTicks⟩] }
  Fallible.modify (·.storeFillPosition instrumentId nextQuantity nextAverage priceTicks)
  let cash ← Fallible.orFail (narrow 64 nextCash) .overflow
  Fallible.modify ({ · with cashTicks := cash })
  let realizedPnl ← Fallible.orFail (narrow 64 nextRealized) .overflow
  Fallible.modify ({ · with realizedPnlTicks := realizedPnl })
  let fees ← Fallible.orFail (narrow 64 nextFees) .overflow
  Fallible.modify fun p =>
    recordEquityPeak { p with feesTicks := fees, ledger := p.ledger ++ [entry] }
  pure entry

-- Corporate actions

/-- Scale a price that is there; a missing price stays missing. -/
def scaleKnownPrice (price : Option Int) (numerator denominator : ℕ) :
    Except AccountingError Int :=
  match price with
  | none => .ok 0
  | some price => scalePrice price numerator denominator

/-- Split a position without changing its marked notional. -/
def applySplit (instrumentId : InstrumentId) (numerator denominator : ℕ) :
    Fallible Portfolio AccountingError CorporateActionEntry := do
  let p ← Fallible.reads id
  Fallible.require (¬(numerator = 0 ∨ denominator = 0)) .invalidCorporateAction
  let previous := (p.position instrumentId).getD ⟨0, 0⟩
  let product ← Fallible.orFail (narrow 128 (previous.quantityTicks * numerator)) .overflow
  Fallible.require (product.tmod denominator = 0) .nonRepresentableCorporateAction
  let nextQuantity ← Fallible.orFail (narrow 64 (product.tdiv denominator)) .overflow
  let nextCost ← Fallible.ofExcept
    (scaleKnownPrice (p.averageCostPrice instrumentId) denominator numerator)
  let knownMark := (p.markPrice instrumentId).orElse fun _ =>
    if 0 < previous.markPriceTicks then some previous.markPriceTicks else none
  let nextMark ← Fallible.ofExcept (scaleKnownPrice knownMark denominator numerator)
  let entry : CorporateActionEntry :=
    ⟨instrumentId, .split numerator denominator, previous.quantityTicks, nextQuantity, 0⟩
  Fallible.modify fun p => recordEquityPeak <|
    if nextQuantity ≠ 0 then
      { p with
        positions := p.positions.insert instrumentId ⟨nextQuantity, nextMark⟩
        marks := if 0 < nextMark then p.marks.insert instrumentId nextMark else p.marks
        costBasis := if 0 < nextCost then p.costBasis.insert instrumentId nextCost
          else p.costBasis
        corporateActions := p.corporateActions ++ [entry] }
    else
      { p with
        positions := p.positions.erase instrumentId
        marks := p.marks.erase instrumentId
        costBasis := p.costBasis.erase instrumentId
        corporateActions := p.corporateActions ++ [entry] }
  pure entry

/-- Pay a dividend on the signed position quantity. -/
def applyCashDividend (instrumentId : InstrumentId) (amountTicks : Int) :
    Fallible Portfolio AccountingError CorporateActionEntry := do
  let p ← Fallible.reads id
  Fallible.require (0 ≤ amountTicks) .invalidCorporateAction
  let held := p.quantity instrumentId
  let cashDelta ← Fallible.orFail (narrow 128 (held * amountTicks)) .overflow
  let nextCash ← Fallible.orFail (narrow 128 (p.cashTicks + cashDelta)) .overflow
  let cashDeltaTicks ← Fallible.orFail (narrow 64 cashDelta) .overflow
  let nextCashTicks ← Fallible.orFail (narrow 64 nextCash) .overflow
  let entry : CorporateActionEntry :=
    ⟨instrumentId, .cashDividend amountTicks, held, held, cashDeltaTicks⟩
  Fallible.modify fun p => recordEquityPeak
    { p with cashTicks := nextCashTicks, corporateActions := p.corporateActions ++ [entry] }
  pure entry

/-- Move a position to a quantity; a flat position is removed with its cost. -/
def storePositionDelta (p : Portfolio) (instrumentId : InstrumentId) (quantity : Int) :
    Portfolio :=
  let mark := (p.position instrumentId).elim 0 (·.markPriceTicks)
  if quantity = 0 then
    { p with
      positions := p.positions.erase instrumentId
      costBasis := p.costBasis.erase instrumentId }
  else
    { p with positions := p.positions.insert instrumentId ⟨quantity, mark⟩ }

/-- Cash after a signed settlement. -/
def settledCash (p : Portfolio) (cashDeltaTicks : Int) :
    Fallible Portfolio AccountingError Int :=
  -- the sum of two 64-bit values always fits the 128-bit intermediate
  Fallible.orFail (narrow 64 (p.cashTicks + cashDeltaTicks)) .overflow

/-- Settle an option against its underlying and cash; exercise and assignment alike. -/
def applyOptionSettlement (optionInstrumentId : InstrumentId) (kind : CorporateActionKind)
    (underlyingInstrumentId : InstrumentId)
    (optionDelta underlyingDelta cashDelta : Int) :
    Fallible Portfolio AccountingError CorporateActionEntry := do
  let p ← Fallible.reads id
  Fallible.require
    (¬(optionInstrumentId = underlyingInstrumentId ∨ optionDelta = 0 ∨ underlyingDelta = 0))
    .invalidCorporateAction
  let optionBefore := p.quantity optionInstrumentId
  let optionAfter ← Fallible.orFail (narrow 64 (optionBefore + optionDelta)) .overflow
  let underlyingAfter ← Fallible.orFail
    (narrow 64 (p.quantity underlyingInstrumentId + underlyingDelta)) .overflow
  let cashAfter ← settledCash p cashDelta
  let entry : CorporateActionEntry :=
    ⟨optionInstrumentId, kind, optionBefore, optionAfter, cashDelta⟩
  Fallible.modify fun p =>
    let p := p.storePositionDelta optionInstrumentId optionAfter
    let p := p.storePositionDelta underlyingInstrumentId underlyingAfter
    recordEquityPeak
      { p with cashTicks := cashAfter, corporateActions := p.corporateActions ++ [entry] }
  pure entry

/-- Remove an expired option quantity and settle its cash. -/
def applyOptionExpiry (optionInstrumentId : InstrumentId)
    (optionQuantityDeltaTicks cashDeltaTicks : Int) :
    Fallible Portfolio AccountingError CorporateActionEntry := do
  let p ← Fallible.reads id
  Fallible.require (¬(optionQuantityDeltaTicks = 0 ∨ optionInstrumentId = 0))
    .invalidCorporateAction
  let before := p.quantity optionInstrumentId
  let after ← Fallible.orFail (narrow 64 (before + optionQuantityDeltaTicks)) .overflow
  let cashAfter ← settledCash p cashDeltaTicks
  Fallible.modify fun p =>
    { p.storePositionDelta optionInstrumentId after with cashTicks := cashAfter }
  pure ⟨optionInstrumentId, .optionExpiry optionQuantityDeltaTicks cashDeltaTicks,
    before, after, cashDeltaTicks⟩

/-- Futures variation margin: cash moves, the position stays. -/
def applyFuturesVariationMargin (instrumentId : InstrumentId) (cashDeltaTicks : Int) :
    Fallible Portfolio AccountingError CorporateActionEntry := do
  let p ← Fallible.reads id
  Fallible.require (instrumentId ≠ 0) .invalidCorporateAction
  let held := p.quantity instrumentId
  let cash ← settledCash p cashDeltaTicks
  Fallible.modify ({ · with cashTicks := cash })
  pure ⟨instrumentId, .futuresVariationMargin cashDeltaTicks, held, held, cashDeltaTicks⟩

/-- Apply a corporate action of any kind. -/
def applyCorporateAction (instrumentId : InstrumentId) (kind : CorporateActionKind) :
    Fallible Portfolio AccountingError CorporateActionEntry :=
  match kind with
  | .split numerator denominator => applySplit instrumentId numerator denominator
  | .cashDividend amountTicks => applyCashDividend instrumentId amountTicks
  | .optionExercise underlying option underlyingDelta cash
  | .optionAssignment underlying option underlyingDelta cash =>
    applyOptionSettlement instrumentId kind underlying option underlyingDelta cash
  | .optionExpiry option cash => applyOptionExpiry instrumentId option cash
  | .futuresVariationMargin cash => applyFuturesVariationMargin instrumentId cash

end Portfolio

end InsiderTrader
