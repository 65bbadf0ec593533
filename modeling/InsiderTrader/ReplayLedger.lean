import InsiderTrader.FillAccounting

/-!
# The replay ledger

A backtest keeps the accounts of one instrument in a ledger of its own. On the
fills that live accounting takes, the ledger takes them too and keeps the same
position, average cost, cash and realized PnL.

## Main definitions

- `BacktestLedger.applyFill` — one signed fill of a replay
- `BacktestLedger.Agrees` — a ledger and a portfolio have the same accounts of an instrument

## Main results

- `BacktestLedger.agrees_applyFill` — one fill that the portfolio takes
- `ledger_refines_portfolio` — a run of fills that the portfolio takes
-/

namespace InsiderTrader

open MachineInt Fallible

/-- Failure applying a historical fill. -/
inductive LedgerError where
  | invalidValue
  | overflow
  deriving DecidableEq

/-- Deterministic single-instrument replay ledger. -/
structure BacktestLedger where
  initialCashTicks : Int
  positionTicks : Int
  averageCostTicks : Int
  cashTicks : Int
  realizedPnlTicks : Int
  deriving DecidableEq

namespace BacktestLedger

/-- A flat ledger with its initial cash. -/
def new (initialCashTicks : Int) : BacktestLedger := ⟨initialCashTicks, 0, 0, initialCashTicks, 0⟩

/-- Open a position or add to it, at the average cost. -/
def addFill (held cost quantityTicks priceTicks : Int) : Fallible BacktestLedger LedgerError Unit := do
  let totalQuantity ← Fallible.orFail (narrow 128 (held.natAbs + quantityTicks.natAbs)) .overflow
  let oldCost ← Fallible.orFail (narrow 128 (held.natAbs * cost)) .overflow
  let fillCost ← Fallible.orFail (narrow 128 (quantityTicks.natAbs * priceTicks)) .overflow
  let totalCost ← Fallible.orFail (narrow 128 (oldCost + fillCost)) .overflow
  let average ← Fallible.orFail (narrow 64 (totalCost.tdiv totalQuantity)) .overflow
  Fallible.modify ({ · with averageCostTicks := average })
  let position ← Fallible.orFail (narrow 64 (held + quantityTicks)) .overflow
  Fallible.modify ({ · with positionTicks := position })

/-- Close a position, or part of it, or reverse it. The product of the price and the quantity
has 64-bit factors, so that it is not checked. -/
def closeFill (held cost quantityTicks priceTicks : Int) :
    Fallible BacktestLedger LedgerError Unit := do
  let closing := min held.natAbs quantityTicks.natAbs
  let priceDelta := if 0 < held then priceTicks - cost else cost - priceTicks
  let realizedPnl ← Fallible.reads (·.realizedPnlTicks)
  let realized ← Fallible.orFail (narrow 128 (realizedPnl + priceDelta * closing)) .overflow
  Fallible.modify ({ · with realizedPnlTicks := realized })
  let remaining ← Fallible.orFail (narrow 64 (quantityTicks + held)) .overflow
  Fallible.modify ({ · with positionTicks := remaining })
  Fallible.when (remaining = 0 ∨ remaining.sign ≠ held.sign)
    (Fallible.modify ({ · with averageCostTicks := if remaining = 0 then 0 else priceTicks }))

/-- Apply one signed fill: a positive quantity buys, a negative one sells. -/
def applyFill (quantityTicks priceTicks : Int) : Fallible BacktestLedger LedgerError Unit := do
  Fallible.require (¬(quantityTicks = 0 ∨ priceTicks ≤ 0)) .invalidValue
  let notional ← Fallible.orFail (narrow 128 (quantityTicks * priceTicks)) .overflow
  let l ← Fallible.reads id
  let cash ← Fallible.orFail (narrow 128 (l.cashTicks - notional)) .overflow
  Fallible.modify ({ · with cashTicks := cash })
  if l.positionTicks = 0 ∨ l.positionTicks.sign = quantityTicks.sign then
    addFill l.positionTicks l.averageCostTicks quantityTicks priceTicks
  else closeFill l.positionTicks l.averageCostTicks quantityTicks priceTicks

/-- Fills one after the other, up to the first that is refused; a fill is a quantity and a
price. -/
def applyFills : List (Int × Int) → Fallible BacktestLedger LedgerError Unit :=
  Fallible.forEach fun fill => applyFill fill.1 fill.2

variable {l : BacktestLedger} {held cost quantity price : Int}

theorem addFill_eq (hfits : Fits 128 (held.natAbs * cost) ∧ Fits 128 (quantity.natAbs * price) ∧
      Fits 128 (held.natAbs * cost + quantity.natAbs * price) ∧
      Fits 64 (Portfolio.nextAverage held cost quantity price))
    (hadds : Portfolio.Adds held quantity) (hne : quantity ≠ 0) (hnext : Fits 64 (held + quantity)) :
    addFill held cost quantity price l =
      (.ok (), { l with
        averageCostTicks := Portfolio.nextAverage held cost quantity price
        positionTicks := held + quantity }) := by
  obtain ⟨hold, hnew, htotal, haverage⟩ := hfits
  have hsum : ((held + quantity).natAbs : Int) = held.natAbs + quantity.natAbs := by
    rcases lt_or_gt_of_ne hne with h | h
    · have := hadds.nonpos h
      omega
    · have := hadds.nonneg h
      omega
  have hquantity : Fits 128 (held.natAbs + quantity.natAbs : Int) := by
    rw [← hsum, fits_128_iff]
    rw [fits_64_iff] at hnext
    omega
  rw [Portfolio.nextAverage, if_pos hadds, hsum] at haverage ⊢
  rw [addFill, orFail_bind_some (narrow_of_fits hquantity), orFail_bind_some (narrow_of_fits hold),
    orFail_bind_some (narrow_of_fits hnew), orFail_bind_some (narrow_of_fits htotal),
    orFail_bind_some (narrow_of_fits haverage), modify_bind,
    orFail_bind_some (narrow_of_fits hnext)]
  rfl

/-- What a closing fill realizes, as the ledger computes it. -/
theorem realizedBy_of_closes (hcloses : ¬Portfolio.Adds held quantity) (hne : quantity ≠ 0) :
    (if 0 < held then price - cost else cost - price) * (min held.natAbs quantity.natAbs : ℕ) =
      Portfolio.realizedBy held cost quantity price := by
  have hheld : held ≠ 0 := fun h => hcloses (.inl h)
  have hsign : held.sign ≠ quantity.sign := fun h => hcloses (.inr h)
  rw [Portfolio.realizedBy, if_neg hcloses]
  rcases lt_or_gt_of_ne hheld with hshort | hlong
  · have hbuys : 0 < quantity := by
      by_contra hnot
      exact hsign (by rw [Int.sign_eq_neg_one_of_neg hshort, Int.sign_eq_neg_one_of_neg (by omega)])
    rw [if_neg (by omega), Int.sign_eq_one_of_pos hbuys]
    ring
  · have hsells : quantity < 0 := by
      by_contra hnot
      exact hsign (by rw [Int.sign_eq_one_of_pos hlong, Int.sign_eq_one_of_pos (by omega)])
    rw [if_pos hlong, Int.sign_eq_neg_one_of_neg hsells]
    ring

theorem closeFill_eq (hcloses : ¬Portfolio.Adds held quantity) (hne : quantity ≠ 0)
    (haverage : l.averageCostTicks = cost)
    (hrealized : Fits 128 (l.realizedPnlTicks + Portfolio.realizedBy held cost quantity price))
    (hnext : Fits 64 (held + quantity)) :
    closeFill held cost quantity price l =
      (.ok (), { l with
        realizedPnlTicks := l.realizedPnlTicks + Portfolio.realizedBy held cost quantity price
        averageCostTicks := Portfolio.nextAverage held cost quantity price
        positionTicks := held + quantity }) := by
  rw [closeFill, reads_bind, realizedBy_of_closes hcloses hne,
    orFail_bind_some (narrow_of_fits hrealized), modify_bind, Int.add_comm quantity held,
    orFail_bind_some (narrow_of_fits hnext), modify_bind, Portfolio.nextAverage, if_neg hcloses]
  by_cases hflat : held + quantity = 0
  · rw [Fallible.when, if_pos (.inl hflat), if_pos hflat, if_pos hflat]
    rfl
  by_cases hsame : (held + quantity).sign = held.sign
  · rw [Fallible.when, if_neg (by simp [hflat, hsame]), if_neg hflat, if_pos hsame, ← haverage]
    rfl
  · rw [Fallible.when, if_pos (.inr hsame), if_neg hflat, if_neg hflat, if_neg hsame]
    rfl

/-- The ledger and the portfolio have the same accounts of an instrument, with amounts of
64 bits, and only a position that is not flat has an average cost. -/
structure Agrees (i : InstrumentId) (l : BacktestLedger) (p : Portfolio) : Prop where
  position : l.positionTicks = p.quantity i
  averageCost : l.averageCostTicks = (p.averageCostPrice i).getD 0
  cash : l.cashTicks = p.cashTicks
  realizedPnl : l.realizedPnlTicks = p.realizedPnlTicks

/-- What the portfolio keeps besides: amounts of 64 bits, and an average cost of each position
that is not flat, and of no other. -/
structure Kept (i : InstrumentId) (p : Portfolio) : Prop where
  costed : (p.averageCostPrice i).isSome ↔ p.quantity i ≠ 0
  quantity : Fits 64 (p.quantity i)
  averageCost : Fits 64 ((p.averageCostPrice i).getD 0)
  cash : Fits 64 p.cashTicks
  realizedPnl : Fits 64 p.realizedPnlTicks

variable {i : InstrumentId} {p p' : Portfolio} {entry : FillLedgerEntry}

/-- What a fill does to the average cost and realizes depends on the cost of a position that is
not flat alone. -/
theorem fill_of_kept (h : Kept i p) (quantity price : Int) :
    Portfolio.nextAverage (p.quantity i) (p.fillCost i price) quantity price =
        Portfolio.nextAverage (p.quantity i) ((p.averageCostPrice i).getD 0) quantity price ∧
      Portfolio.realizedBy (p.quantity i) (p.fillCost i price) quantity price =
        Portfolio.realizedBy (p.quantity i) ((p.averageCostPrice i).getD 0) quantity price := by
  by_cases hflat : p.quantity i = 0
  · have hadds : Portfolio.Adds 0 quantity := .inl rfl
    rw [hflat, Portfolio.nextAverage, if_pos hadds, Portfolio.nextAverage, if_pos hadds,
      Portfolio.realizedBy, if_pos hadds, Portfolio.realizedBy, if_pos hadds]
    simp
  · obtain ⟨cost, hcost⟩ := Option.isSome_iff_exists.mp (h.costed.mpr hflat)
    rw [Portfolio.fillCost, hcost]
    exact ⟨rfl, rfl⟩

/-- The next average cost of 64-bit values is one. -/
theorem nextAverage_fits (hheld : Fits 64 held) (hcost : Fits 64 cost)
    (hquantity : Fits 64 quantity) (hprice : Fits 64 price) (hne : quantity ≠ 0) :
    Fits 64 (Portfolio.nextAverage held cost quantity price) := by
  by_cases hadds : Portfolio.Adds held quantity
  · exact (Portfolio.addition_fits hheld hcost hquantity hprice hadds hne).2.2.2
  · rw [Portfolio.nextAverage, if_neg hadds]
    split
    · decide
    · split
      · exact hcost
      · exact hprice

/-- A fill that leaves nothing leaves no average cost. -/
theorem nextAverage_of_flat (hne : quantity ≠ 0) (hflat : held + quantity = 0) :
    Portfolio.nextAverage held cost quantity price = 0 := by
  have hcloses : ¬Portfolio.Adds held quantity := by
    intro hadds
    rcases lt_or_gt_of_ne hne with h | h
    · have := hadds.nonpos h
      omega
    · have := hadds.nonneg h
      omega
  rw [Portfolio.nextAverage, if_neg hcloses, if_pos hflat]

/-- What the ledger does with a fill that passes its checks. -/
theorem applyFill_eq (hne : quantity ≠ 0) (hpos : 0 < price) (hprice : Fits 64 price)
    (hquantity : Fits 64 quantity) (hheld : Fits 64 l.positionTicks)
    (hcost : Fits 64 l.averageCostTicks) (hnotional : Fits 128 (quantity * price))
    (hcash : Fits 128 (l.cashTicks - quantity * price))
    (hrealized : Fits 128 (l.realizedPnlTicks +
      Portfolio.realizedBy l.positionTicks l.averageCostTicks quantity price))
    (hnext : Fits 64 (l.positionTicks + quantity)) :
    l.applyFill quantity price = (.ok (), { l with
      cashTicks := l.cashTicks - quantity * price
      realizedPnlTicks := l.realizedPnlTicks +
        Portfolio.realizedBy l.positionTicks l.averageCostTicks quantity price
      averageCostTicks :=
        Portfolio.nextAverage l.positionTicks l.averageCostTicks quantity price
      positionTicks := l.positionTicks + quantity }) := by
  rw [applyFill, require_bind, if_pos (by omega), orFail_bind_some (narrow_of_fits hnotional),
    reads_bind, id, orFail_bind_some (narrow_of_fits hcash), modify_bind]
  by_cases hadds : Portfolio.Adds l.positionTicks quantity
  · have hfits := Portfolio.addition_fits hheld hcost hquantity hprice hadds hne
    rw [if_pos (show l.positionTicks = 0 ∨ _ from hadds), addFill_eq hfits hadds hne hnext,
      Portfolio.realizedBy, if_pos hadds, add_zero]
  · rw [if_neg (show ¬(l.positionTicks = 0 ∨ _) from hadds)]
    exact closeFill_eq hadds hne rfl hrealized hnext

/-- **One fill** that the portfolio takes is taken by the ledger, and both agree again. -/
theorem agrees_applyFill (hagrees : Agrees i l p) (hkept : Kept i p) (hquantity : Fits 64 quantity)
    (hprice : Fits 64 price) (h : p.applyFill i quantity price 0 = (.ok entry, p')) :
    ∃ l', l.applyFill quantity price = (.ok (), l') ∧ Agrees i l' p' ∧ Kept i p' := by
  obtain ⟨htakes, hsettles, rfl⟩ := Portfolio.applyFill_settled h
  obtain ⟨hposition, hcost, hcash, hrealized⟩ := hagrees
  obtain ⟨hsame, hgain⟩ := fill_of_kept hkept quantity price
  have haverage := nextAverage_fits hkept.quantity hkept.averageCost hquantity hprice
    htakes.quantity_ne
  have hdelta : Portfolio.cashBy quantity price 0 = -(quantity * price) := by
    rw [Portfolio.cashBy, sub_zero]
  have hnextCash := hsettles.cash
  have hnextRealized := hsettles.realized
  rw [hgain] at hnextRealized
  rw [hdelta] at hnextCash
  have hnotional : Fits 128 (quantity * price) := by
    have hfits := htakes.cash
    rw [hdelta, fits_64_iff] at hfits
    exact fits_128_iff.mpr (by omega)
  have hcash128 : Fits 128 (l.cashTicks - quantity * price) := by
    rw [hcash]
    rw [fits_64_iff] at hnextCash
    exact fits_128_iff.mpr (by omega)
  have hrealized128 : Fits 128 (l.realizedPnlTicks +
      Portfolio.realizedBy l.positionTicks l.averageCostTicks quantity price) := by
    rw [hrealized, hposition, hcost]
    rw [fits_64_iff] at hnextRealized
    exact fits_128_iff.mpr (by omega)
  refine ⟨_, applyFill_eq htakes.quantity_ne htakes.price_pos hprice hquantity
    (hposition ▸ hkept.quantity) (hcost ▸ hkept.averageCost) hnotional hcash128 hrealized128
    (hposition ▸ htakes.next), ?_⟩
  rw [hsame, hgain, hdelta, Portfolio.recordEquityPeak_eq]
  generalize hstored : p.storeFillPosition i (p.quantity i + quantity)
    (Portfolio.nextAverage (p.quantity i) ((p.averageCostPrice i).getD 0) quantity price) price =
      stored
  have hquantity' : stored.quantity i = p.quantity i + quantity := by
    rw [← hstored, Portfolio.storeFillPosition_quantity]
  have haverage' : stored.averageCostPrice i = if p.quantity i + quantity = 0 then none else
      some (Portfolio.nextAverage (p.quantity i) ((p.averageCostPrice i).getD 0) quantity price) := by
    rw [← hstored, Portfolio.storeFillPosition_averageCostPrice]
  have hcost' : (stored.averageCostPrice i).getD 0 =
      Portfolio.nextAverage (p.quantity i) ((p.averageCostPrice i).getD 0) quantity price := by
    rw [haverage']
    split
    · next hflat => rw [nextAverage_of_flat htakes.quantity_ne hflat, Option.getD_none]
    · rfl
  constructor
  · refine ⟨?_, ?_, ?_, ?_⟩
    · rw [hposition]
      exact hquantity'.symm
    · rw [hposition, hcost]
      exact hcost'.symm
    · show l.cashTicks - quantity * price = p.cashTicks + -(quantity * price)
      omega
    · rw [hrealized, hposition, hcost]
  · refine ⟨?_, hquantity' ▸ htakes.next, hcost' ▸ haverage, hnextCash, hnextRealized⟩
    show (stored.averageCostPrice i).isSome ↔ stored.quantity i ≠ 0
    rw [hquantity', haverage']
    split
    · next hflat => simp [hflat]
    · next hheld => simp [hheld]

/-- **A run of fills** that the portfolio takes is taken by the ledger, and both agree at its
end. -/
theorem agrees_applyFills {fills : List (Int × Int)} (hagrees : Agrees i l p) (hkept : Kept i p)
    (hfits : ∀ fill ∈ fills, Fits 64 fill.1 ∧ Fits 64 fill.2)
    (h : Portfolio.applyFills i (fills.map fun fill => ⟨fill.1, fill.2, 0⟩) p = (.ok (), p')) :
    ∃ l', applyFills fills l = (.ok (), l') ∧ Agrees i l' p' := by
  induction fills generalizing l p with
  | nil =>
    obtain rfl : p = p' := congrArg Prod.snd h
    exact ⟨l, rfl, hagrees⟩
  | cons fill fills ih =>
    obtain ⟨u, q, hfill, hrest⟩ := bind_eq_ok h
    obtain ⟨entry, q', hentry, hq⟩ := bind_eq_ok hfill
    obtain rfl : q' = q := congrArg Prod.snd hq
    obtain ⟨⟨hquantity, hprice⟩, hfits⟩ := List.forall_mem_cons.mp hfits
    obtain ⟨next, hnext, hagrees, hkept⟩ := agrees_applyFill hagrees hkept hquantity hprice hentry
    obtain ⟨l', hl', hend⟩ := ih hagrees hkept hfits hrest
    exact ⟨l', (bind_of_ok hnext).trans hl', hend⟩

end BacktestLedger

/-- A portfolio without positions, with its starting cash. -/
def Portfolio.startingWith (cashTicks : Int) : Portfolio :=
  { Portfolio.new with cashTicks := cashTicks }

/-- **The replay ledger refines live accounting**: over fills without fees that the portfolio
takes from its starting cash on, the ledger takes them too, and after every fill both have the
same position, average cost, cash and realized PnL. -/
theorem ledger_refines_portfolio {i : InstrumentId} {cash : Int} {fills : List (Int × Int)}
    (hcash : Fits 64 cash) (hfits : ∀ fill ∈ fills, Fits 64 fill.1 ∧ Fits 64 fill.2)
    (h : (Portfolio.applyFills i (fills.map fun fill => ⟨fill.1, fill.2, 0⟩)).Succeeds
      (Portfolio.startingWith cash)) :
    (BacktestLedger.applyFills fills).Succeeds (BacktestLedger.new cash) ∧
      ∀ played, played <+: fills →
        BacktestLedger.Agrees i (BacktestLedger.applyFills played (BacktestLedger.new cash)).2
          (Portfolio.applyFills i (played.map fun fill => ⟨fill.1, fill.2, 0⟩)
            (Portfolio.startingWith cash)).2 := by
  have hagrees : BacktestLedger.Agrees i (BacktestLedger.new cash) (Portfolio.startingWith cash) :=
    ⟨rfl, rfl, rfl, rfl⟩
  have hkept : BacktestLedger.Kept i (Portfolio.startingWith cash) := by
    have hquantity : (Portfolio.startingWith cash).quantity i = 0 := by
      simp [Portfolio.startingWith, Portfolio.quantity, Portfolio.position, Portfolio.new]
    have hcost : (Portfolio.startingWith cash).averageCostPrice i = none := by
      simp [Portfolio.startingWith, Portfolio.averageCostPrice, Portfolio.new]
    have hzero : Fits 64 0 := by decide
    exact ⟨by simp [hquantity, hcost], hquantity ▸ hzero, hcost ▸ hzero, hcash, hzero⟩
  have hinitial : ∀ played, played <+: fills →
      (Portfolio.applyFills i (played.map fun fill => ⟨fill.1, fill.2, 0⟩)).Succeeds
        (Portfolio.startingWith cash) := by
    rintro played ⟨rest, rfl⟩
    rw [List.map_append, Portfolio.applyFills, forEach_append] at h
    obtain ⟨_, hrun⟩ := h.eq_ok
    obtain ⟨_, q, hplayed, -⟩ := bind_eq_ok hrun
    exact succeeds_iff.mpr ⟨_, congrArg Prod.fst hplayed⟩
  constructor
  · obtain ⟨_, hrun⟩ := h.eq_ok
    obtain ⟨l', hl', -⟩ := BacktestLedger.agrees_applyFills hagrees hkept hfits hrun
    exact succeeds_iff.mpr ⟨_, congrArg Prod.fst hl'⟩
  · intro played hplayed
    obtain ⟨_, hrun⟩ := (hinitial played hplayed).eq_ok
    obtain ⟨l', hl', hend⟩ := BacktestLedger.agrees_applyFills hagrees hkept
      (fun fill hfill => hfits fill (hplayed.subset hfill)) hrun
    rw [hl']
    exact hend

/-- A purchase, a reversal and a purchase that closes half of the short position. -/
theorem ledger_refines_portfolio_reversal :
    (BacktestLedger.applyFills [(3, 10), (-5, 12), (1, 11)]).Succeeds (BacktestLedger.new 100) ∧
      ∀ played, played <+: [(3, 10), (-5, 12), (1, 11)] →
        BacktestLedger.Agrees 7 (BacktestLedger.applyFills played (BacktestLedger.new 100)).2
          (Portfolio.applyFills 7 (played.map fun fill => ⟨fill.1, fill.2, 0⟩)
            (Portfolio.startingWith 100)).2 :=
  ledger_refines_portfolio (by decide) (by decide) (by decide)

end InsiderTrader
