import Mathlib.Tactic.Ring
import InsiderTrader.OrderFlow

/-!
# What a fill does to the accounts

A fill moves cash by its price, realized PnL by what it closes, and the average
cost by what it adds. Cost is kept in whole ticks, so that each addition rounds
the cost of the position; what it rounds off is found again in the realized PnL
once the position is flat.

## Main definitions

- `Portfolio.realizedBy` — what a fill closes, at the average cost
- `Portfolio.roundedOff` — what a fill rounds off the cost of the position
- `Portfolio.inventory` — the position at its average cost

## Main results

- `Portfolio.applyFill_accounts` — inversion of a fill, with all accounts
- `Portfolio.applyFill_unchanged_iff` — when a refused fill changes nothing
- `Portfolio.fill_balance` — one fill moves cash, PnL, fees and inventory together
- `round_trip_balance` — the accounts of a run of fills from flat to flat
-/

namespace InsiderTrader

open MachineInt Fallible

namespace Portfolio

-- The outcome of a fill

/-- A fill that opens or adds to a position. -/
def Adds (held quantityTicks : Int) : Prop := held = 0 ∨ held.sign = quantityTicks.sign

instance (held quantityTicks : Int) : Decidable (Adds held quantityTicks) :=
  inferInstanceAs (Decidable (_ ∨ _))

/-- The PnL that a fill realizes: the quantity it closes, from the average cost to the price. -/
def realizedBy (held cost quantityTicks priceTicks : Int) : Int :=
  if Adds held quantityTicks then 0
  else min held.natAbs quantityTicks.natAbs * (priceTicks - cost) * -quantityTicks.sign

/-- What an addition rounds off the cost of the position, positive for a long one. -/
def roundedOff (held cost quantityTicks priceTicks : Int) : Int :=
  if Adds held quantityTicks then
    quantityTicks.sign *
      (held.natAbs * cost + quantityTicks.natAbs * priceTicks).tmod
        (held + quantityTicks).natAbs
  else 0

/-- The average cost that a fill leaves. -/
def nextAverage (held cost quantityTicks priceTicks : Int) : Int :=
  if Adds held quantityTicks then
    (held.natAbs * cost + quantityTicks.natAbs * priceTicks).tdiv (held + quantityTicks).natAbs
  else if held + quantityTicks = 0 then 0
  else if (held + quantityTicks).sign = held.sign then cost
  else priceTicks

variable {held cost quantity price : Int}

theorem Adds.nonneg (h : Adds held quantity) (hpos : 0 < quantity) : 0 ≤ held := by
  rcases h with rfl | h
  · exact le_rfl
  · rw [Int.sign_eq_one_of_pos hpos] at h
    exact (Int.sign_eq_one_iff_pos.mp h).le

theorem Adds.nonpos (h : Adds held quantity) (hneg : quantity < 0) : held ≤ 0 := by
  rcases h with rfl | h
  · exact le_rfl
  · rw [Int.sign_eq_neg_one_of_neg hneg] at h
    exact (Int.sign_eq_neg_one_iff_neg.mp h).le

/-- The cost of the position after an addition, less what is rounded off. -/
theorem cost_of_addition (hadds : Adds held quantity) (hquantity : quantity ≠ 0) (cost price : Int) :
    (held + quantity) *
        (held.natAbs * cost + quantity.natAbs * price).tdiv (held + quantity).natAbs +
        quantity.sign * (held.natAbs * cost + quantity.natAbs * price).tmod
          (held + quantity).natAbs =
      held * cost + quantity * price := by
  have hsign : held + quantity = quantity.sign * (held + quantity).natAbs ∧
      held = quantity.sign * held.natAbs := by
    rcases lt_or_gt_of_ne hquantity with h | h
    · have hheld := hadds.nonpos h
      rw [Int.sign_eq_neg_one_of_neg h]
      omega
    · have hheld := hadds.nonneg h
      rw [Int.sign_eq_one_of_pos h]
      omega
  have hdivision := Int.mul_tdiv_add_tmod
    (held.natAbs * cost + quantity.natAbs * price) (held + quantity).natAbs
  generalize (held.natAbs * cost + quantity.natAbs * price : Int).tdiv (held + quantity).natAbs = average
    at hdivision ⊢
  generalize (held.natAbs * cost + quantity.natAbs * price : Int).tmod (held + quantity).natAbs = rest
    at hdivision ⊢
  calc (held + quantity) * average + quantity.sign * rest
      = quantity.sign * ((held + quantity).natAbs * average + rest) := by
        rw [mul_add, ← mul_assoc, ← hsign.1]
    _ = quantity.sign * (held.natAbs * cost + quantity.natAbs * price) := by rw [hdivision]
    _ = held * cost + quantity * price := by
        rw [mul_add, ← mul_assoc, ← mul_assoc, ← hsign.2, Int.sign_mul_natAbs]

/-- **A closing fill** realizes the cost it takes out of the position against its price. -/
theorem cost_of_closing (hcloses : ¬Adds held quantity) (cost price : Int) :
    realizedBy held cost quantity price + quantity * price =
      (held + quantity) * nextAverage held cost quantity price - held * cost := by
  rw [realizedBy, if_neg hcloses, nextAverage, if_neg hcloses]
  have hheld : held ≠ 0 := fun h => hcloses (.inl h)
  have hopposite : quantity = 0 ∨ 0 < held ∧ quantity < 0 ∨ held < 0 ∧ 0 < quantity := by
    rcases lt_trichotomy quantity 0 with hq | hq | hq
    · refine .inr (.inl ⟨?_, hq⟩)
      by_contra hle
      refine hcloses (.inr ?_)
      rw [Int.sign_eq_neg_one_of_neg hq, Int.sign_eq_neg_one_of_neg (by omega)]
    · exact .inl hq
    · refine .inr (.inr ⟨?_, hq⟩)
      by_contra hle
      refine hcloses (.inr ?_)
      rw [Int.sign_eq_one_of_pos hq, Int.sign_eq_one_of_pos (by omega)]
  by_cases hflat : held + quantity = 0
  · -- all of the position is closed
    rw [if_pos hflat]
    have hclosed : ((min held.natAbs quantity.natAbs : ℕ) : Int) * -quantity.sign = held := by
      rcases hopposite with rfl | ⟨hpos, hneg⟩ | ⟨hneg, hpos⟩
      · omega
      · rw [Int.sign_eq_neg_one_of_neg hneg]
        omega
      · rw [Int.sign_eq_one_of_pos hpos]
        omega
    have hquantity : quantity = -held := by omega
    rw [mul_right_comm, hclosed, hflat, hquantity]
    ring
  · rw [if_neg hflat]
    by_cases hkeeps : (held + quantity).sign = held.sign
    · -- part of the position is closed
      rw [if_pos hkeeps]
      have hclosed : ((min held.natAbs quantity.natAbs : ℕ) : Int) * -quantity.sign = -quantity := by
        rcases hopposite with rfl | ⟨hpos, hneg⟩ | ⟨hneg, hpos⟩
        · simp
        · rw [Int.sign_eq_one_of_pos hpos, Int.sign_eq_one_iff_pos] at hkeeps
          rw [Int.sign_eq_neg_one_of_neg hneg]
          omega
        · rw [Int.sign_eq_neg_one_of_neg hneg, Int.sign_eq_neg_one_iff_neg] at hkeeps
          rw [Int.sign_eq_one_of_pos hpos]
          omega
      rw [mul_right_comm, hclosed]
      ring
    · -- the position is closed and reopened on the other side
      rw [if_neg hkeeps]
      have hclosed : ((min held.natAbs quantity.natAbs : ℕ) : Int) * -quantity.sign = held := by
        rcases hopposite with rfl | ⟨hpos, hneg⟩ | ⟨hneg, hpos⟩
        · exact absurd (by rw [add_zero]) hkeeps
        · rw [Int.sign_eq_one_of_pos hpos, Int.sign_eq_one_iff_pos] at hkeeps
          rw [Int.sign_eq_neg_one_of_neg hneg]
          omega
        · rw [Int.sign_eq_neg_one_of_neg hneg, Int.sign_eq_neg_one_iff_neg] at hkeeps
          rw [Int.sign_eq_one_of_pos hpos]
          omega
      rw [mul_right_comm, hclosed]
      ring

/-- **A fill at its average cost**: what it realizes and pays goes into the cost of the position,
up to what is rounded off. -/
theorem cost_of_fill (hquantity : quantity ≠ 0) (held cost price : Int) :
    realizedBy held cost quantity price + quantity * price =
      (held + quantity) * nextAverage held cost quantity price - held * cost +
        roundedOff held cost quantity price := by
  by_cases hadds : Adds held quantity
  · have hcost := cost_of_addition hadds hquantity cost price
    rw [realizedBy, if_pos hadds, nextAverage, if_pos hadds, roundedOff, if_pos hadds]
    omega
  · rw [cost_of_closing hadds, roundedOff, if_neg hadds, add_zero]

/-- The checks of an addition, all of them. -/
theorem fillOutcome_of_adds (hadds : Adds held quantity) :
    fillOutcome held cost quantity price =
      if Fits 64 (held + quantity) ∧ Fits 128 (held.natAbs * cost) ∧
          Fits 128 (quantity.natAbs * price) ∧
          Fits 128 (held.natAbs * cost + quantity.natAbs * price) ∧
          Fits 64 (nextAverage held cost quantity price) then
        .ok (held + quantity, nextAverage held cost quantity price, 0)
      else .error .overflow := by
  rw [nextAverage, if_pos hadds]
  unfold fillOutcome
  dsimp only
  rw [if_pos (show held = 0 ∨ held.sign = quantity.sign from hadds)]
  by_cases hnext : Fits 64 (held + quantity)
  · by_cases hold : Fits 128 (held.natAbs * cost)
    · by_cases hnew : Fits 128 (quantity.natAbs * price)
      · by_cases htotal : Fits 128 (held.natAbs * cost + quantity.natAbs * price)
        · by_cases haverage : Fits 64 ((held.natAbs * cost + quantity.natAbs * price : Int).tdiv
              (held + quantity).natAbs)
          · rw [if_pos ⟨hnext, hold, hnew, htotal, haverage⟩]
            simp only [narrow_of_fits hnext, narrow_of_fits hold, narrow_of_fits hnew,
              narrow_of_fits htotal, narrow_of_fits haverage, bind, Except.bind]
          · rw [if_neg fun h => haverage h.2.2.2.2]
            simp only [narrow_of_fits hnext, narrow_of_fits hold, narrow_of_fits hnew,
              narrow_of_fits htotal, narrow_of_not_fits haverage, bind, Except.bind]
        · rw [if_neg fun h => htotal h.2.2.2.1]
          simp only [narrow_of_fits hnext, narrow_of_fits hold, narrow_of_fits hnew,
            narrow_of_not_fits htotal, bind, Except.bind]
      · rw [if_neg fun h => hnew h.2.2.1]
        simp only [narrow_of_fits hnext, narrow_of_fits hold, narrow_of_not_fits hnew, bind,
          Except.bind]
    · rw [if_neg fun h => hold h.2.1]
      simp only [narrow_of_fits hnext, narrow_of_not_fits hold, bind, Except.bind]
  · rw [if_neg fun h => hnext h.1]
    simp only [narrow_of_not_fits hnext, bind, Except.bind]

/-- The checks of a closing fill, all of them. -/
theorem fillOutcome_of_closes (hcloses : ¬Adds held quantity) :
    fillOutcome held cost quantity price =
      if Fits 128 (min held.natAbs quantity.natAbs * (price - cost)) ∧
          Fits 128 (realizedBy held cost quantity price) ∧ Fits 64 (held + quantity) ∧
          Fits 64 (realizedBy held cost quantity price) then
        .ok (held + quantity, nextAverage held cost quantity price,
          realizedBy held cost quantity price)
      else .error .overflow := by
  rw [nextAverage, if_neg hcloses, realizedBy, if_neg hcloses]
  unfold fillOutcome
  dsimp only
  rw [if_neg (show ¬(held = 0 ∨ held.sign = quantity.sign) from hcloses)]
  by_cases hgain : Fits 128 (min held.natAbs quantity.natAbs * (price - cost))
  · by_cases hwide : Fits 128 (min held.natAbs quantity.natAbs * (price - cost) * -quantity.sign)
    · by_cases hnext : Fits 64 (held + quantity)
      · by_cases hrealized : Fits 64 (min held.natAbs quantity.natAbs * (price - cost) *
            -quantity.sign)
        · rw [if_pos ⟨hgain, hwide, hnext, hrealized⟩]
          simp only [narrow_of_fits hgain, narrow_of_fits hwide, narrow_of_fits hnext,
            narrow_of_fits hrealized, bind, Except.bind]
        · rw [if_neg fun h => hrealized h.2.2.2]
          simp only [narrow_of_fits hgain, narrow_of_fits hwide, narrow_of_fits hnext,
            narrow_of_not_fits hrealized, bind, Except.bind]
      · rw [if_neg fun h => hnext h.2.2.1]
        simp only [narrow_of_fits hgain, narrow_of_fits hwide, narrow_of_not_fits hnext, bind,
          Except.bind]
    · rw [if_neg fun h => hwide h.2.1]
      simp only [narrow_of_fits hgain, narrow_of_not_fits hwide, bind, Except.bind]
  · rw [if_neg fun h => hgain h.1]
    simp only [narrow_of_not_fits hgain, bind, Except.bind]

/-- **Inversion of the outcome** of a fill. -/
theorem fillOutcome_eq_ok {outcome : Int × Int × Int}
    (h : fillOutcome held cost quantity price = .ok outcome) :
    Fits 64 (held + quantity) ∧ Fits 64 (realizedBy held cost quantity price) ∧
      outcome = (held + quantity, nextAverage held cost quantity price,
        realizedBy held cost quantity price) := by
  by_cases hadds : Adds held quantity
  · have hzero : realizedBy held cost quantity price = 0 := if_pos hadds
    rw [fillOutcome_of_adds hadds] at h
    split at h
    · next hfits =>
      cases h
      rw [hzero]
      exact ⟨hfits.1, by decide, rfl⟩
    · cases h
  · rw [fillOutcome_of_closes hadds] at h
    split at h
    · next hfits =>
      cases h
      exact ⟨hfits.2.2.1, hfits.2.2.2, rfl⟩
    · cases h

section Bounds

variable (hheld : Fits 64 held) (hcost : Fits 64 cost) (hquantity : Fits 64 quantity)
  (hprice : Fits 64 price)

include hheld hcost hquantity hprice

/-- On 64-bit values the 128-bit steps of an addition fit, and so does the average. -/
theorem addition_fits (hadds : Adds held quantity) (hne : quantity ≠ 0) :
    Fits 128 (held.natAbs * cost) ∧ Fits 128 (quantity.natAbs * price) ∧
      Fits 128 (held.natAbs * cost + quantity.natAbs * price) ∧
      Fits 64 (nextAverage held cost quantity price) := by
  have hsum : ((held + quantity).natAbs : Int) = held.natAbs + quantity.natAbs := by
    rcases lt_or_gt_of_ne hne with h | h
    · have := hadds.nonpos h
      omega
    · have := hadds.nonneg h
      omega
  rw [nextAverage, if_pos hadds, hsum]
  rw [fits_64_iff] at hheld hcost hquantity hprice
  have hold := mul_between (Int.natCast_nonneg held.natAbs)
    (show (held.natAbs : Int) ≤ 9223372036854775808 by omega) hcost.1 hcost.2 (by omega) (by omega)
  have hnew := mul_between (Int.natCast_nonneg quantity.natAbs)
    (show (quantity.natAbs : Int) ≤ 9223372036854775808 by omega) hprice.1 hprice.2 (by omega)
    (by omega)
  have holdCost := mul_between (Int.natCast_nonneg held.natAbs) le_rfl hcost.1 hcost.2
    (by omega) (by omega)
  have hnewCost := mul_between (Int.natCast_nonneg quantity.natAbs) le_rfl hprice.1 hprice.2
    (by omega) (by omega)
  have haverage : -9223372036854775808 ≤
        (held.natAbs * cost + quantity.natAbs * price : Int).tdiv (held.natAbs + quantity.natAbs) ∧
      (held.natAbs * cost + quantity.natAbs * price : Int).tdiv (held.natAbs + quantity.natAbs) ≤
        9223372036854775807 :=
    tdiv_between (by omega) (by omega) (by omega) (by omega) (by omega)
  rw [fits_128_iff, fits_128_iff, fits_128_iff, fits_64_iff]
  refine ⟨?_, ?_, ?_, haverage⟩ <;> omega

/-- On 64-bit values the 128-bit steps of a closing fill fit. -/
theorem closing_fits (hcloses : ¬Adds held quantity) :
    Fits 128 (min held.natAbs quantity.natAbs * (price - cost)) ∧
      Fits 128 (realizedBy held cost quantity price) := by
  rw [realizedBy, if_neg hcloses]
  rw [fits_64_iff] at hheld hcost hquantity hprice
  have hgain := mul_between (Int.natCast_nonneg (min held.natAbs quantity.natAbs))
    (show ((min held.natAbs quantity.natAbs : ℕ) : Int) ≤ 9223372036854775808 by omega)
    (show -18446744073709551615 ≤ price - cost by omega)
    (show price - cost ≤ 18446744073709551615 by omega) (by omega) (by omega)
  rw [fits_128_iff, fits_128_iff]
  generalize (min held.natAbs quantity.natAbs : ℕ) * (price - cost) = gain at hgain ⊢
  refine ⟨by omega, ?_⟩
  rcases lt_trichotomy quantity 0 with h | h | h
  · rw [Int.sign_eq_neg_one_of_neg h]
    omega
  · rw [h, Int.sign_zero]
    omega
  · rw [Int.sign_eq_one_of_pos h]
    omega

/-- **The outcome of a fill** on 64-bit values: only the next quantity and the realized PnL may
leave their range. -/
theorem fillOutcome_of_fits (hne : quantity ≠ 0) (hnext : Fits 64 (held + quantity))
    (hrealized : Fits 64 (realizedBy held cost quantity price)) :
    fillOutcome held cost quantity price =
      .ok (held + quantity, nextAverage held cost quantity price,
        realizedBy held cost quantity price) := by
  by_cases hadds : Adds held quantity
  · have hzero : realizedBy held cost quantity price = 0 := if_pos hadds
    rw [fillOutcome_of_adds hadds, hzero,
      if_pos ⟨hnext, addition_fits hheld hcost hquantity hprice hadds hne⟩]
  · obtain ⟨hgain, hwide⟩ := closing_fits hheld hcost hquantity hprice hadds
    rw [fillOutcome_of_closes hadds, if_pos ⟨hgain, hwide, hnext, hrealized⟩]

end Bounds

-- The accounts

/-- The cost at which a fill meets the position. -/
def fillCost (p : Portfolio) (i : InstrumentId) (priceTicks : Int) : Int :=
  (p.averageCostPrice i).getD ((p.position i).getD ⟨0, priceTicks⟩).markPriceTicks

/-- Cash, realized PnL and fees after a fill, the ledger written last. -/
def settleFill (entry : FillLedgerEntry) (nextCash nextRealized nextFees : Int) :
    Fallible Portfolio AccountingError FillLedgerEntry := do
  let cash ← Fallible.orFail (narrow 64 nextCash) .overflow
  Fallible.modify ({ · with cashTicks := cash })
  let realizedPnl ← Fallible.orFail (narrow 64 nextRealized) .overflow
  Fallible.modify ({ · with realizedPnlTicks := realizedPnl })
  let fees ← Fallible.orFail (narrow 64 nextFees) .overflow
  Fallible.modify fun p =>
    recordEquityPeak { p with feesTicks := fees, ledger := p.ledger ++ [entry] }
  pure entry

/-- The settlement touches no position. -/
theorem settleFill_positions (entry : FillLedgerEntry) (nextCash nextRealized nextFees : Int) :
    Along (Same (·.positions)) (settleFill entry nextCash nextRealized nextFees) := by
  have hledger : ∀ fees, Along (Same (·.positions)) (Fallible.modify fun p => recordEquityPeak
      { p with feesTicks := fees, ledger := p.ledger ++ [entry] } :
      Fallible Portfolio AccountingError Unit) :=
    fun fees => Along.modify fun p => recordEquityPeak_positions _
  exact (Along.orFail _ _).bind fun _ => Along.bind (Along.modify fun _ => rfl) fun _ =>
    (Along.orFail _ _).bind fun _ => Along.bind (Along.modify fun _ => rfl) fun _ =>
    (Along.orFail _ _).bind fun fees => (hledger fees).bind fun _ => Along.ret _

theorem settleFill_succeeds_iff (entry : FillLedgerEntry) (nextCash nextRealized nextFees : Int)
    (p : Portfolio) :
    (settleFill entry nextCash nextRealized nextFees).Succeeds p ↔
      Fits 64 nextCash ∧ Fits 64 nextRealized ∧ Fits 64 nextFees := by
  unfold settleFill narrow
  by_cases hcash : Fits 64 nextCash
  · by_cases hrealized : Fits 64 nextRealized
    · by_cases hfees : Fits 64 nextFees
      · rw [if_pos hcash, if_pos hrealized, if_pos hfees]
        exact iff_of_true rfl ⟨hcash, hrealized, hfees⟩
      · rw [if_pos hcash, if_pos hrealized, if_neg hfees]
        exact iff_of_false Bool.false_ne_true fun h => hfees h.2.2
    · rw [if_pos hcash, if_neg hrealized]
      exact iff_of_false Bool.false_ne_true fun h => hrealized h.2.1
  · rw [if_neg hcash]
    exact iff_of_false Bool.false_ne_true fun h => hcash h.1

/-- Every amount of the portfolio is a 64-bit value, as its type says. -/
structure InRange (p : Portfolio) : Prop where
  quantity : ∀ i, Fits 64 (p.quantity i)
  mark : ∀ i position, p.position i = some position → Fits 64 position.markPriceTicks
  cost : ∀ i cost, p.averageCostPrice i = some cost → Fits 64 cost
  cash : Fits 64 p.cashTicks
  realized : Fits 64 p.realizedPnlTicks
  fees : Fits 64 p.feesTicks

theorem InRange.fillCost {p : Portfolio} (h : p.InRange) (i : InstrumentId)
    (hprice : Fits 64 price) : Fits 64 (p.fillCost i price) := by
  unfold Portfolio.fillCost
  cases hcost : p.averageCostPrice i with
  | some cost => exact h.cost i cost hcost
  | none =>
    cases hposition : p.position i with
    | some position => exact h.mark i position hposition
    | none => exact hprice

/-- What a fill moves in cash. -/
def cashBy (quantityTicks priceTicks feeTicks : Int) : Int :=
  -(quantityTicks * priceTicks) - feeTicks

/-- A fill passes the checks that come before the position is stored. -/
structure TakesFill (p : Portfolio) (i : InstrumentId) (quantityTicks priceTicks feeTicks : Int) :
    Prop where
  quantity_ne : quantityTicks ≠ 0
  price_pos : 0 < priceTicks
  fee_nonneg : 0 ≤ feeTicks
  next : Fits 64 (p.quantity i + quantityTicks)
  realized : Fits 64 (realizedBy (p.quantity i) (p.fillCost i priceTicks) quantityTicks priceTicks)
  cash : Fits 64 (cashBy quantityTicks priceTicks feeTicks)

/-- Cash, realized PnL and fees stay in range with the fill. -/
structure Settles (p : Portfolio) (i : InstrumentId) (quantityTicks priceTicks feeTicks : Int) :
    Prop where
  cash : Fits 64 (p.cashTicks + cashBy quantityTicks priceTicks feeTicks)
  realized : Fits 64 (p.realizedPnlTicks +
    realizedBy (p.quantity i) (p.fillCost i priceTicks) quantityTicks priceTicks)
  fees : Fits 64 (p.feesTicks + feeTicks)

/-- The ledger entry of a fill. -/
def fillEntry (p : Portfolio) (i : InstrumentId) (quantityTicks priceTicks feeTicks : Int) :
    FillLedgerEntry where
  instrumentId := i
  quantityTicks := quantityTicks
  priceTicks := priceTicks
  feeTicks := feeTicks
  cashDeltaTicks := cashBy quantityTicks priceTicks feeTicks
  realizedPnlTicks := realizedBy (p.quantity i) (p.fillCost i priceTicks) quantityTicks priceTicks
  postings := [⟨.cash, cashBy quantityTicks priceTicks feeTicks⟩,
    ⟨.position, quantityTicks * priceTicks⟩, ⟨.fees, feeTicks⟩]

variable {p : Portfolio} {i : InstrumentId} {fee : Int}

/-- **A fill that passes the checks** is stored and then settled. -/
theorem applyFill_of_takes (hp : p.InRange) (hquantity : Fits 64 quantity) (hprice : Fits 64 price)
    (hfee : Fits 64 fee) (h : p.TakesFill i quantity price fee) :
    applyFill i quantity price fee p =
      settleFill (p.fillEntry i quantity price fee) (p.cashTicks + cashBy quantity price fee)
        (p.realizedPnlTicks +
          realizedBy (p.quantity i) (p.fillCost i price) quantity price)
        (p.feesTicks + fee)
        (p.storeFillPosition i (p.quantity i + quantity)
          (nextAverage (p.quantity i) (p.fillCost i price) quantity price) price) := by
  obtain ⟨hne, hpos, hnonneg, hnext, hrealized, hcash⟩ := h
  have houtcome := fillOutcome_of_fits (hp.quantity i) (hp.fillCost i hprice) hquantity hprice hne
    hnext hrealized
  rw [← getD_position_quantity p i price] at houtcome
  have hwide : ∀ {x y : Int}, Fits 64 x → Fits 64 y → narrow 128 (x + y) = some (x + y) := by
    intro x y hx hy
    rw [fits_64_iff] at hx hy
    exact narrow_eq_some.mpr ⟨fits_128_iff.mpr (by omega), rfl⟩
  have hnotional : narrow 128 (quantity * price) = some (quantity * price) := by
    rw [cashBy, fits_64_iff] at hcash
    rw [fits_64_iff] at hfee
    exact narrow_eq_some.mpr ⟨fits_128_iff.mpr (by omega), rfl⟩
  have hdelta : narrow 128 (-(quantity * price) - fee) = some (cashBy quantity price fee) := by
    rw [fits_64_iff] at hcash
    exact narrow_eq_some.mpr ⟨fits_128_iff.mpr (by rw [cashBy] at hcash; omega), rfl⟩
  have hcash64 : narrow 64 (cashBy quantity price fee) = some (cashBy quantity price fee) :=
    narrow_eq_some.mpr ⟨hcash, rfl⟩
  rw [applyFill, reads_bind, require_bind, if_pos (by omega)]
  refine (ofExcept_bind_ok houtcome _ p).trans ?_
  dsimp only [id]
  rw [orFail_bind_some hnotional, orFail_bind_some hdelta, orFail_bind_some (hwide hp.cash hcash),
    getD_position_quantity, orFail_bind_some (hwide hp.realized hrealized),
    orFail_bind_some (hwide hp.fees hfee), orFail_bind_some hcash64]
  rfl

/-- A fill that fails a check is refused before anything is written. -/
theorem applyFill_atomicAt_of_not_takes (h : ¬p.TakesFill i quantity price fee) :
    (applyFill i quantity price fee).AtomicAt p := by
  refine atomicAt_reads_bind.mpr (atomicAt_require_bind.mpr fun hvalid => ?_)
  refine atomicAt_ofExcept_bind.mpr fun outcome houtcome => ?_
  dsimp only [id] at houtcome ⊢
  rw [getD_position_quantity] at houtcome
  obtain ⟨hnext, hrealized, -⟩ := fillOutcome_eq_ok houtcome
  refine atomicAt_orFail_bind.mpr fun notional hnotional => ?_
  refine atomicAt_orFail_bind.mpr fun cashDelta hcashDelta => ?_
  refine atomicAt_orFail_bind.mpr fun _ _ => atomicAt_orFail_bind.mpr fun _ _ => ?_
  refine atomicAt_orFail_bind.mpr fun _ _ => atomicAt_orFail_bind.mpr fun _ hcash => ?_
  obtain ⟨-, rfl⟩ := narrow_eq_some.mp hnotional
  obtain ⟨-, rfl⟩ := narrow_eq_some.mp hcashDelta
  obtain ⟨hcash, -⟩ := narrow_eq_some.mp hcash
  exact absurd ⟨by omega, by omega, by omega, hnext, hrealized, hcash⟩ h

/-- Storing a fill changes the position, whatever follows. -/
theorem settleFill_ne (p : Portfolio) (i : InstrumentId) (hne : quantity ≠ 0)
    (entry : FillLedgerEntry) (nextCash nextRealized nextFees average price : Int) :
    (settleFill entry nextCash nextRealized nextFees
      (p.storeFillPosition i (p.quantity i + quantity) average price)).2 ≠ p := by
  intro hsame
  have hpositions := settleFill_positions entry nextCash nextRealized nextFees
    (p.storeFillPosition i (p.quantity i + quantity) average price)
  rw [hsame] at hpositions
  have hquantity : p.quantity i = p.quantity i + quantity := by
    calc p.quantity i = ((p.positions)[i]?).elim 0 (·.quantityTicks) := rfl
      _ = p.quantity i + quantity := by
        rw [show p.positions = _ from hpositions]
        simp [storeFillPosition]
  omega

/-- **A refused fill changes nothing**, exactly when it is no fill that passes every check before
the position is stored and then takes cash, realized PnL or fees out of range. -/
theorem applyFill_unchanged_iff (hp : p.InRange) (hquantity : Fits 64 quantity)
    (hprice : Fits 64 price) (hfee : Fits 64 fee) :
    (¬(applyFill i quantity price fee).Succeeds p → (applyFill i quantity price fee p).2 = p) ↔
      ¬(p.TakesFill i quantity price fee ∧ ¬p.Settles i quantity price fee) := by
  by_cases htakes : p.TakesFill i quantity price fee
  · have hsettles := settleFill_succeeds_iff (p.fillEntry i quantity price fee)
      (p.cashTicks + cashBy quantity price fee)
      (p.realizedPnlTicks + realizedBy (p.quantity i) (p.fillCost i price) quantity price)
      (p.feesTicks + fee) (p.storeFillPosition i (p.quantity i + quantity)
        (nextAverage (p.quantity i) (p.fillCost i price) quantity price) price)
    rw [Succeeds] at hsettles
    rw [Succeeds, applyFill_of_takes hp hquantity hprice hfee htakes, hsettles]
    have hne := settleFill_ne p i htakes.quantity_ne
      (p.fillEntry i quantity price fee) (p.cashTicks + cashBy quantity price fee)
      (p.realizedPnlTicks + realizedBy (p.quantity i) (p.fillCost i price) quantity price)
      (p.feesTicks + fee) (nextAverage (p.quantity i) (p.fillCost i price) quantity price) price
    constructor
    · rintro hatomic ⟨-, hlate⟩
      refine hne (hatomic ?_)
      rintro ⟨hcash, hrealized, hfees⟩
      exact hlate ⟨hcash, hrealized, hfees⟩
    · intro hearly hfail
      refine absurd ⟨htakes, fun hsettles => hfail ?_⟩ hearly
      exact ⟨hsettles.cash, hsettles.realized, hsettles.fees⟩
  · exact iff_of_true (applyFill_atomicAt_of_not_takes htakes) fun h => htakes h.1

/-- The empty portfolio is in range. -/
theorem inRange_new : Portfolio.new.InRange where
  quantity i := by
    have hquantity : Portfolio.new.quantity i = 0 := by simp [Portfolio.quantity, position, new]
    rw [hquantity]
    decide
  mark i position h := by simp [Portfolio.position, new] at h
  cost i cost h := by simp [averageCostPrice, new] at h
  cash := by decide
  realized := by decide
  fees := by decide

/-- A fill of quantity zero is refused, and nothing changes. -/
theorem applyFill_unchanged_iff_empty :
    ¬(applyFill 7 0 100 0).Succeeds Portfolio.new ∧
      (applyFill 7 0 100 0 Portfolio.new).2 = Portfolio.new := by
  have hfail : ¬(applyFill 7 0 100 0).Succeeds Portfolio.new := by decide
  refine ⟨hfail, ?_⟩
  have hiff := applyFill_unchanged_iff (i := 7) inRange_new (show Fits 64 0 by decide)
    (show Fits 64 100 by decide) (show Fits 64 0 by decide)
  exact hiff.mpr (fun h => h.1.quantity_ne rfl) hfail

/-- A sale that takes the cash out of range is refused with its position stored. -/
theorem applyFill_stores_refused :
    let p := { Portfolio.new with cashTicks := 9223372036854775800 }
    ¬(applyFill 7 (-1) 100 0).Succeeds p ∧ (applyFill 7 (-1) 100 0 p).2 ≠ p := by
  refine ⟨by decide, fun h => ?_⟩
  exact absurd (congrArg (fun p => p.quantity 7) h) (by decide)

-- Runs of fills

/-- Recording the peak changes nothing else. -/
theorem recordEquityPeak_eq (p : Portfolio) :
    p.recordEquityPeak = { p with peakEquityTicks := p.recordEquityPeak.peakEquityTicks } := by
  unfold recordEquityPeak
  cases p.equityTicks <;> rfl

/-- **Inversion of a fill**: its checks, its entry, and the position and all accounts that it
leaves. -/
theorem applyFill_posted {p' : Portfolio} {entry : FillLedgerEntry}
    (h : applyFill i quantity price fee p = (.ok entry, p')) :
    p.TakesFill i quantity price fee ∧ p.Settles i quantity price fee ∧
      entry = p.fillEntry i quantity price fee ∧
      p' = recordEquityPeak { p.storeFillPosition i (p.quantity i + quantity)
          (nextAverage (p.quantity i) (p.fillCost i price) quantity price) price with
        cashTicks := p.cashTicks + cashBy quantity price fee
        realizedPnlTicks := p.realizedPnlTicks +
          realizedBy (p.quantity i) (p.fillCost i price) quantity price
        feesTicks := p.feesTicks + fee
        ledger := p.ledger ++ [entry] } := by
  unfold applyFill at h
  rw [reads_bind] at h
  obtain ⟨hvalid, h⟩ := require_bind_eq_ok h
  obtain ⟨outcome, houtcome, h⟩ := ofExcept_bind_eq_ok h
  dsimp only [id] at houtcome h
  rw [getD_position_quantity] at houtcome
  obtain ⟨hnext, hrealized, rfl⟩ := fillOutcome_eq_ok houtcome
  dsimp only at h
  obtain ⟨notional, hnotional, h⟩ := orFail_bind_eq_ok h
  obtain ⟨-, rfl⟩ := narrow_eq_some.mp hnotional
  obtain ⟨cashDelta, hcashDelta, h⟩ := orFail_bind_eq_ok h
  obtain ⟨-, rfl⟩ := narrow_eq_some.mp hcashDelta
  obtain ⟨nextCash, hnextCash, h⟩ := orFail_bind_eq_ok h
  obtain ⟨-, rfl⟩ := narrow_eq_some.mp hnextCash
  obtain ⟨nextRealized, hnextRealized, h⟩ := orFail_bind_eq_ok h
  obtain ⟨-, rfl⟩ := narrow_eq_some.mp hnextRealized
  obtain ⟨nextFees, hnextFees, h⟩ := orFail_bind_eq_ok h
  obtain ⟨-, rfl⟩ := narrow_eq_some.mp hnextFees
  obtain ⟨cashDeltaTicks, hdelta, h⟩ := orFail_bind_eq_ok h
  obtain ⟨hcash, rfl⟩ := narrow_eq_some.mp hdelta
  rw [modify_bind] at h
  obtain ⟨cash, hcashTicks, h⟩ := orFail_bind_eq_ok h
  obtain ⟨hcash64, rfl⟩ := narrow_eq_some.mp hcashTicks
  rw [modify_bind] at h
  obtain ⟨realizedPnl, hrealizedTicks, h⟩ := orFail_bind_eq_ok h
  obtain ⟨hrealized64, rfl⟩ := narrow_eq_some.mp hrealizedTicks
  rw [modify_bind] at h
  obtain ⟨fees, hfees, h⟩ := orFail_bind_eq_ok h
  obtain ⟨hfees64, rfl⟩ := narrow_eq_some.mp hfees
  rw [modify_bind, pure_apply, Prod.mk.injEq, Except.ok.injEq] at h
  obtain ⟨rfl, rfl⟩ := h
  exact ⟨⟨by omega, by omega, by omega, hnext, hrealized, hcash⟩,
    ⟨hcash64, hrealized64, hfees64⟩, rfl, rfl⟩

/-- The checks of an accepted fill, and the position and all accounts that it leaves. -/
theorem applyFill_settled {p' : Portfolio} {entry : FillLedgerEntry}
    (h : applyFill i quantity price fee p = (.ok entry, p')) :
    p.TakesFill i quantity price fee ∧ p.Settles i quantity price fee ∧
      p' = recordEquityPeak { p.storeFillPosition i (p.quantity i + quantity)
          (nextAverage (p.quantity i) (p.fillCost i price) quantity price) price with
        cashTicks := p.cashTicks + cashBy quantity price fee
        realizedPnlTicks := p.realizedPnlTicks +
          realizedBy (p.quantity i) (p.fillCost i price) quantity price
        feesTicks := p.feesTicks + fee
        ledger := p.ledger ++ [entry] } := by
  obtain ⟨htakes, hsettles, -, hp'⟩ := applyFill_posted h
  exact ⟨htakes, hsettles, hp'⟩

/-- The position and all accounts that an accepted fill leaves. -/
theorem applyFill_accounts {p' : Portfolio} {entry : FillLedgerEntry}
    (h : applyFill i quantity price fee p = (.ok entry, p')) :
    p.TakesFill i quantity price fee ∧
      p' = recordEquityPeak { p.storeFillPosition i (p.quantity i + quantity)
          (nextAverage (p.quantity i) (p.fillCost i price) quantity price) price with
        cashTicks := p.cashTicks + cashBy quantity price fee
        realizedPnlTicks := p.realizedPnlTicks +
          realizedBy (p.quantity i) (p.fillCost i price) quantity price
        feesTicks := p.feesTicks + fee
        ledger := p.ledger ++ [entry] } := by
  obtain ⟨htakes, -, hp'⟩ := applyFill_settled h
  exact ⟨htakes, hp'⟩

/-- The position at its average cost. -/
def inventory (p : Portfolio) (i : InstrumentId) : Int :=
  p.quantity i * (p.averageCostPrice i).getD 0

/-- A position that is not flat has an average cost. -/
def Costed (p : Portfolio) (i : InstrumentId) : Prop :=
  p.quantity i ≠ 0 → (p.averageCostPrice i).isSome

/-- A fill meets the position at its average cost. -/
theorem Costed.inventory_eq (h : p.Costed i) (price : Int) :
    p.quantity i * p.fillCost i price = p.inventory i := by
  unfold inventory fillCost
  by_cases hflat : p.quantity i = 0
  · rw [hflat, zero_mul, zero_mul]
  · obtain ⟨cost, hcost⟩ := Option.isSome_iff_exists.mp (h hflat)
    rw [hcost]
    rfl

theorem storeFillPosition_quantity (p : Portfolio) (i : InstrumentId)
    (quantity average price : Int) :
    (p.storeFillPosition i quantity average price).quantity i = quantity := by
  simp [Portfolio.quantity, position, storeFillPosition]

theorem storeFillPosition_averageCostPrice (p : Portfolio) (i : InstrumentId)
    (quantity average price : Int) :
    (p.storeFillPosition i quantity average price).averageCostPrice i =
      if quantity = 0 then none else some average := by
  unfold averageCostPrice storeFillPosition
  dsimp only
  split
  · simp
  · simp

/-- The stored position has the average cost of the fill. -/
theorem storeFillPosition_costed (p : Portfolio) (i : InstrumentId)
    (quantity average price : Int) :
    (p.storeFillPosition i quantity average price).Costed i := by
  intro hne
  rw [storeFillPosition_quantity] at hne
  rw [storeFillPosition_averageCostPrice, if_neg hne]
  rfl

theorem storeFillPosition_inventory (p : Portfolio) (i : InstrumentId)
    (quantity average price : Int) :
    (p.storeFillPosition i quantity average price).inventory i = quantity * average := by
  rw [inventory, storeFillPosition_quantity, storeFillPosition_averageCostPrice]
  by_cases hflat : quantity = 0
  · rw [hflat, zero_mul, zero_mul]
  · rw [if_neg hflat]
    rfl

/-- **One fill** moves realized PnL, fees, cash and inventory together, up to what it rounds off. -/
theorem fill_balance {p' : Portfolio} {entry : FillLedgerEntry} (hcosted : p.Costed i)
    (h : applyFill i quantity price fee p = (.ok entry, p')) :
    p'.Costed i ∧
      p'.realizedPnlTicks - p'.feesTicks - p'.cashTicks - p'.inventory i =
        p.realizedPnlTicks - p.feesTicks - p.cashTicks - p.inventory i +
          roundedOff (p.quantity i) (p.fillCost i price) quantity price := by
  obtain ⟨htakes, rfl⟩ := applyFill_accounts h
  have hbalance := cost_of_fill htakes.quantity_ne (p.quantity i) (p.fillCost i price) price
  have hinventory := storeFillPosition_inventory p i (p.quantity i + quantity)
    (nextAverage (p.quantity i) (p.fillCost i price) quantity price) price
  rw [hcosted.inventory_eq, ← hinventory] at hbalance
  rw [recordEquityPeak_eq]
  refine ⟨storeFillPosition_costed p i _ _ price, ?_⟩
  show p.realizedPnlTicks + realizedBy (p.quantity i) (p.fillCost i price) quantity price -
      (p.feesTicks + fee) - (p.cashTicks + cashBy quantity price fee) -
      (p.storeFillPosition i (p.quantity i + quantity)
        (nextAverage (p.quantity i) (p.fillCost i price) quantity price) price).inventory i = _
  rw [cashBy]
  omega

end Portfolio

/-- The terms of one fill. -/
structure FillTerms where
  quantityTicks : Int
  priceTicks : Int
  feeTicks : Int

namespace Portfolio

/-- Fills of one instrument, one after the other, up to the first that is refused. -/
def applyFills (i : InstrumentId) : List FillTerms → Fallible Portfolio AccountingError Unit :=
  Fallible.forEach fun fill =>
    Fallible.discard (applyFill i fill.quantityTicks fill.priceTicks fill.feeTicks)

/-- What the fills round off the cost of the position, each at the position it meets. -/
def roundedOffBy (i : InstrumentId) : Portfolio → List FillTerms → Int
  | _, [] => 0
  | p, fill :: fills =>
    roundedOff (p.quantity i) (p.fillCost i fill.priceTicks) fill.quantityTicks fill.priceTicks +
      roundedOffBy i (applyFill i fill.quantityTicks fill.priceTicks fill.feeTicks p).2 fills

/-- **A run of fills** moves realized PnL, fees, cash and inventory together. -/
theorem fills_balance {i : InstrumentId} {fills : List FillTerms} {p p' : Portfolio}
    (hcosted : p.Costed i) (h : applyFills i fills p = (.ok (), p')) :
    p'.realizedPnlTicks - p'.feesTicks - p'.cashTicks - p'.inventory i =
      p.realizedPnlTicks - p.feesTicks - p.cashTicks - p.inventory i + roundedOffBy i p fills := by
  induction fills generalizing p with
  | nil =>
    obtain rfl : p = p' := congrArg Prod.snd h
    rw [roundedOffBy, add_zero]
  | cons fill fills ih =>
    obtain ⟨u, q, hfill, hrest⟩ := bind_eq_ok h
    obtain ⟨entry, q', hentry, hq⟩ := bind_eq_ok hfill
    obtain rfl : q' = q := congrArg Prod.snd hq
    obtain ⟨hnext, hbalance⟩ := fill_balance hcosted hentry
    rw [ih hnext hrest, hbalance, roundedOffBy, hentry, add_assoc]

end Portfolio

/-- **Round trip**: over fills of an instrument that start and end flat, realized PnL less fees
changes by what cash changes by and what the average cost has rounded off on the way. -/
theorem round_trip_balance {i : InstrumentId} {fills : List FillTerms} {p p' : Portfolio}
    (h : Portfolio.applyFills i fills p = (.ok (), p')) (hstart : p.quantity i = 0)
    (hend : p'.quantity i = 0) :
    (p'.realizedPnlTicks - p.realizedPnlTicks) - (p'.feesTicks - p.feesTicks) =
      (p'.cashTicks - p.cashTicks) + Portfolio.roundedOffBy i p fills := by
  have hbalance := Portfolio.fills_balance (fun hne => absurd hstart hne) h
  have hflat : p.inventory i = 0 := by rw [Portfolio.inventory, hstart, zero_mul]
  have hflat' : p'.inventory i = 0 := by rw [Portfolio.inventory, hend, zero_mul]
  omega

/-- A purchase of 3 in two parts, at 10 and at 11, rounds off 2 of its cost. -/
theorem round_trip_balance_two_parts :
    Portfolio.applyFills 7 [⟨1, 10, 0⟩, ⟨2, 11, 0⟩, ⟨-3, 11, 0⟩] Portfolio.new =
        (.ok (), (Portfolio.applyFills 7 [⟨1, 10, 0⟩, ⟨2, 11, 0⟩, ⟨-3, 11, 0⟩] Portfolio.new).2) ∧
      Portfolio.roundedOffBy 7 Portfolio.new [⟨1, 10, 0⟩, ⟨2, 11, 0⟩, ⟨-3, 11, 0⟩] = 2 ∧
      ((Portfolio.applyFills 7 [⟨1, 10, 0⟩, ⟨2, 11, 0⟩, ⟨-3, 11, 0⟩]
          Portfolio.new).2.realizedPnlTicks - 0) -
        ((Portfolio.applyFills 7 [⟨1, 10, 0⟩, ⟨2, 11, 0⟩, ⟨-3, 11, 0⟩]
          Portfolio.new).2.feesTicks - 0) =
      ((Portfolio.applyFills 7 [⟨1, 10, 0⟩, ⟨2, 11, 0⟩, ⟨-3, 11, 0⟩]
          Portfolio.new).2.cashTicks - 0) +
        Portfolio.roundedOffBy 7 Portfolio.new [⟨1, 10, 0⟩, ⟨2, 11, 0⟩, ⟨-3, 11, 0⟩] :=
  ⟨rfl, by decide, round_trip_balance rfl (show Portfolio.new.quantity 7 = 0 by decide)
    (show (Portfolio.applyFills 7 [⟨1, 10, 0⟩, ⟨2, 11, 0⟩, ⟨-3, 11, 0⟩]
      Portfolio.new).2.quantity 7 = 0 by decide)⟩

/-- Bought in parts for 32 and sold whole for 33, the position realizes 3 and gains 1 in cash. -/
theorem round_trip_unbalanced :
    let p := (Portfolio.applyFills 7 [⟨1, 10, 0⟩, ⟨2, 11, 0⟩, ⟨-3, 11, 0⟩] Portfolio.new).2
    (Portfolio.applyFills 7 [⟨1, 10, 0⟩, ⟨2, 11, 0⟩, ⟨-3, 11, 0⟩]).Succeeds Portfolio.new ∧
      p.quantity 7 = 0 ∧ p.realizedPnlTicks - p.feesTicks ≠ p.cashTicks := by
  decide

end InsiderTrader
