import InsiderTrader.ReplayLedger
import InsiderTrader.Library.Runs

/-!
# Backtest runs

A backtest runs one stream of fills and marks, in the order of their sequence
numbers. A fill moves the replay ledger and pays its fee, a mark values the
ledger and adds to the equity curve. A refused event is meant to leave the
runner as it was; a fill that is refused after the ledger has booked its cash
does not.

## Main definitions

- `BacktestRunner.apply` — one event of a backtest
- `BacktestRunner.finish` — the report of a run
- `BacktestRunner.SpendsRefused` — a fill is refused after its cash is booked
- `BacktestRunner.taken` — the events of a run that are not refused

## Main results

- `BacktestRunner.apply_atomic` — which calls leave the runner alone when they fail
-/

namespace InsiderTrader

open MachineInt Fallible

/-- Mark-to-market accounting snapshot. -/
structure LedgerSnapshot where
  positionTicks : Int
  averageCostTicks : Int
  cashTicks : Int
  realizedPnlTicks : Int
  equityTicks : Int
  deriving DecidableEq

namespace BacktestLedger

/-- Pay a transaction fee; the position stays. -/
def applyFee (feeTicks : Int) : Fallible BacktestLedger LedgerError Unit := do
  Fallible.require (0 ≤ feeTicks) .invalidValue
  let cashTicks ← Fallible.reads (·.cashTicks)
  let cash ← Fallible.orFail (narrow 128 (cashTicks - feeTicks)) .overflow
  Fallible.modify ({ · with cashTicks := cash })

/-- The ledger valued at a price. -/
def mark (l : BacktestLedger) (priceTicks : Int) : Option LedgerSnapshot :=
  if priceTicks ≤ 0 then none
  else do
    let value ← narrow 128 (l.positionTicks * priceTicks)
    let equity ← narrow 128 (l.cashTicks + value)
    some ⟨l.positionTicks, l.averageCostTicks, l.cashTicks, l.realizedPnlTicks, equity⟩

/-- The amounts of a ledger are machine integers. -/
structure InRange (l : BacktestLedger) : Prop where
  position : Fits 64 l.positionTicks
  averageCost : Fits 64 l.averageCostTicks
  cash : Fits 128 l.cashTicks
  realizedPnl : Fits 128 l.realizedPnlTicks

/-- A fill passes the checks that the ledger makes before it writes. -/
def Books (l : BacktestLedger) (quantityTicks priceTicks : Int) : Prop :=
  quantityTicks ≠ 0 ∧ 0 < priceTicks ∧ Fits 128 (l.cashTicks - quantityTicks * priceTicks)

/-- The position and the realized PnL after a fill are machine integers, which the ledger finds
out when the cash is written. -/
def Holds (l : BacktestLedger) (quantityTicks priceTicks : Int) : Prop :=
  Fits 64 (l.positionTicks + quantityTicks) ∧
    Fits 128 (l.realizedPnlTicks +
      Portfolio.realizedBy l.positionTicks l.averageCostTicks quantityTicks priceTicks)

instance (l : BacktestLedger) (quantityTicks priceTicks : Int) :
    Decidable (l.Books quantityTicks priceTicks) :=
  inferInstanceAs (Decidable (_ ∧ _))

instance (l : BacktestLedger) (quantityTicks priceTicks : Int) :
    Decidable (l.Holds quantityTicks priceTicks) :=
  inferInstanceAs (Decidable (_ ∧ _))

/-- The ledger after a fill. -/
def filled (l : BacktestLedger) (quantityTicks priceTicks : Int) : BacktestLedger :=
  { l with
    cashTicks := l.cashTicks - quantityTicks * priceTicks
    realizedPnlTicks := l.realizedPnlTicks +
      Portfolio.realizedBy l.positionTicks l.averageCostTicks quantityTicks priceTicks
    averageCostTicks :=
      Portfolio.nextAverage l.positionTicks l.averageCostTicks quantityTicks priceTicks
    positionTicks := l.positionTicks + quantityTicks }

section Fills

variable {l : BacktestLedger} {held cost quantity price fee : Int}

theorem notional_fits (hquantity : Fits 64 quantity) (hprice : Fits 64 price) (hpos : 0 < price) :
    Fits 128 (quantity * price) := by
  rw [fits_64_iff] at hquantity hprice
  have hbounds := mul_between (Int.le_of_lt hpos) hprice.2 hquantity.1 hquantity.2
    (by omega) (by omega)
  rw [fits_128_iff, Int.mul_comm]
  omega

/-- Refused before it is booked, a fill leaves the ledger alone. -/
theorem applyFill_of_not_books (hquantity : Fits 64 quantity) (hprice : Fits 64 price)
    (h : ¬l.Books quantity price) : ∃ e, l.applyFill quantity price = (.error e, l) := by
  rw [applyFill, require_bind]
  by_cases hvalid : quantity = 0 ∨ price ≤ 0
  · exact ⟨_, if_neg (not_not_intro hvalid)⟩
  · rw [if_pos hvalid, orFail_bind_some (narrow_of_fits
      (notional_fits hquantity hprice (by omega))), reads_bind, id]
    have hcash : ¬Fits 128 (l.cashTicks - quantity * price) := fun hfits =>
      h ⟨by omega, by omega, hfits⟩
    rw [narrow_of_not_fits hcash]
    exact ⟨_, rfl⟩

/-- A fill that is booked and fits. -/
theorem applyFill_of_holds (hl : l.InRange) (hquantity : Fits 64 quantity) (hprice : Fits 64 price)
    (hbooks : l.Books quantity price) (hholds : l.Holds quantity price) :
    l.applyFill quantity price = (.ok (), l.filled quantity price) :=
  applyFill_eq hbooks.1 hbooks.2.1 hprice hquantity hl.position hl.averageCost
    (notional_fits hquantity hprice hbooks.2.1) hbooks.2.2 hholds.2 hholds.1

/-- Opening a position leaves the cash alone. -/
theorem addFill_cash : Along (Same (·.cashTicks)) (addFill held cost quantity price) :=
  .bind (.orFail _ _) fun _ => .bind (.orFail _ _) fun _ => .bind (.orFail _ _) fun _ =>
    .bind (.orFail _ _) fun _ => .bind (.orFail _ _) fun _ =>
      .bind (.modify fun _ => rfl) fun _ => .bind (.orFail _ _) fun _ => .modify fun _ => rfl

/-- Closing a position leaves the cash alone. -/
theorem closeFill_cash : Along (Same (·.cashTicks)) (closeFill held cost quantity price) :=
  .bind (.reads _) fun _ => .bind (.orFail _ _) fun _ => .bind (.modify fun _ => rfl) fun _ =>
    .bind (.orFail _ _) fun _ => .bind (.modify fun _ => rfl) fun _ =>
      .when (.modify fun _ => rfl)

/-- An addition that succeeds leaves a position that fits. -/
theorem addFill_next (h : (addFill held cost quantity price).Succeeds l) :
    Fits 64 (held + quantity) := by
  obtain ⟨_, hrun⟩ := h.eq_ok
  obtain ⟨_, _, hrun⟩ := orFail_bind_eq_ok hrun
  obtain ⟨_, _, hrun⟩ := orFail_bind_eq_ok hrun
  obtain ⟨_, _, hrun⟩ := orFail_bind_eq_ok hrun
  obtain ⟨_, _, hrun⟩ := orFail_bind_eq_ok hrun
  obtain ⟨_, _, hrun⟩ := orFail_bind_eq_ok hrun
  rw [modify_bind] at hrun
  obtain ⟨_, hposition, -⟩ := orFail_bind_eq_ok hrun
  exact (narrow_eq_some.mp hposition).1

/-- A closing fill that succeeds leaves a position and a realized PnL that fit. -/
theorem closeFill_next (hcloses : ¬Portfolio.Adds held quantity) (hne : quantity ≠ 0)
    (h : (closeFill held cost quantity price).Succeeds l) :
    Fits 64 (held + quantity) ∧
      Fits 128 (l.realizedPnlTicks + Portfolio.realizedBy held cost quantity price) := by
  obtain ⟨_, hrun⟩ := h.eq_ok
  rw [closeFill, reads_bind, realizedBy_of_closes hcloses hne] at hrun
  obtain ⟨_, hrealized, hrun⟩ := orFail_bind_eq_ok hrun
  rw [modify_bind] at hrun
  obtain ⟨_, hposition, -⟩ := orFail_bind_eq_ok hrun
  rw [Int.add_comm held]
  exact ⟨(narrow_eq_some.mp hposition).1, (narrow_eq_some.mp hrealized).1⟩

/-- A fill that is booked and does not fit is refused with its cash written. -/
theorem applyFill_of_not_holds (hl : l.InRange) (hquantity : Fits 64 quantity)
    (hprice : Fits 64 price) (hbooks : l.Books quantity price) (hholds : ¬l.Holds quantity price) :
    ¬(applyFill quantity price).Succeeds l ∧
      (l.applyFill quantity price).2.cashTicks = l.cashTicks - quantity * price := by
  obtain ⟨hne, hpos, hcash⟩ := hbooks
  rw [Succeeds, applyFill, require_bind, if_pos (by omega),
    orFail_bind_some (narrow_of_fits (notional_fits hquantity hprice hpos)), reads_bind, id,
    orFail_bind_some (narrow_of_fits hcash), modify_bind]
  by_cases hadds : Portfolio.Adds l.positionTicks quantity
  · rw [if_pos (show l.positionTicks = 0 ∨ _ from hadds)]
    refine ⟨fun hok => hholds ⟨addFill_next hok, ?_⟩, addFill_cash _⟩
    rw [Portfolio.realizedBy, if_pos hadds, add_zero]
    exact hl.realizedPnl
  · rw [if_neg (show ¬(l.positionTicks = 0 ∨ _) from hadds)]
    exact ⟨fun hok => hholds
        (closeFill_next (l := { l with cashTicks := l.cashTicks - quantity * price }) hadds hne hok),
      closeFill_cash _⟩

/-- The ledger stays in its range over a fill that fits. -/
theorem InRange.filled (hl : l.InRange) (hquantity : Fits 64 quantity) (hprice : Fits 64 price)
    (hbooks : l.Books quantity price) (hholds : l.Holds quantity price) :
    (l.filled quantity price).InRange where
  position := hholds.1
  averageCost := nextAverage_fits hl.position hl.averageCost hquantity hprice hbooks.1
  cash := hbooks.2.2
  realizedPnl := hholds.2

end Fills

end BacktestLedger

/-- One point-in-time input to an event-driven backtest. A bought quantity is positive, a sold
one negative. -/
inductive BacktestEvent where
  | fill (sequence : Nat) (quantityTicks priceTicks feeTicks : Int)
  | mark (sequence : Nat) (priceTicks : Int)
  deriving DecidableEq

namespace BacktestEvent

def sequence : BacktestEvent → Nat
  | fill sequence _ _ _ => sequence
  | mark sequence _ => sequence

/-- The amounts of an event are machine integers. -/
def InRange : BacktestEvent → Prop
  | fill _ quantityTicks priceTicks feeTicks =>
    Fits 64 quantityTicks ∧ Fits 64 priceTicks ∧ Fits 128 feeTicks
  | mark _ priceTicks => Fits 64 priceTicks

instance : DecidablePred InRange
  | fill _ _ _ _ => inferInstanceAs (Decidable (_ ∧ _))
  | mark _ priceTicks => inferInstanceAs (Decidable (Fits 64 priceTicks))

end BacktestEvent

/-- Failure while applying a backtest event stream. -/
inductive BacktestError where
  | nonMonotonicSequence
  | ledger (error : LedgerError)
  | missingMark
  deriving DecidableEq

/-- A deterministic equity observation produced by a backtest. -/
structure EquityPoint where
  sequence : Nat
  snapshot : LedgerSnapshot
  deriving DecidableEq

/-- Aggregate result of one event-driven backtest. -/
structure BacktestReport where
  eventCount : Nat
  equityCurve : List EquityPoint
  finalSnapshot : Option LedgerSnapshot
  maxDrawdownTicks : Int
  totalFeesTicks : Int
  deriving DecidableEq

/-- One deterministic, single-instrument event stream. -/
structure BacktestRunner where
  ledger : BacktestLedger
  lastSequence : Option Nat
  eventCount : Nat
  lastMark : Option Int
  equityCurve : List EquityPoint
  totalFeesTicks : Int
  deriving DecidableEq

namespace BacktestRunner

/-- A runner with its initial cash balance. -/
def new (initialCashTicks : Int) : BacktestRunner :=
  ⟨.new initialCashTicks, none, 0, none, [], 0⟩

/-- Run a ledger operation on the ledger of the runner. -/
def onLedger (p : Fallible BacktestLedger LedgerError Unit) :
    Fallible BacktestRunner BacktestError Unit :=
  Fallible.zoom (·.ledger) (fun r l => { r with ledger := l }) .ledger p

/-- Move the ledger by a fill and pay its fee. -/
def bookFill (quantityTicks priceTicks feeTicks : Int) :
    Fallible BacktestRunner BacktestError Unit := do
  onLedger (BacktestLedger.applyFill quantityTicks priceTicks)
  onLedger (BacktestLedger.applyFee feeTicks)
  let totalFeesTicks ← Fallible.reads (·.totalFeesTicks)
  let total ← Fallible.orFail (narrow 128 (totalFeesTicks + feeTicks)) (.ledger .overflow)
  Fallible.modify ({ · with totalFeesTicks := total })

/-- Value the ledger at a price and record the equity. -/
def recordMark (sequence : Nat) (priceTicks : Int) : Fallible BacktestRunner BacktestError Unit := do
  let ledger ← Fallible.reads (·.ledger)
  let snapshot ← Fallible.orFail (ledger.mark priceTicks) (.ledger .invalidValue)
  Fallible.modify fun r =>
    { r with lastMark := some priceTicks, equityCurve := r.equityCurve ++ [⟨sequence, snapshot⟩] }

/-- What an event does once its sequence is accepted. -/
def record : BacktestEvent → Fallible BacktestRunner BacktestError Unit
  | .fill _ quantityTicks priceTicks feeTicks => bookFill quantityTicks priceTicks feeTicks
  | .mark sequence priceTicks => recordMark sequence priceTicks

/-- The sequence is above the last one. -/
def Follows (r : BacktestRunner) (sequence : Nat) : Prop := ∀ last ∈ r.lastSequence, last < sequence

instance (r : BacktestRunner) (sequence : Nat) : Decidable (r.Follows sequence) :=
  inferInstanceAs (Decidable (∀ _ ∈ _, _))

/-- Apply one event. The event count is a `usize` that saturates. -/
def apply (event : BacktestEvent) : Fallible BacktestRunner BacktestError Unit := do
  let r ← Fallible.reads id
  Fallible.require (r.Follows event.sequence) .nonMonotonicSequence
  record event
  Fallible.modify fun r =>
    { r with
      lastSequence := some event.sequence
      eventCount := min (r.eventCount + 1) (2 ^ 64 - 1) }

/-- The highest equity and the largest drop below it so far, at one more equity point. The
difference of two 128-bit amounts wraps. -/
def drawdown (peak : Int × Int) (point : EquityPoint) : Int × Int :=
  let top := max peak.1 point.snapshot.equityTicks
  (top, max peak.2 ((top - point.snapshot.equityTicks).bmod (2 ^ 128)))

/-- The report of a run; a run without a mark has none. -/
def finish (r : BacktestRunner) : Except BacktestError BacktestReport :=
  if r.lastMark.isNone then .error .missingMark
  else .ok {
    eventCount := r.eventCount
    equityCurve := r.equityCurve
    finalSnapshot := r.equityCurve.getLast?.map (·.snapshot)
    maxDrawdownTicks := (r.equityCurve.foldl drawdown (-2 ^ 127, 0)).2
    totalFeesTicks := r.totalFeesTicks }

/-- The amounts of a runner are machine integers. -/
structure InRange (r : BacktestRunner) : Prop where
  ledger : r.ledger.InRange
  totalFees : Fits 128 r.totalFeesTicks

/-- The fee of a fill can be paid from the ledger that the fill leaves, and added up. -/
def Pays (r : BacktestRunner) (quantityTicks priceTicks feeTicks : Int) : Prop :=
  0 ≤ feeTicks ∧ Fits 128 (r.ledger.cashTicks - quantityTicks * priceTicks - feeTicks) ∧
    Fits 128 (r.totalFeesTicks + feeTicks)

instance (r : BacktestRunner) (quantityTicks priceTicks feeTicks : Int) :
    Decidable (r.Pays quantityTicks priceTicks feeTicks) :=
  inferInstanceAs (Decidable (_ ∧ _))

/-- The event is a fill that the ledger books and that is refused all the same: its position or
its realized PnL does not fit, or its fee is refused. -/
def SpendsRefused (r : BacktestRunner) : BacktestEvent → Prop
  | .fill sequence quantityTicks priceTicks feeTicks =>
    r.Follows sequence ∧ r.ledger.Books quantityTicks priceTicks ∧
      ¬(r.ledger.Holds quantityTicks priceTicks ∧ r.Pays quantityTicks priceTicks feeTicks)
  | .mark _ _ => False

instance (r : BacktestRunner) : DecidablePred r.SpendsRefused
  | .fill _ _ _ _ => inferInstanceAs (Decidable (_ ∧ _))
  | .mark _ _ => inferInstanceAs (Decidable False)

/-- One event, whose refusal is passed over. -/
def offer (event : BacktestEvent) (r : BacktestRunner) : BacktestRunner := (apply event r).2

/-- The events of a run that are not refused. -/
def taken : BacktestRunner → List BacktestEvent → List BacktestEvent
  | _, [] => []
  | r, event :: events =>
    if (apply event).Succeeds r then event :: taken (offer event r) events
    else taken (offer event r) events

section Atomicity

variable {r : BacktestRunner} {sequence : Nat} {quantity price fee : Int} {event : BacktestEvent}

/-- A fee is paid when the cash that is left fits. -/
theorem applyFee_of_pays {l : BacktestLedger} (hfee : 0 ≤ fee)
    (hcash : Fits 128 (l.cashTicks - fee)) :
    BacktestLedger.applyFee fee l = (.ok (), { l with cashTicks := l.cashTicks - fee }) := by
  rw [BacktestLedger.applyFee, require_bind, if_pos hfee, reads_bind,
    orFail_bind_some (narrow_of_fits hcash)]
  rfl

/-- The runner after a fill that is taken. -/
def afterFill (r : BacktestRunner) (sequence : Nat) (quantityTicks priceTicks feeTicks : Int) :
    BacktestRunner :=
  { r with
    ledger := { r.ledger.filled quantityTicks priceTicks with
      cashTicks := r.ledger.cashTicks - quantityTicks * priceTicks - feeTicks }
    totalFeesTicks := r.totalFeesTicks + feeTicks
    lastSequence := some sequence
    eventCount := min (r.eventCount + 1) (2 ^ 64 - 1) }

/-- An event that follows is recorded. -/
theorem apply_of_follows (h : r.Follows event.sequence) :
    apply event r = (record event >>= fun _ => Fallible.modify fun r =>
      { r with
        lastSequence := some event.sequence
        eventCount := min (r.eventCount + 1) (2 ^ 64 - 1) }) r := by
  rw [apply, reads_bind, id, require_bind, if_pos h]

theorem onLedger_of_ok {p : Fallible BacktestLedger LedgerError Unit} {l : BacktestLedger}
    (h : p r.ledger = (.ok (), l)) : onLedger p r = (.ok (), { r with ledger := l }) := by
  rw [onLedger, zoom_apply, h]
  rfl

theorem onLedger_of_refused {p : Fallible BacktestLedger LedgerError Unit}
    (h : ¬p.Succeeds r.ledger) :
    ∃ e, onLedger p r = (.error e, { r with ledger := (p r.ledger).2 }) := by
  rw [Succeeds] at h
  rw [onLedger, zoom_apply]
  cases hp : (p r.ledger).1 with
  | ok _ => exact absurd (hp ▸ rfl) h
  | error e => exact ⟨.ledger e, rfl⟩

/-- A fill that is booked and fits, up to its fee. -/
theorem bookFill_of_holds (hr : r.InRange) (hquantity : Fits 64 quantity) (hprice : Fits 64 price)
    (hbooks : r.ledger.Books quantity price) (hholds : r.ledger.Holds quantity price) :
    bookFill quantity price fee r =
      (onLedger (BacktestLedger.applyFee fee) >>= fun _ =>
        Fallible.reads (·.totalFeesTicks) >>= fun total =>
          Fallible.orFail (narrow 128 (total + fee)) (.ledger .overflow) >>= fun fees =>
            Fallible.modify ({ · with totalFeesTicks := fees }))
        { r with ledger := r.ledger.filled quantity price } :=
  bind_of_ok (onLedger_of_ok
    (BacktestLedger.applyFill_of_holds hr.ledger hquantity hprice hbooks hholds))

/-- **A fill that is taken.** -/
theorem apply_fill_of_pays (hr : r.InRange) (hquantity : Fits 64 quantity) (hprice : Fits 64 price)
    (hfollows : r.Follows sequence) (hbooks : r.ledger.Books quantity price)
    (hholds : r.ledger.Holds quantity price) (hpays : r.Pays quantity price fee) :
    apply (.fill sequence quantity price fee) r =
      (.ok (), r.afterFill sequence quantity price fee) := by
  obtain ⟨hfee, hcash, htotal⟩ := hpays
  have hbooked : bookFill quantity price fee r = (.ok (), { r with
      ledger := { r.ledger.filled quantity price with
        cashTicks := r.ledger.cashTicks - quantity * price - fee }
      totalFeesTicks := r.totalFeesTicks + fee }) := by
    rw [bookFill_of_holds hr hquantity hprice hbooks hholds,
      bind_of_ok (onLedger_of_ok (applyFee_of_pays hfee hcash)), reads_bind,
      orFail_bind_some (narrow_of_fits htotal)]
    rfl
  rw [apply_of_follows hfollows, record, bind_of_ok hbooked]
  rfl

/-- A fee that is refused leaves the position that the fill has moved. -/
theorem bookFill_of_not_pays (hr : r.InRange) (hquantity : Fits 64 quantity)
    (hprice : Fits 64 price) (hbooks : r.ledger.Books quantity price)
    (hholds : r.ledger.Holds quantity price) (hpays : ¬r.Pays quantity price fee) :
    ∃ e r', bookFill quantity price fee r = (.error e, r') ∧
      r'.ledger.positionTicks = r.ledger.positionTicks + quantity := by
  rw [bookFill_of_holds hr hquantity hprice hbooks hholds]
  by_cases hfee : 0 ≤ fee ∧ Fits 128 (r.ledger.cashTicks - quantity * price - fee)
  · have htotal : ¬Fits 128 (r.totalFeesTicks + fee) := fun h => hpays ⟨hfee.1, hfee.2, h⟩
    rw [bind_of_ok (onLedger_of_ok (applyFee_of_pays hfee.1 hfee.2)), reads_bind,
      narrow_of_not_fits htotal]
    exact ⟨_, _, rfl, rfl⟩
  · have hrefused : ∃ e, BacktestLedger.applyFee fee (r.ledger.filled quantity price) =
        (.error e, r.ledger.filled quantity price) := by
      rw [BacktestLedger.applyFee, require_bind]
      split
      · next hnonneg =>
        have hcash : ¬Fits 128 ((r.ledger.filled quantity price).cashTicks - fee) :=
          fun h => hfee ⟨hnonneg, h⟩
        rw [reads_bind, narrow_of_not_fits hcash]
        exact ⟨_, rfl⟩
      · exact ⟨_, rfl⟩
    obtain ⟨e, hrefused⟩ := hrefused
    refine ⟨.ledger e, { r with ledger := r.ledger.filled quantity price }, bind_of_error ?_, rfl⟩
    rw [onLedger, zoom_apply, hrefused]
    rfl

/-- **A fill whose cash is booked** and that is refused leaves a changed ledger. -/
theorem bookFill_of_spent (hr : r.InRange) (hquantity : Fits 64 quantity) (hprice : Fits 64 price)
    (hbooks : r.ledger.Books quantity price)
    (hrefused : ¬(r.ledger.Holds quantity price ∧ r.Pays quantity price fee)) :
    ∃ e r', bookFill quantity price fee r = (.error e, r') ∧ r' ≠ r := by
  obtain ⟨hne, hpos, -⟩ := id hbooks
  by_cases hholds : r.ledger.Holds quantity price
  · obtain ⟨e, r', hrun, hposition⟩ := bookFill_of_not_pays hr hquantity hprice hbooks hholds
      fun h => hrefused ⟨hholds, h⟩
    refine ⟨e, r', hrun, ?_⟩
    rintro rfl
    omega
  · obtain ⟨hfails, hcash⟩ :=
      BacktestLedger.applyFill_of_not_holds hr.ledger hquantity hprice hbooks hholds
    obtain ⟨e, hrun⟩ := onLedger_of_refused hfails
    refine ⟨e, _, bind_of_error hrun, fun heq => ?_⟩
    have hsame : r.ledger.cashTicks - quantity * price = r.ledger.cashTicks :=
      hcash.symm.trans (congrArg (·.ledger.cashTicks) heq)
    have hnotional : quantity * price ≠ 0 := mul_ne_zero hne (by omega)
    omega

/-- A mark writes when all its checks have passed. -/
theorem recordMark_atomic (price : Int) : (recordMark sequence price).AtomicAt r :=
  atomicAt_reads_bind.mpr (atomicAt_orFail_bind.mpr fun _ _ => atomicAt_modify _)

/-- Only the record of an event can be refused after a write. -/
theorem apply_atomicAt :
    (apply event).AtomicAt r ↔ (r.Follows event.sequence → (record event).AtomicAt r) := by
  by_cases hfollows : r.Follows event.sequence
  · rw [AtomicAt, Succeeds, apply_of_follows hfollows, bind_apply, AtomicAt, Succeeds]
    rcases record event r with ⟨_ | _, r'⟩
    · simp [hfollows]
    · exact iff_of_true (fun h => absurd rfl h) fun _ h => absurd rfl h
  · refine iff_of_true (fun _ => ?_) fun h => absurd h hfollows
    rw [apply, reads_bind, id, require_bind, if_neg hfollows]

/-- **A fill that is not refused after its cash is booked** is taken, or changes nothing. -/
theorem apply_fill_of_clean (hr : r.InRange) (hquantity : Fits 64 quantity)
    (hprice : Fits 64 price) (hclean : ¬r.SpendsRefused (.fill sequence quantity price fee)) :
    (apply (.fill sequence quantity price fee) r).2 = r ∨
      r.ledger.Books quantity price ∧ r.ledger.Holds quantity price ∧ r.Pays quantity price fee ∧
        apply (.fill sequence quantity price fee) r =
          (.ok (), r.afterFill sequence quantity price fee) := by
  by_cases hfollows : r.Follows sequence
  · by_cases hbooks : r.ledger.Books quantity price
    · obtain ⟨hholds, hpays⟩ := not_not.mp fun h => hclean ⟨hfollows, hbooks, h⟩
      exact .inr ⟨hbooks, hholds, hpays,
        apply_fill_of_pays hr hquantity hprice hfollows hbooks hholds hpays⟩
    · obtain ⟨e, hrun⟩ := BacktestLedger.applyFill_of_not_books hquantity hprice hbooks
      have hrefused : bookFill quantity price fee r = (.error (.ledger e), r) := by
        refine bind_of_error ?_
        rw [onLedger, zoom_apply, hrun]
        rfl
      rw [apply_of_follows hfollows]
      exact .inl (congrArg Prod.snd (bind_of_error hrefused))
  · refine .inl ?_
    rw [apply, reads_bind, id, require_bind]
    exact congrArg Prod.snd (if_neg hfollows)

/-- **Which events are refused cleanly**: all but the fills that are refused after their cash is
booked. -/
theorem apply_atomicAt_iff (hr : r.InRange) (hevent : event.InRange) :
    (apply event).AtomicAt r ↔ ¬r.SpendsRefused event := by
  cases event with
  | mark sequence price =>
    exact iff_of_true (apply_atomicAt.mpr fun _ => recordMark_atomic price) not_false
  | fill sequence quantity price fee =>
    obtain ⟨hquantity, hprice, -⟩ := hevent
    constructor
    · rintro hatomic ⟨hfollows, hbooks, hrefused⟩
      obtain ⟨e, r', hrun, hne⟩ := bookFill_of_spent hr hquantity hprice hbooks hrefused
      have hrecord : (bookFill quantity price fee).AtomicAt r := apply_atomicAt.mp hatomic hfollows
      rw [AtomicAt, Succeeds, hrun] at hrecord
      exact hne (hrecord Bool.false_ne_true)
    · intro hclean
      rcases apply_fill_of_clean hr hquantity hprice hclean with hsame | ⟨-, -, -, hrun⟩
      · exact fun _ => hsame
      · refine atomicAt_of_succeeds ?_
        rw [Succeeds, hrun]
        rfl

/-- A mark moves neither the ledger nor the fees. -/
theorem apply_mark_same (sequence : Nat) (price : Int) :
    Along (Same fun r : BacktestRunner => (r.ledger, r.totalFeesTicks))
      (apply (.mark sequence price)) :=
  .bind (.reads _) fun _ => .bind (.require _ _) fun _ =>
    .bind (.bind (.reads _) fun _ => .bind (.orFail _ _) fun _ => .modify fun _ => rfl) fun _ =>
      .modify fun _ => rfl

/-- A runner stays in its range over an event that is not refused after a write. -/
theorem InRange.offer (hr : r.InRange) (hevent : event.InRange) (hclean : ¬r.SpendsRefused event) :
    (offer event r).InRange := by
  cases event with
  | mark sequence price =>
    obtain ⟨hledger, hfees⟩ := Prod.mk.inj (apply_mark_same sequence price r)
    exact ⟨hledger ▸ hr.ledger, hfees ▸ hr.totalFees⟩
  | fill sequence quantity price fee =>
    obtain ⟨hquantity, hprice, -⟩ := hevent
    rcases apply_fill_of_clean hr hquantity hprice hclean with
      hsame | ⟨hbooks, hholds, hpays, hrun⟩
    · rw [BacktestRunner.offer, hsame]
      exact hr
    · have hfilled := hr.ledger.filled hquantity hprice hbooks hholds
      rw [BacktestRunner.offer, hrun]
      exact ⟨⟨hfilled.position, hfilled.averageCost, hpays.2.1, hfilled.realizedPnl⟩, hpays.2.2⟩

/-- **A run of clean events** ends as the run of the events that it takes. -/
theorem final_taken {events : List BacktestEvent} (hr : r.InRange)
    (hevents : ∀ e ∈ events, e.InRange)
    (hclean : ∀ c ∈ Runs.calls offer r events, ¬c.1.SpendsRefused c.2) :
    Runs.final offer r (taken r events) = Runs.final offer r events := by
  induction events generalizing r with
  | nil => rfl
  | cons event events ih =>
    obtain ⟨hevent, hevents⟩ := List.forall_mem_cons.mp hevents
    obtain ⟨hfirst, hclean⟩ := List.forall_mem_cons.mp hclean
    have hrest := ih (hr.offer hevent hfirst) hevents hclean
    rw [taken]
    split
    · exact hrest
    · next hrefused =>
      have hsame : offer event r = r := (apply_atomicAt_iff hr hevent).mpr hfirst hrefused
      rw [hsame] at hrest
      rw [Runs.final_cons, hsame]
      exact hrest

end Atomicity

/-- **All or nothing**: an event that is refused leaves the runner as it was, exactly when it is no
fill whose cash is booked before its position, its realized PnL or its fee is refused; and a run
that passes over refused events, none of them such a fill, reports what a run reports that never
saw them. -/
theorem apply_atomic (r : BacktestRunner) (hr : r.InRange) :
    (∀ event, event.InRange → ((apply event).AtomicAt r ↔ ¬r.SpendsRefused event)) ∧
      ∀ events, (∀ e ∈ events, e.InRange) →
        (∀ c ∈ Runs.calls offer r events, ¬c.1.SpendsRefused c.2) →
        (Runs.final offer r (taken r events)).finish = (Runs.final offer r events).finish :=
  ⟨fun _ hevent => apply_atomicAt_iff hr hevent, fun _ hevents hclean =>
    congrArg finish (final_taken hr hevents hclean)⟩

/-- A purchase, a mark whose sequence does not rise, a mark without a price, and a mark. -/
theorem apply_atomic_marks :
    ((apply (.fill 1 2 10 1)).AtomicAt (new 100) ↔ ¬(new 100).SpendsRefused (.fill 1 2 10 1)) ∧
      (Runs.final offer (new 100)
        (taken (new 100) [.fill 1 2 10 1, .mark 1 9, .mark 2 0, .mark 3 11])).finish =
      (Runs.final offer (new 100) [.fill 1 2 10 1, .mark 1 9, .mark 2 0, .mark 3 11]).finish :=
  have hnew : (new 100).InRange := ⟨⟨by decide, by decide, by decide, by decide⟩, by decide⟩
  ⟨(apply_atomic (new 100) hnew).1 _ (by decide),
    (apply_atomic (new 100) hnew).2 _ (by decide) (by decide)⟩

/-- A purchase, a sale that pays a negative fee, and a mark. -/
def refusedFee : List BacktestEvent := [.fill 1 2 10 0, .fill 2 (-1) 12 (-1), .mark 3 11]

/-- A sale whose fee is negative is refused; its cash and its position stay booked, and the run
reports another equity than the run without the sale. -/
theorem refused_fill_spends :
    ¬(apply (.fill 2 (-1) 12 (-1))).Succeeds (offer (.fill 1 2 10 0) (new 100)) ∧
      (apply (.fill 2 (-1) 12 (-1)) (offer (.fill 1 2 10 0) (new 100))).2.ledger ≠
        (offer (.fill 1 2 10 0) (new 100)).ledger ∧
      ((Runs.final offer (new 100) refusedFee).finish.toOption.map (·.finalSnapshot)) ≠
        ((Runs.final offer (new 100) (taken (new 100) refusedFee)).finish.toOption.map
          (·.finalSnapshot)) := by
  decide

end BacktestRunner

end InsiderTrader
