import InsiderTrader.OrderFlow

/-!
# The sections of a write to the portfolio

The runtime guards its parts by one lock each. A fill event takes five locks in
turn: it copies the portfolio under one and writes the copy back under a later
one. A mark is written under a single lock.

## Main definitions

- `Writer` — a call that writes the portfolio
- `Writer.advance` — its next critical section
- `Writer.effect` — the portfolio it makes of a portfolio
- `Writer.Stage` — what holds of a call between two of its sections

## Main results

- `Writer.advance_alone` — without another call the sections are the call
- `Writer.Stage.step` — what one section does to the portfolio
-/

namespace InsiderTrader

open MachineInt Fallible

/-- Portfolios with the same content. -/
structure Portfolio.Equiv (p q : Portfolio) : Prop where
  positions : p.positions.Equiv q.positions
  marks : p.marks.Equiv q.marks
  costBasis : p.costBasis.Equiv q.costBasis
  cash : p.cashTicks = q.cashTicks
  realizedPnl : p.realizedPnlTicks = q.realizedPnlTicks
  fees : p.feesTicks = q.feesTicks
  ledger : p.ledger = q.ledger
  corporateActions : p.corporateActions = q.corporateActions
  peakEquity : p.peakEquityTicks = q.peakEquityTicks

theorem Portfolio.Equiv.quantity {p q : Portfolio} (h : p.Equiv q) (i : InstrumentId) :
    p.quantity i = q.quantity i := by
  unfold Portfolio.quantity Portfolio.position
  rw [h.positions.getElem?_eq]

theorem Portfolio.Equiv.refl (p : Portfolio) : p.Equiv p :=
  ⟨.rfl, .rfl, .rfl, rfl, rfl, rfl, rfl, rfl, rfl⟩

/-- A call that writes the portfolio: a fill event or a mark. -/
inductive Writer where
  | fill (clientOrderId : String) (quantityTicks priceTicks : Int)
  | mark (instrumentId : InstrumentId) (priceTicks : Int)

/-- What a call keeps between two critical sections. -/
inductive Section where
  | called
  | repeated
  | known (fill : FillRecord)
  | copied (fill : FillRecord) (candidate : Portfolio)
  | booked (fill : FillRecord) (candidate : Portfolio)
  | published (fill : FillRecord)
  | returned (outcome : Except EngineError Unit)

/-- The call as one step. -/
def Writer.call : Writer → Fallible Runtime EngineError Unit
  | .fill clientOrderId quantityTicks priceTicks =>
    Runtime.applyBrokerEvent (.filled clientOrderId quantityTicks priceTicks)
  | .mark instrumentId priceTicks => Runtime.updateMarkPrice instrumentId priceTicks

/-- Ask the book about a fill. -/
def Runtime.bookFill (clientOrderId : String) (quantityTicks priceTicks : Int) :
    Fallible Runtime EngineError Unit :=
  Runtime.onOrders .transition
    (OrderBook.applyBrokerEvent (.filled clientOrderId quantityTicks priceTicks))

/-- The next critical section of a call: each reads or writes under a single lock. -/
def Writer.advance : Writer → Section → Runtime → Section × Runtime
  | .fill orderId quantity price, .called, r =>
    match r.orders.get orderId with
    | none => (.returned (.error (.transition .unknownOrder)), r)
    | some record =>
      if record.state = .filled then (.repeated, r)
      else (.known (Runtime.fillRecord record orderId quantity price), r)
  | .fill orderId quantity price, .repeated, r =>
    let booking := Runtime.bookFill orderId quantity price r
    (.returned booking.1, booking.2)
  | .fill _ _ price, .known f, r =>
    let trial :=
      Portfolio.applyFill f.instrumentId f.signedQuantityTicks price 0 r.portfolio
    match trial.1 with
    | .error e => (.returned (.error (.accounting e)), r)
    | .ok _ => (.copied f trial.2, r)
  | .fill orderId quantity price, .copied f candidate, r =>
    let booking := Runtime.bookFill orderId quantity price r
    match booking.1 with
    | .error e => (.returned (.error e), booking.2)
    | .ok _ => (.booked f candidate, booking.2)
  | .fill _ _ _, .booked f candidate, r => (.published f, { r with portfolio := candidate })
  | .fill _ _ _, .published f, r => (.returned (.ok ()), r.pushFill f)
  | .mark instrumentId price, .called, r =>
    let marking := Runtime.updateMarkPrice instrumentId price r
    (.returned marking.1, marking.2)
  | _, section', r => (section', r)

/-- Some sections of a call with nothing in between. -/
def Writer.alone (w : Writer) : ℕ → Section × Runtime → Section × Runtime
  | 0, s => s
  | n + 1, s => w.alone n (w.advance s.1 s.2)

/-- **The sections make up the call**: a call that meets no other returns what the call as one
step returns. -/
theorem Writer.advance_alone (w : Writer) (r : Runtime) :
    w.alone 5 (.called, r) = (.returned (w.call r).1, (w.call r).2) := by
  cases w with
  | mark instrumentId price => simp only [alone, advance, call]
  | fill orderId quantity price =>
    cases hget : r.orders.get orderId with
    | none =>
      simp only [alone, advance, hget, call, Runtime.applyBrokerEvent_of_unknown hget]
    | some record =>
      by_cases hfilled : record.state = .filled
      · simp only [alone, advance, hget, hfilled, if_true, call,
          Runtime.applyBrokerEvent_of_repeated hget hfilled, Runtime.bookFill]
      · have hbook := Runtime.onOrders_applyBrokerEvent (r := r)
          (e := .filled orderId quantity price) hget
        simp only [alone, advance, hget, hfilled, if_false, call,
          Runtime.applyBrokerEvent_of_open hget hfilled, Runtime.fillTrial]
        cases (Portfolio.applyFill (Runtime.fillRecord record orderId quantity price).instrumentId
          (Runtime.fillRecord record orderId quantity price).signedQuantityTicks price 0
          r.portfolio).1 with
        | error e => rfl
        | ok entry =>
          simp only [Runtime.bookFill, hbook]
          cases (OrderRecord.applyBrokerEvent (.filled orderId quantity price) record).1 with
          | error e => rfl
          | ok u => rfl

-- What a call does to the portfolio

namespace Writer

/-- The order a call is about. -/
def orderId : Writer → Option String
  | fill orderId _ _ => some orderId
  | mark _ _ => none

/-- The portfolio a call makes of a portfolio when the book takes its event. -/
def effect (r : Runtime) : Writer → Portfolio → Portfolio
  | fill orderId quantity price, p =>
    match r.orders.get orderId with
    | none => p
    | some record =>
      let f := Runtime.fillRecord record orderId quantity price
      let trial := Portfolio.applyFill f.instrumentId f.signedQuantityTicks price 0 p
      if record.state = .filled ∨ trial.1.isOk = false then p else trial.2
  | mark instrumentId price, p => (Portfolio.setMarkPrice instrumentId price p).2

/-- The book takes the event of a call. -/
def Booked (r : Runtime) : Writer → Prop
  | fill orderId quantity price => ∃ record ∈ r.orders.get orderId, record.state ≠ .filled →
      (OrderRecord.applyBrokerEvent (.filled orderId quantity price) record).1 = .ok ()
  | mark _ _ => True

variable {r r₀ : Runtime} {w v : Writer}

/-- Booking leaves the orders of other calls alone. -/
theorem bookFill_get {orderId other : String} {quantity price : Int} (hne : other ≠ orderId) :
    (Runtime.bookFill orderId quantity price r).2.orders.get other = r.orders.get other := by
  unfold Runtime.bookFill
  cases hget : r.orders.get orderId with
  | none =>
    have hbook : OrderBook.applyBrokerEvent (.filled orderId quantity price) r.orders =
        (.error .unknownOrder, r.orders) := OrderBook.onRecord_of_none hget
    rw [Runtime.onOrders, zoom_apply, hbook]
  | some record =>
    rw [Runtime.onOrders_applyBrokerEvent (e := .filled orderId quantity price) hget]
    exact (OrderBook.get_put ..).trans (if_neg (Ne.symm hne))

/-- A booked event is taken by its record. -/
theorem bookFill_eq_ok {orderId : String} {quantity price : Int} {u : Unit}
    (h : (Runtime.bookFill orderId quantity price r).1 = .ok u) :
    ∃ record ∈ r.orders.get orderId,
      (OrderRecord.applyBrokerEvent (.filled orderId quantity price) record).1 = .ok () := by
  unfold Runtime.bookFill at h
  cases hget : r.orders.get orderId with
  | none =>
    have hbook : OrderBook.applyBrokerEvent (.filled orderId quantity price) r.orders =
        (.error .unknownOrder, r.orders) := OrderBook.onRecord_of_none hget
    rw [Runtime.onOrders, zoom_apply, hbook] at h
    cases h
  | some record =>
    rw [Runtime.onOrders_applyBrokerEvent (e := .filled orderId quantity price) hget] at h
    exact ⟨record, rfl, mapError_eq_ok.mp h⟩

/-- A section of a call changes no order but its own. -/
theorem advance_get (s : Section) {other : String} (hne : w.orderId ≠ some other) :
    (w.advance s r).2.orders.get other = r.orders.get other := by
  cases w with
  | mark => cases s <;> rfl
  | fill orderId quantity price =>
    have hother : other ≠ orderId := fun heq => hne (by rw [heq]; rfl)
    cases s with
    | called =>
      simp only [advance]
      split
      · rfl
      · split <;> rfl
    | repeated => exact bookFill_get hother
    | known f => simp only [advance]; split <;> rfl
    | copied f candidate => simp only [advance]; split <;> exact bookFill_get hother
    | booked => rfl
    | published => rfl
    | returned => rfl

/-- The portfolio after a call whose event the book takes. -/
theorem call_portfolio (hget : ∀ id, w.orderId = some id → r.orders.get id = r₀.orders.get id)
    (hbooked : w.Booked r₀) : (w.call r).2.portfolio = w.effect r₀ r.portfolio := by
  cases w with
  | mark => rfl
  | fill orderId quantity price =>
    obtain ⟨record, hrecord, htaken⟩ := hbooked
    have hget' : r.orders.get orderId = some record := (hget orderId rfl).trans hrecord
    unfold call effect
    dsimp only
    rw [hrecord]
    by_cases hfilled : record.state = .filled
    · simp only [Runtime.applyBrokerEvent_of_filled hget' hfilled, hfilled, true_or, if_true]
    · simp only [Runtime.applyBrokerEvent_of_open hget' hfilled, Runtime.fillTrial, hfilled,
        false_or, htaken hfilled]
      cases (Portfolio.applyFill (Runtime.fillRecord record orderId quantity price).instrumentId
        (Runtime.fillRecord record orderId quantity price).signedQuantityTicks price 0
        r.portfolio).1 with
      | error e => rfl
      | ok entry => rfl

/-- A call changes no order but its own. -/
theorem call_get {other : String} (hne : w.orderId ≠ some other) :
    (w.call r).2.orders.get other = r.orders.get other := by
  have halone : ∀ (n : ℕ) (s : Section × Runtime),
      (w.alone n s).2.orders.get other = s.2.orders.get other := by
    intro n
    induction n with
    | zero => intro s; rfl
    | succ n ih => intro s; exact (ih _).trans (advance_get s.1 hne)
  have hcall := halone 5 (.called, r)
  rwa [w.advance_alone] at hcall

end Writer

-- One section

namespace Section

/-- The call holds a copy of the portfolio that it has not written back. -/
def copy? : Section → Option Portfolio
  | copied _ candidate | booked _ candidate => some candidate
  | _ => none

/-- The call has made its write. -/
def settled : Section → Bool
  | published _ | returned (.ok _) => true
  | _ => false

/-- The call has failed. -/
def failed : Section → Bool
  | returned (.error _) => true
  | _ => false

end Section

/-- The next section of a call writes the portfolio. -/
def Writer.writesNext : Writer → Section → Bool
  | fill _ _ _, .booked _ _ | mark _ _, .called => true
  | _, _ => false

namespace Writer

/-- What a call knows of its order. -/
def FillOf (r₀ : Runtime) (orderId : String) (quantity price : Int) (f : FillRecord) : Prop :=
  ∃ record ∈ r₀.orders.get orderId, record.state ≠ .filled ∧
    f = Runtime.fillRecord record orderId quantity price

/-- What holds of a call between two of its sections, in a race that began at `r₀`: until it is
booked its order is as it was. -/
def Stage (r₀ r : Runtime) : Writer → Section → Prop
  | fill orderId _ _, .called => r.orders.get orderId = r₀.orders.get orderId
  | fill orderId _ _, .repeated => r.orders.get orderId = r₀.orders.get orderId ∧
      ∃ record ∈ r₀.orders.get orderId, record.state = .filled
  | fill orderId quantity price, .known f => r.orders.get orderId = r₀.orders.get orderId ∧
      FillOf r₀ orderId quantity price f
  | fill orderId quantity price, .copied f _ => r.orders.get orderId = r₀.orders.get orderId ∧
      FillOf r₀ orderId quantity price f
  | fill orderId quantity price, .booked f _ => FillOf r₀ orderId quantity price f ∧
      (fill orderId quantity price).Booked r₀
  | fill orderId quantity price, .published f => FillOf r₀ orderId quantity price f ∧
      (fill orderId quantity price).Booked r₀
  | fill orderId quantity price, .returned (.ok _) => (fill orderId quantity price).Booked r₀
  | mark _ _, .called => True
  | _, .returned _ => True
  | mark _ _, _ => False

variable {r r' r₀ : Runtime} {w : Writer} {s : Section}

/-- Sections of the other call keep the stage of a call. -/
theorem Stage.other (h : w.Stage r₀ r s)
    (hget : ∀ id, w.orderId = some id → r'.orders.get id = r.orders.get id) :
    w.Stage r₀ r' s := by
  cases w with
  | mark =>
    cases s with
    | returned o => trivial
    | called => trivial
    | _ => exact h
  | fill orderId quantity price =>
    have hown : r'.orders.get orderId = r.orders.get orderId := hget orderId rfl
    cases s with
    | called => exact hown.trans h
    | repeated => exact ⟨hown.trans h.1, h.2⟩
    | known => exact ⟨hown.trans h.1, h.2⟩
    | copied => exact ⟨hown.trans h.1, h.2⟩
    | booked => exact h
    | published => exact h
    | returned o =>
      cases o with
      | ok u => exact h
      | error e => trivial

/-- A section of a call leads to its next stage. -/
theorem Stage.advance (h : w.Stage r₀ r s) :
    w.Stage r₀ (w.advance s r).2 (w.advance s r).1 := by
  cases w with
  | mark =>
    cases s with
    | returned o => trivial
    | called => trivial
    | _ => exact h
  | fill orderId quantity price =>
    cases s with
    | called =>
      simp only [Writer.advance]
      cases hget : r.orders.get orderId with
      | none => trivial
      | some record =>
        have hget₀ : r₀.orders.get orderId = some record := (Eq.symm h).trans hget
        dsimp only
        split
        · next hfilled => exact ⟨h, record, hget₀, hfilled⟩
        · next hopen => exact ⟨h, record, hget₀, hopen, rfl⟩
    | repeated =>
      obtain ⟨-, record, hget₀, hfilled⟩ := h
      show Stage r₀ _ (fill orderId quantity price) (.returned (Runtime.bookFill _ _ _ r).1)
      cases (Runtime.bookFill orderId quantity price r).1 with
      | error e => trivial
      | ok u => exact ⟨record, hget₀, fun hopen => absurd hfilled hopen⟩
    | known f =>
      simp only [Writer.advance]
      split
      · trivial
      · exact h
    | copied f candidate =>
      simp only [Writer.advance]
      cases hbook : (Runtime.bookFill orderId quantity price r).1 with
      | error e => trivial
      | ok u =>
        obtain ⟨record, hget, htaken⟩ := bookFill_eq_ok hbook
        exact ⟨h.2, record, (Eq.symm h.1).trans hget, fun _ => htaken⟩
    | booked f candidate => exact h
    | published f => exact h.2
    | returned o => exact h

/-- What a section does to the portfolio: it fails, it leaves the portfolio and may take a copy
with the effect of its call, or it settles the call with its copy or by its effect. -/
inductive Step (r₀ : Runtime) (w : Writer) (s s' : Section) (p p' : Portfolio) : Prop
  | fails (failed : s'.failed)
  | waits (settled : s'.settled = s.settled) (portfolio : p' = p)
      (copy : s'.copy? = s.copy? ∨ s.copy? = none ∧ s'.copy? = some (w.effect r₀ p))
  | settles (before : s.settled = false) (after : s'.settled) (copy : s'.copy? = none)
      (portfolio : p' = s.copy?.getD (w.effect r₀ p))
      (silent : w.writesNext s = false → p' = p)

/-- The effect of a fill whose order is open and whose trial succeeds is the trial. -/
theorem effect_of_trial {orderId : String} {quantity price : Int} {f : FillRecord}
    {p : Portfolio} (hf : FillOf r₀ orderId quantity price f)
    (hok : (Portfolio.applyFill f.instrumentId f.signedQuantityTicks price 0 p).1.isOk) :
    (fill orderId quantity price).effect r₀ p =
      (Portfolio.applyFill f.instrumentId f.signedQuantityTicks price 0 p).2 := by
  obtain ⟨record, hget, hopen, rfl⟩ := hf
  unfold effect
  dsimp only
  rw [hget]
  dsimp only
  rw [if_neg]
  rintro (hfilled | herror)
  · exact hopen hfilled
  · rw [hok] at herror
    cases herror

/-- A fill of a filled order has no effect. -/
theorem effect_of_filled {orderId : String} {quantity price : Int} {record : OrderRecord}
    {p : Portfolio} (hget : r₀.orders.get orderId = some record) (hfilled : record.state = .filled) :
    (fill orderId quantity price).effect r₀ p = p := by
  unfold effect
  dsimp only
  rw [hget]
  dsimp only
  rw [if_pos (.inl hfilled)]

/-- **One section**: what it does to the portfolio. -/
theorem Stage.step (h : w.Stage r₀ r s) :
    Step r₀ w s (w.advance s r).1 r.portfolio (w.advance s r).2.portfolio := by
  cases w with
  | mark i price =>
    cases s with
    | called =>
      show Step r₀ (mark i price) .called (.returned (Runtime.updateMarkPrice i price r).1) _ _
      cases (Runtime.updateMarkPrice i price r).1 with
      | error e => exact .fails rfl
      | ok u => exact .settles rfl rfl rfl rfl (fun hw => by cases hw)
    | returned o => exact .waits rfl rfl (.inl rfl)
    | _ => exact h.elim
  | fill orderId quantity price =>
    cases s with
    | called =>
      simp only [Writer.advance]
      cases hget : r.orders.get orderId with
      | none => exact .fails rfl
      | some record =>
        dsimp only
        split
        · exact .waits rfl rfl (.inl rfl)
        · exact .waits rfl rfl (.inl rfl)
    | repeated =>
      obtain ⟨-, record, hget₀, hfilled⟩ := h
      show Step r₀ (fill orderId quantity price) .repeated
        (.returned (Runtime.bookFill orderId quantity price r).1) _ r.portfolio
      cases (Runtime.bookFill orderId quantity price r).1 with
      | error e => exact .fails rfl
      | ok u =>
        exact .settles rfl rfl rfl (effect_of_filled hget₀ hfilled).symm (fun _ => rfl)
    | known f =>
      simp only [Writer.advance]
      cases htrial : (Portfolio.applyFill f.instrumentId f.signedQuantityTicks price 0
          r.portfolio).1 with
      | error e => exact .fails rfl
      | ok entry =>
        have heffect := effect_of_trial h.2 (p := r.portfolio) (by rw [htrial]; rfl)
        exact .waits rfl rfl (.inr ⟨rfl, congrArg some heffect.symm⟩)
    | copied f candidate =>
      simp only [Writer.advance]
      cases (Runtime.bookFill orderId quantity price r).1 with
      | error e => exact .fails rfl
      | ok u => exact .waits rfl rfl (.inl rfl)
    | booked f candidate => exact .settles rfl rfl rfl rfl (fun hw => by cases hw)
    | published f => exact .waits rfl rfl (.inl rfl)
    | returned o => exact .waits rfl rfl (.inl rfl)

end Writer

end InsiderTrader
