import InsiderTrader.FilledQuantity

/-!
# Outstanding quantity

What the orders of a book may still fill. A step of the lifecycle takes from
it, a fill takes its quantity, and only a new order or a replacement adds to it.

## Main definitions

- `OrderRecord.unfilledTicks` — what an order may still fill
- `OrderBook.outstanding` — what the orders of an instrument and a side may still fill
- `OrderBook.Shrinks` — no order may fill more than before

## Main results

- `OrderRecord.unfilledIn_fill` — a fill takes its quantity
- `OrderBook.outstanding_put` — writing a record exchanges what it may fill
- `OrderBook.put_shrinks` — a record that may fill nothing more
-/

namespace InsiderTrader

open MachineInt Fallible

-- One record

namespace OrderRecord

/-- The filled quantity is between zero and the quantity. -/
structure Within (record : OrderRecord) : Prop where
  filled_nonneg : 0 ≤ record.filledQuantityTicks
  filled_le : record.filledQuantityTicks ≤ record.intent.quantityTicks

/-- What an order may still fill. -/
def unfilledTicks (record : OrderRecord) : Int :=
  if record.state.terminal then 0
  else record.intent.quantityTicks - record.filledQuantityTicks

/-- What an order may still fill of an instrument and a side. -/
def unfilledIn (record : OrderRecord) (i : InstrumentId) (side : Side) : Int :=
  if record.intent.instrumentId = i ∧ record.intent.side = side then record.unfilledTicks else 0

/-- The record may not fill more than the one before it. -/
def Shrinks (record record' : OrderRecord) : Prop :=
  record.Within → record'.Within ∧ ∀ i side, record'.unfilledIn i side ≤ record.unfilledIn i side

variable {record record' : OrderRecord} {i : InstrumentId} {side : Side}

theorem Within.unfilledTicks_nonneg (h : record.Within) : 0 ≤ record.unfilledTicks := by
  have hle := h.filled_le
  unfold unfilledTicks
  split <;> omega

theorem Within.unfilledIn_nonneg (h : record.Within) : 0 ≤ record.unfilledIn i side := by
  unfold unfilledIn
  split
  · exact h.unfilledTicks_nonneg
  · exact le_rfl

instance : Std.Refl Shrinks := ⟨fun _ h => ⟨h, fun _ _ => le_rfl⟩⟩

instance : IsTrans OrderRecord Shrinks := ⟨fun _ _ _ h h' hw =>
  ⟨(h' (h hw).1).1, fun i side => ((h' (h hw).1).2 i side).trans ((h hw).2 i side)⟩⟩

/-- For the same instrument and side, what may be filled compares as the records do. -/
theorem unfilledIn_le (hinstrument : record'.intent.instrumentId = record.intent.instrumentId)
    (hside : record'.intent.side = record.intent.side)
    (hle : record'.unfilledTicks ≤ record.unfilledTicks) (i : InstrumentId) (side : Side) :
    record'.unfilledIn i side ≤ record.unfilledIn i side := by
  unfold unfilledIn
  rw [hinstrument, hside]
  split
  · exact hle
  · exact le_rfl

/-- A legal step lets an order fill the same, or nothing more. -/
theorem setState_shrinks {next : OrderState} (hlegal : legalTransition record.state next = true) :
    record.Shrinks (record.setState next) := by
  intro hw
  refine ⟨⟨hw.filled_nonneg, hw.filled_le⟩, unfilledIn_le rfl rfl ?_⟩
  have hle := hw.filled_le
  rw [unfilledTicks, unfilledTicks, open_of_legalTransition hlegal, if_neg Bool.false_ne_true]
  split
  · omega
  · exact le_rfl

theorem transition_shrinks (next : OrderState) : Along Shrinks (transition next) := by
  intro record
  rw [transition_apply]
  split
  · exact setState_shrinks ‹_›
  · exact Std.Refl.refl record

/-- An event that is no fill lets an order fill nothing more. -/
theorem applyBrokerEvent_shrinks {event : BrokerEvent}
    (h : ∀ id quantity price, event ≠ .filled id quantity price) :
    Along Shrinks (applyBrokerEvent event) := by
  refine (Along.reads _).bind fun record => ?_
  cases event with
  | acknowledged =>
    exact Along.ite (fun _ => Along.ite (fun _ => Along.ret _) fun _ => Along.fail _)
      fun _ => Along.bind (Along.modify fun _ hw =>
        ⟨⟨hw.filled_nonneg, hw.filled_le⟩, fun _ _ => le_rfl⟩) fun _ => transition_shrinks _
  | filled => exact absurd rfl (h _ _ _)
  | rejected => exact Along.ite (fun _ => Along.ret _) fun _ => transition_shrinks _
  | cancelled => exact Along.ite (fun _ => Along.ret _) fun _ => transition_shrinks _

variable {ticks price : Int}

/-- A fill that is written stays within the quantity. -/
theorem Within.addFill (h : record.Within) (htakes : record.TakesFill ticks price) :
    (record.addFill ticks).Within := by
  have hpos := htakes.quantity_pos
  have hnonneg := h.filled_nonneg
  exact ⟨by show 0 ≤ record.filledQuantityTicks + ticks; omega, htakes.within⟩

/-- A fill that is written and refused lets the order fill nothing more. -/
theorem addFill_shrinks (htakes : record.TakesFill ticks price) :
    record.Shrinks (record.addFill ticks) := by
  intro hw
  refine ⟨hw.addFill htakes, unfilledIn_le rfl rfl ?_⟩
  have hpos := htakes.quantity_pos
  unfold unfilledTicks
  change (if record.state.terminal = true then 0
    else record.intent.quantityTicks - (record.filledQuantityTicks + ticks)) ≤ _
  split <;> omega

/-- A legal fill leaves what it did not fill. -/
theorem unfilledTicks_fill (htakes : record.TakesFill ticks price)
    (hlegal : legalTransition record.state (record.fillState ticks) = true) :
    ((record.addFill ticks).setState (record.fillState ticks)).unfilledTicks =
      record.unfilledTicks - ticks := by
  have hwithin := htakes.within
  rw [unfilledTicks, unfilledTicks, open_of_legalTransition hlegal, if_neg Bool.false_ne_true]
  change (if (record.fillState ticks).terminal = true then 0
    else record.intent.quantityTicks - (record.filledQuantityTicks + ticks)) = _
  by_cases hfull : record.intent.quantityTicks ≤ record.filledQuantityTicks + ticks
  · rw [show record.fillState ticks = .filled from if_pos hfull]
    change 0 = _
    omega
  · rw [show record.fillState ticks = .partiallyFilled from if_neg hfull]
    change record.intent.quantityTicks - (record.filledQuantityTicks + ticks) = _
    omega

/-- **A fill takes its quantity** from what its order may still fill. -/
theorem unfilledIn_fill (htakes : record.TakesFill ticks price)
    (hlegal : legalTransition record.state (record.fillState ticks) = true)
    (i : InstrumentId) (side : Side) :
    ((record.addFill ticks).setState (record.fillState ticks)).unfilledIn i side =
      record.unfilledIn i side -
        if record.intent.instrumentId = i ∧ record.intent.side = side then ticks else 0 := by
  unfold unfilledIn
  change (if record.intent.instrumentId = i ∧ record.intent.side = side then _ else 0) = _
  rw [unfilledTicks_fill htakes hlegal]
  split <;> omega

/-- A replacement exchanges the quantity that it replaces. -/
theorem unfilledIn_replaced {quantity : Int} (limit : Option Int) {next : OrderState}
    (htakes : record.TakesReplace quantity) (hnext : next.terminal = false) (i : InstrumentId)
    (side : Side) :
    ((record.replaced quantity limit).setState next).unfilledIn i side =
      record.unfilledIn i side + if record.intent.instrumentId = i ∧ record.intent.side = side then
        quantity - record.intent.quantityTicks else 0 := by
  have hopen : record.state.terminal = false := by
    rcases htakes.working with h | h <;> rw [h] <;> rfl
  have hticks : ((record.replaced quantity limit).setState next).unfilledTicks =
      record.unfilledTicks + (quantity - record.intent.quantityTicks) := by
    rw [unfilledTicks, unfilledTicks, hopen, if_neg Bool.false_ne_true]
    change (if next.terminal = true then 0 else quantity - record.filledQuantityTicks) = _
    rw [hnext, if_neg Bool.false_ne_true]
    omega
  unfold unfilledIn
  change (if record.intent.instrumentId = i ∧ record.intent.side = side then _ else 0) = _
  rw [hticks]
  split <;> omega

end OrderRecord

-- The book

namespace OrderBook

/-- Every record has filled at most its quantity. -/
def Within (book : OrderBook) : Prop :=
  ∀ id record, book.get id = some record → record.Within

/-- What the orders of an instrument and a side may still fill. -/
def outstanding (book : OrderBook) (i : InstrumentId) (side : Side) : Int :=
  MapSum.total (fun _ record => record.unfilledIn i side) book.orders

/-- The orders may not fill more than before. -/
def Shrinks (book book' : OrderBook) : Prop :=
  book.Within → book'.Within ∧ ∀ i side, book'.outstanding i side ≤ book.outstanding i side

instance : Std.Refl Shrinks := ⟨fun _ h => ⟨h, fun _ _ => le_rfl⟩⟩

instance : IsTrans OrderBook Shrinks := ⟨fun _ _ _ h h' hw =>
  ⟨(h' (h hw).1).1, fun i side => ((h' (h hw).1).2 i side).trans ((h hw).2 i side)⟩⟩

variable {book book' : OrderBook} {id : String} {record : OrderRecord} {i : InstrumentId}
  {side : Side}

theorem within_new : new.Within := fun id record h => by
  rw [get_new] at h
  cases h

theorem outstanding_new (i : InstrumentId) (side : Side) : new.outstanding i side = 0 := by
  simp [outstanding, new]

theorem outstanding_nonneg (h : book.Within) (i : InstrumentId) (side : Side) :
    0 ≤ book.outstanding i side :=
  MapSum.total_nonneg _ fun id record hget => (h id record hget).unfilledIn_nonneg

theorem within_congr (h : book.SameRecords book') : book'.Within ↔ book.Within := by
  unfold Within
  simp only [h _]

theorem outstanding_congr (h : book.SameRecords book') (i : InstrumentId) (side : Side) :
    book'.outstanding i side = book.outstanding i side :=
  MapSum.total_congr _ h

theorem shrinks_of_same (h : book.SameRecords book') : book.Shrinks book' := fun hw =>
  ⟨(within_congr h).mpr hw, fun i side => (outstanding_congr h i side).le⟩

/-- Writing a record exchanges what it may fill. -/
theorem outstanding_put (book : OrderBook) (id : String) (record : OrderRecord) (i : InstrumentId)
    (side : Side) :
    (book.put id record).outstanding i side + (book.get id).elim 0 (·.unfilledIn i side) =
      book.outstanding i side + record.unfilledIn i side :=
  MapSum.total_insert _ book.orders id record

theorem Within.put (h : book.Within) (hrecord : record.Within) (id : String) :
    (book.put id record).Within := by
  intro id' record' hget
  rw [get_put] at hget
  split at hget
  · cases hget
    exact hrecord
  · exact h id' record' hget

/-- Writing back a record that may fill nothing more lets the book fill nothing more. -/
theorem put_shrinks {record' : OrderRecord} (hget : book.get id = some record)
    (hshrinks : record.Shrinks record') : book.Shrinks (book.put id record') := by
  intro hw
  obtain ⟨hwithin, hle⟩ := hshrinks (hw id record hget)
  refine ⟨hw.put hwithin id, fun i side => ?_⟩
  have hput := book.outstanding_put id record' i side
  have hside := hle i side
  rw [hget, Option.elim_some] at hput
  omega

/-- A method that lets its record fill nothing more lets the book fill nothing more. -/
theorem onRecord_shrinks {ε : Type} {unknown : ε} {p : Fallible OrderRecord ε Unit}
    (hp : Along OrderRecord.Shrinks p) : Along Shrinks (onRecord unknown id p) := by
  intro book
  cases hget : book.get id with
  | none =>
    rw [onRecord_of_none hget]
    exact Std.Refl.refl book
  | some record =>
    rw [onRecord_of_get hget]
    exact put_shrinks hget (hp record)

end OrderBook

end InsiderTrader
