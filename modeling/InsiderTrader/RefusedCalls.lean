import InsiderTrader.FillAgreement

/-!
# Refused calls and the order book

Four methods change a record of the book. Three of them look at everything
before they write. The fourth, the broker event, writes the broker id or the
filled quantity and tries the lifecycle step afterwards, so that a step the
table does not have leaves its write behind.

## Main definitions

- `BookCall` — a call of one of the four methods
- `BookCall.WritesRefused` — a call that writes and is refused afterwards

## Main results

- `OrderRecord.applyBrokerEvent_atomicAt_iff` — the events that are all or nothing
- `refused_unchanged_iff` — the refused calls that leave every record as it was
-/

namespace InsiderTrader

open MachineInt Fallible

-- One record

namespace OrderRecord

variable {record : OrderRecord}

/-- A lifecycle step writes only when it is legal. -/
theorem transition_atomicAt (next : OrderState) (record : OrderRecord) :
    (transition next).AtomicAt record := by
  rw [AtomicAt, Succeeds, transition_apply]
  by_cases hlegal : legalTransition record.state next = true
  · rw [if_pos hlegal]
    exact fun hfail => absurd rfl hfail
  · rw [if_neg hlegal]
    exact fun _ => rfl

theorem transition_succeeds_iff (next : OrderState) (record : OrderRecord) :
    (transition next).Succeeds record ↔ legalTransition record.state next = true := by
  rw [Succeeds, transition_apply]
  by_cases hlegal : legalTransition record.state next = true
  · rw [if_pos hlegal]
    exact iff_of_true rfl hlegal
  · rw [if_neg hlegal]
    exact iff_of_false Bool.false_ne_true hlegal

/-- A cumulative fill takes its step before it writes the count. -/
theorem applyCumulativeFill_atomicAt (cumulativeTicks : Int) (record : OrderRecord) :
    (applyCumulativeFill cumulativeTicks).AtomicAt record := by
  rw [applyCumulativeFill, atomicAt_reads_bind]
  dsimp only [id]
  split
  · exact atomicAt_fail _
  · split
    · exact atomicAt_pure _
    · -- a refused step ends the call, a legal one is followed by a write that succeeds
      intro hfail
      generalize hnext : (if record.intent.quantityTicks ≤ cumulativeTicks then OrderState.filled
        else .partiallyFilled) = next at hfail ⊢
      by_cases hlegal : legalTransition record.state next = true
      · refine absurd ?_ hfail
        rw [Succeeds, bind_of_ok (by rw [transition_apply, if_pos hlegal])]
        rfl
      · rw [bind_of_error (by rw [transition_apply, if_neg hlegal])]

/-- A replacement is recorded at once, after its checks. -/
theorem prepareReplace_atomicAt (quantityTicks : Int) (limitPriceTicks : Option Int)
    (record : OrderRecord) : (prepareReplace quantityTicks limitPriceTicks).AtomicAt record := by
  rw [prepareReplace, atomicAt_reads_bind]
  dsimp only [id]
  split
  · exact atomicAt_fail _
  · split
    · exact atomicAt_modify _
    · exact atomicAt_fail _

/-- An event whose write comes before a lifecycle step that the table does not have. -/
def WritesRefused (record : OrderRecord) : BrokerEvent → Prop
  | .acknowledged _ brokerOrderId =>
    acknowledgedBefore record.state = false ∧
      legalTransition record.state .acknowledged = false ∧
      record.brokerOrderId ≠ some brokerOrderId
  | .filled _ quantityTicks priceTicks =>
    record.TakesFill quantityTicks priceTicks ∧
      legalTransition record.state (record.fillState quantityTicks) = false
  | .rejected _ _ => False
  | .cancelled _ => False

/-- An acknowledgement of an order that was not acknowledged before. -/
theorem applyBrokerEvent_acknowledged (orderId brokerOrderId : String)
    (h : acknowledgedBefore record.state = false) :
    applyBrokerEvent (.acknowledged orderId brokerOrderId) record =
      transition .acknowledged { record with brokerOrderId := some brokerOrderId } := by
  simp only [applyBrokerEvent, reads_bind, id]
  rw [h]
  rfl

theorem acknowledged_atomicAt_iff (orderId brokerOrderId : String) (record : OrderRecord) :
    (applyBrokerEvent (.acknowledged orderId brokerOrderId)).AtomicAt record ↔
      ¬record.WritesRefused (.acknowledged orderId brokerOrderId) := by
  by_cases hbefore : acknowledgedBefore record.state = true
  · -- only the broker id is compared
    refine iff_of_true ?_ fun h => Bool.false_ne_true (h.1.symm.trans hbefore)
    rw [applyBrokerEvent, atomicAt_reads_bind]
    dsimp only [id]
    rw [if_pos hbefore]
    split
    · exact atomicAt_pure _
    · exact atomicAt_fail _
  · have hfresh : acknowledgedBefore record.state = false := eq_false_of_ne_true hbefore
    have hrun := applyBrokerEvent_acknowledged orderId brokerOrderId hfresh
    have hstate : ({ record with brokerOrderId := some brokerOrderId } : OrderRecord).state =
        record.state := rfl
    rw [AtomicAt, Succeeds, hrun, transition_apply, hstate]
    by_cases hlegal : legalTransition record.state .acknowledged = true
    · rw [if_pos hlegal]
      exact iff_of_true (fun hfail => absurd rfl hfail)
        fun h => Bool.false_ne_true (h.2.1.symm.trans hlegal)
    · rw [if_neg hlegal]
      have hsame : { record with brokerOrderId := some brokerOrderId } = record ↔
          record.brokerOrderId = some brokerOrderId :=
        ⟨fun h => (congrArg OrderRecord.brokerOrderId h).symm, fun h => by rw [← h]⟩
      constructor
      · intro hatomic hrefused
        exact hrefused.2.2 (hsame.mp (hatomic Bool.false_ne_true))
      · intro hrefused _
        by_contra hne
        exact hrefused ⟨hfresh, eq_false_of_ne_true hlegal, fun h => hne (hsame.mpr h)⟩

theorem filled_atomicAt_iff (orderId : String) (quantity price : Int) (record : OrderRecord) :
    (applyBrokerEvent (.filled orderId quantity price)).AtomicAt record ↔
      ¬record.WritesRefused (.filled orderId quantity price) := by
  by_cases htakes : record.TakesFill quantity price
  · rw [AtomicAt, Succeeds, applyBrokerEvent_of_takesFill htakes]
    by_cases hlegal : legalTransition record.state (record.fillState quantity) = true
    · rw [if_pos hlegal]
      exact iff_of_true (fun hfail => absurd rfl hfail)
        fun h => Bool.false_ne_true (h.2.symm.trans hlegal)
    · rw [if_neg hlegal]
      refine iff_of_false (fun hatomic => ?_) fun h => h ⟨htakes, eq_false_of_ne_true hlegal⟩
      have hsame := congrArg OrderRecord.filledQuantityTicks (hatomic Bool.false_ne_true)
      have hpos := htakes.quantity_pos
      change record.filledQuantityTicks + quantity = record.filledQuantityTicks at hsame
      omega
  · exact iff_of_true (fun _ => (applyBrokerEvent_of_not_takesFill orderId htakes).2)
      fun h => htakes h.1

/-- **The events that are all or nothing** at a record. -/
theorem applyBrokerEvent_atomicAt_iff (event : BrokerEvent) (record : OrderRecord) :
    (applyBrokerEvent event).AtomicAt record ↔ ¬record.WritesRefused event := by
  cases event with
  | acknowledged orderId brokerOrderId => exact acknowledged_atomicAt_iff _ _ record
  | filled orderId quantity price => exact filled_atomicAt_iff _ _ _ record
  | rejected orderId reason =>
    refine iff_of_true ?_ fun h => h
    rw [applyBrokerEvent, atomicAt_reads_bind]
    dsimp only [id]
    split
    · exact atomicAt_pure _
    · exact transition_atomicAt _ record
  | cancelled orderId =>
    refine iff_of_true ?_ fun h => h
    rw [applyBrokerEvent, atomicAt_reads_bind]
    dsimp only [id]
    split
    · exact atomicAt_pure _
    · exact transition_atomicAt _ record

end OrderRecord

-- The book

namespace OrderBook

/-- The same records under the same ids. -/
def SameRecords (book book' : OrderBook) : Prop := ∀ id, book'.get id = book.get id

/-- The book keeps its records when the record keeps itself. -/
theorem sameRecords_put_iff {book : OrderBook} {id : String} {record record' : OrderRecord}
    (hget : book.get id = some record) :
    book.SameRecords (book.put id record') ↔ record' = record := by
  constructor
  · intro h
    have hid := h id
    rw [get_put, if_pos rfl, hget] at hid
    exact Option.some.inj hid
  · rintro rfl id'
    rw [get_put]
    split
    · next heq => rw [← heq, hget]
    · rfl

/-- A method of a record is as atomic at the book as it is at the record. -/
theorem onRecord_sameRecords_iff {ε : Type} {unknown : ε} {id : String}
    {p : Fallible OrderRecord ε Unit} {book : OrderBook} {record : OrderRecord}
    (hget : book.get id = some record) :
    (¬(onRecord unknown id p).Succeeds book → book.SameRecords (onRecord unknown id p book).2) ↔
      p.AtomicAt record := by
  rw [Succeeds, onRecord_of_get hget, sameRecords_put_iff hget]
  exact Iff.rfl

theorem onRecord_sameRecords_of_none {ε : Type} {unknown : ε} {id : String}
    {p : Fallible OrderRecord ε Unit} {book : OrderBook} (hget : book.get id = none) :
    book.SameRecords (onRecord unknown id p book).2 := by
  rw [onRecord_of_none hget]
  exact fun _ => rfl

end OrderBook

/-- A call that changes one record of the book. -/
inductive BookCall where
  | transition (clientOrderId : String) (next : OrderState)
  | applyBrokerEvent (event : BrokerEvent)
  | applyCumulativeFill (clientOrderId : String) (cumulativeTicks : Int)
  | prepareReplace (clientOrderId : String) (quantityTicks : Int) (limitPriceTicks : Option Int)

namespace BookCall

/-- The call; the errors of the lifecycle are read as errors of a replacement. -/
def run : BookCall → Fallible OrderBook ReplaceError Unit
  | .transition id next => lifecycle (OrderBook.transition id next)
  | .applyBrokerEvent event => lifecycle (OrderBook.applyBrokerEvent event)
  | .applyCumulativeFill id cumulative => lifecycle (OrderBook.applyCumulativeFill id cumulative)
  | .prepareReplace id quantity limit => OrderBook.prepareReplace id quantity limit
where
  /-- A method of the lifecycle. -/
  lifecycle (p : Fallible OrderBook TransitionError Unit) : Fallible OrderBook ReplaceError Unit :=
    Fallible.zoom id (fun _ book => book) .transition p

/-- A broker event that is refused by the lifecycle table after its write. -/
def WritesRefused (book : OrderBook) : BookCall → Prop
  | .applyBrokerEvent event =>
    ∃ record, book.get event.clientOrderId = some record ∧ record.WritesRefused event
  | _ => False

end BookCall

/-- A method of a record that is all or nothing never changes a record and fails. -/
theorem OrderBook.onRecord_unchanged {ε : Type} {unknown : ε} {id : String}
    {p : Fallible OrderRecord ε Unit} (hp : ∀ record, p.AtomicAt record) (book : OrderBook)
    (hfail : ¬(onRecord unknown id p).Succeeds book) :
    book.SameRecords (onRecord unknown id p book).2 := by
  cases hget : book.get id with
  | none => exact onRecord_sameRecords_of_none hget
  | some record => exact (onRecord_sameRecords_iff hget).mpr (hp record) hfail

theorem OrderBook.applyBrokerEvent_unchanged_iff (event : BrokerEvent) (book : OrderBook) :
    (¬(applyBrokerEvent event).Succeeds book → book.SameRecords (applyBrokerEvent event book).2) ↔
      ¬BookCall.WritesRefused book (.applyBrokerEvent event) := by
  cases hget : book.get event.clientOrderId with
  | none =>
    refine iff_of_true (fun _ => onRecord_sameRecords_of_none hget) ?_
    rintro ⟨record, hget', -⟩
    cases hget.symm.trans hget'
  | some record =>
    rw [applyBrokerEvent, onRecord_sameRecords_iff hget, OrderRecord.applyBrokerEvent_atomicAt_iff]
    constructor
    · rintro hrecord ⟨record', hget', hrefused⟩
      cases hget.symm.trans hget'
      exact hrecord hrefused
    · exact fun hbook hrefused => hbook ⟨record, hget, hrefused⟩

/-- **A refused call leaves every record as it was**, exactly when it is no broker event that
writes the broker id or the filled quantity before an illegal lifecycle step. -/
theorem refused_unchanged_iff (call : BookCall) (book : OrderBook) :
    (¬call.run.Succeeds book → ∀ id, (call.run book).2.get id = book.get id) ↔
      ¬call.WritesRefused book := by
  cases call with
  | transition id next =>
    rw [BookCall.run, BookCall.run.lifecycle, succeeds_zoom]
    exact iff_of_true (OrderBook.onRecord_unchanged (OrderRecord.transition_atomicAt next) book)
      fun h => h
  | applyBrokerEvent event =>
    rw [BookCall.run, BookCall.run.lifecycle, succeeds_zoom]
    exact OrderBook.applyBrokerEvent_unchanged_iff event book
  | applyCumulativeFill id cumulative =>
    rw [BookCall.run, BookCall.run.lifecycle, succeeds_zoom]
    exact iff_of_true (OrderBook.onRecord_unchanged
      (OrderRecord.applyCumulativeFill_atomicAt cumulative) book) fun h => h
  | prepareReplace id quantity limit =>
    exact iff_of_true (OrderBook.onRecord_unchanged
      (OrderRecord.prepareReplace_atomicAt quantity limit) book) fun h => h

namespace Sample

/-- The purchase of 10 in a lifecycle state, with nothing filled. -/
def purchaseIn (state : OrderState) : OrderRecord :=
  ⟨{ purchase with state := state }, some "b-1", 0⟩

end Sample

/-- **A fill of an order that is being cancelled** is refused and counted: 4 of 10. -/
theorem refused_changes_cancelPending :
    ¬(¬(BookCall.run (.applyBrokerEvent (.filled "o-1" 4 100))).Succeeds
          (OrderBook.new.put "o-1" (Sample.purchaseIn .cancelPending)) →
        ∀ id, (BookCall.run (.applyBrokerEvent (.filled "o-1" 4 100))
          (OrderBook.new.put "o-1" (Sample.purchaseIn .cancelPending))).2.get id =
          (OrderBook.new.put "o-1" (Sample.purchaseIn .cancelPending)).get id) := by
  intro h
  have hsame := h (by decide) "o-1"
  revert hsame
  decide

end InsiderTrader
