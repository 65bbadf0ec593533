import Mathlib.Algebra.Order.Group.Multiset
import InsiderTrader.Library.MapSum
import InsiderTrader.Library.Runs
import InsiderTrader.PaperBroker

/-!
# Sessions with the paper broker

A session is the paper broker together with what came out of it: the events
that drains have handed out and the orders that were accepted. What the broker
remembers of each order and what it has emitted are two records of one thing.

## Main definitions

- `PaperSession` — the broker, the drained events and the accepted orders
- `PaperCall` — one call to the broker
- `PaperSession.Sound` — the last event of each order is what was emitted of it

## Main results

- `PaperBroker.send_cases`, `PaperBroker.cancel_cases`, `PaperBroker.replace_cases` — inversion
- `PaperSession.Sound.after` — every call keeps a sound session sound
-/

namespace InsiderTrader

open Fallible

/-- A paper broker with the events that were drained from it and the orders it has accepted. -/
structure PaperSession where
  broker : PaperBroker
  drained : List BrokerEvent
  sent : List OrderIntent

/-- One call to the paper broker. -/
inductive PaperCall where
  | setPrice (instrumentId : InstrumentId) (priceTicks : Int)
  | send (intent : OrderIntent)
  | cancel (clientOrderId : String)
  | replace (clientOrderId : String) (quantityTicks : Int) (limitPriceTicks : Option Int)
  | drainEvents
  deriving DecidableEq

/-- The session after a call, accepted or refused. -/
def PaperCall.after (call : PaperCall) (s : PaperSession) : PaperSession :=
  match call with
  | setPrice i price => { s with broker := (PaperBroker.setPrice i price s.broker).2 }
  | send intent =>
    { s with
      broker := (PaperBroker.send intent s.broker).2
      sent := if (PaperBroker.send intent).Succeeds s.broker then s.sent ++ [intent] else s.sent }
  | cancel id => { s with broker := (PaperBroker.cancel id s.broker).2 }
  | replace id quantity limit =>
    { s with broker := (PaperBroker.replace id quantity limit s.broker).2 }
  | drainEvents =>
    { s with
      broker := (PaperBroker.drainEvents s.broker).2
      drained := s.drained ++ s.broker.events }

/-- An event that reports a fill. -/
def BrokerEvent.IsFill : BrokerEvent → Prop
  | filled .. => True
  | _ => False

instance : DecidablePred BrokerEvent.IsFill := fun event => by
  cases event <;> unfold BrokerEvent.IsFill <;> infer_instance

/-- The fills among some events. -/
def fillsOf (events : List BrokerEvent) : Multiset BrokerEvent :=
  (events.map fun event => if event.IsFill then {event} else 0).sum

theorem fillsOf_append (events events' : List BrokerEvent) :
    fillsOf (events ++ events') = fillsOf events + fillsOf events' := by
  rw [fillsOf, List.map_append, List.sum_append]
  rfl

theorem fillsOf_singleton (event : BrokerEvent) :
    fillsOf [event] = if event.IsFill then {event} else 0 := by
  simp [fillsOf]

theorem fillsOf_cons (event : BrokerEvent) (events : List BrokerEvent) :
    fillsOf (event :: events) = fillsOf [event] + fillsOf events :=
  fillsOf_append [event] events

theorem fillsOf_acknowledged (id n : String) : fillsOf [.acknowledged id n] = 0 := rfl

namespace PaperBroker

variable {b : PaperBroker} {intent : OrderIntent} {id : String}

-- Inversion of the calls

/-- **Inversion of a send**: it is refused and changes nothing, or it accepts a new order of an
instrument with a mark and fills it or keeps it resting. -/
theorem send_cases (intent : OrderIntent) (b : PaperBroker) :
    (¬(send intent).Succeeds b ∧ (send intent b).2 = b) ∨
      ((send intent).Succeeds b ∧ 0 < intent.quantityTicks ∧
        b.seen[intent.clientOrderId]? = none ∧ ∃ price, b.prices[intent.instrumentId]? = some price ∧
          (send intent b).2 = if marketable intent price then
              report (.filled intent.clientOrderId intent.quantityTicks price) (accept intent b)
            else rest intent (accept intent b)) := by
  by_cases hquantity : 0 < intent.quantityTicks
  · cases hprice : b.prices[intent.instrumentId]? with
    | none =>
      have hrun : send intent b = (.error (.sim .unknownPrice), b) := by
        unfold send
        rw [require_bind, if_pos hquantity, reads_bind, hprice]
        rfl
      left
      rw [Succeeds, hrun]
      exact ⟨Bool.false_ne_true, rfl⟩
    | some price =>
      cases hseen : b.seen[intent.clientOrderId]? with
      | some existing =>
        have hrun : send intent b = (.error (.duplicate existing), b) := by
          unfold send
          rw [require_bind, if_pos hquantity, reads_bind, orFail_bind_some hprice, reads_bind, hseen]
          rfl
        left
        rw [Succeeds, hrun]
        exact ⟨Bool.false_ne_true, rfl⟩
      | none =>
        have hrun : send intent b = (.ok (), if marketable intent price then
            report (.filled intent.clientOrderId intent.quantityTicks price) (accept intent b)
            else rest intent (accept intent b)) := by
          unfold send
          rw [require_bind, if_pos hquantity, reads_bind, orFail_bind_some hprice, reads_bind, hseen]
          dsimp only
          rw [modify_bind]
          split <;> rfl
        right
        rw [Succeeds, hrun]
        exact ⟨rfl, hquantity, rfl, price, rfl, rfl⟩
  · have hrun : send intent b = (.error (.sim .invalidQuantity), b) := by
      unfold send
      rw [require_bind, if_neg hquantity]
    left
    rw [Succeeds, hrun]
    exact ⟨Bool.false_ne_true, rfl⟩

/-- **Inversion of a cancellation**: it takes a resting order out of the book and reports it, or
it is refused and changes nothing. -/
theorem cancel_cases (id : String) (b : PaperBroker) :
    (¬(cancel id).Succeeds b ∧ (cancel id b).2 = b) ∨
      ((cancel id).Succeeds b ∧ ∃ intent, b.resting[id]? = some intent ∧
        (cancel id b).2 = leave (.cancelled id) b) := by
  have hrun : cancel id b = (orFail b.resting[id]? .notWorking >>= fun _ =>
      modify (leave (.cancelled id))) b := rfl
  cases hresting : b.resting[id]? with
  | none =>
    rw [hresting] at hrun
    left
    rw [Succeeds, hrun]
    exact ⟨Bool.false_ne_true, rfl⟩
  | some intent =>
    rw [hresting, orFail_bind_some rfl, modify_apply] at hrun
    right
    rw [Succeeds, hrun]
    exact ⟨rfl, intent, rfl, rfl⟩

/-- **Inversion of a replacement**: it rewrites quantity and limit of a resting order, or it is
refused and changes nothing. -/
theorem replace_cases (id : String) (quantity : Int) (limit : Option Int) (b : PaperBroker) :
    (¬(replace id quantity limit).Succeeds b ∧ (replace id quantity limit b).2 = b) ∨
      ((replace id quantity limit).Succeeds b ∧ 0 < quantity ∧ ∃ intent, b.resting[id]? = some intent ∧
        (replace id quantity limit b).2 = { b with
          resting := b.resting.insert id
            { intent with quantityTicks := quantity, limitPriceTicks := limit } }) := by
  by_cases hquantity : 0 < quantity
  · cases hresting : b.resting[id]? with
    | none =>
      have hrun : replace id quantity limit b = (.error .notWorking, b) := by
        unfold replace
        rw [require_bind, if_pos hquantity, reads_bind, hresting]
        rfl
      left
      rw [Succeeds, hrun]
      exact ⟨Bool.false_ne_true, rfl⟩
    | some intent =>
      by_cases hlimit : ¬(intent.orderType = .limit ∧ limit = none)
      · have hrun : replace id quantity limit b = (.ok (), { b with
            resting := b.resting.insert id
              { intent with quantityTicks := quantity, limitPriceTicks := limit } }) := by
          unfold replace
          rw [require_bind, if_pos hquantity, reads_bind, orFail_bind_some hresting, require_bind,
            if_pos hlimit, modify_apply]
        right
        rw [Succeeds, hrun]
        exact ⟨rfl, hquantity, intent, rfl, rfl⟩
      · have hrun : replace id quantity limit b = (.error (.sim .unsupportedOrder), b) := by
          unfold replace
          rw [require_bind, if_pos hquantity, reads_bind, orFail_bind_some hresting, require_bind,
            if_neg hlimit]
        left
        rw [Succeeds, hrun]
        exact ⟨Bool.false_ne_true, rfl⟩
  · have hrun : replace id quantity limit b = (.error (.sim .invalidQuantity), b) := by
      unfold replace
      rw [require_bind, if_neg hquantity]
    left
    rw [Succeeds, hrun]
    exact ⟨Bool.false_ne_true, rfl⟩

/-- A mark is refused and changes nothing, or it is stored and fills what it makes marketable. -/
theorem setPrice_snd (i : InstrumentId) (price : Int) (b : PaperBroker) :
    (setPrice i price b).2 = if 0 < price then
      matchResting i price { b with prices := b.prices.insert i price } else b := by
  unfold setPrice
  rw [require_bind]
  split <;> rfl

end PaperBroker

-- The life of an order

/-- What the broker keeps of one client order id — the last event, the resting order, the intent it
accepted — beside the order that was sent and the events that were emitted of it. -/
inductive OrderLife (id : String) : Option BrokerEvent → Option OrderIntent → Option OrderIntent →
    Option OrderIntent → List BrokerEvent → Prop where
  | unseen : OrderLife id none none none none []
  | working {intent kept : OrderIntent} {n m : String} (hkept : 0 < kept.quantityTicks) :
    OrderLife id (some (.acknowledged id m)) (some kept) (some intent) (some intent)
      [.acknowledged id n]
  | filled {intent : OrderIntent} {n : String} {quantity price : Int} (hpos : 0 < quantity) :
    OrderLife id (some (.filled id quantity price)) none (some intent) (some intent)
      [.acknowledged id n, .filled id quantity price]
  | cancelled {intent : OrderIntent} {n : String} :
    OrderLife id (some (.cancelled id)) none (some intent) (some intent)
      [.acknowledged id n, .cancelled id]

namespace PaperSession

/-- A new paper broker. -/
def new : PaperSession := ⟨PaperBroker.new, [], []⟩

/-- Everything the broker has emitted, drained or still queued. -/
def emitted (s : PaperSession) : List BrokerEvent := s.drained ++ s.broker.events

/-- What was emitted of one order. -/
def emittedOf (s : PaperSession) (id : String) : List BrokerEvent :=
  s.emitted.filter fun event => event.clientOrderId = id

/-- The order that was accepted under a client order id. -/
def sentAs (s : PaperSession) (id : String) : Option OrderIntent :=
  s.sent.find? fun intent => intent.clientOrderId = id

/-- The record of one order is that of its life. -/
def LifeAt (s : PaperSession) (id : String) : Prop :=
  OrderLife id s.broker.seen[id]? s.broker.resting[id]? s.broker.accepted[id]? (s.sentAs id)
    (s.emittedOf id)

/-- The last event of each order is what was emitted of it. -/
structure Sound (s : PaperSession) : Prop where
  counter : s.broker.nextOrderId ≤ lastOrderId
  lives : ∀ id, s.LifeAt id
  fills : MapSum.total (fun _ event => fillsOf [event]) s.broker.seen = fillsOf s.emitted

theorem sound_new : new.Sound where
  counter := by decide
  lives id := by
    have hseen : PaperBroker.new.seen[id]? = none := Std.TreeMap.getElem?_emptyc
    have hresting : PaperBroker.new.resting[id]? = none := Std.TreeMap.getElem?_emptyc
    have haccepted : PaperBroker.new.accepted[id]? = none := Std.TreeMap.getElem?_emptyc
    rw [LifeAt, new, hseen, hresting, haccepted]
    exact .unseen
  fills := rfl

variable {s s' : PaperSession} {id : String}

/-- The life of an order that a step leaves alone. -/
theorem LifeAt.congr (h : s.LifeAt id) (hseen : s'.broker.seen[id]? = s.broker.seen[id]?)
    (hresting : s'.broker.resting[id]? = s.broker.resting[id]?)
    (haccepted : s'.broker.accepted[id]? = s.broker.accepted[id]?)
    (hsent : s'.sentAs id = s.sentAs id) (hemitted : s'.emittedOf id = s.emittedOf id) :
    s'.LifeAt id := by
  rw [LifeAt, hseen, hresting, haccepted, hsent, hemitted]
  exact h

/-- The life of a resting order. -/
theorem LifeAt.of_resting (h : s.LifeAt id) {kept : OrderIntent}
    (hresting : s.broker.resting[id]? = some kept) :
    0 < kept.quantityTicks ∧ ∃ intent n m, s.broker.seen[id]? = some (.acknowledged id m) ∧
      s.broker.accepted[id]? = some intent ∧ s.sentAs id = some intent ∧
      s.emittedOf id = [.acknowledged id n] := by
  rw [LifeAt, hresting] at h
  generalize s.broker.seen[id]? = seen, s.broker.accepted[id]? = accepted, s.sentAs id = sent,
    s.emittedOf id = events at h ⊢
  cases h with
  | working hkept => exact ⟨hkept, _, _, _, rfl, rfl, rfl, rfl⟩

/-- The life of an order that was never accepted. -/
theorem LifeAt.of_unseen (h : s.LifeAt id) (hseen : s.broker.seen[id]? = none) :
    s.broker.resting[id]? = none ∧ s.sentAs id = none ∧ s.emittedOf id = [] := by
  rw [LifeAt, hseen] at h
  generalize s.broker.resting[id]? = resting, s.broker.accepted[id]? = accepted, s.sentAs id = sent,
    s.emittedOf id = events at h ⊢
  cases h with
  | unseen => exact ⟨rfl, rfl, rfl⟩

/-- Reporting an event of one order rewrites its last event and no other. -/
theorem seen_report (event : BrokerEvent) (b : PaperBroker) (id : String) :
    (b.report event).seen[id]? = if event.clientOrderId = id then some event else b.seen[id]? := by
  rw [PaperBroker.report, Std.TreeMap.getElem?_insert]
  simp only [Std.LawfulEqCmp.compare_eq_iff_eq]

theorem filter_append_singleton_of_ne {events : List BrokerEvent} {event : BrokerEvent}
    (h : event.clientOrderId ≠ id) :
    (events ++ [event]).filter (fun e => e.clientOrderId = id) =
      events.filter fun e => e.clientOrderId = id := by
  rw [List.filter_append, List.filter_singleton]
  simp [h]

/-- What the fills of the last events add up to after one more of them is written over a last
event that is no fill. -/
theorem Sound.fills_insert (h : s.Sound) {event : BrokerEvent}
    (hold : ∀ old, s.broker.seen[id]? = some old → ¬old.IsFill) :
    MapSum.total (fun _ event => fillsOf [event]) (s.broker.seen.insert id event) =
      fillsOf s.emitted + fillsOf [event] := by
  have htotal := MapSum.total_insert (fun _ event => fillsOf [event]) s.broker.seen id event
  have hzero : (s.broker.seen[id]?).elim 0 (fun event => fillsOf [event]) = 0 := by
    cases hseen : s.broker.seen[id]? with
    | none => rfl
    | some old =>
      rw [Option.elim_some, fillsOf_singleton, if_neg (hold old hseen)]
  rw [hzero, add_zero, h.fills] at htotal
  exact htotal

/-- The session after an order has left the book. -/
def leave (event : BrokerEvent) (s : PaperSession) : PaperSession :=
  { s with broker := s.broker.leave event }

theorem emitted_leave (event : BrokerEvent) (s : PaperSession) :
    (s.leave event).emitted = s.emitted ++ [event] :=
  (List.append_assoc _ _ _).symm

theorem resting_leave (event : BrokerEvent) (s : PaperSession) (id : String) :
    (s.leave event).broker.resting[id]? =
      if event.clientOrderId = id then none else s.broker.resting[id]? := by
  show (s.broker.resting.erase event.clientOrderId)[id]? = _
  rw [Std.TreeMap.getElem?_erase]
  simp only [Std.LawfulEqCmp.compare_eq_iff_eq]

theorem sentAs_append (s : PaperSession) (intent : OrderIntent) (id : String) :
    (s.sent ++ [intent]).find? (fun intent => intent.clientOrderId = id) =
      (s.sentAs id).or (if intent.clientOrderId = id then some intent else none) := by
  rw [List.find?_append, sentAs]
  congr 1
  by_cases h : intent.clientOrderId = id <;> simp [h]

/-- **A resting order leaves the book**, filled or cancelled. -/
theorem Sound.leave (h : s.Sound) {kept : OrderIntent}
    (hresting : s.broker.resting[id]? = some kept) {event : BrokerEvent}
    (hevent : (∃ price, event = .filled id kept.quantityTicks price) ∨ event = .cancelled id) :
    (s.leave event).Sound := by
  obtain ⟨hkept, intent, n, m, hseen, haccepted, hsent, hemitted⟩ := (h.lives id).of_resting hresting
  have hid : event.clientOrderId = id := by
    rcases hevent with ⟨price, rfl⟩ | rfl <;> rfl
  refine ⟨h.counter, fun id' => ?_, ?_⟩
  · by_cases hsame : event.clientOrderId = id'
    · obtain rfl : id = id' := hid.symm.trans hsame
      have hevents : (s.leave event).emittedOf id = [.acknowledged id n, event] := by
        rw [emittedOf, emitted_leave, List.filter_append]
        rw [emittedOf] at hemitted
        rw [hemitted]
        simp [hid]
      have hlast : (s.leave event).broker.seen[id]? = some event := by
        rw [PaperSession.leave, PaperBroker.leave, seen_report, if_pos hid]
      rw [LifeAt, hlast, hevents, resting_leave, if_pos hid]
      rw [show (s.leave event).broker.accepted[id]? = some intent from haccepted,
        show (s.leave event).sentAs id = some intent from hsent]
      rcases hevent with ⟨price, rfl⟩ | rfl
      · exact .filled hkept
      · exact .cancelled
    · refine (h.lives id').congr ?_ ?_ rfl rfl ?_
      · rw [PaperSession.leave, PaperBroker.leave, seen_report, if_neg hsame]
      · rw [resting_leave, if_neg hsame]
      · rw [emittedOf, emitted_leave, filter_append_singleton_of_ne hsame]
        rfl
  · rw [emitted_leave, fillsOf_append]
    show MapSum.total _ (s.broker.seen.insert event.clientOrderId event) = _
    rw [hid]
    refine h.fills_insert fun old hold => ?_
    rw [hseen] at hold
    cases hold
    exact not_false

/-- The session after a new order was accepted with the given last event, resting orders and
events behind its acknowledgement. -/
def enter (intent : OrderIntent) (last : BrokerEvent) (resting : Std.TreeMap String OrderIntent)
    (behind : List BrokerEvent) (s : PaperSession) : PaperSession where
  broker := { s.broker.accept intent with
    seen := s.broker.seen.insert intent.clientOrderId last
    resting := resting
    events := (s.broker.accept intent).events ++ behind }
  drained := s.drained
  sent := s.sent ++ [intent]

section Enter

variable {intent : OrderIntent} {last : BrokerEvent} {resting : Std.TreeMap String OrderIntent}
  {behind : List BrokerEvent}

theorem seen_enter (id : String) : (s.enter intent last resting behind).broker.seen[id]? =
    if intent.clientOrderId = id then some last else s.broker.seen[id]? := by
  show (s.broker.seen.insert intent.clientOrderId last)[id]? = _
  rw [Std.TreeMap.getElem?_insert]
  simp only [Std.LawfulEqCmp.compare_eq_iff_eq]

theorem accepted_enter (id : String) : (s.enter intent last resting behind).broker.accepted[id]? =
    if intent.clientOrderId = id then some intent else s.broker.accepted[id]? := by
  show (s.broker.accepted.insert intent.clientOrderId intent)[id]? = _
  rw [Std.TreeMap.getElem?_insert]
  simp only [Std.LawfulEqCmp.compare_eq_iff_eq]

theorem emitted_enter : (s.enter intent last resting behind).emitted = s.emitted ++
    (.acknowledged intent.clientOrderId (paperOrderId s.broker.nextOrderId) :: behind) := by
  simp [PaperSession.enter, PaperSession.emitted, PaperBroker.accept]

theorem emittedOf_enter_of_ne (hbehind : ∀ event ∈ behind, event.clientOrderId = intent.clientOrderId)
    (hid : intent.clientOrderId ≠ id) :
    (s.enter intent last resting behind).emittedOf id = s.emittedOf id := by
  have hnew : (BrokerEvent.acknowledged intent.clientOrderId
      (paperOrderId s.broker.nextOrderId) :: behind).filter
      (fun event => event.clientOrderId = id) = [] := by
    rw [List.filter_eq_nil_iff]
    intro event hevent
    rcases List.mem_cons.mp hevent with rfl | hevent
    · exact fun heq => hid (of_decide_eq_true heq)
    · rw [hbehind event hevent]
      exact fun heq => hid (of_decide_eq_true heq)
  rw [emittedOf, emitted_enter, List.filter_append, hnew, List.append_nil]
  rfl

theorem emittedOf_enter_self (hbehind : ∀ event ∈ behind, event.clientOrderId = intent.clientOrderId)
    (hnone : s.emittedOf intent.clientOrderId = []) :
    (s.enter intent last resting behind).emittedOf intent.clientOrderId =
      .acknowledged intent.clientOrderId (paperOrderId s.broker.nextOrderId) :: behind := by
  rw [emittedOf, emitted_enter, List.filter_append]
  rw [emittedOf] at hnone
  rw [hnone, List.nil_append, List.filter_eq_self]
  intro event hevent
  rcases List.mem_cons.mp hevent with rfl | hevent
  · exact decide_eq_true rfl
  · exact decide_eq_true (hbehind event hevent)

/-- **A new order enters the book**, filled at once or resting. -/
theorem Sound.enter (h : s.Sound) (hseen : s.broker.seen[intent.clientOrderId]? = none)
    (hbehind : ∀ event ∈ behind, event.clientOrderId = intent.clientOrderId)
    (hfills : fillsOf [last] = fillsOf behind)
    (hothers : ∀ id, intent.clientOrderId ≠ id → resting[id]? = s.broker.resting[id]?)
    (hlife : OrderLife intent.clientOrderId (some last) resting[intent.clientOrderId]? (some intent)
      (some intent) (.acknowledged intent.clientOrderId (paperOrderId s.broker.nextOrderId) :: behind)) :
    (s.enter intent last resting behind).Sound := by
  obtain ⟨-, hsent, hnone⟩ := (h.lives _).of_unseen hseen
  refine ⟨min_le_right _ _, fun id => ?_, ?_⟩
  · by_cases hsame : intent.clientOrderId = id
    · subst hsame
      have hfound : (s.enter intent last resting behind).sentAs intent.clientOrderId =
          some intent := by
        rw [PaperSession.enter, sentAs, sentAs_append, hsent, if_pos rfl]
        rfl
      rw [LifeAt, seen_enter, if_pos rfl, accepted_enter, if_pos rfl,
        emittedOf_enter_self hbehind hnone, hfound]
      exact hlife
    · refine (h.lives id).congr ?_ (hothers id hsame) ?_ ?_ (emittedOf_enter_of_ne hbehind hsame)
      · rw [seen_enter, if_neg hsame]
      · rw [accepted_enter, if_neg hsame]
      · rw [PaperSession.enter, sentAs, sentAs_append, if_neg hsame, Option.or_none]
  · rw [emitted_enter, fillsOf_append, fillsOf_cons, fillsOf_acknowledged, zero_add, ← hfills]
    exact h.fills_insert fun old hold => by rw [hseen] at hold; cases hold

end Enter

theorem sent_filled (s : PaperSession) (intent : OrderIntent) (price : Int) :
    PaperSession.mk ((s.broker.accept intent).report
        (.filled intent.clientOrderId intent.quantityTicks price)) s.drained (s.sent ++ [intent]) =
      s.enter intent (.filled intent.clientOrderId intent.quantityTicks price) s.broker.resting
        [.filled intent.clientOrderId intent.quantityTicks price] := rfl

theorem sent_rested (s : PaperSession) (intent : OrderIntent) :
    PaperSession.mk ((s.broker.accept intent).rest intent) s.drained (s.sent ++ [intent]) =
      s.enter intent (.acknowledged intent.clientOrderId
          (paperOrderId (min (s.broker.nextOrderId + 1) lastOrderId)))
        (s.broker.resting.insert intent.clientOrderId intent) [] := by
  simp [PaperSession.enter, PaperBroker.rest, PaperBroker.accept]

/-- An order with new quantity and limit keeps resting. -/
theorem Sound.amend (h : s.Sound) {kept kept' : OrderIntent}
    (hresting : s.broker.resting[id]? = some kept) (hpos : 0 < kept'.quantityTicks) :
    ({ s with broker := { s.broker with resting := s.broker.resting.insert id kept' } } :
      PaperSession).Sound := by
  refine ⟨h.counter, fun id' => ?_, h.fills⟩
  obtain ⟨-, intent, n, m, hseen, haccepted, hsent, hemitted⟩ := (h.lives id).of_resting hresting
  have hrest : (s.broker.resting.insert id kept')[id']? =
      if id = id' then some kept' else s.broker.resting[id']? := by
    rw [Std.TreeMap.getElem?_insert]
    simp only [Std.LawfulEqCmp.compare_eq_iff_eq]
  by_cases hsame : id = id'
  · subst hsame
    show OrderLife id s.broker.seen[id]? (s.broker.resting.insert id kept')[id]?
      s.broker.accepted[id]? (s.sentAs id) (s.emittedOf id)
    rw [hrest, if_pos rfl, hseen, haccepted, hsent, hemitted]
    exact .working hpos
  · refine (h.lives id').congr rfl ?_ rfl rfl rfl
    show (s.broker.resting.insert id kept')[id']? = _
    rw [hrest, if_neg hsame]

/-- Filling one client order id keeps the session sound, whether it rests or not. -/
theorem Sound.fillResting (h : s.Sound) (price : Int) (id : String) :
    ({ s with broker := s.broker.fillResting price id } : PaperSession).Sound := by
  unfold PaperBroker.fillResting
  split
  · exact h
  · next kept hresting => exact h.leave hresting (.inl ⟨price, rfl⟩)

/-- Filling client order ids in turn keeps the session sound. -/
theorem Sound.fillAll (h : s.Sound) (price : Int) (ids : List String) :
    ({ s with broker := ids.foldl (PaperBroker.fillResting price) s.broker } :
      PaperSession).Sound := by
  induction ids generalizing s with
  | nil => exact h
  | cons id ids ih => exact ih (h.fillResting price id)

/-- **Every call keeps a sound session sound.** -/
theorem Sound.after (h : s.Sound) (call : PaperCall) : (call.after s).Sound := by
  cases call with
  | setPrice i price =>
    rw [PaperCall.after, PaperBroker.setPrice_snd]
    split
    · have hmark : ({ s with broker := { s.broker with
          prices := s.broker.prices.insert i price } } : PaperSession).Sound :=
        ⟨h.counter, h.lives, h.fills⟩
      exact hmark.fillAll price _
    · exact h
  | send intent =>
    rw [PaperCall.after]
    rcases PaperBroker.send_cases intent s.broker with ⟨hrefused, hsame⟩ |
      ⟨haccepted, hpos, hseen, price, hprice, hnext⟩
    · rw [if_neg hrefused, hsame]
      exact h
    · rw [if_pos haccepted, hnext]
      obtain ⟨hresting, hsent, hnone⟩ := (h.lives _).of_unseen hseen
      split
      · rw [sent_filled]
        refine h.enter hseen (by simp [BrokerEvent.clientOrderId]) rfl (fun _ _ => rfl) ?_
        rw [hresting]
        exact .filled hpos
      · rw [sent_rested]
        refine h.enter hseen (by simp) rfl (fun id hid => ?_) ?_
        · rw [Std.TreeMap.getElem?_insert, if_neg]
          rwa [Std.LawfulEqCmp.compare_eq_iff_eq]
        · rw [Std.TreeMap.getElem?_insert_self]
          exact .working hpos
  | cancel id =>
    rw [PaperCall.after]
    rcases PaperBroker.cancel_cases id s.broker with ⟨-, hsame⟩ | ⟨-, kept, hresting, hnext⟩
    · rw [hsame]
      exact h
    · rw [hnext]
      exact h.leave hresting (.inr rfl)
  | replace id quantity limit =>
    rw [PaperCall.after]
    rcases PaperBroker.replace_cases id quantity limit s.broker with ⟨-, hsame⟩ |
      ⟨-, hpos, kept, hresting, hnext⟩
    · rw [hsame]
      exact h
    · rw [hnext]
      exact h.amend hresting hpos
  | drainEvents =>
    have hemitted : (PaperCall.drainEvents.after s).emitted = s.emitted := List.append_nil _
    refine ⟨h.counter, fun id => (h.lives id).congr rfl rfl rfl rfl ?_, ?_⟩
    · rw [emittedOf, hemitted]
      rfl
    · rw [hemitted]
      exact h.fills

/-- Every session that a run reaches is sound. -/
theorem sound_of_mem_states {run : List PaperCall} :
    ∀ s ∈ Runs.states PaperCall.after new run, s.Sound :=
  Runs.states_of_step (A := fun _ => True) (G := fun _ _ => True)
    (fun call _ _ h _ => Sound.after h call) sound_new (fun _ _ => trivial) fun _ _ => trivial

end PaperSession

end InsiderTrader
