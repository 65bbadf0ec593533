import Mathlib.Data.List.Basic
import InsiderTrader.Operation
import InsiderTrader.OrderFlow
import InsiderTrader.Library.MapSum

/-!
# Orders and positions agree

The position of an instrument moves by what its orders fill. Requests fill
nothing; a fill event adds its quantity to one record and to one position, or
to neither, unless the book keeps a fill that it refuses.

## Main definitions

- `OrderBook.netFilled` — the signed filled quantity of an instrument's orders
- `Runtime.AgreesSince` — positions have moved by what the orders have filled

## Main results

- `Runtime.applyBrokerEvent_agrees_iff` — what one event does to the agreement
- `fills_agree_iff` — the runs that keep it are those without a split fill
-/

namespace InsiderTrader

open MachineInt Fallible

-- The book

/-- What a record adds to the filled quantity of an instrument. -/
def OrderRecord.filledIn (record : OrderRecord) (i : InstrumentId) : Int :=
  if record.intent.instrumentId = i then record.signedFilledTicks else 0

/-- A fill changes what its record adds. -/
theorem OrderRecord.filledIn_addFill_ne (record : OrderRecord) {ticks : Int} (h : 0 < ticks) :
    (record.addFill ticks).filledIn record.intent.instrumentId ≠
      record.filledIn record.intent.instrumentId := by
  by_cases hside : record.intent.side = .buy
  · simp [filledIn, signedFilledTicks, addFill, hside]
    omega
  · simp [filledIn, signedFilledTicks, addFill, hside]
    omega

namespace OrderBook

/-- The signed filled quantity of the orders of an instrument. -/
def netFilled (book : OrderBook) (i : InstrumentId) : Int :=
  MapSum.total (fun _ record => record.filledIn i) book.orders

theorem netFilled_new (i : InstrumentId) : new.netFilled i = 0 := by
  simp [netFilled, new]

/-- Writing a record exchanges what it adds. -/
theorem netFilled_put (book : OrderBook) (id : String) (record : OrderRecord) (i : InstrumentId) :
    (book.put id record).netFilled i + (book.get id).elim 0 (·.filledIn i) =
      book.netFilled i + record.filledIn i :=
  MapSum.total_insert _ book.orders id record

/-- A method that keeps what its record adds keeps the filled quantities of the book. -/
theorem onRecord_netFilled {ε : Type} {unknown : ε} {id : String}
    {p : Fallible OrderRecord ε Unit} (hp : Along (Same OrderRecord.filledIn) p) :
    Along (Same netFilled) (onRecord unknown id p) := by
  intro book
  cases hget : book.get id with
  | none => rw [onRecord_of_none hget]; rfl
  | some record =>
    rw [onRecord_of_get hget]
    funext i
    have hput := book.netFilled_put id (p record).2 i
    have hkeep : (p record).2.filledIn = record.filledIn := hp record
    rw [hget, hkeep] at hput
    exact add_right_cancel hput

/-- A new order has filled nothing. -/
theorem insert_netFilled (intent : OrderIntent) : Along (Same netFilled) (insert intent) := by
  intro book
  by_cases hs : intent.state = .riskApproved
  · cases hget : book.get intent.clientOrderId with
    | none =>
      rw [insert_of_fresh hs hget]
      funext i
      have hput := book.netFilled_put intent.clientOrderId ⟨intent, none, 0⟩ i
      have hzero : (⟨intent, none, 0⟩ : OrderRecord).filledIn i = 0 := by
        simp [OrderRecord.filledIn, OrderRecord.signedFilledTicks]
      rw [hget, hzero] at hput
      simpa using hput
    | some record => rw [insert_of_known (by rw [hget]; rfl)]; rfl
  · simp [insert, hs, Same]

theorem transition_netFilled (id : String) (next : OrderState) :
    Along (Same netFilled) (transition id next) :=
  onRecord_netFilled ((Along.reads _).bind fun _ =>
    Along.ite (fun _ => Along.modify fun _ => rfl) fun _ => Along.fail _)

theorem prepareReplace_netFilled (id : String) (quantity : Int) (limit : Option Int) :
    Along (Same netFilled) (prepareReplace id quantity limit) :=
  onRecord_netFilled ((Along.reads _).bind fun _ => Along.ite (fun _ => Along.fail _) fun _ =>
    Along.ite (fun _ => Along.modify fun _ => rfl) fun _ => Along.fail _)

/-- An event that is no fill keeps the filled quantities. -/
theorem applyBrokerEvent_netFilled {event : BrokerEvent}
    (h : ∀ id quantity price, event ≠ .filled id quantity price) :
    Along (Same netFilled) (applyBrokerEvent event) := by
  refine onRecord_netFilled fun record => ?_
  have hintent := OrderRecord.applyBrokerEvent_intent event record
  have hfilled : (OrderRecord.applyBrokerEvent event record).2.filledQuantityTicks =
      record.filledQuantityTicks := OrderRecord.applyBrokerEvent_filledQuantity h record
  generalize (OrderRecord.applyBrokerEvent event record).2 = record' at *
  have hinstrument : record'.intent.instrumentId = record.intent.instrumentId :=
    congrArg (·.instrumentId) hintent
  have hside : record'.intent.side = record.intent.side := congrArg (·.side) hintent
  funext i
  show record'.filledIn i = record.filledIn i
  rw [OrderRecord.filledIn, OrderRecord.filledIn, OrderRecord.signedFilledTicks,
    OrderRecord.signedFilledTicks, hinstrument, hside, hfilled]

end OrderBook

-- The runtime

namespace Runtime

/-- Since a portfolio, every position has moved by what the orders of its instrument have
filled. -/
def AgreesSince (start : Portfolio) (r : Runtime) : Prop :=
  ∀ i, r.portfolio.quantity i - start.quantity i = r.orders.netFilled i

/-- Filled quantities and portfolio stay. -/
abbrev KeepsFills : Runtime → Runtime → Prop :=
  Same fun r => (r.orders.netFilled, r.portfolio)

theorem KeepsFills.agreesSince_iff {start : Portfolio} {r r' : Runtime} (h : KeepsFills r r') :
    AgreesSince start r' ↔ AgreesSince start r := by
  have horders : r'.orders.netFilled = r.orders.netFilled := congrArg Prod.fst h
  have hportfolio : r'.portfolio = r.portfolio := congrArg Prod.snd h
  unfold AgreesSince
  rw [horders, hportfolio]

theorem onOrders_keepsFills {ε α : Type} {wrap : ε → EngineError} {p : Fallible OrderBook ε α}
    (hp : Along (Same OrderBook.netFilled) p) : Along KeepsFills (onOrders wrap p) :=
  hp.zoom fun _ _ hk => Prod.ext hk rfl

theorem callBroker_keepsFills {α : Type} {c : BrokerCall}
    {answer : List BrokerCall → Except String α} : Along KeepsFills (callBroker c answer) :=
  (Along.reads _).bind fun _ => Along.bind (Along.modify fun _ => rfl) fun _ => Along.ret _

theorem submitIntent_keepsFills (env : Env) (intent : OrderIntent) :
    Along KeepsFills (submitIntent env intent) := by
  have hinsert : Along KeepsFills (onOrders (fun e => EngineError.submit (.transition e))
      (OrderBook.insert intent)) := onOrders_keepsFills (OrderBook.insert_netFilled intent)
  have hstep : ∀ next, Along KeepsFills (onOrders (fun e => EngineError.submit (.transition e))
      (OrderBook.transition intent.clientOrderId next)) := fun next =>
    onOrders_keepsFills (OrderBook.transition_netFilled _ next)
  refine (Along.reads _).bind fun _ => (Along.ofExcept _).bind fun _ => hinsert.bind fun _ =>
    (hstep _).bind fun _ => (hstep _).bind fun _ => Along.bind callBroker_keepsFills fun answer => ?_
  cases answer with
  | error message => exact (hstep _).bind fun _ => Along.fail _
  | ok _ => exact hstep _

theorem submitProposal_keepsFills (env : Env) (proposal : Proposal) (now : MonoTime)
    (traceId : TraceId) : Along KeepsFills (submitProposal env proposal now traceId) := by
  have hplan : Along KeepsFills (prepareProposal env proposal now traceId) :=
    Along.mono prepareProposal_keeps fun _ _ h =>
      congrArg (fun e : OrderBook × Portfolio => (e.1.netFilled, e.2)) h
  exact hplan.bind fun intent => (submitIntent_keepsFills env intent).bind fun _ => Along.ret _

theorem cancelOrder_keepsFills (env : Env) (id : String) :
    Along KeepsFills (cancelOrder env id) := by
  have hstep : ∀ next, Along KeepsFills (onOrders (fun e => EngineError.cancel (.transition e))
      (OrderBook.transition id next)) := fun next =>
    onOrders_keepsFills (OrderBook.transition_netFilled _ next)
  refine (Along.require _ _).bind fun _ => (hstep _).bind fun _ =>
    Along.bind callBroker_keepsFills fun answer => ?_
  cases answer with
  | error message => exact (hstep _).bind fun _ => Along.fail _
  | ok _ => exact Along.ret _

theorem replaceOrder_keepsFills (env : Env) (id : String) (quantity : Int) (limit : Option Int) :
    Along KeepsFills (replaceOrder env id quantity limit) := by
  refine (Along.require _ _).bind fun _ =>
    (onOrders_keepsFills (OrderBook.prepareReplace_netFilled _ _ _)).bind fun _ =>
    Along.bind callBroker_keepsFills fun answer => ?_
  cases answer with
  | error message =>
    exact (onOrders_keepsFills (OrderBook.transition_netFilled _ _)).bind fun _ => Along.fail _
  | ok _ => exact Along.ret _

theorem applyBrokerEvent_keepsFills {event : BrokerEvent}
    (h : ∀ id quantity price, event ≠ .filled id quantity price) :
    Along KeepsFills (applyBrokerEvent event) := by
  have horders : Along KeepsFills
      (onOrders EngineError.transition (OrderBook.applyBrokerEvent event)) :=
    onOrders_keepsFills (OrderBook.applyBrokerEvent_netFilled h)
  refine (Along.reads _).bind fun r => ?_
  cases event with
  | filled => exact absurd rfl (h _ _ _)
  | acknowledged => exact horders
  | rejected => exact horders
  | cancelled => exact horders

-- One event

variable {r : Runtime} {orderId : String} {record : OrderRecord} {ticks price : Int}

/-- A fill that is tried successfully moves the position of its order. -/
theorem fillTrial_quantity (orderId : String) (hticks : 0 < ticks)
    (hok : (r.fillTrial record orderId ticks price).1.isOk) (i : InstrumentId) :
    (r.fillTrial record orderId ticks price).2.quantity i =
      r.portfolio.quantity i + ((record.addFill ticks).filledIn i - record.filledIn i) := by
  unfold fillTrial at hok ⊢
  dsimp only at hok ⊢
  cases htrial : Portfolio.applyFill (fillRecord record orderId ticks price).instrumentId
      (fillRecord record orderId ticks price).signedQuantityTicks price 0 r.portfolio with
  | mk outcome p =>
    rw [htrial] at hok
    cases outcome with
    | error e => cases hok
    | ok entry =>
      have hquantity := Portfolio.applyFill_quantity htrial i
      have hneg : saturatingNeg 64 ticks = -ticks := by
        unfold saturatingNeg
        rw [if_neg (by omega)]
      simp only [fillRecord, hneg] at hquantity
      rw [hquantity, OrderRecord.filledIn, OrderRecord.filledIn, OrderRecord.signedFilledTicks,
        OrderRecord.signedFilledTicks, OrderRecord.addFill]
      by_cases hi : record.intent.instrumentId = i
      · by_cases hside : record.intent.side = .buy
        · simp [hi, hside]
        · simp [hi, hside]
      · simp [hi, Ne.symm hi]

/-- Writing back the record that is there changes no filled quantity. -/
theorem netFilled_put_same (hget : r.orders.get orderId = some record) (i : InstrumentId) :
    (r.orders.put orderId record).netFilled i = r.orders.netFilled i := by
  have hput := r.orders.netFilled_put orderId record i
  rw [hget] at hput
  exact add_right_cancel hput

/-- A fill at an open order keeps the agreement unless it splits. -/
theorem applyBrokerEvent_agrees_of_open {start : Portfolio} (h : AgreesSince start r)
    (hget : r.orders.get orderId = some record) (hopen : record.state ≠ .filled) :
    AgreesSince start (applyBrokerEvent (.filled orderId ticks price) r).2 ↔
      ¬r.SplitsFill (.filled orderId ticks price) := by
  rw [applyBrokerEvent_of_open hget hopen]
  dsimp only
  cases htrial : (r.fillTrial record orderId ticks price).1 with
  | error e =>
    -- accounting refuses: nothing is written
    refine ⟨fun _ => ?_, fun _ => h⟩
    rintro ⟨record', hget', -, hok, -⟩
    cases hget.symm.trans hget'
    rw [htrial] at hok
    cases hok
  | ok entry =>
    have hok : (r.fillTrial record orderId ticks price).1.isOk := by rw [htrial]; rfl
    by_cases htakes : record.TakesFill ticks price
    · have hquantity := fillTrial_quantity orderId htakes.quantity_pos hok
      rw [OrderRecord.applyBrokerEvent_of_takesFill htakes]
      by_cases hlegal : legalTransition record.state (record.fillState ticks) = true
      · -- both are written
        rw [if_pos hlegal]
        refine ⟨fun _ => ?_, fun _ i => ?_⟩
        · rintro ⟨record', hget', -, -, hillegal⟩
          cases hget.symm.trans hget'
          rw [hlegal] at hillegal
          cases hillegal
        · have hput := r.orders.netFilled_put orderId
            ((record.addFill ticks).setState (record.fillState ticks)) i
          have hstate : ((record.addFill ticks).setState (record.fillState ticks)).filledIn i =
              (record.addFill ticks).filledIn i := rfl
          rw [hget, hstate] at hput
          have hi := h i
          have hq := hquantity i
          show (r.fillTrial record orderId ticks price).2.quantity i - start.quantity i =
            (r.orders.put orderId ((record.addFill ticks).setState
              (record.fillState ticks))).netFilled i
          dsimp only [Option.elim_some] at hput
          omega
      · -- only the book is written
        rw [if_neg hlegal]
        refine ⟨fun hagrees => ?_, fun hsplit => absurd ?_ hsplit⟩
        · have hput := r.orders.netFilled_put orderId (record.addFill ticks)
            record.intent.instrumentId
          have hi := h record.intent.instrumentId
          have hi' : r.portfolio.quantity record.intent.instrumentId -
              start.quantity record.intent.instrumentId =
              (r.orders.put orderId (record.addFill ticks)).netFilled record.intent.instrumentId :=
            hagrees record.intent.instrumentId
          have hne := record.filledIn_addFill_ne htakes.quantity_pos
          rw [hget, Option.elim_some] at hput
          omega
        · exact ⟨record, hget, htakes, hok, by simpa using hlegal⟩
    · -- the record refuses before it writes
      obtain ⟨hfilled, hkeep⟩ := OrderRecord.applyBrokerEvent_of_not_takesFill orderId htakes
      refine ⟨fun _ => ?_, fun _ => ?_⟩
      · rintro ⟨record', hget', htakes', -, -⟩
        cases hget.symm.trans hget'
        exact htakes htakes'
      · cases hevent : (OrderRecord.applyBrokerEvent (.filled orderId ticks price) record).1 with
        | ok u => exact absurd (hfilled hevent) hopen
        | error e =>
          intro i
          rw [hkeep]
          exact (h i).trans (netFilled_put_same hget i).symm

/-- **One event**: it keeps the agreement exactly when it does not split a fill. -/
theorem applyBrokerEvent_agrees_iff {start : Portfolio} (h : AgreesSince start r)
    (event : BrokerEvent) :
    AgreesSince start (applyBrokerEvent event r).2 ↔ ¬r.SplitsFill event := by
  have hother : (∀ id quantity price, event ≠ .filled id quantity price) →
      AgreesSince start (applyBrokerEvent event r).2 := fun hne =>
    (applyBrokerEvent_keepsFills hne r).agreesSince_iff.mpr h
  cases event with
  | filled orderId ticks price =>
    cases hget : r.orders.get orderId with
    | none =>
      rw [applyBrokerEvent_of_unknown hget]
      refine ⟨fun _ => ?_, fun _ => h⟩
      rintro ⟨record, hget', -⟩
      cases hget.symm.trans hget'
    | some record =>
      by_cases hfilled : record.state = .filled
      · rw [applyBrokerEvent_of_filled hget hfilled]
        refine ⟨fun _ => ?_, fun _ i => (h i).trans (netFilled_put_same hget i).symm⟩
        rintro ⟨record', hget', htakes, -⟩
        cases hget.symm.trans hget'
        exact htakes.unfilled hfilled
      · exact applyBrokerEvent_agrees_of_open h hget hfilled
  | acknowledged => exact iff_of_true (hother (fun _ _ _ hne => by cases hne)) (fun hs => hs)
  | rejected => exact iff_of_true (hother (fun _ _ _ hne => by cases hne)) (fun hs => hs)
  | cancelled => exact iff_of_true (hother (fun _ _ _ hne => by cases hne)) (fun hs => hs)

end Runtime

/-- A call that delivers a fill the book would keep and refuse. -/
def OrderOp.SplitsFill (r : Runtime) : OrderOp → Prop
  | .applyBrokerEvent event => r.SplitsFill event
  | _ => False

instance (r : Runtime) : (op : OrderOp) → Decidable (op.SplitsFill r)
  | .applyBrokerEvent event => inferInstanceAs (Decidable (r.SplitsFill event))
  | .submitIntent _ => inferInstanceAs (Decidable False)
  | .submitProposal _ _ _ => inferInstanceAs (Decidable False)
  | .cancelOrder _ => inferInstanceAs (Decidable False)
  | .replaceOrder _ _ _ => inferInstanceAs (Decidable False)

/-- **One call**: it keeps the agreement exactly when it does not split a fill. -/
theorem OrderOp.after_agrees_iff {start : Portfolio} {r : Runtime}
    (h : Runtime.AgreesSince start r) (env : Env) (op : OrderOp) :
    Runtime.AgreesSince start (op.after env r) ↔ ¬op.SplitsFill r := by
  cases op with
  | applyBrokerEvent event => exact Runtime.applyBrokerEvent_agrees_iff h event
  | submitIntent intent =>
    exact iff_of_true ((Runtime.submitIntent_keepsFills env intent r).agreesSince_iff.mpr h)
      (fun hs => hs)
  | submitProposal proposal now traceId =>
    have hkeep := (Runtime.submitProposal_keepsFills env proposal now traceId).discard r
    exact iff_of_true (hkeep.agreesSince_iff.mpr h) (fun hs => hs)
  | cancelOrder id =>
    exact iff_of_true ((Runtime.cancelOrder_keepsFills env id r).agreesSince_iff.mpr h)
      (fun hs => hs)
  | replaceOrder id quantity limit =>
    have hkeep := Runtime.replaceOrder_keepsFills env id quantity limit r
    exact iff_of_true (hkeep.agreesSince_iff.mpr h) (fun hs => hs)

theorem runtimesFrom_agree_iff {start : Portfolio} {r : Runtime} {run : List (Env × OrderOp)}
    (h : r.AgreesSince start) :
    (∀ s ∈ runtimesFrom r run, s.AgreesSince start) ↔
      ∀ call ∈ orderCallsFrom r run, ¬call.2.SplitsFill call.1 := by
  induction run generalizing r with
  | nil => simp [runtimesFrom, orderCallsFrom, h]
  | cons step run ih =>
    obtain ⟨env, op⟩ := step
    have hstep := op.after_agrees_iff h env
    simp only [runtimesFrom, orderCallsFrom, List.forall_mem_cons, h, true_and]
    constructor
    · intro hall
      have hafter : Runtime.AgreesSince start (op.after env r) := by
        apply hall
        cases run <;> simp [runtimesFrom]
      exact ⟨hstep.mp hafter, (ih hafter).mp hall⟩
    · rintro ⟨hcall, hrest⟩
      exact (ih (hstep.mpr hcall)).mpr hrest

/-- **Orders and positions agree**: from an empty book the positions move by what the orders
fill, in all states of a run exactly when no call of it splits a fill. -/
theorem fills_agree_iff {start : Runtime} (hempty : start.orders = OrderBook.new)
    (run : List (Env × OrderOp)) :
    (∀ r ∈ runtimesFrom start run, r.AgreesSince start.portfolio) ↔
      ∀ call ∈ orderCallsFrom start run, ¬call.2.SplitsFill call.1 := by
  have hstart : start.AgreesSince start.portfolio := by
    intro i
    rw [hempty, OrderBook.netFilled_new]
    omega
  exact runtimesFrom_agree_iff hstart

namespace Sample

/-- A runtime without orders, flat in instrument 7. -/
def flat : Runtime := Runtime.new settings.accountId settings.portfolio settings.risk

/-- A purchase of 10 of instrument 7. -/
def purchase : OrderIntent where
  intentId := "i-1"
  accountId := 1
  instrumentId := 7
  clientOrderId := "o-1"
  side := .buy
  quantityTicks := 10
  orderType := .market
  limitPriceTicks := none
  timeInForce := .day
  state := .riskApproved
  traceId := 3

/-- The purchase is sent and acknowledged. -/
def acknowledgedPurchase : List (Env × OrderOp) :=
  [(env empty, .submitIntent purchase), (env empty, .applyBrokerEvent (.acknowledged "o-1" "b-1"))]

/-- A fill of 4 of the purchase. -/
def partialFill : Env × OrderOp := (env empty, .applyBrokerEvent (.filled "o-1" 4 100))

end Sample

/-- A partial fill of a working order. -/
theorem fills_agree_working :
    (runtimesFrom Sample.flat (Sample.acknowledgedPurchase ++ [Sample.partialFill])).Forall
      (Runtime.AgreesSince Sample.flat.portfolio) := by
  refine List.forall_iff_forall_mem.mpr ((fills_agree_iff rfl _).mpr ?_)
  decide

/-- **A partial fill of an order that is being cancelled splits**: the order has filled 4, the
position is still 0. -/
theorem fills_disagree_cancelPending :
    ¬∀ r ∈ runtimesFrom Sample.flat (Sample.acknowledgedPurchase ++
        [(Sample.env Sample.empty, .cancelOrder "o-1"), Sample.partialFill]),
      r.AgreesSince Sample.flat.portfolio := by
  have hrun : ∃ r ∈ runtimesFrom Sample.flat (Sample.acknowledgedPurchase ++
        [(Sample.env Sample.empty, .cancelOrder "o-1"), Sample.partialFill]),
      r.portfolio.quantity 7 - Sample.flat.portfolio.quantity 7 ≠ r.orders.netFilled 7 := by
    decide
  intro hagrees
  obtain ⟨r, hr, hne⟩ := hrun
  exact hne (hagrees r hr 7)

end InsiderTrader
