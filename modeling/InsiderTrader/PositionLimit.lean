import InsiderTrader.Outstanding
import InsiderTrader.SubmissionMoves

/-!
# The position limit and outstanding orders

The risk check holds a target against the position at planning time. What the
orders sent before may still fill is not in that position, so that several
orders, each within the limit, can carry a position past it together; and the
capped step of a reduction can lead past it alone.

## Main definitions

- `RuntimeOp` — the calls of a runtime that leave the limits and trade by fills
- `Runtime.Room` — the position stays within the limit, whatever is filled
- `RuntimeOp.Overcommits` — a call that takes the room

## Main results

- `RuntimeOp.after_room` — one call keeps the room
- `position_within_limit` — the runs in which the limit holds
-/

namespace InsiderTrader

open MachineInt Fallible

-- The calls

/-- A call of a runtime that leaves the limits and moves positions by fills only. -/
inductive RuntimeOp where
  | order (op : OrderOp)
  | updateMarkPrice (instrumentId : InstrumentId) (priceTicks : Int)
  | transitionRiskState (next : RiskState) (authorization : String)
  | setGuardrails (guardrails : Guardrails)
  | configureLiveLimits (limits : LiveLimits)
  | armLive (account : String) (now : MonoTime) (phrase : String)
  | confirmLive (account token : String) (now : MonoTime) (phrase : String)
  | killLive

namespace RuntimeOp

/-- One call. -/
def run (env : Env) : RuntimeOp → Fallible Runtime EngineError Unit
  | .order op => op.run env
  | .updateMarkPrice instrumentId price => Runtime.updateMarkPrice instrumentId price
  | .transitionRiskState next authorization => Runtime.transitionRiskState next authorization
  | .setGuardrails guardrails => Runtime.setGuardrails guardrails
  | .configureLiveLimits limits => Runtime.configureLiveLimits limits
  | .armLive account now phrase =>
    Fallible.discard (Runtime.onLiveGuard (LiveGuard.armLive account now phrase))
  | .confirmLive account token now phrase =>
    Runtime.onLiveGuard (LiveGuard.confirmLive account token now phrase)
  | .killLive => Runtime.killLive

/-- The runtime after a call, whether it returned a value or an error. -/
def after (call : Env × RuntimeOp) (r : Runtime) : Runtime := (call.2.run call.1 r).2

/-- Orders are planned, under the limit of the instrument. -/
def Governed (start : Runtime) (i : InstrumentId) (limit : Int) : RuntimeOp → Prop
  | .order (.submitProposal proposal now _) =>
    (start.effectiveRisk (some proposal.strategyId) i now).limits.maxPositionTicks = limit
  | .order (.submitIntent _) => False
  | _ => True

end RuntimeOp

namespace Runtime

-- Calls that add nothing

/-- The limits stay. -/
abbrev SameLimits : Runtime → Runtime → Prop :=
  Same fun r => (r.accountId, r.risk.limits, r.scopedRiskPolicy)

theorem effectiveRisk_limits {r r' : Runtime} (h : SameLimits r r') (strategyId : Option String)
    (i : InstrumentId) (now : MonoTime) :
    (r'.effectiveRisk strategyId i now).limits = (r.effectiveRisk strategyId i now).limits := by
  obtain ⟨haccount, hlimits, hpolicy⟩ : r'.accountId = r.accountId ∧
      r'.risk.limits = r.risk.limits ∧ r'.scopedRiskPolicy = r.scopedRiskPolicy := by
    simpa [SameLimits, Same] using h
  unfold effectiveRisk
  rw [haccount, hpolicy]
  cases r.scopedRiskPolicy with
  | none => exact hlimits
  | some policy => rfl

/-- The limits stay, no position moves and no order may fill more than before. -/
structure Recedes (r r' : Runtime) : Prop where
  limits : SameLimits r r'
  positions : r'.portfolio.quantity = r.portfolio.quantity
  orders : r.orders.Shrinks r'.orders

instance : Std.Refl Recedes := ⟨fun _ => ⟨rfl, rfl, Std.Refl.refl _⟩⟩

instance : IsTrans Runtime Recedes := ⟨fun _ _ _ h h' =>
  ⟨h'.limits.trans h.limits, h'.positions.trans h.positions,
    IsTrans.trans _ _ _ h.orders h'.orders⟩⟩

theorem onOrders_recedes {ε α : Type} {wrap : ε → EngineError} {p : Fallible OrderBook ε α}
    (hp : Along OrderBook.Shrinks p) : Along Recedes (onOrders wrap p) :=
  hp.zoom fun _ _ hshrinks => ⟨rfl, rfl, hshrinks⟩

theorem callBroker_recedes {α : Type} {c : BrokerCall}
    {answer : List BrokerCall → Except String α} : Along Recedes (callBroker c answer) :=
  (Along.reads _).bind fun _ =>
    Along.bind (Along.modify fun _ => ⟨rfl, rfl, Std.Refl.refl _⟩) fun _ => Along.ret _

theorem onLiveGuard_recedes {α : Type} (p : Fallible LiveGuard LiveGuardError α) :
    Along Recedes (onLiveGuard p) :=
  fun _ => ⟨rfl, rfl, Std.Refl.refl _⟩

theorem cancelOrder_recedes (env : Env) (id : String) : Along Recedes (cancelOrder env id) := by
  have hstep : ∀ next, Along Recedes (onOrders (fun e => EngineError.cancel (.transition e))
      (OrderBook.transition id next)) := fun next =>
    onOrders_recedes (OrderBook.onRecord_shrinks (OrderRecord.transition_shrinks next))
  refine (Along.require _ _).bind fun _ => (hstep _).bind fun _ =>
    Along.bind callBroker_recedes fun answer => ?_
  cases answer with
  | error message => exact (hstep _).bind fun _ => Along.fail _
  | ok _ => exact Along.ret _

theorem prepareProposal_recedes {env : Env} {proposal : Proposal} {now : MonoTime}
    {traceId : TraceId} : Along Recedes (prepareProposal env proposal now traceId) := by
  intro r
  have hgate : r.SameGate (prepareProposal env proposal now traceId r).2 :=
    prepareProposal_sameGate r
  have hkeeps : Same (fun r : Runtime => (r.orders, r.portfolio)) r
      (prepareProposal env proposal now traceId r).2 := prepareProposal_keeps r
  have horders : (prepareProposal env proposal now traceId r).2.orders = r.orders :=
    congrArg Prod.fst hkeeps
  refine ⟨?_, congrArg Portfolio.quantity hgate.portfolio, ?_⟩
  · show (_, _, _) = (_, _, _)
    rw [hgate.accountId, hgate.risk, hgate.scopedRiskPolicy]
  · rw [horders]
    exact Std.Refl.refl _

/-- An event that is no fill adds nothing. -/
theorem applyBrokerEvent_recedes {event : BrokerEvent}
    (h : ∀ id quantity price, event ≠ .filled id quantity price) :
    Along Recedes (applyBrokerEvent event) := by
  have horders : Along Recedes (onOrders EngineError.transition (OrderBook.applyBrokerEvent event)) :=
    onOrders_recedes (OrderBook.onRecord_shrinks (OrderRecord.applyBrokerEvent_shrinks h))
  refine (Along.reads _).bind fun r => ?_
  cases event with
  | filled => exact absurd rfl (h _ _ _)
  | acknowledged => exact horders
  | rejected => exact horders
  | cancelled => exact horders

/-- A mark moves no position. -/
theorem updateMarkPrice_recedes (i : InstrumentId) (price : Int) :
    Along Recedes (updateMarkPrice i price) := by
  have hmark : Along (Same Portfolio.quantity) (Portfolio.setMarkPrice i price) := by
    refine Along.ite (fun _ => Along.fail _) fun _ => Along.modify fun p => ?_
    funext j
    simp only [Portfolio.quantity, Portfolio.position, Portfolio.recordEquityPeak_positions]
    cases hposition : p.positions[i]? with
    | none => rfl
    | some position =>
      by_cases hj : i = j
      · subst hj
        simp [hposition]
      · have hcmp : compare i j ≠ .eq := fun heq => hj (Std.LawfulEqCmp.eq_of_compare heq)
        simp [Std.TreeMap.getElem?_insert, hcmp]
  exact hmark.zoom fun _ _ hquantity => ⟨rfl, hquantity, Std.Refl.refl _⟩

theorem transitionRiskState_recedes (next : RiskState) (authorization : String) :
    Along Recedes (transitionRiskState next authorization) :=
  (Along.reads _).bind fun _ => (Along.ofExcept _).bind fun _ =>
    Along.modify fun _ => ⟨rfl, rfl, Std.Refl.refl _⟩

theorem configureLiveLimits_recedes (limits : LiveLimits) :
    Along Recedes (configureLiveLimits limits) :=
  (Along.reads _).bind fun _ => (Along.require _ _).bind fun _ =>
    Along.modify fun _ => ⟨rfl, rfl, Std.Refl.refl _⟩

-- The room under the limit

/-- Under unchanged limits, the position stays within the limit whatever the orders of either
side fill. -/
structure Room (start : Runtime) (i : InstrumentId) (limit : Int) (r : Runtime) : Prop where
  limits : SameLimits start r
  within : r.orders.Within
  buys : r.portfolio.quantity i + r.orders.outstanding i .buy ≤ limit
  sells : -limit ≤ r.portfolio.quantity i - r.orders.outstanding i .sell

variable {start r r' : Runtime} {i : InstrumentId} {limit : Int}

theorem Room.position (h : Room start i limit r) :
    ((r.portfolio.quantity i).natAbs : Int) ≤ limit := by
  have hbuys := h.buys
  have hsells := h.sells
  have hbuy := OrderBook.outstanding_nonneg h.within i .buy
  have hsell := OrderBook.outstanding_nonneg h.within i .sell
  omega

theorem Room.recedes (h : Room start i limit r) (hr : Recedes r r') : Room start i limit r' := by
  obtain ⟨hwithin, hle⟩ := hr.orders h.within
  have hbuys := h.buys
  have hsells := h.sells
  have hbuy := hle i .buy
  have hsell := hle i .sell
  refine ⟨hr.limits.trans h.limits, hwithin, ?_, ?_⟩
  · rw [hr.positions]
    omega
  · rw [hr.positions]
    omega

-- Fills

variable {orderId : String} {record : OrderRecord} {ticks price : Int}

/-- A fill moves the position and what its order may still fill against each other. -/
theorem Room.fill (h : Room start i limit r) (hget : r.orders.get orderId = some record)
    (htakes : record.TakesFill ticks price)
    (hlegal : legalTransition record.state (record.fillState ticks) = true)
    (hok : (r.fillTrial record orderId ticks price).1.isOk) :
    Room start i limit (pushFill { r with
      orders := r.orders.put orderId ((record.addFill ticks).setState (record.fillState ticks))
      portfolio := (r.fillTrial record orderId ticks price).2 }
      (fillRecord record orderId ticks price)) := by
  have hticks := htakes.quantity_pos
  have hwithin := (h.within orderId record hget).addFill htakes
  have hquantity := fillTrial_quantity orderId hticks hok i
  have hmoved : (record.addFill ticks).filledIn i - record.filledIn i =
      if record.intent.instrumentId = i then
        if record.intent.side = .buy then ticks else -ticks
      else 0 := by
    unfold OrderRecord.filledIn OrderRecord.signedFilledTicks OrderRecord.addFill
    dsimp only
    split
    · split <;> omega
    · omega
  rw [hmoved] at hquantity
  have hput : ∀ side, (r.orders.put orderId
      ((record.addFill ticks).setState (record.fillState ticks))).outstanding i side =
      r.orders.outstanding i side -
        if record.intent.instrumentId = i ∧ record.intent.side = side then ticks else 0 := by
    intro side
    have hput := r.orders.outstanding_put orderId
      ((record.addFill ticks).setState (record.fillState ticks)) i side
    rw [hget, Option.elim_some, OrderRecord.unfilledIn_fill htakes hlegal] at hput
    omega
  have hbuys := h.buys
  have hsells := h.sells
  have hrecord : ((record.addFill ticks).setState (record.fillState ticks)).Within :=
    ⟨hwithin.filled_nonneg, hwithin.filled_le⟩
  refine ⟨h.limits, h.within.put hrecord orderId, ?_, ?_⟩
  · change (r.fillTrial record orderId ticks price).2.quantity i + (r.orders.put orderId
      ((record.addFill ticks).setState (record.fillState ticks))).outstanding i .buy ≤ limit
    rw [hquantity, hput]
    by_cases hi : record.intent.instrumentId = i
    · by_cases hside : record.intent.side = .buy
      · rw [if_pos hi, if_pos hside, if_pos ⟨hi, hside⟩]
        omega
      · rw [if_pos hi, if_neg hside, if_neg fun hboth => hside hboth.2]
        omega
    · rw [if_neg hi, if_neg fun hboth => hi hboth.1]
      omega
  · change -limit ≤ (r.fillTrial record orderId ticks price).2.quantity i - (r.orders.put orderId
      ((record.addFill ticks).setState (record.fillState ticks))).outstanding i .sell
    rw [hquantity, hput]
    by_cases hi : record.intent.instrumentId = i
    · cases hside : record.intent.side with
      | buy =>
        rw [if_pos hi, if_pos rfl, if_neg (by simp)]
        omega
      | sell =>
        rw [if_pos hi, if_neg (by simp), if_pos ⟨hi, rfl⟩]
        omega
    · rw [if_neg hi, if_neg fun hboth => hi hboth.1]
      omega

/-- **An event** keeps the room: what is filled was outstanding. -/
theorem Room.applyBrokerEvent (h : Room start i limit r) (event : BrokerEvent) :
    Room start i limit (applyBrokerEvent event r).2 := by
  have hother : (∀ id quantity price, event ≠ .filled id quantity price) →
      Room start i limit (Runtime.applyBrokerEvent event r).2 := fun hne =>
    h.recedes (applyBrokerEvent_recedes hne r)
  have hkeep : ∀ {orderId record record'}, r.orders.get orderId = some record →
      record.Shrinks record' →
      Room start i limit { r with orders := r.orders.put orderId record' } := by
    intro orderId record record' hget hshrinks
    exact h.recedes ⟨rfl, rfl, OrderBook.put_shrinks hget hshrinks⟩
  cases event with
  | acknowledged => exact hother fun _ _ _ hne => by cases hne
  | rejected => exact hother fun _ _ _ hne => by cases hne
  | cancelled => exact hother fun _ _ _ hne => by cases hne
  | filled orderId ticks price =>
    cases hget : r.orders.get orderId with
    | none =>
      rw [applyBrokerEvent_of_unknown hget]
      exact h
    | some record =>
      by_cases hfilled : record.state = .filled
      · rw [applyBrokerEvent_of_filled hget hfilled]
        exact hkeep hget (Std.Refl.refl _)
      · rw [applyBrokerEvent_of_open hget hfilled]
        dsimp only
        cases htrial : (r.fillTrial record orderId ticks price).1 with
        | error e => exact h
        | ok entry =>
          by_cases htakes : record.TakesFill ticks price
          · rw [OrderRecord.applyBrokerEvent_of_takesFill htakes]
            by_cases hlegal : legalTransition record.state (record.fillState ticks) = true
            · rw [if_pos hlegal]
              exact h.fill hget htakes hlegal (by rw [htrial]; rfl)
            · -- the book keeps a fill that it refuses
              rw [if_neg hlegal]
              exact hkeep hget (OrderRecord.addFill_shrinks htakes)
          · obtain ⟨hok, hsame⟩ := OrderRecord.applyBrokerEvent_of_not_takesFill orderId htakes
            cases hevent : (OrderRecord.applyBrokerEvent (.filled orderId ticks price) record).1 with
            | ok u => exact absurd (hok hevent) hfilled
            | error e =>
              dsimp only
              rw [hsame]
              exact hkeep hget (Std.Refl.refl _)

-- Submissions

variable {env : Env} {proposal : Proposal} {now : MonoTime} {traceId : TraceId}
  {intent : OrderIntent}

/-- A planned order closes the distance to a quantity that is accepted for the target. -/
theorem prepareProposal_deltaIntent
    (h : prepareProposal env proposal now traceId r = (.ok intent, r')) :
    ∃ target safe, r.portfolio.targetFromProposal env.float proposal = .ok target ∧
      (Request.risk ⟨some proposal.strategyId, target, now⟩ r).Accepts r.portfolio target safe ∧
      intent = deltaIntent r.accountId traceId target
        (safe - r.portfolio.quantity target.instrumentId)
        (safe - r.portfolio.quantity target.instrumentId).natAbs ∧
      safe ≠ r.portfolio.quantity target.instrumentId := by
  obtain ⟨_, -, h⟩ := ofExcept_bind_eq_ok h
  rw [reads_bind] at h
  obtain ⟨target, htarget, h⟩ := ofExcept_bind_eq_ok h
  rw [planTarget, reads_bind] at h
  obtain ⟨inputs, _, -, h⟩ := bind_eq_ok h
  rw [ofExcept_apply, Prod.mk.injEq, mapError_eq_ok] at h
  obtain ⟨safe, delta, haccepts, rfl, hne, -, rfl⟩ := planTargetWithGuardrails_eq_ok h.1
  exact ⟨target, safe, mapError_eq_ok.mp htarget, haccepts, rfl, fun heq =>
    hne (Int.sub_eq_zero.mpr heq)⟩

/-- A quantity that, with what is outstanding on its side, passes the limit, although orders are
outstanding there or the capped step leads away from the target. -/
def OvercommitsAt (r : Runtime) (limit : Int) (q : Request) (safe : Int) : Prop :=
  q.position r < safe ∧ limit < safe + r.orders.outstanding q.target.instrumentId .buy ∧
      (0 < r.orders.outstanding q.target.instrumentId .buy ∨
        RiskEngine.Misdirects (q.risk r).limits r.portfolio q.target) ∨
    safe < q.position r ∧ safe - r.orders.outstanding q.target.instrumentId .sell < -limit ∧
      (0 < r.orders.outstanding q.target.instrumentId .sell ∨
        RiskEngine.Misdirects (q.risk r).limits r.portfolio q.target)

instance (limits : Limits) (p : Portfolio) (target : Target) :
    Decidable (RiskEngine.Misdirects limits p target) :=
  inferInstanceAs (Decidable (_ ∧ _ ∧ _ ∧ _ ∧ ∃ price ∈ p.valuationPrice target.instrumentId, _))

instance (r : Runtime) (limit : Int) (q : Request) (safe : Int) :
    Decidable (r.OvercommitsAt limit q safe) :=
  inferInstanceAs (Decidable (_ ∧ _ ∧ _ ∨ _ ∧ _ ∧ _))

/-- A request that is accepted at such a quantity. -/
def Overcommits (r : Runtime) (limit : Int) (q : Request) : Prop :=
  ∃ safe, (q.risk r).Accepts r.portfolio q.target safe ∧ r.OvercommitsAt limit q safe

instance (r : Runtime) (limit : Int) (q : Request) : Decidable (r.Overcommits limit q) :=
  match hcheck : (q.risk r).check r.portfolio q.target with
  | .allow => decidable_of_iff (r.OvercommitsAt limit q q.target.quantityTicks)
      ⟨fun hover => ⟨_, .inl ⟨hcheck, rfl⟩, hover⟩, by
        rintro ⟨safe, ⟨-, rfl⟩ | hresize, hover⟩
        · exact hover
        · rw [hcheck] at hresize
          cases hresize⟩
  | .resize quantity => decidable_of_iff (r.OvercommitsAt limit q quantity)
      ⟨fun hover => ⟨_, .inr hcheck, hover⟩, by
        rintro ⟨safe, ⟨hallow, -⟩ | hresize, hover⟩
        · rw [hcheck] at hallow
          cases hallow
        · rw [hcheck] at hresize
          cases hresize
          exact hover⟩
  | .deny reason => isFalse (by
      rintro ⟨safe, ⟨hallow, -⟩ | hresize, -⟩
      · rw [hcheck] at hallow
        cases hallow
      · rw [hcheck] at hresize
        cases hresize)

/-- **The risk check gives room**, but to the overcommitted requests. -/
theorem Room.of_accepts {q : Request} (h : Room start i limit r) (hi : q.target.instrumentId = i)
    (hlimit : (q.risk r).limits.maxPositionTicks = limit) (hgood : ¬r.Overcommits limit q) {safe : Int}
    (haccepts : (q.risk r).Accepts r.portfolio q.target safe) :
    (q.position r < safe → safe + r.orders.outstanding i .buy ≤ limit) ∧
      (safe < q.position r → -limit ≤ safe - r.orders.outstanding i .sell) := by
  subst hi
  have hbuy := OrderBook.outstanding_nonneg h.within q.target.instrumentId .buy
  have hsell := OrderBook.outstanding_nonneg h.within q.target.instrumentId .sell
  have hpasses := RiskEngine.accepts_iff_passes.mp haccepts
  have hpositive := hpasses.limits
  -- without a misdirected step the quantity lies between the position and the clamped target
  have hbetween : ¬RiskEngine.Misdirects (q.risk r).limits r.portfolio q.target →
      q.position r < safe ∧ safe ≤ limit ∨ safe ≤ q.position r ∧ -limit ≤ safe ∨
        safe = q.position r := by
    intro hdir
    have hbetween := (hpasses.contained hdir).between
    have hposition := h.position
    dsimp only at hbetween
    unfold RiskEngine.clampedTarget at hbetween
    rw [hlimit] at hbetween
    unfold Request.position
    omega
  constructor
  · intro hbuys
    by_contra hover
    refine hgood ⟨safe, haccepts, .inl ⟨hbuys, by omega, ?_⟩⟩
    by_contra hneither
    obtain ⟨hnone, hdir⟩ := not_or.mp hneither
    have hsafe := hbetween hdir
    omega
  · intro hsells
    by_contra hover
    refine hgood ⟨safe, haccepts, .inr ⟨hsells, by omega, ?_⟩⟩
    by_contra hneither
    obtain ⟨hnone, hdir⟩ := not_or.mp hneither
    have hsafe := hbetween hdir
    omega

/-- A sent order adds its quantity to what is outstanding on its side. -/
theorem Room.send (h : Room start i limit r) (hfresh : r.orders.get intent.clientOrderId = none)
    (hquantity : 0 ≤ intent.quantityTicks) {state : OrderState} (hopen : state.terminal = false)
    {book : OrderBook} {trace : List Effect}
    (hbook : ∀ id, book.get id = if intent.clientOrderId = id then
      some ⟨{ intent with state := state }, none, 0⟩ else r.orders.get id)
    (hbuys : intent.instrumentId = i → intent.side = .buy →
      r.portfolio.quantity i + r.orders.outstanding i .buy + intent.quantityTicks ≤ limit)
    (hsells : intent.instrumentId = i → intent.side = .sell →
      -limit ≤ r.portfolio.quantity i - r.orders.outstanding i .sell - intent.quantityTicks) :
    Room start i limit { r with orders := book, trace := trace } := by
  have hrecord : (⟨{ intent with state := state }, none, 0⟩ : OrderRecord).Within :=
    ⟨le_rfl, hquantity⟩
  have hsame : (r.orders.put intent.clientOrderId
      ⟨{ intent with state := state }, none, 0⟩).SameRecords book := fun id => by
    rw [hbook, OrderBook.get_put]
  have hadded : ∀ side, book.outstanding i side = r.orders.outstanding i side +
      if intent.instrumentId = i ∧ intent.side = side then intent.quantityTicks else 0 := by
    intro side
    have hput := r.orders.outstanding_put intent.clientOrderId
      ⟨{ intent with state := state }, none, 0⟩ i side
    have hunfilled : (⟨{ intent with state := state }, none, 0⟩ : OrderRecord).unfilledIn i side =
        if intent.instrumentId = i ∧ intent.side = side then intent.quantityTicks else 0 := by
      unfold OrderRecord.unfilledIn OrderRecord.unfilledTicks
      dsimp only [OrderRecord.state]
      rw [hopen, if_neg Bool.false_ne_true, Int.sub_zero]
    rw [hfresh, Option.elim_none, hunfilled] at hput
    rw [OrderBook.outstanding_congr hsame]
    omega
  have hroomBuys := h.buys
  have hroomSells := h.sells
  refine ⟨h.limits, (OrderBook.within_congr hsame).mpr (h.within.put hrecord _), ?_, ?_⟩
  · change r.portfolio.quantity i + book.outstanding i .buy ≤ limit
    rw [hadded]
    split
    · next hboth =>
      have := hbuys hboth.1 hboth.2
      omega
    · omega
  · change -limit ≤ r.portfolio.quantity i - book.outstanding i .sell
    rw [hadded]
    split
    · next hboth =>
      have := hsells hboth.1 hboth.2
      omega
    · omega

theorem sentState_open (answer : Except String Unit) : (sentState answer).terminal = false := by
  unfold sentState
  split <;> rfl

/-- **A submission** keeps the room, unless it overcommits under a new order id. -/
theorem Room.submitProposal (h : Room start i limit r)
    (hlimit : (start.effectiveRisk (some proposal.strategyId) i now).limits.maxPositionTicks = limit)
    (hgood : ∀ target, r.portfolio.targetFromProposal env.float proposal = .ok target →
      target.instrumentId = i → r.hasOrder (r.clientOrderIdForProposal target.proposalId) = false →
      ¬r.Overcommits limit ⟨some proposal.strategyId, target, now⟩) :
    Room start i limit (submitProposal env proposal now traceId r).2 := by
  have hplanned : Recedes r (prepareProposal env proposal now traceId r).2 :=
    prepareProposal_recedes r
  cases hplan : prepareProposal env proposal now traceId r with
  | mk outcome r₁ =>
    rw [hplan] at hplanned
    have hroom := h.recedes hplanned
    cases outcome with
    | error e =>
      rw [Runtime.submitProposal, bind_of_error hplan]
      exact hroom
    | ok intent =>
      obtain ⟨target, safe, htarget, haccepts, hintent, hne⟩ := prepareProposal_deltaIntent hplan
      have hrun : (Runtime.submitProposal env proposal now traceId r).2 =
          (submitIntent env intent r₁).2 := by
        rw [Runtime.submitProposal, bind_of_ok hplan, bind_pure_snd]
      have hkeeps : (r₁.orders, r₁.portfolio) = (r.orders, r.portfolio) :=
        prepareProposal_keeps.of_ok hplan
      obtain ⟨horders, hportfolio⟩ := Prod.mk.inj hkeeps
      rw [hrun]
      rcases submitIntent_cases env intent r₁ with hsame | ⟨hfresh, -, book, hsent, hbook⟩
      · rw [hsame]
        exact hroom
      · rw [hsent]
        have hside : intent.side =
            if 0 < safe - r.portfolio.quantity target.instrumentId then .buy else .sell := by
          rw [hintent]
          rfl
        have hquantity : intent.quantityTicks =
            (safe - r.portfolio.quantity target.instrumentId).natAbs := by
          rw [hintent]
          rfl
        have hroomFor : intent.instrumentId = i →
            (r.portfolio.quantity target.instrumentId < safe →
              safe + r.orders.outstanding i .buy ≤ limit) ∧
            (safe < r.portfolio.quantity target.instrumentId →
              -limit ≤ safe - r.orders.outstanding i .sell) := by
          intro hi
          have hinstrument : target.instrumentId = i := by
            rw [← hi, hintent]
            rfl
          have hnew : r.hasOrder (r.clientOrderIdForProposal target.proposalId) = false := by
            rw [hasOrder, ← horders]
            rw [hintent] at hfresh
            exact Option.isSome_eq_false_iff.mpr (Option.isNone_iff_eq_none.mpr hfresh)
          refine h.of_accepts (q := ⟨some proposal.strategyId, target, now⟩) hinstrument ?_
            (hgood target htarget hinstrument hnew) haccepts
          rw [Request.risk, hinstrument, effectiveRisk_limits h.limits]
          exact hlimit
        refine hroom.send hfresh (by omega) (sentState_open _) hbook ?_ ?_
        · intro hi hbuy
          rw [hside] at hbuy
          split at hbuy
          · next hpos =>
            have hroomBuys := (hroomFor hi).1 (by omega)
            have hinstrument : target.instrumentId = i := by
              rw [← hi, hintent]
              rfl
            rw [hinstrument] at hquantity hpos
            rw [horders, hportfolio]
            omega
          · cases hbuy
        · intro hi hsell
          rw [hside] at hsell
          split at hsell
          · cases hsell
          · next hpos =>
            have hroomSells := (hroomFor hi).2 (by omega)
            have hinstrument : target.instrumentId = i := by
              rw [← hi, hintent]
              rfl
            rw [hinstrument] at hquantity hpos
            rw [horders, hportfolio]
            omega

-- Replacements

theorem replaceOrder_sameLimits (env : Env) (id : String) (quantity : Int) (limit : Option Int) :
    Along SameLimits (replaceOrder env id quantity limit) := by
  have hbook : ∀ {ε : Type} {wrap : ε → EngineError} (p : Fallible OrderBook ε Unit),
      Along SameLimits (onOrders wrap p) := fun _ _ => rfl
  have hcall : ∀ {α : Type} (c : BrokerCall) (answer : List BrokerCall → Except String α),
      Along SameLimits (callBroker c answer) := fun _ _ _ => rfl
  refine (Along.require _ _).bind fun _ => (hbook _).bind fun _ => (hcall _ _).bind fun answer => ?_
  cases answer with
  | error message => exact (hbook _).bind fun _ => Along.fail _
  | ok _ => exact Along.ret _

/-- A replacement whose larger quantity passes the limit with what is outstanding on its side. -/
def OvercommitsReplacement (r : Runtime) (i : InstrumentId) (limit : Int) (id : String)
    (quantity : Int) : Prop :=
  ∃ record ∈ r.orders.get id, record.TakesReplace quantity ∧ record.intent.instrumentId = i ∧
    (record.intent.side = .buy ∧ limit < r.portfolio.quantity i + r.orders.outstanding i .buy +
        (quantity - record.intent.quantityTicks) ∨
      record.intent.side = .sell ∧ r.portfolio.quantity i - r.orders.outstanding i .sell -
        (quantity - record.intent.quantityTicks) < -limit)

instance (r : Runtime) (i : InstrumentId) (limit : Int) (id : String) (quantity : Int) :
    Decidable (r.OvercommitsReplacement i limit id quantity) :=
  inferInstanceAs (Decidable (∃ record ∈ r.orders.get id, _))

/-- **A replacement** keeps the room, unless it overcommits. -/
theorem Room.replaceOrder {id : String} {quantity : Int} {price : Option Int}
    (h : Room start i limit r)
    (hgood : env.gateway.capabilities.cancelReplace = true →
      ¬r.OvercommitsReplacement i limit id quantity) :
    Room start i limit (replaceOrder env id quantity price r).2 := by
  have hlimits := replaceOrder_sameLimits env id quantity price r
  have hportfolio : (Runtime.replaceOrder env id quantity price r).2.portfolio = r.portfolio :=
    congrArg Prod.snd (replaceOrder_keepsFills env id quantity price r)
  by_cases htaken : env.gateway.capabilities.cancelReplace = true ∧
      ∃ record ∈ r.orders.get id, record.TakesReplace quantity
  · obtain ⟨hcap, record, hget, htakes⟩ := htaken
    obtain ⟨next, hnext, hbook⟩ := replaceOrder_of_accepted price hcap hget htakes
    have hopen : next.terminal = false := by rcases hnext with rfl | rfl <;> rfl
    generalize (Runtime.replaceOrder env id quantity price r).2 = r' at *
    have hsame : (r.orders.put id ((record.replaced quantity price).setState next)).SameRecords
        r'.orders := fun id' => by
      rw [OrderBook.get_put]
      exact hbook id'
    have hrecord : ((record.replaced quantity price).setState next).Within :=
      ⟨(h.within id record hget).filled_nonneg, htakes.filled_le⟩
    have hadded : ∀ side, r'.orders.outstanding i side = r.orders.outstanding i side +
        if record.intent.instrumentId = i ∧ record.intent.side = side then
          quantity - record.intent.quantityTicks else 0 := by
      intro side
      have hput := r.orders.outstanding_put id
        ((record.replaced quantity price).setState next) i side
      rw [hget, Option.elim_some, OrderRecord.unfilledIn_replaced price htakes hopen] at hput
      rw [OrderBook.outstanding_congr hsame]
      omega
    have hbuys := h.buys
    have hsells := h.sells
    refine ⟨hlimits.trans h.limits, (OrderBook.within_congr hsame).mpr (h.within.put hrecord id),
      ?_, ?_⟩
    · rw [hportfolio, hadded]
      split
      · next hboth =>
        by_contra hover
        exact hgood hcap ⟨record, hget, htakes, hboth.1, .inl ⟨hboth.2, by omega⟩⟩
      · omega
    · rw [hportfolio, hadded]
      split
      · next hboth =>
        by_contra hover
        exact hgood hcap ⟨record, hget, htakes, hboth.1, .inr ⟨hboth.2, by omega⟩⟩
      · omega
  · have hsame : r.orders.SameRecords (Runtime.replaceOrder env id quantity price r).2.orders := by
      by_cases hcap : env.gateway.capabilities.cancelReplace = true
      · exact replaceOrder_of_refused fun htakes => htaken ⟨hcap, htakes⟩
      · rw [Runtime.replaceOrder, require_bind, if_neg hcap]
        exact fun _ => rfl
    exact h.recedes ⟨hlimits, congrArg Portfolio.quantity hportfolio,
      OrderBook.shrinks_of_same hsame⟩

end Runtime

-- Runs

namespace RuntimeOp

/-- A submission under a new order id or an accepted replacement that overcommits. -/
def Overcommits (call : Env × RuntimeOp) (i : InstrumentId) (limit : Int) (r : Runtime) : Prop :=
  match call.2 with
  | .order (.submitProposal proposal now _) =>
    ∃ target, r.portfolio.targetFromProposal call.1.float proposal = .ok target ∧
      target.instrumentId = i ∧
      r.hasOrder (r.clientOrderIdForProposal target.proposalId) = false ∧
      r.Overcommits limit ⟨some proposal.strategyId, target, now⟩
  | .order (.replaceOrder id quantity _) =>
    call.1.gateway.capabilities.cancelReplace = true ∧ r.OvercommitsReplacement i limit id quantity
  | _ => False

instance (i : InstrumentId) (limit : Int) (r : Runtime) :
    (call : Env × RuntimeOp) → Decidable (Overcommits call i limit r)
  | (env, .order (.submitProposal proposal now _)) =>
    match htarget : r.portfolio.targetFromProposal env.float proposal with
    | .ok target => decidable_of_iff (target.instrumentId = i ∧
          r.hasOrder (r.clientOrderIdForProposal target.proposalId) = false ∧
          r.Overcommits limit ⟨some proposal.strategyId, target, now⟩)
        ⟨fun hover => ⟨target, htarget, hover⟩, by
          rintro ⟨target', htarget', hover⟩
          cases htarget.symm.trans htarget'
          exact hover⟩
    | .error e => isFalse (by
        rintro ⟨target, htarget', -⟩
        cases htarget.symm.trans htarget')
  | (env, .order (.replaceOrder id quantity _)) => inferInstanceAs (Decidable
      (env.gateway.capabilities.cancelReplace = true ∧ r.OvercommitsReplacement i limit id quantity))
  | (_, .order (.submitIntent _)) => inferInstanceAs (Decidable False)
  | (_, .order (.cancelOrder _)) => inferInstanceAs (Decidable False)
  | (_, .order (.applyBrokerEvent _)) => inferInstanceAs (Decidable False)
  | (_, .updateMarkPrice _ _) => inferInstanceAs (Decidable False)
  | (_, .transitionRiskState _ _) => inferInstanceAs (Decidable False)
  | (_, .setGuardrails _) => inferInstanceAs (Decidable False)
  | (_, .configureLiveLimits _) => inferInstanceAs (Decidable False)
  | (_, .armLive _ _ _) => inferInstanceAs (Decidable False)
  | (_, .confirmLive _ _ _ _) => inferInstanceAs (Decidable False)
  | (_, .killLive) => inferInstanceAs (Decidable False)

variable {start r : Runtime} {i : InstrumentId} {limit : Int}

/-- **One call** keeps the room, unless it overcommits. -/
theorem after_room (call : Env × RuntimeOp) (hcall : call.2.Governed start i limit)
    (h : Runtime.Room start i limit r) (hgood : ¬Overcommits call i limit r) :
    Runtime.Room start i limit (after call r) := by
  obtain ⟨env, op⟩ := call
  cases op with
  | order op =>
    cases op with
    | submitIntent intent => exact absurd hcall id
    | submitProposal proposal now traceId =>
      rw [after, run, OrderOp.run, discard_snd]
      exact h.submitProposal hcall
        fun target htarget hi hnew hover => hgood ⟨target, htarget, hi, hnew, hover⟩
    | cancelOrder id => exact h.recedes (Runtime.cancelOrder_recedes env id r)
    | replaceOrder id quantity price =>
      exact h.replaceOrder fun hcap hover => hgood ⟨hcap, hover⟩
    | applyBrokerEvent event => exact h.applyBrokerEvent event
  | updateMarkPrice j price => exact h.recedes (Runtime.updateMarkPrice_recedes j price r)
  | transitionRiskState next authorization =>
    exact h.recedes (Runtime.transitionRiskState_recedes next authorization r)
  | setGuardrails guardrails => exact h.recedes ⟨rfl, rfl, Std.Refl.refl _⟩
  | configureLiveLimits limits => exact h.recedes (Runtime.configureLiveLimits_recedes limits r)
  | armLive account now phrase => exact h.recedes ((Runtime.onLiveGuard_recedes _).discard r)
  | confirmLive account token now phrase => exact h.recedes (Runtime.onLiveGuard_recedes _ r)
  | killLive => exact h.recedes ⟨rfl, rfl, Std.Refl.refl _⟩

end RuntimeOp

/-- **The position limit**: along a run from a book without orders, under an unchanged limit and
with planned orders only, no fill carries the position past the limit, if no call overcommits. -/
theorem position_within_limit {start : Runtime} {i : InstrumentId} {limit : Int}
    (hempty : start.orders = OrderBook.new)
    (hstart : ((start.portfolio.quantity i).natAbs : Int) ≤ limit) (run : List (Env × RuntimeOp))
    (hrun : ∀ call ∈ run, call.2.Governed start i limit)
    (hgood : ∀ call ∈ Runs.calls RuntimeOp.after start run,
      ¬RuntimeOp.Overcommits call.2 i limit call.1) :
    ∀ r ∈ Runs.states RuntimeOp.after start run,
      ((r.portfolio.quantity i).natAbs : Int) ≤ limit := by
  have hroom : Runtime.Room start i limit start := by
    refine ⟨rfl, by rw [hempty]; exact OrderBook.within_new, ?_, ?_⟩
    · rw [hempty, OrderBook.outstanding_new]
      omega
    · rw [hempty, OrderBook.outstanding_new]
      omega
  have hrooms := Runs.states_of_step (A := fun call : Env × RuntimeOp => call.2.Governed start i limit)
    (G := fun call r => ¬RuntimeOp.Overcommits call i limit r)
    (fun call r hcall h hgood => RuntimeOp.after_room call hcall h hgood) hroom hrun hgood
  exact fun r hr => (hrooms r hr).position

namespace Sample

/-- The submission of a proposal to a runtime. -/
def propose (proposalId : ProposalId) (quantityTicks : Int) : Env × RuntimeOp :=
  (env empty, .order (.submitProposal (proposal proposalId quantityTicks) 1000 3))

/-- A fill of the order of a proposal. -/
def fillOf (proposalId : ProposalId) (quantityTicks : Int) : Env × RuntimeOp :=
  (env empty, .order (.applyBrokerEvent (.filled (flat.clientOrderIdForProposal proposalId)
    quantityTicks 100)))

/-- A runtime without orders that holds 60 of instrument 7. -/
def holding : Runtime :=
  Runtime.new settings.accountId (Portfolio.new.setPosition 7 ⟨60, 100⟩) settings.risk

/-- Two proposals to hold 100 are submitted, and then both orders are filled. -/
def twoProposals : List (Env × RuntimeOp) :=
  [propose 1 100, propose 2 100, fillOf 1 40, fillOf 2 40]

end Sample

/-- An order of 50 is sent under a limit of 100 and filled in two parts. -/
theorem position_within_limit_filled :
    (Runs.states RuntimeOp.after Sample.flat
      [Sample.propose 1 50, Sample.fillOf 1 20, Sample.fillOf 1 30]).Forall
      fun r => ((r.portfolio.quantity 7).natAbs : Int) ≤ 100 := by
  have hgoverned : ∀ call ∈ [Sample.propose 1 50, Sample.fillOf 1 20, Sample.fillOf 1 30],
      call.2.Governed Sample.flat 7 100 :=
    List.forall_mem_cons.mpr ⟨rfl, List.forall_mem_cons.mpr ⟨trivial,
      List.forall_mem_singleton.mpr trivial⟩⟩
  exact List.forall_iff_forall_mem.mpr
    (position_within_limit rfl (by decide) _ hgoverned (by decide +kernel))

/-- **Outstanding orders are not counted**: two orders of 40 for a target of 100 are sent from a
position of 60 and filled, and the position is 140 under a limit of 100. -/
theorem position_past_limit :
    ((Sample.holding.portfolio.quantity 7).natAbs : Int) ≤ 100 ∧
      (∀ call ∈ Sample.twoProposals, call.2.Governed Sample.holding 7 100) ∧
      ¬∀ r ∈ Runs.states RuntimeOp.after Sample.holding Sample.twoProposals,
        ((r.portfolio.quantity 7).natAbs : Int) ≤ 100 := by
  have hrun : (Runs.final RuntimeOp.after Sample.holding Sample.twoProposals).portfolio.quantity 7 =
      140 := by
    decide +kernel
  refine ⟨by decide, ?_, fun hlimit => ?_⟩
  · exact List.forall_mem_cons.mpr ⟨rfl, List.forall_mem_cons.mpr ⟨rfl,
      List.forall_mem_cons.mpr ⟨trivial, List.forall_mem_singleton.mpr trivial⟩⟩⟩
  · have hfinal := hlimit _ (Runs.final_mem_states _ _)
    rw [hrun] at hfinal
    exact absurd hfinal (by decide)

end InsiderTrader
