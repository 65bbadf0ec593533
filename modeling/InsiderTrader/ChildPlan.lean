import InsiderTrader.OrderBook
import InsiderTrader.Risk

/-!
# Execution planning

The plan of a risk-gated order intent from a target, the schedules that split a
parent order into children, and the child state machine of a parent plan.

## Main definitions

- `planTargetWithGuardrails` — an order intent for a target
- `planChildren` — the children of a schedule
- `ChildPlan` — claims, transport outcomes and broker callbacks of children
-/

namespace InsiderTrader

open MachineInt

/-- Execution planning failure. -/
inductive PlanError where
  | noDelta
  | riskDenied (reason : Reason)
  | unsupportedOrder
  | invalidSchedule
  | invalidChildTransition
  deriving DecidableEq

/-- The risk decision on a target, with the guardrails when there are observations. -/
def targetDecision (float : FloatArith) (portfolio : Portfolio) (target : Target)
    (risk : RiskEngine) (inputs : Option RiskInputs) : Decision :=
  match inputs with
  | some inputs => risk.checkWithGuardrails float portfolio target risk.guardrails inputs
  | none => risk.check portfolio target

/-- The quantity a decision lets pass. -/
def Decision.approvedQuantity (target : Target) : Decision → Except PlanError Int
  | .allow => .ok target.quantityTicks
  | .resize quantityTicks => .ok quantityTicks
  | .deny reason => .error (.riskDenied reason)

/-- The market order that moves a position by `delta` for a target. -/
def deltaIntent (accountId : AccountId) (traceId : TraceId) (target : Target)
    (delta quantityTicks : Int) : OrderIntent :=
  let intentId := "intent-" ++ displayIdentity "account" accountId ++ "-" ++
    displayIdentity "proposal" target.proposalId
  { intentId := intentId
    accountId := accountId
    instrumentId := target.instrumentId
    clientOrderId := "client-" ++ intentId
    side := if 0 < delta then .buy else .sell
    quantityTicks := quantityTicks
    orderType := .market
    limitPriceTicks := none
    timeInForce := .day
    state := .riskApproved
    traceId := traceId }

/-- Build a market order intent from a target after risk approval. -/
def planTargetWithGuardrails (float : FloatArith) (accountId : AccountId) (traceId : TraceId)
    (portfolio : Portfolio) (target : Target) (risk : RiskEngine) (capabilities : Capabilities)
    (inputs : Option RiskInputs) : Except PlanError OrderIntent := do
  let quantity ← (targetDecision float portfolio target risk inputs).approvedQuantity target
  match narrow 64 (quantity - portfolio.quantity target.instrumentId) with
  | none => .error .noDelta
  | some delta =>
    if delta = 0 then .error .noDelta
    else
      match narrow 64 delta.natAbs with
      | none => .error .noDelta
      | some absolute =>
        if ¬capabilities.market ∨ absolute ≤ 0 then .error .unsupportedOrder
        else .ok (deltaIntent accountId traceId target delta absolute)

-- Schedules

/-- Deterministic child-order scheduling policy. -/
inductive Schedule where
  | immediate
  | twap (slices intervalNs : ℕ)
  | vwap (weights : List ℕ)
  | pov (participationBps intervalNs : ℕ) (marketVolumeTicks : List Int)
  | implementationShortfall (slices intervalNs urgencyBps : ℕ)
  | adaptive (slices intervalNs urgencyBps : ℕ) (spreadTicks maxSpreadTicks : Int)
      (volatilityBps maxVolatilityBps : ℕ) (marketVolumeTicks : List Int)
  deriving DecidableEq

/-- One child order derived from a parent intent. -/
structure ChildOrder where
  parentClientOrderId : String
  childSequence : ℕ
  clientOrderId : String
  quantityTicks : Int
  dueAfterNs : ℕ
  side : Side
  orderType : OrderType
  limitPriceTicks : Option Int
  deriving DecidableEq

/-- Hand a remainder out, one tick a child, from the front. -/
def handOut (remainder : Int) : List Int → List Int × Int
  | [] => ([], remainder)
  | q :: qs =>
    if remainder = 0 then (q :: qs, 0)
    else
      let (rest, left) := handOut (remainder - 1) qs
      ((q + 1) :: rest, left)

/-- Children proportional to positive weights, the rounding handed out from the front. -/
def proportional (quantityTicks : Int) (weights : List ℕ) (totalWeight : ℕ) :
    Option (List Int) := do
  let quantities ← weights.mapM fun (w : ℕ) => narrow 64 (quantityTicks * w / totalWeight)
  let (quantities, remainder) := handOut (quantityTicks - quantities.sum) quantities
  if remainder ≠ 0 ∨ quantities.any (· ≤ 0) then none else some quantities

/-- Children that follow observed volume at a participation rate; quiet slices are skipped. -/
def povQuantities (participationBps : ℕ) : Int → List Int → Option (List Int × Int)
  | remaining, [] => some ([], remaining)
  | remaining, volume :: volumes =>
    if remaining = 0 then some ([], 0)
    else do
      let capacity ← narrow 64 (volume * participationBps / 10000)
      if capacity ≤ 0 then povQuantities participationBps remaining volumes
      else
        let quantity := min capacity remaining
        let (rest, left) ← povQuantities participationBps (remaining - quantity) volumes
        some (quantity :: rest, left)

/-- Child quantities and their interval, for every schedule but the adaptive one. -/
def scheduleQuantities (quantityTicks : Int) : Schedule → Option (List Int × ℕ)
  | .immediate => some ([quantityTicks], 0)
  | .twap slices intervalNs =>
    if slices = 0 ∨ intervalNs = 0 ∨ quantityTicks < slices then none
    else
      let base := quantityTicks.tdiv slices
      let remainder := quantityTicks.tmod slices
      some ((List.range slices).map fun (index : ℕ) =>
        base + if (index : Int) < remainder then 1 else 0, intervalNs)
  | .vwap weights =>
    if weights.isEmpty ∨ weights.contains 0 then none
    else if u64Max < weights.sum then none
    else (proportional quantityTicks weights weights.sum).map (·, 0)
  | .pov participationBps intervalNs volumes =>
    if participationBps = 0 ∨ 10000 < participationBps ∨ intervalNs = 0 ∨ volumes.isEmpty
        ∨ volumes.any (· ≤ 0) then none
    else do
      let (quantities, remaining) ← povQuantities participationBps quantityTicks volumes
      if remaining ≠ 0 then none else some (quantities, intervalNs)
  | .implementationShortfall slices intervalNs urgencyBps =>
    if slices = 0 ∨ quantityTicks < slices ∨ intervalNs = 0 ∨ 10000 < urgencyBps then none
    else
      let weights := (List.range slices).map fun index =>
        10000 + urgencyBps * (slices - index - 1) / max slices 1
      (proportional quantityTicks weights weights.sum).map (·, intervalNs)
  | .adaptive .. => none

/-- The schedule an adaptive one selects from its snapshot. -/
def selectSchedule (quantityTicks : Int) : Schedule → Option Schedule
  | .adaptive slices intervalNs urgencyBps spread maxSpread volatility maxVolatility volumes =>
    if slices = 0 ∨ intervalNs = 0 ∨ urgencyBps = 0 ∨ 10000 < urgencyBps ∨ spread < 0
        ∨ maxSpread ≤ 0 ∨ 100000 < volatility ∨ maxVolatility = 0 ∨ volumes.isEmpty
        ∨ slices < volumes.length then none
    else if spread ≤ maxSpread ∧ volatility ≤ maxVolatility then
      some (.pov urgencyBps intervalNs volumes)
    else
      some (.implementationShortfall (min slices quantityTicks.toNat) intervalNs
        (max urgencyBps 7500))
  | schedule => some schedule

/-- The child order of a quantity at an index of its schedule. -/
def childOrder (intent : OrderIntent) (intervalNs : ℕ) (index : ℕ) (quantityTicks : Int) :
    Except PlanError ChildOrder :=
  if 2 ^ 32 ≤ index + 1 ∨ u64Max < intervalNs * index then .error .invalidSchedule
  else .ok {
    parentClientOrderId := intent.clientOrderId
    childSequence := index + 1
    clientOrderId := intent.clientOrderId ++ "-child-" ++ toString (index + 1)
    quantityTicks := quantityTicks
    dueAfterNs := intervalNs * index
    side := intent.side
    orderType := intent.orderType
    limitPriceTicks := intent.limitPriceTicks }

/-- Number the children of a list of quantities. -/
def numberChildren (intent : OrderIntent) (intervalNs : ℕ) :
    ℕ → List Int → Except PlanError (List ChildOrder)
  | _, [] => .ok []
  | index, q :: qs => do
    let child ← childOrder intent intervalNs index q
    let rest ← numberChildren intent intervalNs (index + 1) qs
    .ok (child :: rest)

/-- The child orders of a schedule. -/
def planChildren (intent : OrderIntent) (schedule : Schedule) :
    Except PlanError (List ChildOrder) :=
  if intent.quantityTicks ≤ 0 then .error .invalidSchedule
  else
    match (selectSchedule intent.quantityTicks schedule).bind
        (scheduleQuantities intent.quantityTicks) with
    | none => .error .invalidSchedule
    | some (quantities, intervalNs) => numberChildren intent intervalNs 0 quantities

-- The child state machine

/-- Lifecycle state of one planned child. -/
inductive ChildState where
  | pending
  | sending
  | sent
  | acknowledged
  | partiallyFilled
  | filled
  | cancelPending
  | cancelled
  | rejected
  | unknown
  deriving DecidableEq

/-- A planned child and what is known of it. -/
structure ChildRecord where
  order : ChildOrder
  state : ChildState
  filledQuantityTicks : Int
  brokerOrderId : Option String
  deriving DecidableEq

/-- A parent execution plan. -/
structure ChildPlan where
  parentClientOrderId : String
  createdMonoNs : MonoTime
  children : List ChildRecord
  deriving DecidableEq

namespace ChildRecord

/-- Transport success of a claimed child. -/
def markSent (r : ChildRecord) : Option ChildRecord :=
  if r.state = .sending then some { r with state := .sent } else none

/-- An ambiguous transport outcome. -/
def markUnknown (r : ChildRecord) : Option ChildRecord :=
  if r.state = .sending ∨ r.state = .sent then some { r with state := .unknown } else none

/-- Request cancellation of an active child. -/
def requestCancel (r : ChildRecord) : Option ChildRecord :=
  if r.state = .sent ∨ r.state = .acknowledged ∨ r.state = .partiallyFilled then
    some { r with state := .cancelPending }
  else none

/-- Apply one broker callback. -/
def applyBrokerEvent (r : ChildRecord) : BrokerEvent → Option ChildRecord
  | .acknowledged _ brokerOrderId =>
    if r.state ∈ [.sending, .sent, .acknowledged, .unknown] then
      some { r with state := .acknowledged, brokerOrderId := some brokerOrderId }
    else none
  | .filled _ quantityTicks _ =>
    if 0 < quantityTicks ∧ r.state ∈ [.sending, .sent, .acknowledged, .partiallyFilled,
        .filled, .unknown] then
      if r.state = .filled then some r
      else do
        let total ← narrow 64 (r.filledQuantityTicks + quantityTicks)
        if r.order.quantityTicks < total then none
        else some { r with
          filledQuantityTicks := total
          state := if total = r.order.quantityTicks then .filled else .partiallyFilled }
    else none
  | .cancelled _ =>
    if r.state ∈ [.sending, .sent, .acknowledged, .cancelPending, .unknown] then
      some { r with state := .cancelled }
    else none
  | .rejected _ _ =>
    if r.state ∈ [.sending, .sent, .acknowledged, .unknown] then
      some { r with state := .rejected }
    else none

end ChildRecord

namespace ChildPlan

/-- A plan for a parent intent: every child pending. -/
def new (intent : OrderIntent) (schedule : Schedule) (createdMonoNs : MonoTime) :
    Except PlanError ChildPlan := do
  let children ← planChildren intent schedule
  if children.isEmpty ∨ children.zipIdx.any (fun (child, index) =>
      child.parentClientOrderId ≠ intent.clientOrderId
        ∨ child.childSequence ≠ min (index + 1) (2 ^ 32 - 1) ∨ child.quantityTicks ≤ 0) then
    .error .invalidSchedule
  else
    .ok ⟨intent.clientOrderId, createdMonoNs, children.map (⟨·, .pending, 0, none⟩)⟩

/-- Claim the due children of a list; a due time past the clock's range stops the claim,
and the children before it stay claimed. -/
def claimList (createdMonoNs now : MonoTime) :
    List ChildRecord → List ChildRecord × Except PlanError (List ChildOrder)
  | [] => ([], .ok [])
  | r :: rs =>
    if u64Max < createdMonoNs + r.order.dueAfterNs then (r :: rs, .error .invalidSchedule)
    else
      let (rest, claimed) := claimList createdMonoNs now rs
      if r.state = .pending ∧ createdMonoNs + r.order.dueAfterNs ≤ now then
        ({ r with state := .sending } :: rest, claimed.map (r.order :: ·))
      else (r :: rest, claimed)

/-- Claim every pending child whose due time has come. -/
def claimDue (now : MonoTime) : Fallible ChildPlan PlanError (List ChildOrder) := fun plan =>
  let (children, claimed) := claimList plan.createdMonoNs now plan.children
  (claimed, { plan with children := children })

/-- The broker-neutral intent of a child. -/
def childIntent (parent : OrderIntent) (child : ChildOrder) : OrderIntent :=
  { intentId := parent.intentId ++ "-child-" ++ toString child.childSequence
    accountId := parent.accountId
    instrumentId := parent.instrumentId
    clientOrderId := child.clientOrderId
    side := child.side
    quantityTicks := child.quantityTicks
    orderType := child.orderType
    limitPriceTicks := child.limitPriceTicks
    timeInForce := parent.timeInForce
    state := .riskApproved
    traceId := parent.traceId }

/-- Whether a client order id is one of the children's. -/
def owns (plan : ChildPlan) (clientOrderId : String) : Bool :=
  plan.children.any (·.order.clientOrderId = clientOrderId)

/-- Change the first child with a client order id. -/
def updateList (clientOrderId : String) (f : ChildRecord → Option ChildRecord) :
    List ChildRecord → Option (List ChildRecord)
  | [] => none
  | r :: rs =>
    if r.order.clientOrderId = clientOrderId then (f r).map (· :: rs)
    else (updateList clientOrderId f rs).map (r :: ·)

/-- Change a child; an unknown id or a refused change leaves the plan alone. -/
def update (clientOrderId : String) (f : ChildRecord → Option ChildRecord) :
    Fallible ChildPlan PlanError Unit := fun plan =>
  match updateList clientOrderId f plan.children with
  | none => (.error .invalidChildTransition, plan)
  | some children => (.ok (), { plan with children := children })

/-- Record transport success of one claimed child. -/
def markSent (clientOrderId : String) : Fallible ChildPlan PlanError Unit :=
  update clientOrderId ChildRecord.markSent

/-- Mark an ambiguous transport failure of one child. -/
def markUnknown (clientOrderId : String) : Fallible ChildPlan PlanError Unit :=
  update clientOrderId ChildRecord.markUnknown

/-- Apply one broker callback to the child it names. -/
def applyBrokerEvent (event : BrokerEvent) : Fallible ChildPlan PlanError Unit :=
  update event.clientOrderId (·.applyBrokerEvent event)

/-- Request cancellation of one active child. -/
def requestCancel (clientOrderId : String) : Fallible ChildPlan PlanError Unit :=
  update clientOrderId ChildRecord.requestCancel

end ChildPlan

end InsiderTrader
