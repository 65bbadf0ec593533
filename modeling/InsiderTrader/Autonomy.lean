import InsiderTrader.Strategy

/-!
# Autonomy

The live trading gate and the lifecycle of autonomous plans.

## Main definitions

- `LiveGuard` — the two-step live gate and its pre-send check
- `Plan.validate` — schema and lifetime of a plan
- `PlanStore` — plans, their lifecycle and the events it emits
-/

namespace InsiderTrader

/-- Runtime environment enforced before an order transport call. -/
inductive TradingEnvironment where
  | paper
  | live
  | killed
  deriving DecidableEq

/-- Account and notional constraints for live orders; the accounts are in order,
without repetition. -/
structure LiveLimits where
  allowedAccounts : List String
  maxNotionalTicks : ℕ
  deriving DecidableEq

/-- Failure of the live gate. -/
inductive LiveGuardError where
  | accountNotAllowed
  | confirmationRequired
  | challengeInvalid
  | notLive
  | notionalLimit
  | notionalUnknown
  deriving DecidableEq

/-- A pending live-enable challenge. -/
structure LiveChallenge where
  token : String
  account : String
  expiresAt : MonoTime
  deriving DecidableEq

/-- Fail-closed two-step live trading gate. -/
structure LiveGuard where
  limits : LiveLimits
  environment : TradingEnvironment
  challenge : Option LiveChallenge
  nextChallenge : ℕ
  deriving DecidableEq

/-- Lifetime of a challenge in nanoseconds. -/
def liveEnableTtlNs : ℕ := 300000000000

namespace LiveGuard

/-- A paper-only guard. -/
def paper (limits : LiveLimits) : LiveGuard := ⟨limits, .paper, none, 1⟩

/-- First step of live enablement: a one-use token. -/
def armLive (account : String) (now : MonoTime) (phrase : String) :
    Fallible LiveGuard LiveGuardError String := do
  let g ← Fallible.reads id
  if account ∉ g.limits.allowedAccounts then Fallible.fail .accountNotAllowed
  else if phrase ≠ "ARM LIVE" then Fallible.fail .confirmationRequired
  else
    let token := "LIVE-" ++ account ++ "-" ++ toString g.nextChallenge
    Fallible.modify fun g => { g with
      nextChallenge := min (g.nextChallenge + 1) u64Max
      challenge := some ⟨token, account, min (now + liveEnableTtlNs) u64Max⟩ }
    pure token

/-- Second step of live enablement; the challenge is used up by the attempt. -/
def confirmLive (account token : String) (now : MonoTime) (phrase : String) :
    Fallible LiveGuard LiveGuardError Unit := do
  let g ← Fallible.reads id
  if phrase ≠ "ENABLE LIVE" then Fallible.fail .confirmationRequired
  else
    Fallible.modify ({ · with challenge := none })
    match g.challenge with
    | none => Fallible.fail .challengeInvalid
    | some challenge =>
      if challenge.expiresAt ≤ now ∨ challenge.account ≠ account ∨ challenge.token ≠ token
          ∨ account ∉ g.limits.allowedAccounts then Fallible.fail .challengeInvalid
      else Fallible.modify ({ · with environment := .live })

/-- Disable live submission at once. -/
def killSwitch (g : LiveGuard) : LiveGuard := { g with environment := .killed, challenge := none }

/-- Return to paper mode. -/
def disableLive (g : LiveGuard) : LiveGuard := { g with environment := .paper, challenge := none }

/-- The pre-send check. Paper orders pass. -/
def authorize (g : LiveGuard) (account : String) (estimatedNotionalTicks : Option ℕ) :
    Except LiveGuardError Unit :=
  match g.environment with
  | .paper => .ok ()
  | .killed => .error .notLive
  | .live =>
    if account ∉ g.limits.allowedAccounts then .error .accountNotAllowed
    else
      match estimatedNotionalTicks with
      | none => .error .notionalUnknown
      | some notional =>
        if g.limits.maxNotionalTicks < notional then .error .notionalLimit else .ok ()

end LiveGuard

-- Plans

/-- Operator-selected automation mode. -/
inductive AutonomyMode where
  | manual
  | hybrid
  | autonomous
  deriving DecidableEq

/-- Finite action types of the LLM layer. -/
inductive ActionType where
  | executeProposal
  | executeProposalScaled
  | ignoreProposal
  | pauseStrategy
  | resumeStrategy
  | requestReanalysis
  | addToWatch
  | removeFromWatch
  | reduceAutonomy
  | noAction
  deriving DecidableEq

/-- A schema-validated autonomous action. -/
structure AutonomousAction where
  actionType : ActionType
  proposalId : Option String
  scale : Option F64
  reasonCodes : List String
  deriving DecidableEq

/-- An action the policy approved, with its effective scale. -/
structure ApprovedAction where
  action : AutonomousAction
  scale : F64
  deriving DecidableEq

/-- A timestamped plan of the LLM layer. -/
structure Plan where
  planId : String
  generatedAt : MonoTime
  expiresAt : MonoTime
  actions : List AutonomousAction
  deriving DecidableEq

/-- Durable lifecycle state of a plan. -/
inductive PlanState where
  | pending
  | approved
  | rejected
  | expired
  | executing
  | completed
  | failed
  deriving DecidableEq

/-- Durable event of the plan lifecycle. -/
inductive PlanEvent where
  | submitted (plan : Plan)
  | transition (planId : String) (state : PlanState)
  deriving DecidableEq

/-- Plan lifecycle failure; an invalid plan carries the text of its validation error. -/
inductive PlanStoreError where
  | invalid (text : String)
  | duplicate
  | notFound
  | invalidTransition (source target : PlanState)
  | expired
  deriving DecidableEq

/-- The action-specific fields an action needs. -/
def AutonomousAction.validate (float : FloatArith) (a : AutonomousAction) : Except String Unit :=
  if (a.actionType = .executeProposal ∨ a.actionType = .executeProposalScaled)
      ∧ a.proposalId.all (·.isEmpty) then
    .error "proposal_id required"
  else if a.actionType = .executeProposalScaled ∧ ¬a.scale.any float.inUnit then
    .error "scaled execution requires scale in [0,1]"
  else if a.reasonCodes.any Text.isBlank then .error "reason codes must be non-empty"
  else .ok ()

/-- Validate each action in turn; no proposal may be named twice. -/
def validateActions (float : FloatArith) (seen : List String) :
    List AutonomousAction → Except String Unit
  | [] => .ok ()
  | a :: rest => do
    a.validate float
    match a.proposalId with
    | none => validateActions float seen rest
    | some id =>
      if id ∈ seen then .error "duplicate proposal action"
      else validateActions float (id :: seen) rest

/-- Validate identity, lifetime and actions of a plan. -/
def Plan.validate (float : FloatArith) (p : Plan) (now : MonoTime) : Except String Unit :=
  if Text.isBlank p.planId ∨ p.expiresAt < p.generatedAt then
    .error "invalid plan identity or interval"
  else if p.expiresAt ≤ now then .error "plan expired"
  else validateActions float [] p.actions

/-- The lifecycle steps a plan may take. -/
def legalPlanTransition : PlanState → PlanState → Bool
  | .pending, .approved | .pending, .rejected | .pending, .expired => true
  | .approved, .executing | .approved, .expired => true
  | .executing, .completed | .executing, .failed => true
  | _, _ => false

/-- A plan and its lifecycle state. -/
structure PlanRecord where
  plan : Plan
  state : PlanState
  deriving DecidableEq

/-- In-memory projection of the plan events, with those not yet persisted. -/
structure PlanStore where
  records : Std.TreeMap String PlanRecord
  events : List PlanEvent

namespace PlanStore

/-- No plans. -/
def new : PlanStore := ⟨∅, []⟩

/-- The record of a plan. -/
def get (s : PlanStore) (planId : String) : Option PlanRecord := s.records[planId]?

/-- Plans marked executing, in the order of their ids. -/
def executingPlanIds (s : PlanStore) : List String :=
  (s.records.toList.filter (·.2.state = .executing)).map (·.1)

/-- Insert a validated plan once. -/
def submit (float : FloatArith) (plan : Plan) (now : MonoTime) :
    Fallible PlanStore PlanStoreError Unit := do
  let s ← Fallible.reads id
  match plan.validate float now with
  | .error text => Fallible.fail (.invalid text)
  | .ok _ =>
    if (s.get plan.planId).isSome then Fallible.fail .duplicate
    else Fallible.modify fun s =>
      ⟨s.records.insert plan.planId ⟨plan, .pending⟩, s.events ++ [.submitted plan]⟩

/-- Move a plan to a state and record the event. -/
def emit (s : PlanStore) (planId : String) (record : PlanRecord) (state : PlanState) :
    PlanStore :=
  ⟨s.records.insert planId { record with state := state },
    s.events ++ [.transition planId state]⟩

/-- Take a lifecycle step at a time. A plan past its expiry that is neither completed nor
failed becomes expired, whatever was asked. -/
def transition (planId : String) (next : PlanState) (now : MonoTime) :
    Fallible PlanStore PlanStoreError Unit := do
  let s ← Fallible.reads id
  match s.get planId with
  | none => Fallible.fail .notFound
  | some record =>
    if record.state = next then pure ()
    else if record.plan.expiresAt ≤ now ∧ record.state ≠ .completed ∧ record.state ≠ .failed then
      Fallible.modify (·.emit planId record .expired)
      Fallible.require (next = .expired) .expired
    else if legalPlanTransition record.state next then
      Fallible.modify (·.emit planId record next)
    else
      Fallible.fail (.invalidTransition record.state next)

/-- The events not yet persisted, and the store without them. -/
def drainEvents (s : PlanStore) : List PlanEvent × PlanStore := (s.events, { s with events := [] })

/-- Replay one persisted event. -/
def restoreEvent (float : FloatArith) (event : PlanEvent) :
    Fallible PlanStore PlanStoreError Unit := do
  let s ← Fallible.reads id
  match event with
  | .submitted plan =>
    match plan.validate float plan.generatedAt with
    | .error text => Fallible.fail (.invalid text)
    | .ok _ =>
      if (s.get plan.planId).isSome then Fallible.fail .duplicate
      else Fallible.modify fun s => { s with records := s.records.insert plan.planId ⟨plan, .pending⟩ }
  | .transition planId state =>
    match s.get planId with
    | none => Fallible.fail .notFound
    | some record =>
      if record.state = state then pure ()
      else if legalPlanTransition record.state state then
        Fallible.modify fun s =>
          { s with records := s.records.insert planId { record with state := state } }
      else Fallible.fail (.invalidTransition record.state state)

@[simp] theorem get_emit (s : PlanStore) (planId id : String) (record : PlanRecord)
    (state : PlanState) : (s.emit planId record state).get id =
      if planId = id then some { record with state := state } else s.get id := by
  simp [emit, get, Std.TreeMap.getElem?_insert]

/-- Lifecycle steps never change the text of a plan. -/
theorem transition_plan (planId id : String) (next : PlanState) (now : MonoTime) (s : PlanStore) :
    ((transition planId next now s).2.get id).map (·.plan) = (s.get id).map (·.plan) := by
  have hemit : ∀ record state, s.get planId = some record →
      ((s.emit planId record state).get id).map (·.plan) = (s.get id).map (·.plan) := by
    intro record state hget
    rw [get_emit]
    split
    · next heq => rw [← heq, hget]; rfl
    · rfl
  simp only [transition, Fallible.reads_bind, id_eq]
  cases hget : s.get planId with
  | none => rfl
  | some record =>
    dsimp only
    split
    · rfl
    · split
      · simp only [Fallible.modify_bind, Fallible.require]
        split <;> exact hemit record _ hget
      · split
        · exact hemit record _ hget
        · rfl

end PlanStore

end InsiderTrader
