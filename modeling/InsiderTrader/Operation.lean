import InsiderTrader.Recovery

/-!
# Operations and runs of the host

The public operations as one type, what a call of each does, and the calls of a
run. The sample session at the end is where examples of runs start from.

## Main definitions

- `Op` — a public operation with its arguments
- `Op.run`, `Op.after` — one call
- `Call`, `callsFrom` — the calls of a run, each with the host it is made on
-/

namespace InsiderTrader

/-- A public operation of the service host. -/
inductive Op where
  | appendEvent (record : JournalRecord)
  | registerMarketInstrument (instrumentId : InstrumentId)
  | ingestMarketEvent (event : MarketEvent) (receiveWall : WallTime)
  | ingestMarketBar (bar : Bar) (sequence : ℕ)
  | recoverMarketBook (instrumentId : InstrumentId) (sequence : ℕ) (bids asks : List (Int × Int))
  | recoverMarketStream (instrumentId : InstrumentId) (kind : StreamKind) (sequence : ℕ)
      (received : MonoTime)
  | markMarketDataStale (now : MonoTime) (maxAgeNs : ℕ)
  | submitStrategyProposal (proposal : Proposal) (now : MonoTime)
  | resolveStrategyProposals (policy : StrategyPolicy) (now : MonoTime)
  | resolveStrategyProposalsWithBudgets (policy : StrategyPolicy) (now : MonoTime)
      (budgets : Std.TreeMap String Int)
  | previewManualTarget (instrumentId : InstrumentId) (targetQuantityTicks : Int)
      (proposalId : ProposalId) (now : MonoTime) (traceId : TraceId) (ttlNs : ℕ)
      (orderType : OrderType) (limitPriceTicks : Option Int)
  | previewStrategyProposal (proposalId : ProposalId) (scale : F64) (now : MonoTime)
      (traceId : TraceId) (ttlNs : ℕ)
  | submitManualPreview (preview : ManualOrderPreview) (now : MonoTime) (confirmation : String)
  | submitProposal (proposal : Proposal) (now : MonoTime) (traceId : TraceId)
  | submitScheduledProposal (proposal : Proposal) (schedule : Schedule) (now : MonoTime)
      (traceId : TraceId)
  | driveScheduledChildren (now : MonoTime)
  | submitScaledProposal (proposalId : ProposalId) (scale : F64) (now : MonoTime)
      (traceId : TraceId)
  | submitApprovedAction (approved : ApprovedAction) (proposal : Proposal) (now : MonoTime)
      (traceId : TraceId)
  | applyBrokerEvent (event : BrokerEvent)
  | configureLiveLimits (limits : LiveLimits)
  | armLive (account : String) (now : MonoTime) (phrase : String)
  | confirmLive (account token : String) (now : MonoTime) (phrase : String)
  | killLive
  | cancelOrder (clientOrderId : String)
  | replaceOrder (clientOrderId : String) (quantityTicks : Int) (limitPriceTicks : Option Int)
  | updateMarkPrice (instrumentId : InstrumentId) (priceTicks : Int)
  | setScopedRiskPolicy (policy : Option ScopedRiskPolicy)
  | applyCorporateAction (instrumentId : InstrumentId) (kind : CorporateActionKind)
  | transitionRiskState (next : RiskState) (authorization : String)
  | reloadConfig (guardrails : Guardrails)
  | submitAutonomyPlan (plan : Plan) (now : MonoTime)
  | transitionAutonomyPlan (planId : String) (next : PlanState) (now : MonoTime)
  | setAutonomyMode (mode : AutonomyMode)
  | reconcileUnknownOrders
  | reconcileTrigger
  | brokerStatusSnapshot
  | drain
  | stop

/-- One call of an operation. -/
def Op.run (env : Env) : Op → Fallible Host EngineError Unit
  | .appendEvent record => Host.appendEvent env record
  | .registerMarketInstrument instrumentId => Host.registerMarketInstrument instrumentId
  | .ingestMarketEvent event receiveWall => Host.ingestMarketEvent env event receiveWall
  | .ingestMarketBar bar sequence => Host.ingestMarketBar env bar sequence
  | .recoverMarketBook instrumentId sequence bids asks =>
    Host.recoverMarketBook instrumentId sequence bids asks
  | .recoverMarketStream instrumentId kind sequence received =>
    Host.recoverMarketStream instrumentId kind sequence received
  | .markMarketDataStale now maxAgeNs => Host.markMarketDataStale now maxAgeNs
  | .submitStrategyProposal proposal now => Host.submitStrategyProposal env proposal now
  | .resolveStrategyProposals policy now =>
    Fallible.discard (Host.resolveStrategyProposals env policy now)
  | .resolveStrategyProposalsWithBudgets policy now budgets =>
    Fallible.discard (Host.resolveStrategyProposalsWithBudgets env policy now budgets)
  | .previewManualTarget instrumentId quantity proposalId now traceId ttlNs orderType limit =>
    Fallible.discard (Host.previewManualTargetWithOrder env instrumentId quantity proposalId now traceId
      ttlNs orderType limit)
  | .previewStrategyProposal proposalId scale now traceId ttlNs =>
    Fallible.discard (Host.previewStrategyProposal env proposalId scale now traceId ttlNs)
  | .submitManualPreview preview now confirmation =>
    Fallible.discard (Host.submitManualPreview env preview now confirmation)
  | .submitProposal proposal now traceId => Fallible.discard (Host.submitProposal env proposal now traceId)
  | .submitScheduledProposal proposal schedule now traceId =>
    Fallible.discard (Host.submitScheduledProposal env proposal schedule now traceId)
  | .driveScheduledChildren now => Fallible.discard (Host.driveScheduledChildren env now)
  | .submitScaledProposal proposalId scale now traceId =>
    Fallible.discard (Host.submitScaledProposal env proposalId scale now traceId)
  | .submitApprovedAction approved proposal now traceId =>
    Fallible.discard (Host.submitApprovedAction env approved proposal now traceId)
  | .applyBrokerEvent event => Host.applyBrokerEvent env event
  | .configureLiveLimits limits => Host.configureLiveLimits env limits
  | .armLive account now phrase => Fallible.discard (Host.armLive account now phrase)
  | .confirmLive account token now phrase => Host.confirmLive account token now phrase
  | .killLive => Host.killLive env
  | .cancelOrder clientOrderId => Host.cancelOrder env clientOrderId
  | .replaceOrder clientOrderId quantity limit => Host.replaceOrder env clientOrderId quantity limit
  | .updateMarkPrice instrumentId priceTicks => Host.updateMarkPrice instrumentId priceTicks
  | .setScopedRiskPolicy policy => Host.setScopedRiskPolicy env policy
  | .applyCorporateAction instrumentId kind => Host.applyCorporateAction env instrumentId kind
  | .transitionRiskState next authorization => Host.transitionRiskState env next authorization
  | .reloadConfig guardrails => Host.reloadConfig guardrails
  | .submitAutonomyPlan plan now => Host.submitAutonomyPlan env plan now
  | .transitionAutonomyPlan planId next now => Host.transitionAutonomyPlan env planId next now
  | .setAutonomyMode mode => Host.setAutonomyMode env mode
  | .reconcileUnknownOrders => Fallible.discard (Host.reconcileUnknownOrders env)
  | .reconcileTrigger => Fallible.discard (Host.reconcileTrigger env)
  | .brokerStatusSnapshot => Fallible.discard (Host.brokerStatusSnapshot env)
  | .drain => Host.drain
  | .stop => Host.stop

/-- The state after a call, whether it returned a value or an error. -/
def Op.after (env : Env) (op : Op) (h : Host) : Host := (op.run env h).2

/-- One call of a run: the operation, what it meets, and the host it is made on. -/
structure Call where
  host : Host
  env : Env
  op : Op

/-- The calls of a run from a host. -/
def callsFrom : Host → List (Env × Op) → List Call
  | _, [] => []
  | h, (env, op) :: rest => ⟨h, env, op⟩ :: callsFrom (op.after env h) rest

/-- The host at the end of a run. -/
def afterAll : Host → List (Env × Op) → Host
  | h, [] => h
  | h, (env, op) :: rest => afterAll (op.after env h) rest

-- A sample session

namespace Sample

/-- The floating point value one. -/
def one : F64 := ⟨0x3FF0000000000000⟩

/-- Floating point arithmetic on zero and one. -/
def float : FloatArith where
  inUnit x := x = ⟨0⟩ ∨ x = one
  inSignedUnit x := x = ⟨0⟩ ∨ x = one
  inPositiveUnit x := x = one
  isRatio x := x = ⟨0⟩ ∨ x = one
  exceeds x y := x = one ∧ y = ⟨0⟩
  isFinite x := x = ⟨0⟩ ∨ x = one
  atMost x y := x = ⟨0⟩ ∨ y = one
  zero := ⟨0⟩
  one := one
  neg x := x
  abs x := x
  add x y := if x = one then one else y
  sub x y := if y = one then ⟨0⟩ else x
  max x y := if x = one then one else y
  clampUnit x := x
  ofInt quantity := if 0 < quantity then one else ⟨0⟩
  divide x _ := x
  round x := if x = one then 1 else 0
  parse s := if s = "1" then some one else if s = "0" then some ⟨0⟩ else none
  ratio x y := if x = y then one else ⟨0⟩
  times x y := if x = one then y else ⟨0⟩
  scaledQuantity quantity scale := if scale = one then some quantity else none
  desiredQuantity equity weight mark := some (if weight = one then equity.tdiv mark else 0)

/-- A broker that accepts every request, answers no query and reports one snapshot. -/
def gateway (snapshot : BrokerSnapshot) : BrokerGateway where
  health := .healthy
  capabilities := ⟨true, true, false, true⟩
  send _ _ := .ok ()
  cancel _ _ := .ok ()
  replace _ _ _ _ := .ok ()
  reconcile _ _ := .ok none
  snapshot _ := .ok snapshot

/-- A broker with a journal that takes every record, and a clock that advances. -/
def env (snapshot : BrokerSnapshot) : Env where
  gateway := gateway snapshot
  float := float
  clock reads := 1000 + reads
  journal _ _ := none
  readModel _ _ := true

/-- A broker account without orders and positions. -/
def empty : BrokerSnapshot := ⟨[], [], ∅⟩

/-- One account, flat in instrument 7 at a mark of 100. -/
def settings : Settings where
  accountId := 1
  portfolio := Portfolio.new.setPosition 7 ⟨0, 100⟩
  risk := RiskEngine.new ⟨100, 50, 1000000⟩
  guardrails := {}

/-- A fresh host, reconciled with the empty account. -/
def running : Host := Op.reconcileTrigger.after (env empty) (Host.start settings)

/-- The host reopened on the journal of a host. -/
def reopen (h : Host) : Host :=
  match Host.openJournal float settings (journalOf h.trace) with
  | .ok reopened => reopened
  | .error _ => Host.start settings

theorem openJournal_reopen {h : Host}
    (hok : (Host.openJournal float settings (journalOf h.trace)).isOk) :
    Host.openJournal float settings (journalOf h.trace) = .ok (reopen h) := by
  unfold reopen
  cases ho : Host.openJournal float settings (journalOf h.trace) with
  | ok reopened => rfl
  | error e => rw [ho] at hok; cases hok

/-- A proposal to hold a quantity of instrument 7. -/
def proposal (proposalId : ProposalId) (quantityTicks : Int) : Proposal where
  proposalId := proposalId
  strategyId := "trend"
  instrumentId := 7
  action := .targetQuantity quantityTicks
  confidence := one
  horizonNs := 1000
  ttlNs := 1000
  evidence := []
  generatedMono := 900

/-- The submission of a proposal. -/
def submit (proposalId : ProposalId) (quantityTicks : Int) : Op :=
  .submitProposal (proposal proposalId quantityTicks) 1000 3

/-- The order id of a proposal. -/
def orderId (proposalId : ProposalId) : String :=
  running.runtime.clientOrderIdForProposal proposalId

end Sample

end InsiderTrader
