import InsiderTrader.IntentReading
import InsiderTrader.ResponseReading

/-!
# Reading the parts of a snapshot back

What the terminal makes of each part of a snapshot. Positions, costs and
markets arrive as they are, texts are cut, and no order arrives.

## Main definitions

- `Terminal.Position.view`, ... — what the terminal should show of a part
- `Terminal.OrderRecord.arrives`, ... — what the terminal reads of it

## Main results

- `Terminal.OrderRecord.arrives_ne_view` — no order is read back
- `Terminal.MarketSnapshot.arrives_eq_view_iff` — a market is read back when its bars have an
  interval
- `Terminal.AutonomyPlanSnapshot.exists_arrives_iff` — a plan is read when its texts can be
-/

namespace InsiderTrader

namespace Terminal

open Wire

-- Names

def sideName : Side → String
  | .buy => "BUY"
  | .sell => "SELL"

def orderStateName : OrderState → String
  | .created => "CREATED"
  | .riskApproved => "RISK APPROVED"
  | .queued => "QUEUED"
  | .sending => "SENDING"
  | .sent => "SENT"
  | .acknowledged => "ACKNOWLEDGED"
  | .partiallyFilled => "PARTIAL"
  | .filled => "FILLED"
  | .rejected => "REJECTED"
  | .cancelPending => "CANCEL PENDING"
  | .cancelled => "CANCELLED"
  | .replacePending => "REPLACE PENDING"
  | .unknown => "UNKNOWN"
  | .expired => "EXPIRED"

def qualityName : Quality → String
  | .good => "GOOD"
  | .degraded => "DEGRADED"
  | .stale => "STALE"

theorem reads_orderState (state : OrderState) :
    Reads (label orderStateNames) [orderStateCode state] (.ok (orderStateName state)) := by
  cases state <;> exact reads_label rfl

theorem reads_quality (quality : Quality) :
    Reads (label qualityNames) [qualityCode quality] (.ok (qualityName quality)) := by
  cases quality <;> exact reads_label rfl

theorem reads_riskState (state : RiskState) :
    Reads (label riskNames) [riskStateCode state]
      (.ok (riskNames.getD (riskStateCode state).toNat "")) := by
  cases state <;> exact reads_label rfl

theorem reads_autonomyMode (mode : AutonomyMode) :
    Reads (label modeNames) [autonomyModeCode mode]
      (.ok (modeNames.getD (autonomyModeCode mode).toNat "")) := by
  cases mode <;> exact reads_label rfl

theorem reads_planState (state : PlanState) :
    Reads (label planStateNames) [planStateCode state]
      (.ok (planStateNames.getD (planStateCode state).toNat "")) := by
  cases state <;> exact reads_label rfl

theorem reads_actionType (type : ActionType) :
    Reads (label actionNames) [actionTypeCode type]
      (.ok (actionNames.getD (actionTypeCode type).toNat "")) := by
  cases type <;> exact reads_label rfl

theorem reads_proposalState (state : ProposalState) :
    Reads (label proposalStateNames) [proposalStateCode state]
      (.ok (proposalStateNames.getD (proposalStateCode state).toNat "")) := by
  cases state <;> exact reads_label rfl

-- Positions, orders and fills

def Position.view (position : Position) : PositionView :=
  ⟨position.instrumentId, position.quantityTicks, position.markPriceTicks,
    position.averageCostPrice.getD position.markPriceTicks⟩

theorem reads_positionView (position : Position) :
    Reads positionView (encodePosition position) (.ok position.view) := by
  apply (reads_u128 _).value
  apply (reads_i64 _).value
  apply (reads_i64 _).value
  exact (reads_i64 _).value (reads_pure _)

namespace OrderRecord

variable (order : OrderRecord)

def view : OrderView :=
  ⟨order.intent.clientOrderId, order.intent.instrumentId, sideName order.intent.side,
    order.intent.quantityTicks, order.filledQuantityTicks, orderStateName order.intent.state⟩

def arrives : Except String OrderView := do
  let bytes ← receivedBytes (1024 * 1024) (encodeOrderIntent order.intent)
  let intent ← decodeOrderIntent bytes
  let _ ← sent (order.brokerOrderId.getD "")
  pure ⟨intent.1, intent.2.1, intent.2.2.1, intent.2.2.2, order.filledQuantityTicks,
    orderStateName order.intent.state⟩

/-- **No order** is read back. -/
theorem arrives_ne_view : order.arrives ≠ .ok order.view := by
  intro h
  obtain ⟨bytes, hbytes, h⟩ := bind_eq_ok.mp h
  rw [receivedBytes] at hbytes
  split at hbytes
  · cases hbytes
  · cases hbytes
    obtain ⟨intent, hintent, h⟩ := bind_eq_ok.mp h
    obtain ⟨_, -, h⟩ := bind_eq_ok.mp h
    exact decodeOrderIntent_client_ne hintent (congrArg OrderView.clientOrderId (Except.ok.inj h))

theorem reads_orderView : Reads orderView (encodeOrderRecord order) order.arrives := by
  apply (reads_byteVec (by omega) _).next
  intro bytes _
  apply Reads.ofExcept
  intro intent _
  apply (reads_string _).next
  intro _ _
  apply (reads_i64 _).value
  exact (reads_orderState _).value (reads_pure _)

end OrderRecord

namespace FillRecord

variable (fill : FillRecord)

def arrives : Except String FillView := do
  let clientOrderId ← sent fill.clientOrderId
  pure { fill with clientOrderId := clientOrderId }

theorem arrives_eq_self_iff : fill.arrives = .ok fill ↔ Short fill.clientOrderId := by
  rw [arrives, bind_eq_ok, ← sent_eq_self_iff]
  constructor
  · rintro ⟨cut, hcut, h⟩
    have hid : cut = fill.clientOrderId := congrArg FillRecord.clientOrderId (Except.ok.inj h)
    rwa [← hid] at hcut ⊢
  · intro h
    exact ⟨fill.clientOrderId, h, rfl⟩

theorem reads_fillView : Reads fillView (encodeFill fill) fill.arrives := by
  apply (reads_string _).next
  intro clientOrderId _
  apply (reads_u128 _).value
  apply (reads_i64 _).value
  exact (reads_i64 _).value (reads_pure _)

end FillRecord

-- Execution costs and proposals

namespace TcaSnapshot

variable (tca : TcaSnapshot)

def arrives : Except String TcaView := do
  let clientOrderId ← sent tca.clientOrderId
  pure { tca with clientOrderId := clientOrderId }

theorem exists_arrives_iff : (∃ view, tca.arrives = .ok view) ↔ Cuttable tca.clientOrderId := by
  rw [← exists_sent_iff]
  constructor
  · rintro ⟨_, h⟩
    obtain ⟨cut, hcut, -⟩ := bind_eq_ok.mp h
    exact ⟨cut, hcut⟩
  · rintro ⟨cut, hcut⟩
    exact ⟨_, bind_eq_ok.mpr ⟨cut, hcut, rfl⟩⟩

theorem reads_tcaView : Reads tcaView (encodeTca tca) tca.arrives := by
  apply (reads_string _).next
  intro clientOrderId _
  apply (reads_i64 _).value
  apply (reads_u128 _).value
  apply (reads_u128 _).value
  apply (reads_i64 _).value
  apply (reads_optional 0 reads_i64 _).value
  apply (reads_optional 0 reads_u64 _).value
  apply (reads_optional 0 reads_u64 _).value
  apply (reads_optional 0 reads_u64 _).value
  apply (reads_optional 0 reads_u64 _).value
  apply (reads_optional 0 reads_u128 _).value
  apply (reads_optional 0 reads_i64 _).value
  exact (reads_optional 0 reads_u128 _).value (reads_pure _)

end TcaSnapshot

/-- A weight is finite. -/
def ProposalAction.Finite : ProposalAction → Prop
  | .targetWeight weight => isFinite weight = true
  | _ => True

theorem reads_proposalAction {action : ProposalAction} (h : action.Finite) :
    Reads proposalAction (encodeProposalAction action) (.ok action) := by
  cases action with
  | noAction => exact fun rest => rfl
  | close => exact fun rest => rfl
  | targetQuantity quantity =>
    apply (reads_u8 1).value
    exact (reads_i64 quantity).value (reads_pure _)
  | increase quantity =>
    apply (reads_u8 3).value
    exact (reads_i64 quantity).value (reads_pure _)
  | decrease quantity =>
    apply (reads_u8 4).value
    exact (reads_i64 quantity).value (reads_pure _)
  | targetWeight weight =>
    have hweight := reads_f64 weight
    rw [sentFloat_eq_ok_iff.mpr ⟨h, rfl⟩] at hweight
    apply (reads_u8 2).value
    exact hweight.value (reads_pure _)

namespace ProposalRecord

variable (record : ProposalRecord)

/-- The numbers of a proposal are finite. -/
structure Finite : Prop where
  action : record.proposal.action.Finite
  confidence : isFinite record.proposal.confidence = true

def arrives : Except String ProposalView := do
  let strategy ← sent record.proposal.strategyId
  pure ⟨record.proposal.proposalId, record.proposal.instrumentId, strategy,
    record.proposal.action, record.proposal.confidence, record.proposal.ttlNs,
    proposalStateNames.getD (proposalStateCode record.state).toNat ""⟩

theorem exists_arrives_iff :
    (∃ view, record.arrives = .ok view) ↔ Cuttable record.proposal.strategyId := by
  rw [← exists_sent_iff]
  constructor
  · rintro ⟨_, h⟩
    obtain ⟨cut, hcut, -⟩ := bind_eq_ok.mp h
    exact ⟨cut, hcut⟩
  · rintro ⟨cut, hcut⟩
    exact ⟨_, bind_eq_ok.mpr ⟨cut, hcut, rfl⟩⟩

theorem reads_proposalView (h : record.Finite) :
    Reads proposalView (encodeProposalRecord record) record.arrives := by
  have hconfidence := reads_f64 record.proposal.confidence
  rw [sentFloat_eq_ok_iff.mpr ⟨h.confidence, rfl⟩] at hconfidence
  apply (reads_u128 _).value
  apply (reads_u128 _).value
  apply (reads_string _).next
  intro strategy _
  apply (reads_proposalAction h.action).value
  apply hconfidence.value
  apply (reads_u64 _).value
  apply (reads_u64 _).value
  exact (reads_proposalState _).value (reads_pure _)

end ProposalRecord

-- Markets

theorem reads_quoteView (quote : Option Quote) :
    Reads quoteView (encodeQuote quote) (.ok (quote.map (·.bidTicks), quote.map (·.askTicks))) := by
  cases quote with
  | none => exact fun rest => rfl
  | some quote =>
    apply (reads_u8 1).value
    apply (reads_u64 _).value
    apply (reads_u64 _).value
    apply (reads_i64 _).value
    apply (reads_i64 _).value
    apply (reads_i64 _).value
    exact (reads_i64 _).value (reads_pure _)

theorem reads_lastView (trade : Option Trade) :
    Reads lastView (encodeLastTrade trade) (.ok (trade.map (·.priceTicks))) := by
  cases trade with
  | none => exact fun rest => rfl
  | some trade =>
    apply (reads_u8 1).value
    apply (reads_u64 _).value
    exact (reads_i64 _).value (reads_pure _)

theorem reads_bookTopView (bookTop : Option (Int64 × Int64 × Int64 × Int64)) :
    Reads bookTopView (encodeBookTop bookTop) (.ok bookTop) := by
  cases bookTop with
  | none => exact fun rest => rfl
  | some bookTop =>
    apply (reads_u8 1).value
    apply (reads_i64 _).value
    apply (reads_i64 _).value
    apply (reads_i64 _).value
    exact (reads_i64 _).value (reads_pure _)

theorem reads_tradeView (trade : Trade) : Reads tradeView (encodeTrade trade) (.ok trade) := by
  apply (reads_u64 _).value
  apply (reads_i64 _).value
  apply (reads_u64 _).value
  apply (reads_i64 _).value
  exact (reads_i64 _).value (reads_pure _)

def Bar.arrives (bar : Bar) : Except String Bar :=
  if bar.intervalNs ≠ 0 then .ok bar else .error "chart bar interval must be positive"

theorem reads_barView (bar : Bar) : Reads barView (encodeBar bar) bar.arrives := by
  apply (reads_i64 _).value
  apply (reads_u64 _).value
  apply Reads.require
  intro _
  apply (reads_i64 _).value
  apply (reads_i64 _).value
  apply (reads_i64 _).value
  apply (reads_i64 _).value
  exact (reads_i64 _).value (reads_pure _)

namespace MarketSnapshot

variable (market : MarketSnapshot)

def view : MarketView :=
  ⟨market.instrumentId, market.quote.map (·.bidTicks), market.quote.map (·.askTicks),
    market.trade.map (·.priceTicks), qualityName market.quoteHealth,
    qualityName market.tradeHealth, market.bookTop, market.trades, market.bars⟩

/-- The trades and bars are within the bounds of the terminal. -/
structure WithinBounds : Prop where
  trades : market.trades.length ≤ 512
  bars : market.bars.length ≤ 4096

def arrives : Except String MarketView := do
  let trades ← received 512 "too many trade prints" market.trades .ok
  let bars ← received 4096 "wire collection exceeds bound" market.bars Bar.arrives
  pure { market.view with trades := trades, bars := bars }

/-- **A market** is read back when each of its bars has an interval. -/
theorem arrives_eq_view_iff (h : market.WithinBounds) :
    market.arrives = .ok market.view ↔ ∀ bar ∈ market.bars, bar.intervalNs ≠ 0 := by
  have htrades : received 512 "too many trade prints" market.trades .ok =
      .ok (market.trades.map id) := received_eq_ok_map_iff.mpr ⟨h.trades, fun _ _ => rfl⟩
  have hbars : received 4096 "wire collection exceeds bound" market.bars Bar.arrives =
      .ok (market.bars.map id) ↔ market.bars.length ≤ 4096 ∧
        ∀ bar ∈ market.bars, bar.arrives = .ok bar := received_eq_ok_map_iff
  have hinterval : ∀ bar : Bar, bar.arrives = .ok bar ↔ bar.intervalNs ≠ 0 := by
    intro bar
    rw [Bar.arrives]
    split
    · next hne => exact iff_of_true rfl hne
    · next hzero => exact iff_of_false nofun hzero
  rw [List.map_id] at htrades hbars
  rw [arrives, htrades, ok_bind, bind_eq_ok]
  constructor
  · rintro ⟨bars, harrived, hview⟩
    have heq : bars = market.bars := congrArg MarketView.bars (Except.ok.inj hview)
    rw [heq] at harrived
    intro bar hbar
    exact (hinterval bar).mp ((hbars.mp harrived).2 bar hbar)
  · intro hall
    exact ⟨market.bars, hbars.mpr ⟨h.bars, fun bar hbar => (hinterval bar).mpr (hall bar hbar)⟩, rfl⟩

theorem reads_marketView : Reads marketView (encodeMarket market) market.arrives := by
  have hlatest : market.trades.length ≤ 512 →
      (market.trades.reverse.take 512).reverse = market.trades := by
    intro h
    rw [List.take_of_length_le (by rw [List.length_reverse]; exact h), List.reverse_reverse]
  apply (reads_u128 _).value
  apply (reads_quoteView _).value
  apply (reads_lastView _).value
  apply (reads_quality _).value
  apply (reads_quality _).value
  apply (reads_u8 _).value
  apply (reads_bookTopView _).value
  apply (reads_shortCollection (by omega) hlatest fun trade _ => reads_tradeView trade).next
  intro trades _
  apply (reads_collection (by omega) fun bar _ => reads_barView bar).next
  intro bars _
  exact reads_pure _

end MarketSnapshot

-- Plans

namespace AutonomousAction

variable (action : AutonomousAction)

/-- The reasons are within the bound of the terminal, and the scale is finite. -/
structure Fits : Prop where
  reasons : action.reasonCodes.length ≤ 256
  scale : isFinite (action.scale.getD 0) = true

/-- The texts can be read. -/
structure Legible : Prop where
  proposalId : Cuttable (action.proposalId.getD "")
  reasons : ∀ reason ∈ action.reasonCodes, Cuttable reason

def arrives : Except String AutonomyActionView := do
  let proposal ← sent (action.proposalId.getD "")
  let reasonCodes ← received 256 "autonomous reason collection exceeds bound"
    action.reasonCodes sent
  pure ⟨actionNames.getD (actionTypeCode action.actionType).toNat "",
    if proposal = "" then none else some proposal, action.scale, reasonCodes⟩

theorem exists_arrives_iff (h : action.Fits) :
    (∃ view, action.arrives = .ok view) ↔ action.Legible := by
  simp only [arrives, bind_eq_ok]
  constructor
  · rintro ⟨_, _, hproposal, _, hreasons, -⟩
    exact ⟨exists_sent_iff.mp ⟨_, hproposal⟩, (exists_received_sent_iff.mp ⟨_, hreasons⟩).2⟩
  · intro hlegible
    obtain ⟨_, hproposal⟩ := exists_sent_iff.mpr hlegible.proposalId
    obtain ⟨_, hreasons⟩ := exists_received_sent_iff.mpr ⟨h.reasons, hlegible.reasons⟩
    exact ⟨_, _, hproposal, _, hreasons, rfl⟩

theorem reads_actionView (h : action.Fits) :
    Reads actionView (encodeAction action) action.arrives := by
  have hscale : Reads (optionalOf f64) (optionBytes le64 0 action.scale) (.ok action.scale) := by
    have hzero : sentFloat 0 = .ok 0 := rfl
    have hread := reads_optionalOf 0 hzero reads_f64 action.scale
    have hfinite := h.scale
    cases hoption : action.scale with
    | none =>
      rw [hoption] at hread
      exact hread
    | some scale =>
      rw [hoption] at hread hfinite
      have hsent : sentFloat scale = .ok scale := sentFloat_eq_ok_iff.mpr ⟨hfinite, rfl⟩
      have hmapped : (some scale).mapM sentFloat = .ok (some scale) := by
        show (some <$> sentFloat scale) = _
        rw [hsent]
        rfl
      rwa [hmapped] at hread
  have htake : action.reasonCodes.take 256 = action.reasonCodes :=
    List.take_of_length_le h.reasons
  rw [encodeAction, htake]
  apply (reads_actionType _).value
  apply (reads_string _).next
  intro proposal _
  apply hscale.value
  apply (reads_shortCollection (by omega) (fun _ => rfl) fun s _ => reads_string s).next
  intro reasonCodes _
  exact reads_pure _

end AutonomousAction

namespace AutonomyPlanSnapshot

variable (plan : AutonomyPlanSnapshot)

/-- The actions are within the bounds of the terminal, and their scales are finite. -/
structure Fits : Prop where
  count : plan.actions.length ≤ 4096
  actions : ∀ action ∈ plan.actions, action.Fits

/-- The texts can be read. -/
structure Legible : Prop where
  planId : Cuttable plan.planId
  actions : ∀ action ∈ plan.actions, action.Legible

def arrives : Except String (Option AutonomyPlanView) := do
  let id ← sent plan.planId
  let actions ← received 4096 "autonomous action collection exceeds bound" plan.actions
    (·.arrives)
  pure (some ⟨id, planStateNames.getD (planStateCode plan.state).toNat "", plan.generatedAtNs,
    plan.expiresAtNs, actions⟩)

/-- **A plan** is read when its texts can be. -/
theorem exists_arrives_iff (h : plan.Fits) :
    (∃ view, plan.arrives = .ok view) ↔ plan.Legible := by
  have hactions : (∃ views, received 4096 "autonomous action collection exceeds bound"
      plan.actions (·.arrives) = .ok views) ↔ ∀ action ∈ plan.actions, action.Legible := by
    rw [exists_received_iff, and_iff_right h.count]
    exact forall₂_congr fun action haction => action.exists_arrives_iff (h.actions action haction)
  simp only [arrives, bind_eq_ok]
  constructor
  · rintro ⟨_, _, hid, _, harrived, -⟩
    exact ⟨exists_sent_iff.mp ⟨_, hid⟩, hactions.mp ⟨_, harrived⟩⟩
  · intro hlegible
    obtain ⟨_, hid⟩ := exists_sent_iff.mpr hlegible.planId
    obtain ⟨_, harrived⟩ := hactions.mpr hlegible.actions
    exact ⟨_, _, hid, _, harrived, rfl⟩

end AutonomyPlanSnapshot

/-- A plan that may be absent, as it arrives. -/
def planArrives : Option AutonomyPlanSnapshot → Except String (Option AutonomyPlanView)
  | none => .ok none
  | some plan => plan.arrives

theorem reads_planView {plan : Option AutonomyPlanSnapshot} (h : ∀ p ∈ plan, p.Fits) :
    Reads planView (encodePlan plan) (planArrives plan) := by
  cases plan with
  | none => exact fun rest => rfl
  | some plan =>
    obtain ⟨hcount, hactions⟩ := h plan rfl
    have htake : plan.actions.take 4096 = plan.actions := List.take_of_length_le hcount
    rw [encodePlan, htake]
    apply (reads_u8 1).value
    apply (reads_string _).next
    intro id _
    apply (reads_planState _).value
    apply (reads_u64 _).value
    apply (reads_u64 _).value
    apply (reads_shortCollection (by omega) (fun _ => rfl)
      fun action haction => action.reads_actionView (hactions action haction)).next
    intro actions _
    exact reads_pure _

theorem exists_planArrives_iff {plan : Option AutonomyPlanSnapshot} (h : ∀ p ∈ plan, p.Fits) :
    (∃ view, planArrives plan = .ok view) ↔ ∀ p ∈ plan, p.Legible := by
  cases plan with
  | none => exact iff_of_true ⟨none, rfl⟩ nofun
  | some plan =>
    rw [planArrives, plan.exists_arrives_iff (h plan rfl)]
    constructor
    · rintro hlegible _ ⟨⟩
      exact hlegible
    · intro hall
      exact hall plan rfl

end Terminal

end InsiderTrader
