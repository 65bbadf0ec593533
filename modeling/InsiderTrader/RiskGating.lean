import Mathlib.Data.List.Basic
import InsiderTrader.Draining
import InsiderTrader.Bookkeeping

/-!
# Risk-state gating

What the risk state lets through. Planned orders pass the risk check, which
sends nothing in the closed states and only targets toward zero while reducing;
the order cap then takes the sign of the target and can turn such an order
around. Replacements are not checked at all.

## Main definitions

- `Request.Overshoots` — a request whose capped step leaves zero
- `Call.RiskGated` — what a call may order in each risk state
- `Call.reduces` — the calls that stay inside the gate

## Main results

- `Request.accepts_natAbs_le_iff` — when an accepted quantity reduces the position
- `risk_gated` — a run of such calls is gated
- `replace_not_gated`, `cap_not_gated` — the two ways around the gate
-/

namespace InsiderTrader

open MachineInt Fallible

/-- A request toward zero whose step is capped and, taking the sign of the target, leads away
from zero. -/
def Request.Overshoots (q : Request) (r : Runtime) : Prop :=
  let limits := (q.risk r).limits
  let limited := RiskEngine.positionLimited limits q.target.quantityTicks
  movesTowardZero (q.position r) q.target.quantityTicks ∧ limited ≠ 0 ∧
    limits.maxOrderTicks.natAbs < (limited - q.position r).natAbs

instance (q : Request) (r : Runtime) : Decidable (q.Overshoots r) :=
  inferInstanceAs (Decidable (_ ∧ _ ∧ _))

/-- **The gate and its slip**: in the reducing state an accepted quantity is no farther from
zero than the position, except when the request overshoots; then it is. -/
theorem Request.accepts_natAbs_le_iff {q : Request} {r : Runtime} {safe : Int}
    (ha : (q.risk r).Accepts r.portfolio q.target safe) (hstate : (q.risk r).state = .reduceOnly) :
    safe.natAbs ≤ (q.position r).natAbs ↔ ¬q.Overshoots r := by
  obtain ⟨-, hlimits, hreduces, hlimited, -⟩ := RiskEngine.accepts_iff_passes.mp ha
  have htoward : movesTowardZero (q.position r) q.target.quantityTicks = true := by
    by_contra hne
    exact hreduces ⟨hstate, hne⟩
  have hpos : 0 < (q.risk r).limits.maxPositionTicks := by omega
  have hbetween := RiskEngine.positionLimited_between hpos q.target.quantityTicks
  have hcases := RiskEngine.orderLimited_eq_some hlimited
  unfold Request.Overshoots
  simp only [htoward, true_and]
  change (_ < (_ - q.position r).natAbs ∧ safe = q.position r + _ ∨
    ¬_ < (_ - q.position r).natAbs ∧ safe = _) at hcases
  generalize RiskEngine.positionLimited _ _ = limited at *
  unfold movesTowardZero at htoward
  rcases lt_trichotomy limited 0 with hneg | rfl | hpos
  · rw [Int.sign_eq_neg_one_of_neg hneg] at hcases
    split at htoward
    · simp only [decide_eq_true_eq] at htoward; omega
    · split at htoward <;> simp only [decide_eq_true_eq] at htoward <;> omega
  · simp only [Int.sign_zero, Int.zero_mul, Int.add_zero] at hcases
    omega
  · rw [Int.sign_eq_one_of_pos hpos] at hcases
    split at htoward
    · simp only [decide_eq_true_eq] at htoward; omega
    · split at htoward <;> simp only [decide_eq_true_eq] at htoward <;> omega

-- Sweeps keep the risk engine

/-- The risk engine stays as it is. -/
abbrev Runtime.KeepsRisk : Runtime → Runtime → Prop := Same (·.risk)

/-- The risk engine of a host stays as it is. -/
abbrev Host.KeepsRisk : Host → Host → Prop := Same (·.runtime.risk)

theorem Runtime.applyBrokerEventInner_keepsRisk {event : BrokerEvent} {updatePortfolio : Bool} :
    Along KeepsRisk (applyBrokerEventInner event updatePortfolio) := by
  have horders : Along KeepsRisk
      (onOrders EngineError.transition (OrderBook.applyBrokerEvent event)) := fun _ => rfl
  refine (Along.reads _).bind fun r => ?_
  cases event with
  | filled id quantity price =>
    dsimp only
    split
    · exact Along.fail _
    · refine Along.ite (fun _ => horders) fun _ => Along.ite (fun _ => ?_) fun _ => ?_
      · exact (Along.ofExcept _).bind fun _ => horders.bind fun _ =>
          Along.bind (Along.modify fun _ => rfl) fun _ => Along.modify fun _ => rfl
      · exact horders.bind fun _ => Along.modify fun _ => rfl
  | acknowledged => exact horders
  | rejected => exact horders
  | cancelled => exact horders

namespace Host

variable {env : Env}

/-- Bookkeeping keeps the risk engine. -/
theorem keepsRisk_of_bookkeeping {α : Type} {p : Fallible Host EngineError α}
    (hp : Along (Bookkeeping fun _ => True) p) : Along KeepsRisk p :=
  hp.mono fun _ _ hb => hb.risk

theorem appendEvent_keepsRisk {record : JournalRecord} : Along KeepsRisk (appendEvent env record) :=
  keepsRisk_of_bookkeeping (appendEvent_bookkeeping trivial)

theorem recordTiming_keepsRisk {event : BrokerEvent} : Along KeepsRisk (recordTiming env event) :=
  keepsRisk_of_bookkeeping (recordTiming_bookkeeping fun _ => trivial)

theorem recordChildEvent_keepsRisk {event : BrokerEvent} :
    Along KeepsRisk (recordChildEvent env event) :=
  keepsRisk_of_bookkeeping (recordChildEvent_bookkeeping fun _ => trivial)

theorem queryOrders_keepsRisk {ids : List String} {summary : ReconcileSummary} :
    Along KeepsRisk (queryOrders env ids summary) := by
  induction ids generalizing summary with
  | nil => exact Along.ret _
  | cons id ids ih =>
    refine Along.bind (fun _ => rfl) fun answer => ?_
    split
    · refine Along.bind ?_ fun _ => ih
      exact Along.bind appendEvent_keepsRisk fun _ => Along.bind recordTiming_keepsRisk fun _ =>
        (onRuntime_same Runtime.applyBrokerEventInner_keepsRisk).bind fun _ =>
        (keepsRisk_of_bookkeeping indexFillNow_bookkeeping).bind fun _ =>
        recordChildEvent_keepsRisk
    · exact ih
    · exact ih

theorem reconcileSnapshotOrders_keepsRisk {orders : List BrokerOrderSnapshot}
    {summary : ReconcileSummary} :
    Along KeepsRisk (reconcileSnapshotOrders env orders summary) := by
  induction orders generalizing summary with
  | nil => exact Along.ret _
  | cons order orders ih =>
    refine (Along.reads _).bind fun h => Along.ite (fun _ => ?_) fun _ => ih
    split
    · exact ih
    · refine Along.bind ?_ fun _ => ih
      refine Along.bind appendEvent_keepsRisk fun _ => Along.bind recordTiming_keepsRisk fun _ =>
        (Along.reads _).bind fun _ => Along.bind
        (onRuntime_same Runtime.applyBrokerEventInner_keepsRisk).attempt fun outcome => ?_
      cases outcome with
      | error e => exact Along.ret _
      | ok _ =>
        exact (keepsRisk_of_bookkeeping indexFillNow_bookkeeping).bind fun _ =>
          (keepsRisk_of_bookkeeping (recordAttribution_bookkeeping fun _ => trivial)).bind fun _ =>
          Along.bind recordChildEvent_keepsRisk fun _ => Along.ret _

theorem adoptSnapshot_keepsRisk {snapshot : BrokerSnapshot} :
    Along KeepsRisk (adoptSnapshot env snapshot) := by
  have hadopt : Along KeepsRisk (onRuntime (Runtime.applyBrokerSnapshot snapshot)) :=
    onRuntime_same ((Along.ofExcept _).bind fun _ => Along.modify fun _ => rfl)
  exact (Along.ofExcept _).bind fun _ => Along.bind appendEvent_keepsRisk fun _ => hadopt.bind fun _ =>
    (keepsRisk_of_bookkeeping monotonicNow_bookkeeping).bind fun _ =>
    (keepsRisk_of_bookkeeping indexPortfolio_bookkeeping).bind fun _ =>
    (Along.reads _).bind fun _ => appendEvent_keepsRisk

/-- A sweep keeps the risk engine. -/
theorem reconcileSweep_keepsRisk : Along KeepsRisk (reconcileSweep env) := by
  have hbegin : Along KeepsRisk beginSweep :=
    (Along.reads _).bind fun _ => (Along.require _ _).bind fun _ => Along.modify fun _ => rfl
  have hsnapshot : Along KeepsRisk (onRuntime (Runtime.brokerSnapshot env)) :=
    onRuntime_same (Along.bind (fun _ => rfl) fun _ => Along.ofExcept _)
  have hbody : Along KeepsRisk (reconcileSnapshot env) :=
    Along.bind ((Along.reads _).bind fun _ => queryOrders_keepsRisk) fun _ => hsnapshot.bind
      fun _ => Along.bind reconcileSnapshotOrders_keepsRisk fun _ => Along.bind adoptSnapshot_keepsRisk
      fun _ => (Along.reads _).bind fun _ => Along.ret _
  have hend : Along KeepsRisk endSweep := fun _ => rfl
  exact hbegin.bind fun _ => hbody.bind fun _ => (Along.when hend).bind fun _ => Along.ret _

end Host

/-- The host an operation decides on has the risk engine it was called with. -/
theorem Op.decisionHost_risk (env : Env) (op : Op) (h : Host) :
    (op.decisionHost env h).runtime.risk = h.runtime.risk := by
  cases op with
  | reconcileTrigger => exact Host.reconcileSweep_keepsRisk h
  | _ => rfl

theorem Request.risk_state (q : Request) (r : Runtime) : (q.risk r).state = r.risk.state := by
  unfold Request.risk Runtime.effectiveRisk
  split <;> rfl

-- The gate

/-- The broker calls an operation makes. -/
def Op.newCalls (env : Env) (op : Op) (h : Host) : List BrokerCall :=
  (brokerCalls (op.after env h).trace).drop (brokerCalls h.trace).length

theorem Op.newCalls_spec {env : Env} {op : Op} {h : Host} {c : BrokerCall}
    (hc : c ∈ op.newCalls env h) : c.passive ∨ ∃ s, op.orders env h s c := by
  obtain ⟨new, heq, hnew⟩ := (op.moves env h).calls_eq
  rw [Op.newCalls, heq, List.drop_left] at hc
  exact hnew c hc

/-- Whether the complete fill of an order would leave a larger position: of a new order, or of
what is left of a known one under a replacement. -/
def Runtime.enlarges (r : Runtime) : BrokerCall → Bool
  | .send intent => (r.portfolio.quantity intent.instrumentId).natAbs <
      (r.portfolio.quantity intent.instrumentId + intent.signedTicks).natAbs
  | .replace id quantityTicks _ => (r.orders.get id).any fun record =>
      let rest := quantityTicks - record.filledQuantityTicks
      (r.portfolio.quantity record.intent.instrumentId).natAbs <
        (r.portfolio.quantity record.intent.instrumentId +
          if record.intent.side = .buy then rest else -rest).natAbs
  | _ => false

/-- What the risk state promises of a call: nothing is sent while closed, and nothing that
enlarges a position is ordered while reducing. -/
structure Call.RiskGated (call : Call) : Prop where
  closed : call.host.runtime.risk.state = .cancelOnly ∨ call.host.runtime.risk.state = .halted →
    ∀ intent, .send intent ∉ call.op.newCalls call.env call.host
  reducing : call.host.runtime.risk.state = .reduceOnly →
    ∀ c ∈ call.op.newCalls call.env call.host,
      ¬(call.op.decisionHost call.env call.host).runtime.enlarges c

/-- A call that stays inside the gate: while reducing, none of its requests overshoots, and a
replacement asks for no more than the position allows. -/
def Call.reduces (call : Call) : Prop :=
  let d := call.op.decisionHost call.env call.host
  call.host.runtime.risk.state = .reduceOnly →
    (∀ q ∈ call.op.requests call.env d, ¬q.Overshoots d.runtime) ∧
      ∀ id quantityTicks limit, call.op = .replaceOrder id quantityTicks limit →
        ¬d.runtime.enlarges (.replace id quantityTicks limit)

/-- A send carries out a request of its operation. -/
theorem Op.newCalls_send {env : Env} {op : Op} {h : Host} {intent : OrderIntent}
    (hc : .send intent ∈ op.newCalls env h) :
    ∃ q ∈ op.requests env (op.decisionHost env h),
      q.Approves (op.decisionHost env h).runtime intent := by
  obtain hp | ⟨s, hs⟩ := Op.newCalls_spec hc
  · cases hp
  · cases op with
    | replaceOrder => obtain ⟨-, hs⟩ := hs; cases hs
    | _ =>
      obtain ⟨i, hi, -, -, happ⟩ := hs
      cases hi
      exact happ

/-- A replacement is the one that was asked for. -/
theorem Op.newCalls_replace {env : Env} {op : Op} {h : Host} {id : String} {quantity : Int}
    {limit : Option Int} (hc : .replace id quantity limit ∈ op.newCalls env h) :
    op = .replaceOrder id quantity limit := by
  obtain hp | ⟨s, hs⟩ := Op.newCalls_spec hc
  · cases hp
  · cases op with
    | replaceOrder => obtain ⟨-, hs⟩ := hs; cases hs; rfl
    | _ => obtain ⟨i, hi, -⟩ := hs; cases hi

/-- One call inside the gate is gated. -/
theorem Call.reduces.riskGated {call : Call} (hc : call.reduces) : call.RiskGated := by
  constructor
  · intro hstate intent hsend
    obtain ⟨q, -, -, safe, haccepts, -⟩ := Op.newCalls_send hsend
    have hopened := (RiskEngine.accepts_iff_passes.mp haccepts).opened
    rw [q.risk_state, Op.decisionHost_risk] at hopened
    exact hopened hstate.symm
  · intro hstate c hmem henlarges
    obtain ⟨hrequests, hreplace⟩ := hc hstate
    cases c with
    | send intent =>
      obtain ⟨q, hq, hinstrument, safe, haccepts, hsigned⟩ := Op.newCalls_send hmem
      have hle := (Request.accepts_natAbs_le_iff haccepts
        (by rw [q.risk_state, Op.decisionHost_risk, hstate])).mpr (hrequests q hq)
      simp only [Runtime.enlarges, hinstrument, hsigned, Request.position,
        decide_eq_true_eq] at henlarges hle
      omega
    | replace id quantity limit =>
      exact hreplace id quantity limit (Op.newCalls_replace hmem) henlarges
    | cancel => cases henlarges
    | reconcile => cases henlarges
    | snapshot => cases henlarges

/-- **Risk-state gating**: in a run whose calls stay inside the gate, nothing is sent in the
closed states, and no order made while reducing would enlarge a position. -/
theorem risk_gated {h : Host} {run : List (Env × Op)}
    (hrun : ∀ call ∈ callsFrom h run, call.reduces) :
    ∀ call ∈ callsFrom h run, call.RiskGated :=
  fun call hc => (hrun call hc).riskGated

namespace Sample

/-- A long position of 100 in instrument 7, reported by the broker. -/
def long : BrokerSnapshot := ⟨[], [⟨7, 100⟩], ∅⟩

/-- A running host that holds the long position, in the reducing state. -/
def reducing : Host :=
  afterAll (Host.start settings) [(env long, .reconcileTrigger),
    (env long, .transitionRiskState .reduceOnly "")]

end Sample

/-- A reduction by less than the order cap, then a halt and another proposal. -/
theorem risk_gated_reducing :
    (callsFrom Sample.reducing [(Sample.env Sample.long, Sample.submit 5 60),
      (Sample.env Sample.long, .transitionRiskState .halted ""),
      (Sample.env Sample.long, Sample.submit 6 70)]).Forall Call.RiskGated := by
  have hchecks : (∀ q ∈ (Sample.submit 5 60).requests (Sample.env Sample.long) Sample.reducing,
        ¬q.Overshoots Sample.reducing.runtime) ∧
      ((Op.transitionRiskState .halted "").after (Sample.env Sample.long) ((Sample.submit 5 60).after
        (Sample.env Sample.long) Sample.reducing)).runtime.risk.state ≠ .reduceOnly := by
    decide +kernel
  refine List.forall_iff_forall_mem.mpr (risk_gated fun call hc => ?_)
  simp only [callsFrom, List.mem_cons, List.not_mem_nil, or_false] at hc
  obtain rfl | rfl | rfl := hc
  · exact fun _ => ⟨hchecks.1, fun _ _ _ hop => by cases hop⟩
  · exact fun _ => ⟨fun _ hq => by simp only [Op.requests, List.not_mem_nil] at hq,
      fun _ _ _ hop => by cases hop⟩
  · intro hstate
    dsimp only at hstate
    exact absurd hstate hchecks.2

namespace Sample

/-- A host that reduces, with an acknowledged purchase of 10. -/
def acknowledged : Host :=
  afterAll running [(env empty, submit 5 10),
    (env empty, .applyBrokerEvent (.acknowledged (orderId 5) "b-1")),
    (env empty, .transitionRiskState .reduceOnly "")]

end Sample

/-- **Replacements are not gated**: while reducing, an acknowledged order is replaced by a larger
one. -/
theorem replace_not_gated :
    ¬∀ call ∈ callsFrom Sample.acknowledged
      [(Sample.env Sample.empty, .replaceOrder (Sample.orderId 5) 50 none)], call.RiskGated := by
  intro hgated
  have hcall := hgated ⟨Sample.acknowledged, Sample.env Sample.empty,
    .replaceOrder (Sample.orderId 5) 50 none⟩ (by simp only [callsFrom, List.mem_singleton])
  have hrun : Sample.acknowledged.runtime.risk.state = .reduceOnly ∧
      ∃ c ∈ (Op.replaceOrder (Sample.orderId 5) 50 none).newCalls (Sample.env Sample.empty)
        Sample.acknowledged, ((Op.replaceOrder (Sample.orderId 5) 50 none).decisionHost
          (Sample.env Sample.empty) Sample.acknowledged).runtime.enlarges c := by
    decide +kernel
  obtain ⟨hstate, c, hc, hlarger⟩ := hrun
  have hreducing := hcall.reducing
  dsimp only at hreducing
  exact hreducing hstate c hc hlarger

/-- **The capped step is not gated**: while reducing, a target of 10 from 100 is sent as a
purchase. -/
theorem cap_not_gated :
    ¬∀ call ∈ callsFrom Sample.reducing [(Sample.env Sample.long, Sample.submit 5 10)],
      call.RiskGated := by
  intro hgated
  have hcall := hgated ⟨Sample.reducing, Sample.env Sample.long, Sample.submit 5 10⟩
    (by simp only [callsFrom, List.mem_singleton])
  have hrun : Sample.reducing.runtime.risk.state = .reduceOnly ∧
      ∃ c ∈ (Sample.submit 5 10).newCalls (Sample.env Sample.long) Sample.reducing,
        ((Sample.submit 5 10).decisionHost (Sample.env Sample.long)
          Sample.reducing).runtime.enlarges c := by
    decide +kernel
  obtain ⟨hstate, c, hc, hlarger⟩ := hrun
  have hreducing := hcall.reducing
  dsimp only at hreducing
  exact hreducing hstate c hc hlarger

end InsiderTrader
