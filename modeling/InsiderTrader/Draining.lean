import InsiderTrader.Restart

/-!
# Draining

Orders leave a running host only. A drained host stays out of that state until
the next reconciliation, which overwrites the lifecycle.

## Main definitions

- `Call.keepsDrain` — a call that leaves a draining host alone

## Main results

- `Moves.sends_eq_of_notRunning` — a host that is not running sends nothing
- `drain_final` — a run without reconciliation sends nothing after `drain`
- `drain_not_final` — one reconciliation, and a drained host sends again
-/

namespace InsiderTrader

open Fallible

/-- A send by a running host. -/
def RunningOnly (s : Host) (call : BrokerCall) : Prop :=
  ∀ intent, call = .send intent → s.lifecycle = .running

theorem Op.moves_runningOnly (env : Env) (op : Op) (h : Host) :
    Moves op.shifts RunningOnly h (op.after env h) := by
  refine Moves.mono (op.moves env h) (fun _ _ hl => hl) fun s c hc => ?_
  rintro intent rfl
  cases op with
  | replaceOrder => obtain ⟨-, hc⟩ := hc; cases hc
  | _ =>
    obtain ⟨i, hi, hrun, -, -⟩ := hc
    exact hrun

/-- A host that stays among lifecycles other than running sends nothing. -/
theorem Moves.sends_eq_of_notRunning {L : Lifecycle → Lifecycle → Prop} {P : Lifecycle → Prop}
    {h h' : Host} (m : Moves L RunningOnly h h') (hP : ¬P .running)
    (hL : ∀ a b, P a → L a b → P b) (hl : P h.lifecycle) :
    sends h'.trace = sends h.trace ∧ P h'.lifecycle := by
  induction m with
  | refl => exact ⟨rfl, hl⟩
  | @tail s t _ m ih =>
    obtain ⟨hsends, hs⟩ := ih
    cases m with
    | silent hr hl => exact ⟨by rw [Host.trace, hr.trace, hsends], hl ▸ hs⟩
    | append r => exact ⟨by simp [hsends], hs⟩
    | call c hc => exact ⟨by simp [hsends, sends_passive hc], hs⟩
    | replace => exact ⟨by simp [hsends], hs⟩
    | send intent hq => exact absurd (hq intent rfl ▸ hs) hP
    | shift l hl => exact ⟨hsends, hL _ _ hs hl⟩

/-- Reconciliation is the only operation that makes a host running. -/
theorem Op.shifts_notRunning {op : Op} (hop : op ≠ .reconcileTrigger) {a b : Lifecycle}
    (hs : op.shifts a b) : b ≠ .running := by
  cases op with
  | reconcileTrigger => exact absurd rfl hop
  | drain =>
    obtain ⟨-, rfl⟩ := hs
    decide
  | stop =>
    obtain rfl := hs
    decide
  | _ => exact hs.elim

/-- A stopped host stays stopped. -/
theorem Op.shifts_stopped {op : Op} {b : Lifecycle} (hs : op.shifts .stopped b) : b = .stopped := by
  cases op with
  | reconcileTrigger =>
    obtain ⟨hne, -⟩ | ⟨heq, -⟩ := hs
    · exact absurd rfl hne
    · cases heq
  | drain => cases hs.1
  | stop => exact hs
  | _ => exact hs.elim

/-- A call that leaves a draining host alone: no reconciliation, unless the host has stopped. -/
def Call.keepsDrain (call : Call) : Prop :=
  call.op = .reconcileTrigger → call.host.lifecycle = .stopped

/-- One call that keeps a drain sends nothing. -/
theorem Call.keepsDrain.step {h : Host} {env : Env} {op : Op}
    (hc : Call.keepsDrain ⟨h, env, op⟩) (hl : h.lifecycle ≠ .running) :
    sends (op.after env h).trace = sends h.trace ∧ (op.after env h).lifecycle ≠ .running := by
  have m := op.moves_runningOnly env h
  by_cases hop : op = .reconcileTrigger
  · obtain ⟨hsends, hstop⟩ := m.sends_eq_of_notRunning (P := (· = .stopped)) (by decide)
      (fun a b ha hs => Op.shifts_stopped (ha ▸ hs)) (hc hop)
    exact ⟨hsends, by rw [hstop]; decide⟩
  · exact m.sends_eq_of_notRunning (P := (· ≠ .running)) (by decide)
      (fun a b _ hs => Op.shifts_notRunning hop hs) hl

/-- A run that keeps a drain sends nothing. -/
theorem sends_eq_of_keepsDrain {h : Host} {run : List (Env × Op)}
    (hrun : ∀ call ∈ callsFrom h run, call.keepsDrain) (hl : h.lifecycle ≠ .running) :
    sends (afterAll h run).trace = sends h.trace := by
  induction run generalizing h with
  | nil => rfl
  | cons step rest ih =>
    obtain ⟨env, op⟩ := step
    obtain ⟨hsends, hlife⟩ := (hrun ⟨h, env, op⟩ (by simp [callsFrom])).step hl
    rw [afterAll, ih (fun call hc => hrun call (by simp [callsFrom, hc])) hlife, hsends]

/-- **Draining is final without reconciliation**: after `drain`, a run whose reconciliations all
come after `stop` sends nothing. -/
theorem drain_final {h : Host} (env : Env) {run : List (Env × Op)}
    (hl : h.lifecycle = .running ∨ h.lifecycle = .reconciling)
    (hrun : ∀ call ∈ callsFrom (Op.drain.after env h) run, call.keepsDrain) :
    sends (afterAll (Op.drain.after env h) run).trace = sends (Op.drain.after env h).trace := by
  refine sends_eq_of_keepsDrain hrun ?_
  change (if h.lifecycle = .running then Lifecycle.draining else h.lifecycle) ≠ .running
  rcases hl with hl | hl <;> rw [hl] <;> decide

/-- A drained host that is asked for an order, then stopped and asked again. -/
theorem drain_final_stopped :
    let drained := Op.drain.after (Sample.env Sample.empty) Sample.running
    sends (afterAll drained [(Sample.env Sample.empty, Sample.submit 5 10),
      (Sample.env Sample.empty, .stop), (Sample.env Sample.empty, .reconcileTrigger),
      (Sample.env Sample.empty, Sample.submit 6 20)]).trace = sends drained.trace := by
  refine drain_final _ (.inl (by decide)) fun call hc => ?_
  simp only [callsFrom, List.mem_cons, List.not_mem_nil, or_false] at hc
  obtain rfl | rfl | rfl | rfl := hc
  · exact fun hop => by cases hop
  · exact fun hop => by cases hop
  · exact fun _ => rfl
  · exact fun hop => by cases hop

/-- **Draining is not final**: one reconciliation makes a drained host running again, and the
next proposal is sent. -/
theorem drain_not_final :
    let drained := Op.drain.after (Sample.env Sample.empty) Sample.running
    Sample.running.lifecycle = .running ∧
      sends (afterAll drained [(Sample.env Sample.empty, .reconcileTrigger),
        (Sample.env Sample.empty, Sample.submit 5 10)]).trace ≠ sends drained.trace := by
  decide

end InsiderTrader
