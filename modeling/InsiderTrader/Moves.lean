import InsiderTrader.Operation
import Mathlib.Logic.Relation

/-!
# Moves of the host

What a host does to the outside and to its order ids, one effect at a time:
silent changes, appends, broker calls and lifecycle changes. Every operation is
a sequence of moves, and a crash leaves the trace of a state between two moves.

## Main definitions

- `sends` — the orders a trace sends to the broker
- `Move` — one move, where orders meet a condition and lifecycle changes another
- `Quiet` — moves that neither order nor change the lifecycle

## Main results

- `Moves.calls_eq` — the new orders of a sequence of moves meet the condition
- `Moves.trace_mono`, `Moves.hasOrder` — traces and order ids only grow
-/

namespace InsiderTrader

open Relation

/-- The orders a trace sends, oldest first. -/
def sends (trace : List Effect) : List OrderIntent :=
  trace.filterMap fun
    | .call (.send intent) => some intent
    | _ => none

/-- An intent of this client order id is in the journal of a trace. -/
def Journaled (trace : List Effect) (clientOrderId : String) : Prop :=
  ∃ r : IntentRecord, .append (.orderIntent r) ∈ trace ∧ r.clientOrderId = clientOrderId

/-- A call that neither sends an order nor changes one. -/
def BrokerCall.passive : BrokerCall → Bool
  | .send _ | .replace _ _ _ => false
  | .cancel _ | .reconcile _ | .snapshot => true

@[simp] theorem sends_append (t u : List Effect) : sends (t ++ u) = sends t ++ sends u := by
  simp [sends]

@[simp] theorem sends_send (i : OrderIntent) : sends [.call (.send i)] = [i] := rfl

@[simp] theorem sends_replace (id : String) (quantityTicks : Int) (limit : Option Int) :
    sends [.call (.replace id quantityTicks limit)] = [] := rfl

@[simp] theorem sends_record (r : JournalRecord) : sends [.append r] = [] := rfl

theorem sends_passive {c : BrokerCall} (hc : c.passive) : sends [.call c] = [] := by
  cases c <;> first | rfl | cases hc

/-- A journal sends nothing. -/
theorem sends_journal (journal : List JournalRecord) : sends (journal.map .append) = [] := by
  simp [sends]

@[simp] theorem brokerCalls_append (t u : List Effect) :
    brokerCalls (t ++ u) = brokerCalls t ++ brokerCalls u := by
  simp [brokerCalls]

@[simp] theorem brokerCalls_call (c : BrokerCall) : brokerCalls [.call c] = [c] := rfl

@[simp] theorem brokerCalls_record (r : JournalRecord) : brokerCalls [.append r] = [] := rfl

theorem Journaled.mono {t u : List Effect} {id : String} (h : Journaled t id) (htu : t <+: u) :
    Journaled u id := by
  obtain ⟨r, hr, hid⟩ := h
  exact ⟨r, htu.subset hr, hid⟩

@[simp] theorem Host.trace_emit (e : Effect) (h : Host) : (h.emit e).trace = h.trace ++ [e] := rfl

/-- A change of the runtime that sends and forgets nothing. -/
structure Runtime.Silent (r r' : Runtime) : Prop where
  trace : r'.trace = r.trace
  hasOrder : ∀ id, r.hasOrder id → r'.hasOrder id

instance : Std.Refl Runtime.Silent := ⟨fun _ => ⟨rfl, fun _ h => h⟩⟩

instance : IsTrans Runtime Runtime.Silent :=
  ⟨fun _ _ _ h h' => ⟨h'.trace.trans h.trace, fun id hid => h'.hasOrder id (h.hasOrder id hid)⟩⟩

/-- One move of the host. An order sent or replaced meets `Q` at the host it starts from; a
sent order is the first of its id, and is known afterwards; a lifecycle change is in `L`. -/
inductive Move (L : Lifecycle → Lifecycle → Prop) (Q : Host → BrokerCall → Prop) :
    Host → Host → Prop where
  | silent {h h' : Host} (hr : h.runtime.Silent h'.runtime) (hl : h'.lifecycle = h.lifecycle) :
    Move L Q h h'
  | append (h : Host) (record : JournalRecord) : Move L Q h (h.emit (.append record))
  | call (h : Host) (c : BrokerCall) (hc : c.passive) : Move L Q h (h.emit (.call c))
  | replace (h : Host) (id : String) (quantityTicks : Int) (limitPriceTicks : Option Int)
    (hq : Q h (.replace id quantityTicks limitPriceTicks)) :
    Move L Q h (h.emit (.call (.replace id quantityTicks limitPriceTicks)))
  | send {h h' : Host} (intent : OrderIntent) (hq : Q h (.send intent))
    (fresh : ¬h.runtime.hasOrder intent.clientOrderId)
    (known : h'.runtime.hasOrder intent.clientOrderId)
    (hasOrder : ∀ id, h.runtime.hasOrder id → h'.runtime.hasOrder id)
    (trace : h'.trace = h.trace ++ [.call (.send intent)])
    (hl : h'.lifecycle = h.lifecycle) : Move L Q h h'
  | shift (h : Host) (l : Lifecycle) (hl : L h.lifecycle l) : Move L Q h { h with lifecycle := l }

/-- A sequence of moves. -/
abbrev Moves (L : Lifecycle → Lifecycle → Prop) (Q : Host → BrokerCall → Prop) :
    Host → Host → Prop :=
  ReflTransGen (Move L Q)

/-- Moves that neither order nor change the lifecycle. -/
abbrev Quiet : Host → Host → Prop := Moves (fun _ _ => False) (fun _ _ => False)

variable {L L' : Lifecycle → Lifecycle → Prop} {Q Q' : Host → BrokerCall → Prop} {h h' : Host}

instance : Std.Refl (Moves L Q) := ⟨fun _ => .refl⟩

theorem Move.mono (m : Move L Q h h') (hL : ∀ a b, L a b → L' a b) (hQ : ∀ s c, Q s c → Q' s c) :
    Move L' Q' h h' := by
  cases m with
  | silent hr hl => exact .silent hr hl
  | append record => exact .append _ record
  | call c hc => exact .call _ c hc
  | replace id quantity limit hq => exact .replace _ id quantity limit (hQ _ _ hq)
  | send intent hq fresh known orders trace hl =>
    exact .send intent (hQ _ _ hq) fresh known orders trace hl
  | shift l hl => exact .shift _ l (hL _ _ hl)

theorem Moves.mono (m : Moves L Q h h') (hL : ∀ a b, L a b → L' a b)
    (hQ : ∀ s c, Q s c → Q' s c) : Moves L' Q' h h' :=
  ReflTransGen.mono (fun _ _ m => Move.mono m hL hQ) _ _ m

theorem Quiet.moves (m : Quiet h h') : Moves L Q h h' :=
  Moves.mono m (fun _ _ => False.elim) (fun _ _ => False.elim)

-- What a sequence of moves leaves behind

theorem Move.trace_mono (m : Move L Q h h') : h.trace <+: h'.trace := by
  cases m with
  | silent hr hl => exact ⟨[], by rw [Host.trace, Host.trace, hr.trace, List.append_nil]⟩
  | append => exact List.prefix_append _ _
  | call => exact List.prefix_append _ _
  | replace => exact List.prefix_append _ _
  | send _ _ _ _ _ trace => rw [trace]; exact List.prefix_append _ _
  | shift => exact List.prefix_rfl

theorem Moves.trace_mono (m : Moves L Q h h') : h.trace <+: h'.trace := by
  induction m with
  | refl => exact List.prefix_rfl
  | tail _ m ih => exact ih.trans m.trace_mono

theorem Move.hasOrder (m : Move L Q h h') {id : String} (hid : h.runtime.hasOrder id) :
    h'.runtime.hasOrder id := by
  cases m with
  | silent hr hl => exact hr.hasOrder id hid
  | append => exact hid
  | call => exact hid
  | replace => exact hid
  | send _ _ _ _ orders => exact orders id hid
  | shift => exact hid

theorem Moves.hasOrder (m : Moves L Q h h') {id : String} (hid : h.runtime.hasOrder id) :
    h'.runtime.hasOrder id := by
  induction m with
  | refl => exact hid
  | tail _ m ih => exact m.hasOrder ih

theorem Move.lifecycle (m : Move (fun _ _ => False) Q h h') : h'.lifecycle = h.lifecycle := by
  cases m with
  | silent hr hl => exact hl
  | append => rfl
  | call => rfl
  | replace => rfl
  | send _ _ _ _ _ _ hl => exact hl
  | shift l hl => exact hl.elim

theorem Moves.lifecycle (m : Moves (fun _ _ => False) Q h h') : h'.lifecycle = h.lifecycle := by
  induction m with
  | refl => rfl
  | tail _ m ih => rw [m.lifecycle, ih]

/-- The new calls of a sequence of moves are passive or were made at hosts that met the
condition. -/
theorem Moves.calls_eq (m : Moves L Q h h') :
    ∃ new, brokerCalls h'.trace = brokerCalls h.trace ++ new ∧
      ∀ c ∈ new, c.passive ∨ ∃ s, Q s c := by
  induction m with
  | refl => exact ⟨[], by simp, by simp⟩
  | @tail s t _ m ih =>
    obtain ⟨new, heq, hnew⟩ := ih
    -- one more call at the end, if the move makes one
    have hcall : ∀ c : BrokerCall, t.trace = s.trace ++ [.call c] → (c.passive ∨ ∃ s, Q s c) →
        ∃ new, brokerCalls t.trace = brokerCalls h.trace ++ new ∧
          ∀ c ∈ new, c.passive ∨ ∃ s, Q s c := by
      intro c htrace hc
      refine ⟨new ++ [c], by simp [htrace, heq], fun c' hc' => ?_⟩
      rcases List.mem_append.mp hc' with hc' | hc'
      · exact hnew c' hc'
      · rw [List.mem_singleton.mp hc']
        exact hc
    cases m with
    | silent hr hl => exact ⟨new, by rw [← heq, Host.trace, hr.trace], hnew⟩
    | append r => exact ⟨new, by simp [heq], hnew⟩
    | call c hc => exact hcall c rfl (.inl hc)
    | replace id quantity limit hq => exact hcall _ rfl (.inr ⟨s, hq⟩)
    | send intent hq fresh known orders trace hl => exact hcall _ trace (.inr ⟨s, hq⟩)
    | shift => exact ⟨new, heq, hnew⟩

/-- Quiet moves send nothing. -/
theorem Quiet.sends_eq (m : Quiet h h') : sends h'.trace = sends h.trace := by
  induction m with
  | refl => rfl
  | tail _ m ih =>
    rw [← ih]
    cases m with
    | silent hr hl => rw [Host.trace, hr.trace]
    | append r => simp
    | call c hc => simp [sends_passive hc]
    | replace _ _ _ hq => exact hq.elim
    | send _ hq => exact hq.elim
    | shift _ hl => exact hl.elim

end InsiderTrader
