import InsiderTrader.Library.Monitor

/-!
# The event bus

A bounded queue that any number of threads send to and receive from. Those who
wait for a value and those who wait for space share one condition variable, and
a thread that sends or receives wakes one of them, of either kind.

## Main definitions

- `BusState.send`, `BusState.recv` — the critical sections of the calls
- `Bus` — the bus with the calls of all threads
- `Bus.Lossless` — no one waits for what is there, and what is received was sent
- `Bus.misdirects` — a turn wakes one of the kind that has nothing to do

## Main results

- `Bus.sound_step`, `Bus.attended_of_good` — what every turn keeps
- `wakeups_along` — runs that wake those who have something to do
-/

namespace InsiderTrader

/-- Why a value was not sent. -/
inductive SendError (α : Type) where
  | full (value : α)
  | closed (value : α)
  deriving DecidableEq

/-- Why no value was received. -/
inductive RecvError where
  | empty
  | closed
  deriving DecidableEq

/-- A call of the bus. -/
inductive BusCall (α : Type) where
  | trySend (value : α)
  | send (value : α)
  | tryRecv
  | recv
  | close
  deriving DecidableEq

/-- What a call returns. -/
inductive BusAnswer (α : Type) where
  | sent (result : Except (SendError α) Unit)
  | received (result : Except RecvError α)
  | closed

/-- What the lock of a bus guards. -/
structure BusState (α : Type) where
  queue : List α
  closed : Bool
  receivers : ℕ
  deriving DecidableEq

/-- What a critical section of a call comes to, and the state it leaves. -/
abbrev BusSection (α : Type) : Type := Monitor.Outcome (BusAnswer α) × BusState α

namespace BusState

variable {α : Type}

/-- No value is accepted any more. -/
def refuses (s : BusState α) : Prop := s.closed ∨ s.receivers = 0

instance (s : BusState α) : Decidable s.refuses := inferInstanceAs (Decidable (_ ∨ _))

/-- Add a value at the end. -/
def push (value : α) (s : BusState α) : BusSection α :=
  (.returns (.sent (.ok ())) .one, { s with queue := s.queue ++ [value] })

/-- Attempt to enqueue without waiting for capacity. -/
def trySend (capacity : ℕ) (value : α) (s : BusState α) : BusSection α :=
  if s.refuses then (.returns (.sent (.error (.closed value))) .nobody, s)
  else if s.queue.length = capacity then (.returns (.sent (.error (.full value))) .nobody, s)
  else s.push value

/-- Wait for capacity, or return that the bus is closed. -/
def send (capacity : ℕ) (value : α) (s : BusState α) : BusSection α :=
  if s.queue.length = capacity ∧ ¬s.refuses then (.waits, s)
  else if s.refuses then (.returns (.sent (.error (.closed value))) .nobody, s)
  else s.push value

/-- Remove one value without waiting. -/
def tryRecv (s : BusState α) : BusSection α :=
  match s.queue with
  | value :: rest => (.returns (.received (.ok value)) .one, { s with queue := rest })
  | [] => (.returns (.received (.error (if s.closed then .closed else .empty))) .nobody, s)

/-- Wait until a value arrives or the bus closes. -/
def recv (s : BusState α) : BusSection α :=
  match s.queue with
  | value :: rest => (.returns (.received (.ok value)) .one, { s with queue := rest })
  | [] =>
    if s.closed then (.returns (.received (.error .closed)) .nobody, s) else (.waits, s)

/-- Close the bus, after which no new values are accepted. -/
def close (s : BusState α) : BusSection α :=
  (.returns .closed .all, { s with closed := true })

/-- The critical section of a call. -/
def run (capacity : ℕ) : BusCall α → BusState α → BusSection α
  | .trySend value, s => s.trySend capacity value
  | .send value, s => s.send capacity value
  | .tryRecv, s => s.tryRecv
  | .recv, s => s.recv
  | .close, s => s.close

end BusState

/-- A bus with the calls of all threads. A call stands for the thread that made it. -/
abbrev Bus (α : Type) : Type := Monitor (BusState α) (BusCall α) (BusAnswer α)

namespace Bus

open Monitor

variable {α : Type}

/-- A bus of a fixed capacity, unless it is zero, that nobody has called. -/
def new (capacity : ℕ) : Option (Bus α) :=
  if 0 < capacity then some (start ⟨[], false, 1⟩) else none

/-- The value that a returned call sent. -/
def sentBy : BusCall α × BusAnswer α → Option α
  | (.trySend value, .sent (.ok _)) | (.send value, .sent (.ok _)) => some value
  | _ => none

/-- The value that a returned call received. -/
def receivedBy : BusCall α × BusAnswer α → Option α
  | (_, .received (.ok value)) => some value
  | _ => none

/-- The values that were accepted, in the order they were. -/
def accepted (b : Bus α) : List α := b.returned.filterMap sentBy

/-- The values that were received, in the order they were. -/
def received (b : Bus α) : List α := b.returned.filterMap receivedBy

/-- All who are calling wait, one of them for a value while there is one. -/
def StrandsReceiver (b : Bus α) : Prop :=
  b.ready = [] ∧ .recv ∈ b.waiting ∧ b.state.queue ≠ []

/-- All who are calling wait, one of them for space while there is some. -/
def StrandsSender (capacity : ℕ) (b : Bus α) : Prop :=
  b.ready = [] ∧ (∃ value, .send value ∈ b.waiting) ∧ b.state.queue.length < capacity

/-- What was received, and then what is queued, are the values that were accepted, each once and
in their order. -/
def InOrder (b : Bus α) : Prop := b.accepted = b.received ++ b.state.queue

/-- No wakeup is lost, and no value. -/
structure Lossless (capacity : ℕ) (b : Bus α) : Prop where
  receivers : ¬b.StrandsReceiver
  senders : ¬b.StrandsSender capacity
  inOrder : b.InOrder

end Bus

namespace BusCall

variable {α : Type}

/-- The call adds a value. -/
def sends : BusCall α → Bool
  | trySend _ | send _ => true
  | tryRecv | recv | close => false

/-- The call takes a value. -/
def receives : BusCall α → Bool
  | tryRecv | recv => true
  | trySend _ | send _ | close => false

theorem sends_or_receives {c : BusCall α} (h : c ≠ .close) : c.sends = true ∨ c.receives = true := by
  cases c with
  | trySend _ | send _ => exact .inl rfl
  | tryRecv | recv => exact .inr rfl
  | close => exact absurd rfl h

end BusCall

namespace Bus

open Monitor

variable {α : Type}

/-- The turn fills the queue and wakes one who sends while another waits to receive, or empties it
and wakes one who receives while another waits to send. -/
def misdirects (capacity : ℕ) (b : Bus α) : Turn (BusCall α) → Bool
  | .call _ | .rouse _ => false
  | .run thread waiter =>
    match b.ready[thread]?, b.waiting[b.pick waiter]? with
    | some c, some w =>
      c.sends ∧ b.state.queue.length + 1 = capacity ∧ w.sends ∧ b.waiting.any (·.receives) ∨
        c.receives ∧ b.state.queue.length = 1 ∧ w.receives ∧ b.waiting.any (·.sends)
    | _, _ => false

-- The sections of the calls

variable {capacity : ℕ} {c : BusCall α} {s : BusState α} {b : Bus α}

/-- **What a section comes to**: a value is added, one is taken, the bus is closed, or nothing
changes. -/
theorem run_cases (capacity : ℕ) (c : BusCall α) (s : BusState α) :
    (∃ value, (c = .trySend value ∨ c = .send value) ∧ ¬s.refuses ∧ s.queue.length ≠ capacity ∧
        s.run capacity c = s.push value) ∨
      (∃ value rest, c.receives ∧ s.queue = value :: rest ∧
        s.run capacity c = (.returns (.received (.ok value)) .one, { s with queue := rest })) ∨
      (c = .close ∧ s.run capacity c = s.close) ∨
      (c.sends ∧ (s.refuses ∨ s.queue.length = capacity) ∨ c.receives ∧ s.queue = []) ∧
        ((s.run capacity c = (.waits, s) ∧ s.closed = false) ∨
          ∃ answer, s.run capacity c = (.returns answer .nobody, s) ∧
            sentBy (c, answer) = none ∧ receivedBy (c, answer) = none) := by
  cases c with
  | close => exact .inr (.inr (.inl ⟨rfl, rfl⟩))
  | trySend value =>
    simp only [BusState.run, BusState.trySend]
    by_cases hrefuses : s.refuses
    · rw [if_pos hrefuses]
      exact .inr (.inr (.inr ⟨.inl ⟨rfl, .inl hrefuses⟩, .inr ⟨_, rfl, rfl, rfl⟩⟩))
    rw [if_neg hrefuses]
    by_cases hfull : s.queue.length = capacity
    · rw [if_pos hfull]
      exact .inr (.inr (.inr ⟨.inl ⟨rfl, .inr hfull⟩, .inr ⟨_, rfl, rfl, rfl⟩⟩))
    rw [if_neg hfull]
    exact .inl ⟨value, .inl rfl, hrefuses, hfull, rfl⟩
  | send value =>
    simp only [BusState.run, BusState.send]
    by_cases hrefuses : s.refuses
    · rw [if_neg (fun h => h.2 hrefuses), if_pos hrefuses]
      exact .inr (.inr (.inr ⟨.inl ⟨rfl, .inl hrefuses⟩, .inr ⟨_, rfl, rfl, rfl⟩⟩))
    by_cases hfull : s.queue.length = capacity
    · rw [if_pos ⟨hfull, hrefuses⟩]
      refine .inr (.inr (.inr ⟨.inl ⟨rfl, .inr hfull⟩, .inl ⟨rfl, ?_⟩⟩))
      exact Bool.eq_false_iff.mpr fun hclosed => hrefuses (.inl hclosed)
    rw [if_neg fun h => hfull h.1, if_neg hrefuses]
    exact .inl ⟨value, .inr rfl, hrefuses, hfull, rfl⟩
  | tryRecv =>
    simp only [BusState.run, BusState.tryRecv]
    cases hqueue : s.queue with
    | cons value rest => exact .inr (.inl ⟨value, rest, rfl, rfl, rfl⟩)
    | nil => exact .inr (.inr (.inr ⟨.inr ⟨rfl, rfl⟩, .inr ⟨_, rfl, rfl, rfl⟩⟩))
  | recv =>
    simp only [BusState.run, BusState.recv]
    cases hqueue : s.queue with
    | cons value rest => exact .inr (.inl ⟨value, rest, rfl, rfl, rfl⟩)
    | nil =>
      dsimp only
      refine .inr (.inr (.inr ⟨.inr ⟨rfl, rfl⟩, ?_⟩))
      by_cases hclosed : s.closed
      · rw [if_pos hclosed]
        exact .inr ⟨_, rfl, rfl, rfl⟩
      · rw [if_neg hclosed]
        exact .inl ⟨rfl, Bool.eq_false_iff.mpr hclosed⟩

/-- Whom a call wakes: it adds a value, takes one, or closes the bus. -/
theorem signals_iff : Signals (BusState.run capacity) c s ↔
    c.sends ∧ ¬s.refuses ∧ s.queue.length ≠ capacity ∨ c.receives ∧ s.queue ≠ [] ∨ c = .close := by
  obtain ⟨value, hc, hopen, hspace, hrun⟩ | ⟨value, rest, hc, hqueue, hrun⟩ | ⟨rfl, hrun⟩ |
      ⟨hidle, hrest⟩ := run_cases capacity c s
  · have hsends : c.sends = true := by obtain rfl | rfl := hc <;> rfl
    exact iff_of_true ⟨_, .one, congrArg Prod.fst hrun, nofun⟩ (.inl ⟨hsends, hopen, hspace⟩)
  · refine iff_of_true ⟨_, .one, congrArg Prod.fst hrun, nofun⟩ (.inr (.inl ⟨hc, ?_⟩))
    rw [hqueue]
    exact List.cons_ne_nil value rest
  · exact iff_of_true ⟨_, .all, congrArg Prod.fst hrun, nofun⟩ (.inr (.inr rfl))
  · refine iff_of_false ?_ ?_
    · obtain ⟨hrun, -⟩ | ⟨answer, hrun, -⟩ := hrest
      · exact not_signals_of_waits (congrArg Prod.fst hrun)
      · exact not_signals_of_nobody (congrArg Prod.fst hrun)
    · obtain ⟨hc, hfull⟩ | ⟨hc, hempty⟩ := hidle
      · rintro (⟨-, hopen, hspace⟩ | ⟨hc', -⟩ | rfl)
        · exact hfull.elim hopen hspace
        · cases c <;> cases hc <;> cases hc'
        · cases hc
      · rintro (⟨hc', -⟩ | ⟨-, hsome⟩ | rfl)
        · cases c <;> cases hc <;> cases hc'
        · exact hsome hempty
        · cases hc

theorem quiet_run : Quiet (BusState.run (α := α) capacity) := by
  intro c s hnot
  obtain ⟨value, hc, hopen, hspace, hrun⟩ | ⟨value, rest, hc, hqueue, hrun⟩ | ⟨rfl, hrun⟩ |
      ⟨-, ⟨hrun, -⟩ | ⟨answer, hrun, -⟩⟩ := run_cases capacity c s
  · exact absurd ⟨_, .one, congrArg Prod.fst hrun, nofun⟩ hnot
  · exact absurd ⟨_, .one, congrArg Prod.fst hrun, nofun⟩ hnot
  · exact absurd ⟨_, .all, congrArg Prod.fst hrun, nofun⟩ hnot
  · rw [hrun]
  · rw [hrun]

-- What every turn keeps

/-- What holds of the guarded state and the answers. -/
structure Consistent (capacity : ℕ) (s : BusState α) (returned : List (BusCall α × BusAnswer α)) :
    Prop where
  receivers : s.receivers = 1
  bounded : s.queue.length ≤ capacity
  inOrder : returned.filterMap sentBy = returned.filterMap receivedBy ++ s.queue

/-- What holds of a bus between the sections. -/
structure Sound (capacity : ℕ) (b : Bus α) : Prop where
  consistent : Consistent capacity b.state b.returned
  waiting : ∀ c ∈ b.waiting, b.state.closed = false ∧ c ≠ .close
  stalled : Stalled (BusState.run capacity) b

theorem consistent_step (t : Turn (BusCall α)) (h : Consistent capacity b.state b.returned) :
    Consistent capacity (step (BusState.run capacity) t b).state
      (step (BusState.run capacity) t b).returned := by
  refine inv_step (I := Consistent capacity) (fun c s log h hwaits => ?_)
    (fun c s log answer wakes h hreturns => ?_) t h
  · rwa [quiet_run c s (not_signals_of_waits hwaits)]
  obtain ⟨value, hc, hopen, hspace, hrun⟩ | ⟨value, rest, hc, hqueue, hrun⟩ | ⟨rfl, hrun⟩ |
      ⟨-, ⟨hrun, -⟩ | ⟨answer', hrun, hsent, hreceived⟩⟩ := run_cases capacity c s
  · rw [hrun] at hreturns ⊢
    cases hreturns
    refine ⟨h.receivers, ?_, ?_⟩
    · have hlt := Nat.lt_of_le_of_ne h.bounded hspace
      rwa [BusState.push, List.length_append]
    · have hone : sentBy (c, .sent (.ok ())) = some value := by obtain rfl | rfl := hc <;> rfl
      rw [List.filterMap_append, List.filterMap_append, h.inOrder, List.filterMap_cons_some hone,
        List.filterMap_cons_none (show receivedBy (c, .sent (.ok ())) = none from rfl)]
      simp [BusState.push]
  · rw [hrun] at hreturns ⊢
    cases hreturns
    refine ⟨h.receivers, ?_, ?_⟩
    · have hle := h.bounded
      rw [hqueue] at hle
      exact Nat.le_of_succ_le hle
    · have hnone : sentBy (c, .received (.ok value)) = none := by cases c <;> rfl
      rw [List.filterMap_append, List.filterMap_append, h.inOrder, hqueue,
        List.filterMap_cons_none hnone,
        List.filterMap_cons_some (show receivedBy (c, .received (.ok value)) = some value from rfl)]
      simp
  · rw [hrun] at hreturns ⊢
    cases hreturns
    refine ⟨h.receivers, h.bounded, ?_⟩
    rw [List.filterMap_append, List.filterMap_append, h.inOrder,
      List.filterMap_cons_none (show sentBy (α := α) (.close, .closed) = none from rfl),
      List.filterMap_cons_none (show receivedBy (α := α) (.close, .closed) = none from rfl)]
    simp [BusState.close]
  · rw [hrun] at hreturns
    cases hreturns
  · rw [hrun] at hreturns ⊢
    cases hreturns
    refine ⟨h.receivers, h.bounded, ?_⟩
    rw [List.filterMap_append, List.filterMap_append, h.inOrder, List.filterMap_cons_none hsent,
      List.filterMap_cons_none hreceived]
    simp

theorem sound_step (t : Turn (BusCall α)) (h : Sound capacity b) :
    Sound capacity (step (BusState.run capacity) t b) where
  consistent := consistent_step t h.consistent
  stalled := stalled_step quiet_run t h.stalled
  waiting := by
    refine waiting_step (W := fun (c : BusCall α) (s : BusState α) => s.closed = false ∧ c ≠ .close) (fun c s hwaits => ?_)
      (fun w c s hall h => ?_) t h.waiting
    · obtain ⟨value, hc, hopen, hspace, hrun⟩ | ⟨value, rest, hc, hqueue, hrun⟩ | ⟨rfl, hrun⟩ |
        ⟨hidle, ⟨hrun, hclosed⟩ | ⟨answer, hrun, -⟩⟩ := run_cases capacity c s
      all_goals rw [hrun] at hwaits ⊢
      · cases hwaits
      · cases hwaits
      · cases hwaits
      · refine ⟨hclosed, ?_⟩
        rintro rfl
        simp [BusCall.sends, BusCall.receives] at hidle
      · cases hwaits
    · obtain ⟨value, hc, hopen, hspace, hrun⟩ | ⟨value, rest, hc, hqueue, hrun⟩ | ⟨rfl, hrun⟩ |
        ⟨hidle, ⟨hrun, hclosed⟩ | ⟨answer, hrun, -⟩⟩ := run_cases capacity c s
      all_goals rw [hrun] at hall ⊢
      · exact h
      · exact h
      · exact absurd rfl (hall _)
      · exact h
      · exact h

/-- Nobody has called the bus yet. -/
theorem sound_new (h : new capacity = some b) :
    Sound capacity b ∧ Attended (BusState.run capacity) b := by
  unfold new at h
  split at h
  · cases h
    refine ⟨⟨⟨rfl, Nat.zero_le _, rfl⟩, ?_, fun _ hwaiting => absurd rfl hwaiting⟩, ?_⟩
    · intro c hc
      cases hc
    · rintro ⟨c, hc, -⟩
      cases hc
  · cases h

theorem Sound.open (h : Sound capacity b) (hc : c ∈ b.waiting) : ¬b.state.refuses := by
  rintro (hclosed | hnone)
  · rw [(h.waiting c hc).1] at hclosed
    cases hclosed
  · rw [h.consistent.receivers] at hnone
    cases hnone

/-- A turn that wakes one who has nothing to do, past one who has, fills or empties the queue. -/
theorem misdirects_of_misled {t : Turn (BusCall α)} (h : Sound capacity b)
    (hmisled : Misled (BusState.run capacity) t b) : b.misdirects capacity t = true := by
  cases t with
  | call c => cases hmisled
  | rouse waiter => cases hmisled
  | run thread waiter =>
    obtain ⟨c, answer, w, hget, hone, hw, hquiet, c', hc', hsignals⟩ := hmisled
    have hwmem := List.mem_of_getElem? hw
    have hopen := h.open hwmem
    simp only [misdirects, hget, hw]
    rw [decide_eq_true_iff]
    rw [signals_iff] at hquiet hsignals
    simp only [not_or, not_and, not_not] at hquiet
    have hwclose := (h.waiting w hwmem).2
    have hclose := (h.waiting c' hc').2
    obtain ⟨value, hc, -, hspace, hrun⟩ | ⟨value, rest, hc, hqueue, hrun⟩ | ⟨rfl, hrun⟩ |
        ⟨hidle, ⟨hrun, -⟩ | ⟨answer, hrun, -⟩⟩ := run_cases capacity c b.state
    · rw [hrun] at hquiet hsignals
      have hsends : c.sends = true := by obtain rfl | rfl := hc <;> rfl
      have hw : w.sends = true := (BusCall.sends_or_receives hwclose).resolve_right fun hw =>
        List.append_ne_nil_of_right_ne_nil _ (List.cons_ne_nil value []) (hquiet.2.1 hw)
      have hfull : b.state.queue.length + 1 = capacity := by
        rw [← hquiet.1 hw hopen, BusState.push, List.length_append]
        rfl
      obtain ⟨-, -, hspace'⟩ | ⟨hreceives, -⟩ | hclosing := hsignals
      · exact absurd (hquiet.1 hw hopen) hspace'
      · exact .inl ⟨hsends, hfull, hw, List.any_eq_true.mpr ⟨c', hc', hreceives⟩⟩
      · exact absurd hclosing hclose
    · rw [hrun] at hquiet hsignals
      have hbounded := h.consistent.bounded
      rw [hqueue] at hbounded
      have hw : w.receives = true := (BusCall.sends_or_receives hwclose).resolve_left fun hw =>
        absurd (hquiet.1 hw hopen) (Nat.ne_of_lt hbounded)
      obtain rfl : rest = [] := hquiet.2.1 hw
      obtain ⟨hsends, -⟩ | ⟨-, hsome⟩ | hclosing := hsignals
      · refine .inr ⟨hc, ?_, hw, List.any_eq_true.mpr ⟨c', hc', hsends⟩⟩
        rw [hqueue]
        rfl
      · exact absurd rfl hsome
      · exact absurd hclosing hclose
    · rw [hrun] at hone
      cases hone
    · rw [hrun] at hone
      cases hone
    · rw [hrun] at hone
      cases hone

/-- **No wakeup is lost** while who could go on is not left waiting alone. -/
theorem lossless_of_attended (h : Sound capacity b) (hattended : Attended (BusState.run capacity) b) :
    b.Lossless capacity := by
  have hnone : b.ready = [] → ∀ c ∈ b.waiting, ¬Signals (BusState.run capacity) c b.state := by
    intro hready c hc hsignals
    obtain ⟨c', hc', -⟩ := hattended ⟨c, hc, hsignals⟩
    rw [hready] at hc'
    cases hc'
  refine ⟨?_, ?_, h.consistent.inOrder⟩
  · rintro ⟨hready, hc, hsome⟩
    exact hnone hready _ hc (signals_iff.mpr (.inr (.inl ⟨rfl, hsome⟩)))
  · rintro ⟨hready, ⟨value, hc⟩, hspace⟩
    exact hnone hready _ hc (signals_iff.mpr (.inl ⟨rfl, h.open hc, Nat.ne_of_lt hspace⟩))

/-- Never do those who wait for a value and those who wait for space both have what they wait
for. -/
theorem not_strands_both (h : Sound capacity b) : ¬(b.StrandsReceiver ∧ b.StrandsSender capacity) := by
  rintro ⟨⟨hready, hc, hsome⟩, -, ⟨value, hc'⟩, hspace⟩
  obtain ⟨c, hquiet⟩ := h.stalled hready (List.ne_nil_of_mem hc)
  refine hquiet (signals_iff.mpr ?_)
  by_cases hclose : c = .close
  · exact .inr (.inr hclose)
  obtain hc'' | hc'' := BusCall.sends_or_receives hclose
  · exact .inl ⟨hc'', h.open hc, Nat.ne_of_lt hspace⟩
  · exact .inr (.inl ⟨hc'', hsome⟩)

end Bus

open Monitor Runs in
/-- **Wakeups of the bus**: along every run the values are received in the order in which they were
accepted, each once, and never do both kinds of waiters have what they wait for. Neither kind has
along the runs whose turns wake one with something to do, if any has. -/
theorem wakeups_along {α : Type} (capacity : ℕ) (run : List (Turn (BusCall α))) (b : Bus α)
    (hnew : Bus.new capacity = some b) :
    (∀ b' ∈ states (step (BusState.run capacity)) b run, Bus.InOrder b' ∧
        ¬(Bus.StrandsReceiver b' ∧ Bus.StrandsSender capacity b')) ∧
      ((∀ c ∈ calls (step (BusState.run capacity)) b run,
          Bus.misdirects capacity c.1 c.2 = false) →
        ∀ b' ∈ states (step (BusState.run capacity)) b run, Bus.Lossless capacity b') := by
  obtain ⟨hsound, hattended⟩ := Bus.sound_new hnew
  constructor
  · intro b' hb'
    have h : Bus.Sound capacity b' := states_of_step (A := fun _ => True) (G := fun _ _ => True)
      (fun t b _ h _ => Bus.sound_step t h) hsound (fun _ _ => trivial) (fun _ _ => trivial) b' hb'
    exact ⟨h.consistent.inOrder, Bus.not_strands_both h⟩
  · intro hgood b' hb'
    have h : Bus.Sound capacity b' ∧ Attended (BusState.run capacity) b' :=
      states_of_step (A := fun _ => True) (I := fun b => Bus.Sound capacity b ∧
          Attended (BusState.run capacity) b) (G := fun t b => b.misdirects capacity t = false)
        (fun t b _ h hgood => ⟨Bus.sound_step t h.1, attended_step Bus.quiet_run t h.2 fun hbad =>
          Bool.false_ne_true (hgood.symm.trans (Bus.misdirects_of_misled h.1 hbad))⟩)
        ⟨hsound, hattended⟩ (fun _ _ => trivial) hgood b' hb'
    exact Bus.lossless_of_attended h.1 h.2

namespace Sample

open Monitor

/-- A bus for one value. -/
def bus : Bus ℕ := start ⟨[], false, 1⟩

/-- A thread calls, and runs its section as the last of those that are ready. -/
def calling (c : BusCall ℕ) (thread : ℕ) : List (Turn (BusCall ℕ)) := [.call c, .run thread 0]

/-- Two receivers wait; what is sent wakes the first, and taking it the second, though a sender
has come to wait for the space. -/
def strandedSender : List (Turn (BusCall ℕ)) :=
  calling .recv 0 ++ calling .recv 0 ++ calling (.send 1) 0 ++ calling (.send 2) 1 ++
    [.run 0 0, .run 0 0]

/-- Two senders wait; what is received wakes the first, and its value the second, though a receiver
has come to wait for the value. -/
def strandedReceiver : List (Turn (BusCall ℕ)) :=
  calling (.send 1) 0 ++ calling (.send 2) 0 ++ calling (.send 3) 0 ++ calling .recv 0 ++
    calling .recv 1 ++ [.run 0 0, .run 0 0]

end Sample

open Monitor Runs in
/-- A thread that waits while another sends. -/
theorem wakeups_along_waiting :
    (∀ b' ∈ states (step (BusState.run 1)) Sample.bus (Sample.calling .recv 0 ++
        Sample.calling (.send 1) 0 ++ [.run 0 0]), Bus.InOrder b' ∧
          ¬(Bus.StrandsReceiver b' ∧ Bus.StrandsSender 1 b')) ∧
      ∀ b' ∈ states (step (BusState.run 1)) Sample.bus (Sample.calling .recv 0 ++
        Sample.calling (.send 1) 0 ++ [.run 0 0]), Bus.Lossless 1 b' := by
  have h := wakeups_along 1 (Sample.calling .recv 0 ++ Sample.calling (.send 1) 0 ++ [.run 0 0])
    Sample.bus rfl
  exact ⟨h.1, h.2 (by decide)⟩

open Monitor Runs in
/-- A wakeup is lost: all wait, a sender for the space of an empty queue; or all wait, a receiver for
a value of a full one. -/
theorem wakeups_along_lost :
    Bus.new 1 = some Sample.bus ∧
      Bus.StrandsSender 1 (final (step (BusState.run 1)) Sample.bus Sample.strandedSender) ∧
      Bus.StrandsReceiver (final (step (BusState.run 1)) Sample.bus Sample.strandedReceiver) :=
  ⟨rfl, ⟨by decide, ⟨2, by decide⟩, by decide⟩, by decide, by decide, by decide⟩

end InsiderTrader
