import InsiderTrader.Library.Runs
import Mathlib.Data.List.Basic

/-!
# A lock with a condition variable

Threads call operations on a state that a lock guards. A critical section runs
the call once against the state; it ends with the call returned, or with the
thread waiting for the condition variable. A section that returns wakes nobody,
one thread that waits, or all of them. A woken thread runs its section again.

## Main definitions

- `Monitor`, `Monitor.step` — the state with the calls in progress, and one turn
- `Monitor.Signals` — the section of a call would wake someone
- `Monitor.Misled` — a turn wakes a thread that waits again, past one that would not

## Main results

- `Monitor.inv_step` — what every section keeps of the state and the answers
- `Monitor.waiting_step` — what holds of those who wait
- `Monitor.attended_step` — without misled turns, who could go on is not left waiting
- `Monitor.stalled_step` — when all wait, some call would not wake anyone
-/

/-- Whom a critical section wakes. -/
inductive Monitor.Wakes where
  | nobody
  | one
  | all
  deriving DecidableEq

/-- What a critical section comes to. -/
inductive Monitor.Outcome (ρ : Type) where
  | waits
  | returns (answer : ρ) (wakes : Monitor.Wakes)
  deriving DecidableEq

/-- The guarded state, with the calls of the threads that are ready to take the lock, the calls of
those that wait, and the calls that have returned. -/
structure Monitor (σ κ ρ : Type) where
  state : σ
  ready : List κ
  waiting : List κ
  returned : List (κ × ρ)

/-- A turn: a thread calls, a waiting thread wakes for no reason, or a ready thread runs its
critical section, with the waiting thread that is woken if one is. -/
inductive Monitor.Turn (κ : Type) where
  | call (c : κ)
  | rouse (waiter : ℕ)
  | run (thread waiter : ℕ)

namespace Monitor

variable {σ κ ρ : Type}

/-- No calls yet. -/
def start (s : σ) : Monitor σ κ ρ := ⟨s, [], [], []⟩

/-- A waiting thread that is woken. -/
def wakeAt (waiter : ℕ) (m : Monitor σ κ ρ) : Monitor σ κ ρ :=
  match m.waiting[waiter]? with
  | none => m
  | some c => { m with ready := m.ready ++ [c], waiting := m.waiting.eraseIdx waiter }

/-- The index of the waiting thread that is woken: any number stands for one of them. -/
def pick (waiter : ℕ) (m : Monitor σ κ ρ) : ℕ := waiter % m.waiting.length

/-- The threads that are woken. -/
def wake (waiter : ℕ) (m : Monitor σ κ ρ) : Wakes → Monitor σ κ ρ
  | .nobody => m
  | .one => m.wakeAt (m.pick waiter)
  | .all => { m with ready := m.ready ++ m.waiting, waiting := [] }

variable (body : κ → σ → Outcome ρ × σ)

/-- The next turn. -/
def step : Turn κ → Monitor σ κ ρ → Monitor σ κ ρ
  | .call c, m => { m with ready := m.ready ++ [c] }
  | .rouse waiter, m => m.wakeAt waiter
  | .run thread waiter, m =>
    match m.ready[thread]? with
    | none => m
    | some c =>
      match body c m.state with
      | (.waits, s) =>
        { m with state := s, ready := m.ready.eraseIdx thread, waiting := m.waiting ++ [c] }
      | (.returns answer wakes, s) =>
        wake waiter { m with
          state := s
          ready := m.ready.eraseIdx thread
          returned := m.returned ++ [(c, answer)] } wakes

/-- The critical section of the call would wake someone. -/
def Signals (c : κ) (s : σ) : Prop := ∃ answer wakes, (body c s).1 = .returns answer wakes ∧
  wakes ≠ .nobody

/-- Who waits and could go on is not alone: someone ready would wake another. -/
def Attended (m : Monitor σ κ ρ) : Prop :=
  (∃ c ∈ m.waiting, Signals body c m.state) → ∃ c ∈ m.ready, Signals body c m.state

/-- When all wait, some call would not wake anyone. -/
def Stalled (m : Monitor σ κ ρ) : Prop :=
  m.ready = [] → m.waiting ≠ [] → ∃ c, ¬Signals body c m.state

/-- The turn wakes one that would wake nobody in turn, while another that waits would. -/
def Misled : Turn κ → Monitor σ κ ρ → Prop
  | .call _, _ | .rouse _, _ => False
  | .run thread waiter, m => ∃ c answer w, m.ready[thread]? = some c ∧
    (body c m.state).1 = .returns answer .one ∧ m.waiting[m.pick waiter]? = some w ∧
      ¬Signals body w (body c m.state).2 ∧ ∃ c' ∈ m.waiting, Signals body c' (body c m.state).2

variable {body} {m : Monitor σ κ ρ} {c : κ} {s : σ}

@[simp] theorem wakeAt_state (waiter : ℕ) (m : Monitor σ κ ρ) :
    (m.wakeAt waiter).state = m.state := by
  unfold wakeAt
  split <;> rfl

@[simp] theorem wakeAt_returned (waiter : ℕ) (m : Monitor σ κ ρ) :
    (m.wakeAt waiter).returned = m.returned := by
  unfold wakeAt
  split <;> rfl

@[simp] theorem wake_state (waiter : ℕ) (m : Monitor σ κ ρ) (wakes : Wakes) :
    (m.wake waiter wakes).state = m.state := by
  cases wakes <;> simp [wake]

@[simp] theorem wake_returned (waiter : ℕ) (m : Monitor σ κ ρ) (wakes : Wakes) :
    (m.wake waiter wakes).returned = m.returned := by
  cases wakes <;> simp [wake]

/-- Those who wait after one was woken waited before. -/
theorem mem_wakeAt_waiting {waiter : ℕ} (h : c ∈ (m.wakeAt waiter).waiting) : c ∈ m.waiting := by
  unfold wakeAt at h
  split at h
  · exact h
  · exact List.mem_of_mem_eraseIdx h

theorem mem_wakeAt_ready {waiter : ℕ} (h : c ∈ m.ready) : c ∈ (m.wakeAt waiter).ready := by
  unfold wakeAt
  split
  · exact h
  · exact List.mem_append_left _ h

theorem mem_wake_waiting {waiter : ℕ} {wakes : Wakes} (h : c ∈ (m.wake waiter wakes).waiting) :
    c ∈ m.waiting := by
  cases wakes with
  | nobody => exact h
  | one => exact mem_wakeAt_waiting h
  | all => cases h

/-- The one that is woken, if any thread waits. -/
theorem exists_picked (waiter : ℕ) (h : m.waiting ≠ []) :
    ∃ w, m.waiting[m.pick waiter]? = some w ∧ w ∈ (m.wakeAt (m.pick waiter)).ready := by
  have hlt : m.pick waiter < m.waiting.length :=
    Nat.mod_lt _ (List.length_pos_of_ne_nil h)
  have hget := List.getElem?_eq_getElem hlt
  refine ⟨_, hget, ?_⟩
  unfold wakeAt
  rw [hget]
  exact List.mem_append_right _ (List.mem_singleton_self _)

/-- **What every section keeps** of the state and the answers. -/
theorem inv_step {I : σ → List (κ × ρ) → Prop}
    (hwaits : ∀ c s log, I s log → (body c s).1 = .waits → I (body c s).2 log)
    (hreturns : ∀ c s log answer wakes, I s log → (body c s).1 = .returns answer wakes →
      I (body c s).2 (log ++ [(c, answer)])) (t : Turn κ) (h : I m.state m.returned) :
    I (step body t m).state (step body t m).returned := by
  cases t with
  | call c => exact h
  | rouse waiter =>
    simp only [step, wakeAt_state, wakeAt_returned]
    exact h
  | run thread waiter =>
    simp only [step]
    split
    · exact h
    next c _ =>
    have hw := hwaits c _ _ h
    have hr := hreturns c m.state m.returned
    split
    · next s hbody =>
      rw [hbody] at hw
      exact hw rfl
    · next answer wakes s hbody =>
      rw [hbody] at hr
      simp only [wake_state, wake_returned]
      exact hr answer wakes h rfl

/-- **What holds of those who wait**: a call that waits satisfies it, and no section breaks it
without waking all. -/
theorem waiting_step {W : κ → σ → Prop}
    (hwaits : ∀ c s, (body c s).1 = .waits → W c (body c s).2)
    (hkeeps : ∀ w c s, (∀ answer, (body c s).1 ≠ .returns answer .all) → W w s → W w (body c s).2)
    (t : Turn κ) (h : ∀ w ∈ m.waiting, W w m.state) :
    ∀ w ∈ (step body t m).waiting, W w (step body t m).state := by
  cases t with
  | call c => exact h
  | rouse waiter =>
    intro w hw
    simp only [step, wakeAt_state]
    exact h w (mem_wakeAt_waiting hw)
  | run thread waiter =>
    simp only [step]
    split
    · exact h
    next c _ =>
    have hw := hwaits c m.state
    have hk := hkeeps (c := c) (s := m.state)
    split
    · next s hbody =>
      rw [hbody] at hw hk
      intro w hmem
      obtain hmem | hmem := List.mem_append.mp hmem
      · exact hk w nofun (h w hmem)
      · rw [List.mem_singleton.mp hmem]
        exact hw rfl
    · next answer wakes s hbody =>
      rw [hbody] at hk
      intro w hmem
      rw [wake_state]
      cases wakes with
      | all => cases hmem
      | nobody => exact hk w nofun (h w hmem)
      | one =>
        have hbefore := mem_wake_waiting hmem
        exact hk w nofun (h w hbefore)

/-- A section that would wake nobody changes nothing. -/
def Quiet (body : κ → σ → Outcome ρ × σ) : Prop := ∀ c s, ¬Signals body c s → (body c s).2 = s

theorem not_signals_of_waits (h : (body c s).1 = .waits) : ¬Signals body c s := by
  rintro ⟨answer, wakes, hreturns, -⟩
  rw [h] at hreturns
  cases hreturns

theorem not_signals_of_nobody {answer : ρ} (h : (body c s).1 = .returns answer .nobody) :
    ¬Signals body c s := by
  rintro ⟨answer', wakes, hreturns, hsome⟩
  rw [h] at hreturns
  injection hreturns with _ hwakes
  exact hsome hwakes.symm

/-- One of the ready threads is ready still, when another has left. -/
theorem mem_eraseIdx_of_signals {thread : ℕ} {c' : κ} (hget : m.ready[thread]? = some c)
    (hc : ¬Signals body c s) (hmem : c' ∈ m.ready) (hc' : Signals body c' s) :
    c' ∈ m.ready.eraseIdx thread := by
  rw [List.mem_eraseIdx_iff_getElem?]
  obtain ⟨i, hi⟩ := List.mem_iff_getElem?.mp hmem
  refine ⟨i, fun heq => hc ?_, hi⟩
  rw [heq, hget] at hi
  rwa [Option.some.inj hi]

/-- **No thread is passed over**: turns that are not misled leave no one waiting who could go on,
unless another is ready who will wake someone. -/
theorem attended_step (hquiet : Quiet body) (t : Turn κ) (h : Attended body m)
    (hgood : ¬Misled body t m) : Attended body (step body t m) := by
  have hroused : ∀ waiter, Attended body (m.wakeAt waiter) := by
    rintro waiter ⟨w, hw, hsignals⟩
    rw [wakeAt_state] at hsignals ⊢
    obtain ⟨c, hc, hsignals'⟩ := h ⟨w, mem_wakeAt_waiting hw, hsignals⟩
    exact ⟨c, mem_wakeAt_ready hc, hsignals'⟩
  cases t with
  | call c =>
    intro hwaits
    obtain ⟨c', hc', hsignals⟩ := h hwaits
    exact ⟨c', List.mem_append_left _ hc', hsignals⟩
  | rouse waiter => exact hroused waiter
  | run thread waiter =>
    simp only [step]
    split
    · exact h
    next c hget =>
    split
    · next s hbody =>
      have hnot : ¬Signals body c m.state := not_signals_of_waits (congrArg Prod.fst hbody)
      obtain rfl : m.state = s := (hquiet c _ hnot).symm.trans (congrArg Prod.snd hbody)
      rintro ⟨w, hw, hsignals⟩
      obtain hw | hw := List.mem_append.mp hw
      · obtain ⟨c', hc', hsignals'⟩ := h ⟨w, hw, hsignals⟩
        exact ⟨c', mem_eraseIdx_of_signals hget hnot hc' hsignals', hsignals'⟩
      · rw [List.mem_singleton.mp hw] at hsignals
        exact absurd hsignals hnot
    · next answer wakes s hbody =>
      cases wakes with
      | nobody =>
        have hnot : ¬Signals body c m.state :=
          not_signals_of_nobody (congrArg Prod.fst hbody)
        obtain rfl : m.state = s := (hquiet c _ hnot).symm.trans (congrArg Prod.snd hbody)
        rintro ⟨w, hw, hsignals⟩
        obtain ⟨c', hc', hsignals'⟩ := h ⟨w, hw, hsignals⟩
        exact ⟨c', mem_eraseIdx_of_signals hget hnot hc' hsignals', hsignals'⟩
      | all =>
        rintro ⟨w, hw, -⟩
        cases hw
      | one =>
        rintro ⟨c', hc', hsignals'⟩
        rw [wake_state] at hsignals' ⊢
        have hc' := mem_wake_waiting hc'
        obtain ⟨w, hw, hready⟩ := exists_picked (m := { m with
          state := s
          ready := m.ready.eraseIdx thread
          returned := m.returned ++ [(c, answer)] }) waiter (List.ne_nil_of_mem hc')
        -- the one that was picked would wake another, or no one that waits would
        by_contra hnone
        refine hgood ⟨c, answer, w, hget, congrArg Prod.fst hbody, hw,
          fun hw' => hnone ⟨w, hready, ?_⟩, c', hc', ?_⟩
        · rwa [hbody] at hw'
        · rwa [hbody]

/-- **When all wait**, the last section left a state in which some call would not wake anyone. -/
theorem stalled_step (hquiet : Quiet body) (t : Turn κ) (h : Stalled body m) :
    Stalled body (step body t m) := by
  have hroused : ∀ waiter, Stalled body (m.wakeAt waiter) := by
    intro waiter
    unfold wakeAt
    split
    · exact h
    · next w _ =>
      exact fun hready => absurd hready
        (List.append_ne_nil_of_right_ne_nil _ (List.cons_ne_nil w []))
  cases t with
  | call c =>
    exact fun hready => absurd hready
      (List.append_ne_nil_of_right_ne_nil _ (List.cons_ne_nil c []))
  | rouse waiter => exact hroused waiter
  | run thread waiter =>
    simp only [step]
    split
    · exact h
    next c hget =>
    split
    · next s hbody =>
      have hnot : ¬Signals body c m.state := not_signals_of_waits (congrArg Prod.fst hbody)
      obtain rfl : m.state = s := (hquiet c _ hnot).symm.trans (congrArg Prod.snd hbody)
      exact fun _ _ => ⟨c, hnot⟩
    · next answer wakes s hbody =>
      cases wakes with
      | nobody =>
        have hnot : ¬Signals body c m.state :=
          not_signals_of_nobody (congrArg Prod.fst hbody)
        obtain rfl : m.state = s := (hquiet c _ hnot).symm.trans (congrArg Prod.snd hbody)
        exact fun _ _ => ⟨c, hnot⟩
      | all => exact fun _ hwaiting => absurd rfl hwaiting
      | one =>
        intro hready hwaiting
        obtain ⟨w, hw⟩ := List.exists_mem_of_ne_nil _ hwaiting
        obtain ⟨w', -, hpicked⟩ := exists_picked (m := { m with
          state := s
          ready := m.ready.eraseIdx thread
          returned := m.returned ++ [(c, answer)] }) waiter
          (List.ne_nil_of_mem (mem_wake_waiting hw))
        exact absurd hready (List.ne_nil_of_mem hpicked)

end Monitor
