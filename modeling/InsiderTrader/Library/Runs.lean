import Mathlib.Data.List.Basic
import Mathlib.Order.Defs.Unbundled

/-!
# Runs of a step function

A run applies a step to a state once for each letter of a word. The states it
goes through and the calls it makes are lists; what holds along a run is shown
from one step, by the rules below.

## Main definitions

- `Runs.states` — the states of a run, from its start to its end
- `Runs.calls` — the letters of a run, each with the state it is applied to
- `Runs.final` — the state a run ends in

## Main results

- `Runs.states_of_step` — an invariant that every good step keeps
- `Runs.states_calls_of_step` — the same, with what the good steps answer
- `Runs.states_iff` — a property that exactly the bad steps break
- `Runs.states_pairwise` — a transitive relation that every step goes along
-/

namespace Runs

variable {σ α : Type} (step : α → σ → σ)

/-- The states a run goes through. -/
def states : σ → List α → List σ
  | s, [] => [s]
  | s, a :: run => s :: states (step a s) run

/-- The letters of a run, each with the state it is applied to. -/
def calls : σ → List α → List (σ × α)
  | _, [] => []
  | s, a :: run => (s, a) :: calls (step a s) run

/-- The state a run ends in. -/
def final (s : σ) (run : List α) : σ := run.foldl (fun s a => step a s) s

variable {step} {A : α → Prop} {I P : σ → Prop} {G B : α → σ → Prop} {s : σ} {run : List α}

@[simp] theorem final_nil (s : σ) : final step s [] = s := rfl

@[simp] theorem final_cons (s : σ) (a : α) (run : List α) :
    final step s (a :: run) = final step (step a s) run := rfl

theorem final_append (s : σ) (run run' : List α) :
    final step s (run ++ run') = final step (final step s run) run' :=
  List.foldl_append

theorem calls_append (s : σ) (run run' : List α) :
    calls step s (run ++ run') = calls step s run ++ calls step (final step s run) run' := by
  induction run generalizing s with
  | nil => rfl
  | cons a run ih =>
    rw [List.cons_append, calls, ih]
    rfl

/-- The calls of a run are made with its letters. -/
theorem mem_of_mem_calls {c : σ × α} (hc : c ∈ calls step s run) : c.2 ∈ run := by
  induction run generalizing s with
  | nil => cases hc
  | cons a run ih =>
    rcases List.mem_cons.mp hc with rfl | hc
    · exact List.mem_cons_self
    · exact List.mem_cons_of_mem a (ih hc)

theorem mem_states_self (s : σ) (run : List α) : s ∈ states step s run := by
  cases run <;> simp [states]

theorem final_mem_states (s : σ) (run : List α) : final step s run ∈ states step s run := by
  induction run generalizing s with
  | nil => exact List.mem_singleton_self s
  | cons a run ih => exact List.mem_cons_of_mem _ (ih (step a s))

/-- **Invariant of the states**: an invariant that every good step keeps holds along the runs
of good steps. -/
theorem states_of_step (hstep : ∀ a s, A a → I s → G a s → I (step a s)) (hs : I s)
    (hA : ∀ a ∈ run, A a) (hG : ∀ c ∈ calls step s run, G c.2 c.1) :
    ∀ s' ∈ states step s run, I s' := by
  induction run generalizing s with
  | nil => simpa [states] using hs
  | cons a run ih =>
    obtain ⟨ha, hA⟩ := List.forall_mem_cons.mp hA
    obtain ⟨hcall, hG⟩ := List.forall_mem_cons.mp hG
    exact List.forall_mem_cons.mpr ⟨hs, ih (hstep a s ha hs hcall) hA hG⟩

/-- The calls of a run of good steps, each made inside the invariant. -/
theorem calls_of_step (hstep : ∀ a s, A a → I s → G a s → I (step a s)) (hs : I s)
    (hA : ∀ a ∈ run, A a) (hG : ∀ c ∈ calls step s run, G c.2 c.1) :
    ∀ c ∈ calls step s run, A c.2 ∧ I c.1 := by
  induction run generalizing s with
  | nil => simp [calls]
  | cons a run ih =>
    obtain ⟨ha, hA⟩ := List.forall_mem_cons.mp hA
    obtain ⟨hcall, hG⟩ := List.forall_mem_cons.mp hG
    exact List.forall_mem_cons.mpr ⟨⟨ha, hs⟩, ih (hstep a s ha hs hcall) hA hG⟩

/-- An invariant that every step keeps holds at the end of every run. -/
theorem final_of_step (hstep : ∀ a s, A a → I s → I (step a s)) (hs : I s)
    (hA : ∀ a ∈ run, A a) : I (final step s run) :=
  states_of_step (G := fun _ _ => True) (fun a s ha hI _ => hstep a s ha hI) hs hA
    (fun _ _ => trivial) _ (final_mem_states s run)

/-- **Exactness under an invariant**: a property that, inside an invariant, exactly the bad steps
break holds along exactly the runs without a bad step, when the good steps keep the invariant. -/
theorem states_iff_of_inv (hinv : ∀ a s, A a → I s → ¬B a s → I (step a s))
    (hstep : ∀ a s, A a → I s → (P (step a s) ↔ ¬B a s)) (hs : I s) (hP : P s)
    (hA : ∀ a ∈ run, A a) :
    (∀ s' ∈ states step s run, P s') ↔ ∀ c ∈ calls step s run, ¬B c.2 c.1 := by
  induction run generalizing s with
  | nil => simpa [states, calls] using hP
  | cons a run ih =>
    obtain ⟨ha, hA⟩ := List.forall_mem_cons.mp hA
    rw [states, calls, List.forall_mem_cons, List.forall_mem_cons, and_iff_right hP]
    constructor
    · intro hrest
      have hnext := hrest _ (mem_states_self (step a s) run)
      have hgood := (hstep a s ha hs).mp hnext
      exact ⟨hgood, (ih (hinv a s ha hs hgood) hnext hA).mp hrest⟩
    · rintro ⟨hgood, hrest⟩
      exact (ih (hinv a s ha hs hgood) ((hstep a s ha hs).mpr hgood) hA).mpr hrest

/-- **Exactness**: a property that exactly the bad steps break holds along exactly the runs
without a bad step. -/
theorem states_iff (hstep : ∀ a s, A a → P s → (P (step a s) ↔ ¬B a s)) (hs : P s)
    (hA : ∀ a ∈ run, A a) :
    (∀ s' ∈ states step s run, P s') ↔ ∀ c ∈ calls step s run, ¬B c.2 c.1 :=
  states_iff_of_inv (fun a s ha hP => (hstep a s ha hP).mpr) hstep hs hs hA

/-- **Invariant of the calls**: what a good call, made inside the invariant, is followed by and
answers, along the runs of good calls. -/
theorem states_calls_of_step {A Q : α → σ → Prop}
    (hstep : ∀ a s, A a s → I s → G a s → I (step a s) ∧ Q a s) (hs : I s)
    (hA : ∀ c ∈ calls step s run, A c.2 c.1) (hG : ∀ c ∈ calls step s run, G c.2 c.1) :
    (∀ s' ∈ states step s run, I s') ∧ ∀ c ∈ calls step s run, Q c.2 c.1 := by
  induction run generalizing s with
  | nil => simpa [states, calls] using hs
  | cons a run ih =>
    obtain ⟨ha, hA⟩ := List.forall_mem_cons.mp hA
    obtain ⟨hcall, hG⟩ := List.forall_mem_cons.mp hG
    obtain ⟨hnext, hanswer⟩ := hstep a s ha hs hcall
    obtain ⟨hstates, hcalls⟩ := ih hnext hA hG
    exact ⟨List.forall_mem_cons.mpr ⟨hs, hstates⟩, List.forall_mem_cons.mpr ⟨hanswer, hcalls⟩⟩

section Pairwise

variable {R : σ → σ → Prop} [IsTrans σ R]

/-- What a run starts after, it stays after, when its calls go along the relation. -/
theorem rel_of_calls (hcalls : ∀ c ∈ calls step s run, R c.1 (step c.2 c.1)) {s₀ : σ}
    (hs : R s₀ s) : ∀ s' ∈ states step s run, R s₀ s' := by
  induction run generalizing s with
  | nil => simpa [states] using hs
  | cons a run ih =>
    obtain ⟨hcall, hcalls⟩ := List.forall_mem_cons.mp hcalls
    exact List.forall_mem_cons.mpr ⟨hs, ih hcalls (IsTrans.trans _ _ _ hs hcall)⟩

/-- **Along a run** whose calls go along a transitive relation, it relates each state to every
later one. -/
theorem states_pairwise_of_calls (hcalls : ∀ c ∈ calls step s run, R c.1 (step c.2 c.1)) :
    (states step s run).Pairwise R := by
  induction run generalizing s with
  | nil => simp [states]
  | cons a run ih =>
    obtain ⟨hcall, hcalls⟩ := List.forall_mem_cons.mp hcalls
    exact List.pairwise_cons.mpr ⟨rel_of_calls hcalls hcall, ih hcalls⟩

/-- **Along a run**, a transitive relation that every step goes along relates each state to every
later one. -/
theorem states_pairwise (hstep : ∀ a s, R s (step a s)) (s : σ) (run : List α) :
    (states step s run).Pairwise R :=
  states_pairwise_of_calls fun c _ => hstep c.2 c.1

end Pairwise

end Runs
