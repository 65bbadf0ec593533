import Mathlib.Order.Defs.PartialOrder
import Mathlib.Order.RelClasses

/-!
# Fallible computations over a mutable state

A computation reads and writes a state and ends with a value or an error. As in
a method that takes its receiver by mutable reference, the writes made before
an error stay: the final state is there in both outcomes.

## Main definitions

- `Fallible` — computations over a state `σ` with errors in `ε`
- `Fallible.attempt` — run a computation and hand its outcome on as a value
- `Fallible.zoom` — run a computation on a component of the state
- `Fallible.Succeeds` — a run ends without an error
- `Fallible.EndsIn` — every run that succeeds ends in a set of states
- `Fallible.AtomicAt` — a run that fails leaves the state as it was
- `Fallible.Along` — every run ends in a state related to the initial one
-/

/-- A computation over a state `σ`; the final state is kept whatever the outcome. -/
def Fallible (σ ε α : Type) : Type := σ → Except ε α × σ

namespace Fallible

variable {σ τ ε δ α β γ : Type}

/-- The computation that yields `a` and leaves the state alone. -/
def ret (a : α) : Fallible σ ε α := fun s => (.ok a, s)

/-- Run `p`, then `f` on its value; an error of `p` ends the computation. -/
def andThen (p : Fallible σ ε α) (f : α → Fallible σ ε β) : Fallible σ ε β := fun s =>
  match p s with
  | (.ok a, s') => f a s'
  | (.error e, s') => (.error e, s')

instance : Monad (Fallible σ ε) where
  pure := ret
  bind := andThen

/-- Stop with the error `e`. -/
def fail (e : ε) : Fallible σ ε α := fun s => (.error e, s)

/-- The value of `f` at the current state. -/
def reads (f : σ → α) : Fallible σ ε α := fun s => (.ok (f s), s)

/-- Replace the state by its image under `f`. -/
def modify (f : σ → σ) : Fallible σ ε Unit := fun s => (.ok (), f s)

/-- An outcome that is already known. -/
def ofExcept (r : Except ε α) : Fallible σ ε α := fun s => (r, s)

/-- The value of an option; `e` when there is none. -/
def orFail (o : Option α) (e : ε) : Fallible σ ε α :=
  match o with
  | some a => pure a
  | none => fail e

/-- Stop with `e` unless the condition holds. -/
def require (c : Prop) [Decidable c] (e : ε) : Fallible σ ε Unit :=
  if c then pure () else fail e

/-- Run `p` only when the condition holds. -/
def when (c : Prop) [Decidable c] (p : Fallible σ ε Unit) : Fallible σ ε Unit :=
  if c then p else pure ()

/-- Run `p` and drop its value. -/
def discard (p : Fallible σ ε α) : Fallible σ ε Unit := p >>= fun _ => pure ()

/-- Run `p` and yield its outcome; the state keeps what `p` wrote. -/
def attempt (p : Fallible σ ε α) : Fallible σ δ (Except ε α) := fun s =>
  (.ok (p s).1, (p s).2)

/-- Run `p` on the component `proj s` of the state, with its errors read through `wrap`. -/
def zoom (proj : σ → τ) (put : σ → τ → σ) (wrap : ε → δ) (p : Fallible τ ε α) :
    Fallible σ δ α := fun s =>
  ((p (proj s)).1.mapError wrap, put s (p (proj s)).2)

/-- Run `p` at each element in turn, up to the first error. -/
def forEach (p : β → Fallible σ ε Unit) : List β → Fallible σ ε Unit
  | [] => pure ()
  | x :: xs => do
    p x
    forEach p xs

-- What each construction does at a state

@[simp] theorem pure_apply (a : α) (s : σ) : (pure a : Fallible σ ε α) s = (.ok a, s) := rfl

theorem bind_apply (p : Fallible σ ε α) (f : α → Fallible σ ε β) (s : σ) :
    (p >>= f) s = match p s with
      | (.ok a, s') => f a s'
      | (.error e, s') => (.error e, s') := rfl

@[simp] theorem fail_apply (e : ε) (s : σ) : (fail e : Fallible σ ε α) s = (.error e, s) := rfl

@[simp] theorem reads_apply (f : σ → α) (s : σ) :
    (reads f : Fallible σ ε α) s = (.ok (f s), s) := rfl

@[simp] theorem modify_apply (f : σ → σ) (s : σ) :
    (modify f : Fallible σ ε Unit) s = (.ok (), f s) := rfl

@[simp] theorem ofExcept_apply (r : Except ε α) (s : σ) :
    (ofExcept r : Fallible σ ε α) s = (r, s) := rfl

@[simp] theorem attempt_apply (p : Fallible σ ε α) (s : σ) :
    (attempt p : Fallible σ δ (Except ε α)) s = (.ok (p s).1, (p s).2) := rfl

@[simp] theorem zoom_apply (proj : σ → τ) (put : σ → τ → σ) (wrap : ε → δ)
    (p : Fallible τ ε α) (s : σ) :
    zoom proj put wrap p s = ((p (proj s)).1.mapError wrap, put s (p (proj s)).2) := rfl

theorem bind_of_ok {p : Fallible σ ε α} {f : α → Fallible σ ε β} {s s' : σ} {a : α}
    (h : p s = (.ok a, s')) : (p >>= f) s = f a s' := by
  rw [bind_apply, h]

theorem bind_of_error {p : Fallible σ ε α} {f : α → Fallible σ ε β} {s s' : σ} {e : ε}
    (h : p s = (.error e, s')) : (p >>= f) s = (.error e, s') := by
  rw [bind_apply, h]

@[simp] theorem pure_bind (a : α) (f : α → Fallible σ ε β) (s : σ) :
    (pure a >>= f) s = f a s := rfl

@[simp] theorem reads_bind (g : σ → α) (f : α → Fallible σ ε β) (s : σ) :
    (reads g >>= f) s = f (g s) s := rfl

@[simp] theorem modify_bind (g : σ → σ) (f : Unit → Fallible σ ε β) (s : σ) :
    (modify g >>= f) s = f () (g s) := rfl

@[simp] theorem fail_bind (e : ε) (f : α → Fallible σ ε β) (s : σ) :
    (fail e >>= f) s = (.error e, s) := rfl

@[simp] theorem attempt_bind (p : Fallible σ ε α) (f : Except ε α → Fallible σ δ β) (s : σ) :
    (attempt p >>= f) s = f (p s).1 (p s).2 := rfl

/-- A sequence on a component is a sequence on the whole, when `put` writes the component. -/
theorem zoom_bind {proj : σ → τ} {put : σ → τ → σ} {wrap : ε → δ}
    (hproj : ∀ s t, proj (put s t) = t) (hput : ∀ s t t', put (put s t) t' = put s t')
    (p : Fallible τ ε α) (f : α → Fallible τ ε β) :
    zoom proj put wrap (p >>= f) = zoom proj put wrap p >>= fun a => zoom proj put wrap (f a) := by
  funext s
  rw [zoom_apply, bind_apply, bind_apply, zoom_apply]
  rcases p (proj s) with ⟨_ | a, t⟩
  · rfl
  · simp [Except.mapError, hproj, hput]

/-- Sequencing is associative. -/
theorem bind_assoc (p : Fallible σ ε α) (f : α → Fallible σ ε β) (g : β → Fallible σ ε γ) :
    p >>= f >>= g = p >>= fun a => f a >>= g := by
  funext s
  rw [bind_apply, bind_apply, bind_apply]
  rcases p s with ⟨_ | a, s'⟩ <;> rfl

/-- A value that is only mapped keeps the writes. -/
@[simp] theorem bind_pure_snd (p : Fallible σ ε α) (f : α → β) (s : σ) :
    ((p >>= fun a => pure (f a)) s).2 = (p s).2 := by
  rw [bind_apply]
  rcases p s with ⟨_ | a, s'⟩ <;> rfl

/-- Dropping the value keeps the writes. -/
@[simp] theorem discard_snd (p : Fallible σ ε α) (s : σ) : (discard p s).2 = (p s).2 :=
  bind_pure_snd p _ s

/-- **Inversion of a sequence**: a run of `p >>= f` that succeeds went through a value of `p`. -/
theorem bind_eq_ok {p : Fallible σ ε α} {f : α → Fallible σ ε β} {s s'' : σ} {b : β}
    (h : (p >>= f) s = (.ok b, s'')) :
    ∃ a s', p s = (.ok a, s') ∧ f a s' = (.ok b, s'') := by
  rw [bind_apply] at h
  rcases hp : p s with ⟨_ | a, s'⟩
  · simp [hp] at h
  · rw [hp] at h
    exact ⟨a, s', rfl, h⟩

theorem forEach_append (p : β → Fallible σ ε Unit) (xs ys : List β) :
    forEach p (xs ++ ys) = forEach p xs >>= fun _ => forEach p ys := by
  induction xs with
  | nil => rfl
  | cons x xs ih =>
    show (p x >>= fun _ => forEach p (xs ++ ys)) = (p x >>= fun _ => forEach p xs) >>= _
    rw [ih, bind_assoc]

theorem require_bind (c : Prop) [Decidable c] (e : ε) (f : Unit → Fallible σ ε β) (s : σ) :
    (require c e >>= f) s = if c then f () s else (.error e, s) := by
  unfold require
  split <;> rfl

@[simp] theorem mapError_eq_ok {r : Except ε α} {g : ε → δ} {a : α} :
    r.mapError g = .ok a ↔ r = .ok a := by
  cases r <;> simp [Except.mapError]

theorem map_eq_ok {r : Except ε α} {g : α → β} {b : β} :
    r.map g = .ok b ↔ ∃ a, r = .ok a ∧ g a = b := by
  cases r <;> simp [Except.map]

theorem toOption_eq_some {r : Except ε α} {a : α} : r.toOption = some a ↔ r = .ok a := by
  cases r <;> simp [Except.toOption]

theorem require_bind_eq_ok {c : Prop} [Decidable c] {e : ε} {f : Unit → Fallible σ ε β}
    {s s' : σ} {b : β} (h : (require c e >>= f) s = (.ok b, s')) : c ∧ f () s = (.ok b, s') := by
  rw [require_bind] at h
  split at h
  · exact ⟨‹c›, h⟩
  · simp at h

theorem ofExcept_bind_ok {r : Except ε α} {a : α} (h : r = .ok a) (f : α → Fallible σ ε β) (s : σ) :
    (ofExcept r >>= f) s = f a s := by
  rw [h]
  rfl

theorem ofExcept_bind_eq_ok {r : Except ε α} {f : α → Fallible σ ε β} {s s' : σ} {b : β}
    (h : (ofExcept r >>= f) s = (.ok b, s')) : ∃ a, r = .ok a ∧ f a s = (.ok b, s') := by
  cases r with
  | error e => simp [bind_apply] at h
  | ok a => exact ⟨a, rfl, h⟩

theorem orFail_bind_some {o : Option α} {a : α} (h : o = some a) (e : ε)
    (f : α → Fallible σ ε β) (s : σ) : (orFail o e >>= f) s = f a s := by
  rw [h]
  rfl

theorem orFail_bind_eq_ok {o : Option α} {e : ε} {f : α → Fallible σ ε β} {s s' : σ} {b : β}
    (h : (orFail o e >>= f) s = (.ok b, s')) : ∃ a, o = some a ∧ f a s = (.ok b, s') := by
  cases o with
  | none => simp [orFail] at h
  | some a => exact ⟨a, rfl, h⟩

-- Success

/-- The run of `p` from a state ends without an error. -/
def Succeeds (p : Fallible σ ε α) (s : σ) : Prop := (p s).1.isOk = true

instance (p : Fallible σ ε α) (s : σ) : Decidable (p.Succeeds s) :=
  inferInstanceAs (Decidable (_ = true))

section Succeeds

variable {p : Fallible σ ε α} {f : α → Fallible σ ε β} {s : σ}

theorem succeeds_iff : p.Succeeds s ↔ ∃ a, (p s).1 = .ok a := by
  rw [Succeeds]
  rcases (p s).1 with _ | a
  · exact iff_of_false Bool.false_ne_true fun ⟨_, h⟩ => nomatch h
  · exact iff_of_true rfl ⟨a, rfl⟩

/-- A run that succeeds yields a value, with the state it ends in. -/
theorem Succeeds.eq_ok (h : p.Succeeds s) : ∃ a, p s = (.ok a, (p s).2) := by
  obtain ⟨a, ha⟩ := succeeds_iff.mp h
  exact ⟨a, Prod.ext ha rfl⟩

@[simp] theorem succeeds_pure (a : α) : (pure a : Fallible σ ε α).Succeeds s := rfl

/-- A sequence succeeds when its parts do in turn. -/
theorem succeeds_bind :
    (p >>= f).Succeeds s ↔ ∃ a, (p s).1 = .ok a ∧ (f a).Succeeds (p s).2 := by
  rw [Succeeds, bind_apply]
  rcases p s with ⟨_ | a, s'⟩
  · exact iff_of_false Bool.false_ne_true fun ⟨_, h, _⟩ => nomatch h
  · exact ⟨fun h => ⟨a, rfl, h⟩, fun ⟨_, ha, h⟩ => by cases ha; exact h⟩

@[simp] theorem succeeds_discard : (discard p).Succeeds s ↔ p.Succeeds s := by
  rw [Succeeds, Succeeds, discard, bind_apply]
  rcases p s with ⟨_ | a, s'⟩ <;> exact Iff.rfl

theorem succeeds_zoom {proj : σ → τ} {put : σ → τ → σ} {wrap : ε → δ} {p : Fallible τ ε α} :
    (zoom proj put wrap p).Succeeds s ↔ p.Succeeds (proj s) := by
  rw [Succeeds, zoom_apply, Succeeds]
  rcases (p (proj s)).1 with _ | a <;> exact Iff.rfl

end Succeeds

-- Where a success ends

/-- Every run of `p` that succeeds ends in a state of `Q`. -/
def EndsIn (Q : σ → Prop) (p : Fallible σ ε α) : Prop := ∀ s, p.Succeeds s → Q (p s).2

section EndsIn

variable {Q : σ → Prop}

theorem EndsIn.fail (e : ε) : EndsIn Q (Fallible.fail e : Fallible σ ε α) := fun _ h => nomatch h

theorem EndsIn.modify {g : σ → σ} (h : ∀ s, Q (g s)) :
    EndsIn Q (Fallible.modify g : Fallible σ ε Unit) := fun s _ => h s

/-- **Sequencing**: the last part decides. -/
theorem EndsIn.bind {p : Fallible σ ε α} {f : α → Fallible σ ε β} (hf : ∀ a, EndsIn Q (f a)) :
    EndsIn Q (p >>= f) := by
  intro s h
  obtain ⟨a, ha, h⟩ := succeeds_bind.mp h
  rw [bind_of_ok (Prod.ext ha rfl)]
  exact hf a _ h

/-- A value that follows writes nothing. -/
theorem EndsIn.bind_pure {p : Fallible σ ε α} (hp : EndsIn Q p) (f : α → β) :
    EndsIn Q (p >>= fun a => pure (f a)) := by
  intro s h
  obtain ⟨a, ha, -⟩ := succeeds_bind.mp h
  rw [bind_pure_snd]
  exact hp s (succeeds_iff.mpr ⟨a, ha⟩)

theorem EndsIn.discard {p : Fallible σ ε α} (hp : EndsIn Q p) : EndsIn Q (Fallible.discard p) :=
  hp.bind_pure _

end EndsIn

-- All or nothing

/-- The run of `p` from a state, if it fails, leaves the state as it was. -/
def AtomicAt (p : Fallible σ ε α) (s : σ) : Prop := ¬p.Succeeds s → (p s).2 = s

section AtomicAt

variable {p : Fallible σ ε α} {f : α → Fallible σ ε β} {s : σ}

theorem atomicAt_of_succeeds (h : p.Succeeds s) : p.AtomicAt s := fun hfail => absurd h hfail

theorem atomicAt_pure (a : α) : (pure a : Fallible σ ε α).AtomicAt s := fun _ => rfl

theorem atomicAt_fail (e : ε) : (fail e : Fallible σ ε α).AtomicAt s := fun _ => rfl

theorem atomicAt_modify (g : σ → σ) : (modify g : Fallible σ ε Unit).AtomicAt s :=
  atomicAt_of_succeeds rfl

theorem atomicAt_reads_bind {g : σ → α} : (reads g >>= f).AtomicAt s ↔ (f (g s)).AtomicAt s :=
  Iff.rfl

/-- A check writes nothing: only what follows it counts. -/
theorem atomicAt_ofExcept_bind {r : Except ε α} :
    (ofExcept r >>= f).AtomicAt s ↔ ∀ a, r = .ok a → (f a).AtomicAt s := by
  cases r with
  | error e => exact iff_of_true (fun _ => rfl) fun _ h => nomatch h
  | ok a => exact ⟨fun h _ ha => by cases ha; exact h, fun h => h a rfl⟩

theorem atomicAt_orFail_bind {o : Option α} {e : ε} :
    (orFail o e >>= f).AtomicAt s ↔ ∀ a, o = some a → (f a).AtomicAt s := by
  cases o with
  | none => exact iff_of_true (fun _ => rfl) fun _ h => nomatch h
  | some a => exact ⟨fun h _ ha => by cases ha; exact h, fun h => h a rfl⟩

theorem atomicAt_require_bind {c : Prop} [Decidable c] {e : ε} {f : Unit → Fallible σ ε β} :
    (require c e >>= f).AtomicAt s ↔ (c → (f ()).AtomicAt s) := by
  rw [AtomicAt, Succeeds, require_bind]
  split
  · exact ⟨fun h _ => h, fun h => h ‹c›⟩
  · exact iff_of_true (fun _ => rfl) fun hc => absurd hc ‹¬c›

end AtomicAt

-- Runs along a relation

/-- Every run of `p`, failed or not, ends in a state that `R` relates to the initial one. -/
def Along (R : σ → σ → Prop) (p : Fallible σ ε α) : Prop := ∀ s, R s (p s).2

/-- `p` keeps the invariant `I`, whatever its outcome. -/
def Preserves (I : σ → Prop) (p : Fallible σ ε α) : Prop := Along (fun s s' => I s → I s') p

section Along

variable {R : σ → σ → Prop}

theorem Along.mono {R' : σ → σ → Prop} {p : Fallible σ ε α} (h : Along R p)
    (hR : ∀ s s', R s s' → R' s s') : Along R' p :=
  fun s => hR s _ (h s)

theorem Along.of_ok {p : Fallible σ ε α} (h : Along R p) {s s' : σ} {a : α}
    (hp : p s = (.ok a, s')) : R s s' := by
  have hs := h s
  rwa [hp] at hs

theorem Along.ret [Std.Refl R] (a : α) : Along R (pure a : Fallible σ ε α) :=
  fun s => Std.Refl.refl s

theorem Along.fail [Std.Refl R] (e : ε) : Along R (Fallible.fail e : Fallible σ ε α) :=
  fun s => Std.Refl.refl s

theorem Along.reads [Std.Refl R] (f : σ → α) : Along R (Fallible.reads f : Fallible σ ε α) :=
  fun s => Std.Refl.refl s

theorem Along.ofExcept [Std.Refl R] (r : Except ε α) :
    Along R (Fallible.ofExcept r : Fallible σ ε α) :=
  fun s => Std.Refl.refl s

theorem Along.modify {f : σ → σ} (h : ∀ s, R s (f s)) :
    Along R (Fallible.modify f : Fallible σ ε Unit) := h

theorem Along.require [Std.Refl R] (c : Prop) [Decidable c] (e : ε) :
    Along R (Fallible.require c e : Fallible σ ε Unit) := by
  unfold Fallible.require
  split
  · exact Along.ret ()
  · exact Along.fail e

/-- **Sequencing**: two parts that run along a transitive relation run along it together. -/
theorem Along.bind [IsTrans σ R] {p : Fallible σ ε α} {f : α → Fallible σ ε β}
    (hp : Along R p) (hf : ∀ a, Along R (f a)) : Along R (p >>= f) := by
  intro s
  have h := hp s
  rw [bind_apply]
  rcases hps : p s with ⟨_ | a, s'⟩
  · simpa [hps] using h
  · rw [hps] at h
    exact IsTrans.trans _ _ _ h (hf a s')

/-- Sequencing from one state: the second part starts from what the first one yielded there. -/
theorem Along.bind_at [IsTrans σ R] {p : Fallible σ ε α} {f : α → Fallible σ ε β} {s : σ}
    (hp : R s (p s).2) (hf : ∀ a s', p s = (.ok a, s') → R s' (f a s').2) :
    R s ((p >>= f) s).2 := by
  rw [bind_apply]
  rcases hps : p s with ⟨_ | a, s'⟩
  · simpa [hps] using hp
  · rw [hps] at hp
    exact IsTrans.trans _ _ _ hp (hf a s' hps)

theorem Along.orFail [Std.Refl R] (o : Option α) (e : ε) :
    Along R (Fallible.orFail o e : Fallible σ ε α) := by
  cases o with
  | none => exact Along.fail e
  | some a => exact Along.ret a

theorem Along.discard [Std.Refl R] [IsTrans σ R] {p : Fallible σ ε α} (h : Along R p) :
    Along R (Fallible.discard p) :=
  h.bind fun _ => Along.ret ()

theorem Along.when [Std.Refl R] {c : Prop} [Decidable c] {p : Fallible σ ε Unit}
    (h : Along R p) : Along R (Fallible.when c p) := by
  unfold Fallible.when
  split
  · exact h
  · exact Along.ret ()

theorem Along.ite {c : Prop} [Decidable c] {p q : Fallible σ ε α}
    (hp : c → Along R p) (hq : ¬c → Along R q) : Along R (if c then p else q) := by
  split
  · exact hp ‹_›
  · exact hq ‹_›

theorem Along.attempt {p : Fallible σ ε α} (h : Along R p) :
    Along R (Fallible.attempt p : Fallible σ δ (Except ε α)) := h

/-- A run on a component moves the whole state as `put` moves it. -/
theorem Along.zoom {Q : τ → τ → Prop} {proj : σ → τ} {put : σ → τ → σ} {wrap : ε → δ}
    {p : Fallible τ ε α} (h : Along Q p) (hput : ∀ s t, Q (proj s) t → R s (put s t)) :
    Along R (Fallible.zoom proj put wrap p) :=
  fun s => hput s _ (h (proj s))

theorem Along.forEach [Std.Refl R] [IsTrans σ R] {p : β → Fallible σ ε Unit} {xs : List β}
    (h : ∀ x ∈ xs, Along R (p x)) : Along R (Fallible.forEach p xs) := by
  induction xs with
  | nil => exact Along.ret ()
  | cons x xs ih =>
    exact (h x (by simp)).bind fun _ => ih fun y hy => h y (by simp [hy])

/-- A loop whose body keeps `I` and runs along `R` from states in `I` runs along `R`. -/
theorem Along.forEach_of_inv [Std.Refl R] [IsTrans σ R] {I : σ → Prop}
    {p : β → Fallible σ ε Unit} {xs : List β}
    (h : ∀ x ∈ xs, ∀ s, I s → I (p x s).2 ∧ R s (p x s).2) {s : σ} (hs : I s) :
    R s (Fallible.forEach p xs s).2 := by
  induction xs generalizing s with
  | nil => exact Std.Refl.refl s
  | cons x xs ih =>
    obtain ⟨hI, hR⟩ := h x (by simp) s hs
    refine Along.bind_at hR fun _ s' hp => ih (fun y hy => h y (by simp [hy])) ?_
    rwa [hp] at hI

end Along

-- Filling from a list

section Filling

variable {κ : Type} [DecidableEq κ] {p : β → Fallible σ ε Unit} {I : σ → Prop}
  {look : σ → κ → Option α} {key : β → κ} {val : β → α} {xs : List β} {s : σ}

/-- A loop that puts in the entries of a list, none of them over another, adds exactly them. -/
theorem forEach_fill
    (hput : ∀ x ∈ xs, ∀ s, I s → look s (key x) = none → ∃ s', p x s = (.ok (), s') ∧ I s' ∧
      ∀ k, look s' k = if key x = k then some (val x) else look s k)
    (hs : I s) (hkeys : (xs.map key).Nodup) (hfresh : ∀ x ∈ xs, look s (key x) = none) :
    ∃ s', forEach p xs s = (.ok (), s') ∧ I s' ∧
      (∀ x ∈ xs, look s' (key x) = some (val x)) ∧
      ∀ k, (∀ x ∈ xs, key x ≠ k) → look s' k = look s k := by
  induction xs generalizing s with
  | nil => exact ⟨s, rfl, hs, by simp, fun _ _ => rfl⟩
  | cons x xs ih =>
    obtain ⟨s₁, hrun, hI, hlook⟩ := hput x (by simp) s hs (hfresh x (by simp))
    obtain ⟨hnotin, hkeys⟩ := List.nodup_cons.mp (List.map_cons ▸ hkeys)
    have hother : ∀ y ∈ xs, key x ≠ key y := fun y hy heq =>
      hnotin (heq ▸ List.mem_map_of_mem hy)
    have hfresh₁ : ∀ y ∈ xs, look s₁ (key y) = none := fun y hy => by
      rw [hlook, if_neg (hother y hy)]
      exact hfresh y (by simp [hy])
    obtain ⟨s', hrest, hI', hin, hout⟩ := ih (fun y hy => hput y (by simp [hy])) hI hkeys hfresh₁
    refine ⟨s', (bind_of_ok hrun).trans hrest, hI', ?_, ?_⟩
    · rintro y (_ | ⟨_, hy⟩)
      · rw [hout _ fun z hz heq => hother z hz heq.symm, hlook, if_pos rfl]
      · exact hin y hy
    · intro k hk
      rw [hout k fun y hy => hk y (by simp [hy]), hlook, if_neg (hk x (by simp))]

/-- **A loop over the entries of a map** fills an empty one with them. -/
theorem forEach_fill_eq (look : σ → κ → Option α) (key : β → κ) (val : β → α) (I : σ → Prop)
    {m : κ → Option α}
    (hput : ∀ x ∈ xs, ∀ s, I s → look s (key x) = none → ∃ s', p x s = (.ok (), s') ∧ I s' ∧
      ∀ k, look s' k = if key x = k then some (val x) else look s k)
    (hs : I s) (hkeys : (xs.map key).Nodup) (hempty : ∀ k, look s k = none)
    (hentries : ∀ k v, m k = some v ↔ ∃ x ∈ xs, key x = k ∧ val x = v) :
    ∃ s', forEach p xs s = (.ok (), s') ∧ I s' ∧ ∀ k, look s' k = m k := by
  obtain ⟨s', hrun, hI, hin, hout⟩ := forEach_fill hput hs hkeys fun x _ => hempty (key x)
  refine ⟨s', hrun, hI, fun k => ?_⟩
  cases hk : m k with
  | some v =>
    obtain ⟨x, hx, rfl, rfl⟩ := (hentries k v).mp hk
    exact hin x hx
  | none =>
    rw [hout k fun x hx hkey => ?_, hempty]
    rw [(hentries k (val x)).mpr ⟨x, hx, hkey, rfl⟩] at hk
    cases hk

end Filling

/-- The states agree in what `f` reads of them. -/
def Same (f : σ → β) (s s' : σ) : Prop := f s' = f s

instance (f : σ → β) : Std.Refl (Same f) := ⟨fun _ => rfl⟩

instance (f : σ → β) : IsTrans σ (Same f) := ⟨fun _ _ _ h h' => Eq.trans h' h⟩

/-- Keeping an invariant is running along the preorder "if it held, it holds". -/
instance (I : σ → Prop) : Std.Refl (fun s s' => I s → I s') := ⟨fun _ h => h⟩

instance (I : σ → Prop) : IsTrans σ (fun s s' => I s → I s') := ⟨fun _ _ _ h h' hs => h' (h hs)⟩

end Fallible
