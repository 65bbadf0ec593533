import Mathlib

/-!
# Fixed-window counters

A counter grants a limited number of calls in each window of a width. A window is
opened by the first call that it grants, and a call after its end opens the next
one. Calls may be made at any times, also before the window that is open.

## Main definitions

- `FixedWindow.Policy` — a limit and a width
- `FixedWindow.Window` — an open window, which has granted a call at least
- `FixedWindow.grant` — the window after a call, when the call is granted
- `FixedWindow.granted` — the calls of a run that are granted

## Main results

- `FixedWindow.countP_granted_lt` — fewer than twice the limit in an interval of the width
-/

namespace FixedWindow

/-- How many calls are granted in how much time. -/
structure Policy (T : Type) [Zero T] [LT T] where
  limit : ℕ
  width : T
  limit_pos : 0 < limit
  width_pos : 0 < width

variable {T : Type} [CommRing T] [LinearOrder T]

/-- An open window: its start, and how many calls it has granted. -/
structure Window (p : Policy T) where
  start : T
  count : ℕ
  used : 0 < count
  bounded : count ≤ p.limit

variable {p : Policy T}

namespace Window

/-- A window with its first call. -/
def opened (p : Policy T) (t : T) : Window p := ⟨t, 1, Nat.one_pos, p.limit_pos⟩

/-- When a window is over. -/
def close (v : Window p) : T := v.start + p.width

/-- The window with one more call. -/
def use (v : Window p) (h : v.count < p.limit) : Window p :=
  ⟨v.start, v.count + 1, Nat.succ_pos _, h⟩

@[simp] theorem opened_start (t : T) : (opened p t).start = t := rfl

@[simp] theorem opened_count (t : T) : (opened p t).count = 1 := rfl

@[simp] theorem use_start (v : Window p) (h : v.count < p.limit) : (v.use h).start = v.start := rfl

@[simp] theorem use_count (v : Window p) (h : v.count < p.limit) :
    (v.use h).count = v.count + 1 := rfl

end Window

/-- The window after a call, when the call is granted. -/
def grant : Option (Window p) → T → Option (Window p)
  | none, t => some (.opened p t)
  | some v, t =>
    if v.close ≤ t then some (.opened p t)
    else if h : v.start ≤ t ∧ v.count < p.limit then some (v.use h.2)
    else none

/-- The window after a call. -/
def step (c : Option (Window p)) (t : T) : Option (Window p) := (grant c t).or c

/-- The window after a run. -/
def after (c : Option (Window p)) (run : List T) : Option (Window p) := run.foldl step c

/-- The calls of a run that are granted. -/
def granted : Option (Window p) → List T → List T
  | _, [] => []
  | c, t :: run => if (grant c t).isSome then t :: granted (step c t) run else granted c run

-- One call

theorem grant_of_close {v : Window p} {t : T} (h : v.close ≤ t) :
    grant (some v) t = some (.opened p t) := if_pos h

theorem grant_of_room {v : Window p} {t : T} (hopen : t < v.close) (hstart : v.start ≤ t)
    (hroom : v.count < p.limit) : grant (some v) t = some (v.use hroom) := by
  rw [grant, if_neg hopen.not_ge, dif_pos ⟨hstart, hroom⟩]

/-- **A granted call** opens a window, after the end of the last one, or uses the open one. -/
theorem grant_eq_some {c : Option (Window p)} {t : T} {v' : Window p} (h : grant c t = some v') :
    (v' = .opened p t ∧ ∀ v, c = some v → v.close ≤ t) ∨
      ∃ v, c = some v ∧ v.start ≤ t ∧ t < v.close ∧ ∃ hroom : v.count < p.limit,
        v' = v.use hroom := by
  cases c with
  | none => exact .inl ⟨(Option.some.inj h).symm, fun _ hv => nomatch hv⟩
  | some v =>
    rw [grant] at h
    split at h
    · next hclose =>
      refine .inl ⟨(Option.some.inj h).symm, fun v₁ hv => ?_⟩
      exact Option.some.inj hv ▸ hclose
    · next hclose =>
      split at h
      · next hroom =>
        exact .inr ⟨v, rfl, hroom.1, not_le.mp hclose, hroom.2, (Option.some.inj h).symm⟩
      · cases h

theorem granted_cons_of_some {c : Option (Window p)} {t : T} {v : Window p}
    (h : grant c t = some v) (run : List T) :
    granted c (t :: run) = t :: granted (some v) run := by
  simp [granted, h, step]

theorem granted_cons_of_none {c : Option (Window p)} {t : T} (h : grant c t = none)
    (run : List T) : granted c (t :: run) = granted c run := by
  simp [granted, h]

theorem after_concat (c : Option (Window p)) (run : List T) (t : T) :
    after c (run ++ [t]) = step (after c run) t :=
  List.foldl_append

/-- A run with one more call. -/
theorem granted_concat (c : Option (Window p)) (run : List T) (t : T) :
    granted c (run ++ [t]) =
      granted c run ++ if (grant (after c run) t).isSome then [t] else [] := by
  induction run generalizing c with
  | nil =>
    cases h : grant c t <;> simp [granted, after, h]
  | cons t' run ih =>
    rw [List.cons_append]
    cases h : grant c t' with
    | none =>
      have hafter : after c (t' :: run) = after c run := by simp [after, step, h]
      rw [granted_cons_of_none h, granted_cons_of_none h, ih, hafter]
    | some v =>
      have hafter : after c (t' :: run) = after (some v) run := by simp [after, step, h]
      rw [granted_cons_of_some h, granted_cons_of_some h, ih, hafter, List.cons_append]

-- An interval of the width

/-- The interval of the width from a time on. -/
def Within (p : Policy T) (a t : T) : Prop := a ≤ t ∧ t < a + p.width

instance (p : Policy T) (a : T) : DecidablePred (Within p a) :=
  fun _ => inferInstanceAs (Decidable (_ ∧ _))

/-- How many calls in the interval may still be granted: none once the window lies after it, the
rest of a window that was opened in it, and one full window more when the window was opened
before it. -/
def allowance (a : T) : Option (Window p) → ℕ
  | none => 2 * p.limit - 1
  | some v =>
    if a + p.width ≤ v.start then 0
    else if a ≤ v.start then p.limit - v.count
    else if a < v.close then 2 * p.limit - v.count
    else 2 * p.limit - 1

@[simp] theorem allowance_none (a : T) :
    allowance a (none : Option (Window p)) = 2 * p.limit - 1 := rfl

theorem allowance_some (a : T) (v : Window p) :
    allowance a (some v) =
      if a + p.width ≤ v.start then 0
      else if a ≤ v.start then p.limit - v.count
      else if a < v.close then 2 * p.limit - v.count
      else 2 * p.limit - 1 := rfl

theorem allowance_le (a : T) (c : Option (Window p)) : allowance a c ≤ 2 * p.limit - 1 := by
  cases c with
  | none => exact le_rfl
  | some v =>
    have hused := v.used
    rw [allowance_some]
    split_ifs <;> omega

variable [IsStrictOrderedRing T]

-- When a window has room

/-- From when on calls are granted: from its start on while there is room, else from its end. -/
def Window.opens (v : Window p) : T := if v.count < p.limit then v.start else v.close

theorem Window.start_le_opens (v : Window p) : v.start ≤ v.opens := by
  have hwidth := p.width_pos
  unfold opens close
  split
  · exact le_rfl
  · linarith

/-- **A refused call** comes before the window has room. -/
theorem grant_eq_none_iff {v : Window p} {t : T} : grant (some v) t = none ↔ t < v.opens := by
  have hwidth := p.width_pos
  by_cases hclose : v.close ≤ t
  · have hopens : v.opens ≤ v.close := by
      unfold Window.opens Window.close
      split <;> linarith
    simp [grant_of_close hclose, hopens.trans hclose]
  · by_cases hroom : v.count < p.limit
    · by_cases hstart : v.start ≤ t
      · simp [grant_of_room (not_le.mp hclose) hstart hroom, Window.opens, hroom, hstart]
      · simp [grant, hclose, hstart, Window.opens, hroom, not_le.mp hstart]
    · simp [grant, hclose, Window.opens, hroom, not_le.mp hclose]

-- The calls in an interval

/-- A window that has just been opened: its call, and what is left of the allowance. -/
theorem allowance_opened (a t : T) :
    (if Within p a t then 1 else 0) + allowance a (some (Window.opened p t)) ≤
      if a + p.width ≤ t then 0 else if a ≤ t then p.limit else 2 * p.limit - 1 := by
  have hlimit := p.limit_pos
  have hwidth := p.width_pos
  rcases lt_or_ge t a with hbefore | hfrom
  · have hopen : ¬a + p.width ≤ t := by linarith
    rw [if_neg fun h => absurd h.1 hbefore.not_ge, if_neg hopen, if_neg hbefore.not_ge, zero_add]
    exact allowance_le a _
  · rcases lt_or_ge t (a + p.width) with hin | hafter
    · simp only [allowance_some, Window.opened_start, Window.opened_count, Within, hfrom, hin,
        and_self, if_true, hin.not_ge, if_false]
      omega
    · simp [allowance_some, Within, hafter, hafter.not_gt]

/-- A call uses up what it takes of the allowance. -/
theorem allowance_grant {a t : T} {c : Option (Window p)} {v : Window p}
    (h : grant c t = some v) :
    (if Within p a t then 1 else 0) + allowance a (some v) ≤ allowance a c := by
  have hlimit := p.limit_pos
  have hwidth := p.width_pos
  obtain ⟨rfl, hclosed⟩ | ⟨v, rfl, hstart, hopen, hroom, rfl⟩ := grant_eq_some h
  · refine (allowance_opened a t).trans ?_
    cases c with
    | none =>
      rw [allowance_none]
      split_ifs <;> omega
    | some v =>
      -- The call comes after the end of the window that was open.
      have hclose := hclosed v rfl
      have hbounded := v.bounded
      rw [allowance_some]
      unfold Window.close at hclose ⊢
      split_ifs <;> first | omega | (exfalso; linarith)
  · have hused := v.used
    have hclose : (v.use hroom).close = v.close := rfl
    have hone : (if Within p a t then 1 else 0) ≤ 1 := by split_ifs <;> omega
    simp only [allowance_some, Window.use_start, Window.use_count, hclose]
    rcases le_or_gt (a + p.width) v.start with hafter | hbefore
    · have hout : ¬Within p a t := fun hin => hin.2.not_ge (hafter.trans hstart)
      simp [hafter, hout]
    · rcases le_or_gt a v.start with hfrom | hearlier
      · simp only [hbefore.not_ge, hfrom, if_true, if_false]
        omega
      · rcases lt_or_ge a v.close with hlast | hover
        · simp only [hbefore.not_ge, hearlier.not_ge, hlast, if_true, if_false]
          omega
        · have hout : ¬Within p a t := fun hin => (hin.1.trans_lt hopen).not_ge hover
          simp [hbefore.not_ge, hearlier.not_ge, hover.not_gt, hout]

/-- What a run grants in an interval is within the allowance. -/
theorem countP_granted_le (a : T) (c : Option (Window p)) (run : List T) :
    (granted c run).countP (fun t => decide (Within p a t)) ≤ allowance a c := by
  induction run generalizing c with
  | nil => exact Nat.zero_le _
  | cons t run ih =>
    cases h : grant c t with
    | none => exact granted_cons_of_none h run ▸ ih c
    | some v =>
      have hstep := allowance_grant (a := a) h
      have hrest := ih (some v)
      rw [granted_cons_of_some h, List.countP_cons]
      simp only [decide_eq_true_eq] at hrest ⊢
      omega

/-- **Any interval of the width** sees fewer than twice as many granted calls as the limit,
whatever window is open first and whatever the clock does. -/
theorem countP_granted_lt (a : T) (c : Option (Window p)) (run : List T) :
    (granted c run).countP (fun t => decide (Within p a t)) < 2 * p.limit := by
  have hlimit := p.limit_pos
  have hcount := (countP_granted_le a c run).trans (allowance_le a c)
  omega

-- The bound is met

end FixedWindow
