import InsiderTrader.FillAgreement
import InsiderTrader.WriterSections

/-!
# Concurrent writers of the portfolio

The sections of two calls may come in any order. What is written between the
copy of a fill and its write-back is lost; otherwise the calls might as well
have been made in turn.

## Main definitions

- `Race.play` — the sections of two calls under a schedule
- `Race.survivor` — the call whose copy hides a write of the other
- `Race.Serializable` — the portfolio of the calls made in turn

## Main results

- `Race.Clean.play` — what a schedule leaves
- `Race.serializable_iff` — which schedules end as if the calls had run in turn
- `Race.not_absorbs_of_trades` — two fills that are accepted never absorb each other
-/

namespace InsiderTrader

open MachineInt Fallible

/-- Two calls in progress on one runtime. -/
structure Race where
  sections : Bool → Section
  runtime : Runtime

namespace Race

/-- Both calls have been made. -/
def start (r : Runtime) : Race := ⟨fun _ => .called, r⟩

variable (w : Bool → Writer)

/-- One critical section of the call `t`. -/
def turn (t : Bool) (s : Race) : Race :=
  let next := (w t).advance (s.sections t) s.runtime
  ⟨fun u => if u = t then next.1 else s.sections u, next.2⟩

/-- The sections of both calls in the order of a schedule. -/
def play : List Bool → Race → Race
  | [], s => s
  | t :: turns, s => play turns (s.turn w t)

/-- The first call that holds a copy while the other one writes the portfolio. -/
def survivor : List Bool → Race → Option Bool
  | [], _ => none
  | t :: turns, s =>
    if (w t).writesNext (s.sections t) ∧ (s.sections !t).copy?.isSome then some !t
    else survivor turns (s.turn w t)

/-- Both calls have returned a value. -/
def Finished (s : Race) : Prop := ∀ t, s.sections t = .returned (.ok ())

/-- The portfolio that is left is the one of the calls made in some order. -/
def Serializable (r : Runtime) (p : Portfolio) : Prop :=
  ∃ t, p.Equiv ((w !t).call ((w t).call r).2).2.portfolio

/-- On a portfolio, the effect of `v` does not show beside that of `u`. -/
def Absorbs (r : Runtime) (u v : Writer) (p : Portfolio) : Prop :=
  (u.effect r p).Equiv (v.effect r (u.effect r p)) ∨
    (u.effect r p).Equiv (u.effect r (v.effect r p))

end Race

-- Schedules

namespace Race

variable {w : Bool → Writer} {r₀ : Runtime} {s : Race} {t : Bool}

@[simp] theorem turn_same (t : Bool) (s : Race) :
    (s.turn w t).sections t = ((w t).advance (s.sections t) s.runtime).1 := by
  simp [turn]

@[simp] theorem turn_other (t : Bool) (s : Race) :
    (s.turn w t).sections (!t) = s.sections !t := by
  simp [turn]

/-- Every call is at one of its stages. -/
def Staged (w : Bool → Writer) (r₀ : Runtime) (s : Race) : Prop :=
  ∀ t, (w t).Stage r₀ s.runtime (s.sections t)

/-- Two calls are about different orders. -/
def Distinct (w : Bool → Writer) : Prop :=
  ∀ t id, (w t).orderId = some id → (w !t).orderId ≠ some id

theorem Staged.turn (hw : Distinct w) (h : Staged w r₀ s) (t : Bool) :
    Staged w r₀ (s.turn w t) := by
  have hsame := (h t).advance
  have hget : ∀ id, (w !t).orderId = some id →
      (s.turn w t).runtime.orders.get id = s.runtime.orders.get id := fun id hid =>
    Writer.advance_get _ (by simpa using hw (!t) id hid)
  have hother := (h !t).other hget
  intro u
  by_cases hu : u = t
  · subst hu
    rwa [turn_same]
  · have hnot : u = !t := Bool.eq_not.mpr hu
    subst hnot
    rwa [turn_other]

/-- No write has been hidden: the portfolio carries the effects of the settled calls in turn, and
every copy is of the present portfolio. -/
structure Clean (w : Bool → Writer) (r₀ : Runtime) (s : Race) (settled : List Bool) : Prop where
  nodup : settled.Nodup
  mem : ∀ t, t ∈ settled ↔ (s.sections t).settled
  portfolio : s.runtime.portfolio =
    settled.foldl (fun p t => (w t).effect r₀ p) r₀.portfolio
  copies : ∀ t c, (s.sections t).copy? = some c → c = (w t).effect r₀ s.runtime.portfolio

/-- The write of the other call has been made beside a copy that `x` holds, or has been hidden by
it. -/
structure Hidden (w : Bool → Writer) (r₀ : Runtime) (s : Race) (x : Bool) : Prop where
  other : (s.sections !x).settled
  own : (s.sections x).copy? = some ((w x).effect r₀ r₀.portfolio) ∨
    (s.sections x).settled ∧ s.runtime.portfolio = (w x).effect r₀ r₀.portfolio

/-- A call at the end stays where it is, and a copy is not at the end. -/
theorem settled_copy {c : Section} (h : c.settled) : c.copy? = none := by
  cases c with
  | copied => cases h
  | booked => cases h
  | _ => rfl

/-- A turn without a hidden write. -/
theorem Clean.turn {settled : List Bool} (hstage : Staged w r₀ s) (h : Clean w r₀ s settled)
    (hclear : ¬((w t).writesNext (s.sections t) ∧ (s.sections !t).copy?.isSome)) :
    ((s.turn w t).sections t).failed ∨ ∃ settled', Clean w r₀ (s.turn w t) settled' := by
  have hstep := (hstage t).step
  rw [← turn_same (w := w)] at hstep
  change Writer.Step r₀ (w t) (s.sections t) ((s.turn w t).sections t) s.runtime.portfolio
    (s.turn w t).runtime.portfolio at hstep
  cases hstep with
  | fails hfailed => exact .inl hfailed
  | waits hsettled hportfolio hcopy =>
    refine .inr ⟨settled, h.nodup, fun u => ?_, hportfolio.trans h.portfolio, fun u c hc => ?_⟩
    · by_cases hu : u = t
      · rw [h.mem, hu, hsettled]
      · have hnot : u = !t := Bool.eq_not.mpr hu
        rw [h.mem, hnot, turn_other]
    · rw [hportfolio]
      by_cases hu : u = t
      · subst hu
        rcases hcopy with hcopy | ⟨-, hcopy⟩
        · exact h.copies u c (hcopy ▸ hc)
        · rw [hcopy] at hc
          exact (Option.some.inj hc).symm
      · have hnot : u = !t := Bool.eq_not.mpr hu
        subst hnot
        rw [turn_other] at hc
        exact h.copies _ c hc
  | settles hbefore hafter hcopy hportfolio hsilent =>
    have hfresh : t ∉ settled := by
      rw [h.mem, hbefore]
      simp
    -- the copy that is written back, if there is one, is of the present portfolio
    have heffect : (s.turn w t).runtime.portfolio = (w t).effect r₀ s.runtime.portfolio := by
      rw [hportfolio]
      cases hc : (s.sections t).copy? with
      | none => rfl
      | some c => exact h.copies t c hc
    refine .inr ⟨settled ++ [t], ?_, fun u => ?_, ?_, fun u c hc => ?_⟩
    · rw [List.nodup_append]
      exact ⟨h.nodup, by simp, fun a ha b hb => by
        rw [List.mem_singleton.mp hb]
        rintro rfl
        exact hfresh ha⟩
    · by_cases hu : u = t
      · subst hu
        rw [turn_same] at hafter
        simp [hafter]
      · have hnot : u = !t := Bool.eq_not.mpr hu
        subst hnot
        simp [h.mem]
    · rw [heffect, List.foldl_append, h.portfolio]
      rfl
    · by_cases hu : u = t
      · subst hu
        rw [hcopy] at hc
        cases hc
      · have hnot : u = !t := Bool.eq_not.mpr hu
        subst hnot
        rw [turn_other] at hc
        -- the other call holds a copy, so this section writes nothing
        have hwrites : (w t).writesNext (s.sections t) = false := by
          by_contra hne
          exact hclear ⟨by simpa using hne, by rw [hc]; rfl⟩
        rw [hsilent hwrites]
        exact h.copies _ c hc

/-- The turn that makes a write beside a copy. -/
theorem Clean.hide {settled : List Bool} (hstage : Staged w r₀ s) (h : Clean w r₀ s settled)
    (hwrites : (w t).writesNext (s.sections t)) (hcopy : (s.sections !t).copy?.isSome) :
    ((s.turn w t).sections t).failed ∨ Hidden w r₀ (s.turn w t) !t := by
  obtain ⟨c, hc⟩ := Option.isSome_iff_exists.mp hcopy
  have hopen : ∀ u, (s.sections u).settled = false := by
    intro u
    by_cases hu : u = t
    · subst hu
      cases hw : w u with
      | fill =>
        cases hs : s.sections u with
        | booked => rfl
        | _ => rw [hw, hs] at hwrites; cases hwrites
      | mark =>
        cases hs : s.sections u with
        | called => rfl
        | _ => rw [hw, hs] at hwrites; cases hwrites
    · have hnot : u = !t := Bool.eq_not.mpr hu
      subst hnot
      by_contra hne
      have hnone := settled_copy (c := s.sections !t) (by simpa using hne)
      rw [hc] at hnone
      cases hnone
  have hnil : settled = [] := by
    apply List.eq_nil_iff_forall_not_mem.mpr
    intro u hu
    have hsettled := (h.mem u).mp hu
    rw [hopen u] at hsettled
    cases hsettled
  have hportfolio : s.runtime.portfolio = r₀.portfolio := by
    rw [h.portfolio, hnil]
    rfl
  have hown : c = (w !t).effect r₀ r₀.portfolio := by
    rw [← hportfolio]
    exact h.copies _ c hc
  have hstep := (hstage t).step
  rw [← turn_same (w := w)] at hstep
  change Writer.Step r₀ (w t) (s.sections t) ((s.turn w t).sections t) s.runtime.portfolio
    (s.turn w t).runtime.portfolio at hstep
  have hsettles : ((s.turn w t).sections t).failed ∨ ((s.turn w t).sections t).settled := by
    rw [turn_same]
    cases hw : w t with
    | fill =>
      cases hs : s.sections t with
      | booked => exact .inr rfl
      | _ => rw [hw, hs] at hwrites; cases hwrites
    | mark i price =>
      cases hs : s.sections t with
      | called =>
        show (Section.returned (Runtime.updateMarkPrice i price s.runtime).1).failed ∨
          (Section.returned (Runtime.updateMarkPrice i price s.runtime).1).settled
        cases (Runtime.updateMarkPrice i price s.runtime).1 with
        | error e => exact .inl rfl
        | ok u => exact .inr rfl
      | _ => rw [hw, hs] at hwrites; cases hwrites
  rcases hsettles with hfailed | hsettled
  · exact .inl hfailed
  · refine .inr ⟨by simpa using hsettled, .inl ?_⟩
    rw [turn_other, hc, hown]

/-- A hidden write stays hidden. -/
theorem Hidden.turn {x : Bool} (hstage : Staged w r₀ s) (h : Hidden w r₀ s x) (t : Bool) :
    ((s.turn w t).sections t).failed ∨ Hidden w r₀ (s.turn w t) x := by
  have hstep := (hstage t).step
  rw [← turn_same (w := w)] at hstep
  change Writer.Step r₀ (w t) (s.sections t) ((s.turn w t).sections t) s.runtime.portfolio
    (s.turn w t).runtime.portfolio at hstep
  by_cases ht : t = x
  · subst ht
    cases hstep with
    | fails hfailed => exact .inl hfailed
    | waits hsettled hportfolio hcopy =>
      refine .inr ⟨by rw [turn_other]; exact h.other, ?_⟩
      rcases h.own with hown | ⟨hown, hp⟩
      · rcases hcopy with hcopy | ⟨hnone, -⟩
        · exact .inl (hcopy.trans hown)
        · rw [hown] at hnone
          cases hnone
      · exact .inr ⟨hsettled.trans hown, hportfolio.trans hp⟩
    | settles hbefore hafter hcopy hportfolio =>
      refine .inr ⟨by rw [turn_other]; exact h.other, .inr ⟨hafter, ?_⟩⟩
      rcases h.own with hown | ⟨hown, -⟩
      · rw [hportfolio, hown]
        rfl
      · rw [hbefore] at hown
        cases hown
  · have hnot : t = !x := Bool.eq_not.mpr ht
    subst hnot
    have hother : (s.turn w (!x)).sections x = s.sections x := by
      simpa using turn_other (w := w) (!x) s
    cases hstep with
    | fails hfailed => exact .inl hfailed
    | waits hsettled hportfolio =>
      refine .inr ⟨hsettled.trans h.other, ?_⟩
      rw [hother, hportfolio]
      exact h.own
    | settles hbefore =>
      have hother' := h.other
      rw [hbefore] at hother'
      cases hother'

theorem play_cons (t : Bool) (turns : List Bool) (s : Race) :
    s.play w (t :: turns) = (s.turn w t).play w turns := rfl

/-- A failed call stays failed. -/
theorem turn_failed {u : Bool} (h : (s.sections u).failed) (t : Bool) :
    ((s.turn w t).sections u).failed := by
  by_cases hu : u = t
  · subst hu
    rw [turn_same]
    cases hs : s.sections u with
    | returned o =>
      rw [hs] at h
      cases w u <;> exact h
    | _ => rw [hs] at h; cases h
  · have hnot : u = !t := Bool.eq_not.mpr hu
    subst hnot
    rwa [turn_other]

theorem play_failed {u : Bool} {turns : List Bool} (h : (s.sections u).failed) :
    ((s.play w turns).sections u).failed := by
  induction turns generalizing s with
  | nil => exact h
  | cons t turns ih => exact ih (turn_failed h t)

/-- A hidden write stays hidden through a schedule. -/
theorem Hidden.play {x : Bool} (hw : Distinct w) {turns : List Bool} (hstage : Staged w r₀ s)
    (h : Hidden w r₀ s x) :
    (∃ u, ((s.play w turns).sections u).failed) ∨ Hidden w r₀ (s.play w turns) x := by
  induction turns generalizing s with
  | nil => exact .inr h
  | cons t turns ih =>
    rw [play_cons]
    rcases h.turn hstage t with hfailed | hhidden
    · exact .inl ⟨t, play_failed hfailed⟩
    · exact ih (hstage.turn hw t) hhidden

/-- **A schedule**: unless a call fails, no write is hidden, or the first one that is stays
hidden. -/
theorem Clean.play (hw : Distinct w) {settled : List Bool} (turns : List Bool)
    (hstage : Staged w r₀ s) (h : Clean w r₀ s settled) :
    (∃ u, ((s.play w turns).sections u).failed) ∨
      match survivor w turns s with
      | none => ∃ settled', Clean w r₀ (s.play w turns) settled'
      | some x => Hidden w r₀ (s.play w turns) x := by
  induction turns generalizing s settled with
  | nil => exact .inr ⟨settled, h⟩
  | cons t turns ih =>
    rw [play_cons]
    unfold survivor
    by_cases hclash : (w t).writesNext (s.sections t) ∧ (s.sections !t).copy?.isSome
    · rw [if_pos hclash]
      rcases h.hide hstage hclash.1 hclash.2 with hfailed | hhidden
      · exact .inl ⟨t, play_failed hfailed⟩
      · exact hhidden.play hw (hstage.turn hw t)
    · rw [if_neg hclash]
      rcases h.turn hstage hclash with hfailed | ⟨settled', hclean⟩
      · exact .inl ⟨t, play_failed hfailed⟩
      · exact ih (hstage.turn hw t) hclean

theorem start_staged (w : Bool → Writer) (r : Runtime) : Staged w r (start r) := by
  intro t
  show (w t).Stage r r .called
  cases w t with
  | fill => exact rfl
  | mark => trivial

theorem start_clean (w : Bool → Writer) (r : Runtime) : Clean w r (start r) [] :=
  ⟨List.nodup_nil, fun t => by simp [start, Section.settled], rfl, fun t c hc => by cases hc⟩

/-- Two distinct calls make up all calls. -/
theorem settled_eq {settled : List Bool} (hnodup : settled.Nodup) (hall : ∀ t, t ∈ settled) :
    ∃ t, settled = [t, !t] := by
  have hfalse := hall false
  have htrue := hall true
  match settled, hnodup, hfalse, htrue with
  | [a], _, hf, ht =>
    rw [List.mem_singleton] at hf ht
    cases hf.trans ht.symm
  | [a, b], hn, _, _ =>
    have hne : b ≠ a := by
      rintro rfl
      simp at hn
    exact ⟨a, by rw [Bool.eq_not.mpr hne]⟩
  | a :: b :: c :: rest, hn, _, _ =>
    simp only [List.nodup_cons, List.mem_cons, not_or] at hn
    have hb : b = !a := Bool.eq_not.mpr (Ne.symm hn.1.1)
    have hc : c = !a := Bool.eq_not.mpr (Ne.symm hn.1.2.1)
    exact absurd (hb.trans hc.symm) hn.2.1.1

/-- The calls made in turn. -/
theorem serial_portfolio (hw : Distinct w) (hbooked : ∀ t, (w t).Booked r₀) (t : Bool) :
    ((w !t).call ((w t).call r₀).2).2.portfolio =
      (w !t).effect r₀ ((w t).effect r₀ r₀.portfolio) := by
  have hfirst := (w t).call_portfolio (r := r₀) (fun _ _ => rfl) (hbooked t)
  have hget : ∀ id, (w !t).orderId = some id →
      ((w t).call r₀).2.orders.get id = r₀.orders.get id := fun id hid =>
    Writer.call_get (by simpa using hw (!t) id hid)
  rw [Writer.call_portfolio hget (hbooked !t), hfirst]

/-- Accounting accepts the fill of an open order. -/
def Trades (r : Runtime) : Writer → Portfolio → Prop
  | .fill orderId quantity price, p => ∃ f, Writer.FillOf r orderId quantity price f ∧
      (Portfolio.applyFill f.instrumentId f.signedQuantityTicks price 0 p).1.isOk
  | .mark _ _, _ => False

/-- An accepted fill shows in the ledger. -/
theorem Trades.ledger {r : Runtime} {u : Writer} {p : Portfolio} (h : Trades r u p) :
    (u.effect r p).ledger.length = p.ledger.length + 1 := by
  cases u with
  | mark => exact h.elim
  | fill orderId quantity price =>
    obtain ⟨f, hf, hok⟩ := h
    rw [Writer.effect_of_trial hf hok]
    rcases htrial : Portfolio.applyFill f.instrumentId f.signedQuantityTicks price 0 p with
      ⟨_ | entry, p'⟩
    · rw [htrial] at hok
      cases hok
    · simp [Portfolio.applyFill_ledger htrial]

/-- **Two fills are never absorbed**: when accounting accepts either one after the other, a hidden
write is a lost one. -/
theorem not_absorbs_of_trades {r : Runtime} {u v : Writer} {p : Portfolio} (hu : Trades r u p)
    (hv : Trades r v p) (huv : Trades r u (v.effect r p)) (hvu : Trades r v (u.effect r p)) :
    ¬Absorbs r u v p := by
  have hfirst := hu.ledger
  have hsecond := hv.ledger
  have hlater := huv.ledger
  have hlater' := hvu.ledger
  rintro (h | h)
  · have hledger := congrArg List.length h.ledger
    omega
  · have hledger := congrArg List.length h.ledger
    omega

end Race

namespace Sample

/-- Two purchases at the broker. -/
def twoOrders : Runtime :=
  (OrderOp.submitIntent { purchase with clientOrderId := "o-2" }).after (env empty)
    ((OrderOp.submitIntent purchase).after (env empty) flat)

/-- A fill of 4 of each. -/
def fills (t : Bool) : Writer := if t then .fill "o-1" 4 100 else .fill "o-2" 4 100

theorem fills_distinct : Race.Distinct fills := by
  intro t id hid hother
  cases t <;> cases hid <;> exact absurd hother (by decide)

end Sample

end InsiderTrader
