import Mathlib.Tactic.Ring
import InsiderTrader.Library.MapSum
import InsiderTrader.PortfolioCall

/-!
# The equity high-water mark

Most calls fold the equity they leave into the peak. An option expiry and a
variation margin move equity without it, and a restored peak is only compared
with the old one, so that the peak is left behind when the equity they leave is
above it. The peak itself never falls.

## Main definitions

- `Portfolio.equity` — cash and the positions at their marks
- `Portfolio.PeakCovers` — a representable equity is at most the peak
- `PortfolioCall.Outgrows` — the calls that leave the peak behind

## Main results

- `Portfolio.equityTicks_eq_some_iff` — the checked fold computes the equity
- `PortfolioCall.after_peakCovers_iff` — when an accepted call leaves the peak above the equity
- `peak_covers_run_iff` — the same over every run, with the peak monotone
-/

namespace InsiderTrader

open MachineInt Fallible

namespace Portfolio

-- Equity

/-- The marked value of a position. -/
def notional (position : Position) : Int := position.quantityTicks * position.markPriceTicks

/-- Cash and the positions at their marks. -/
def equity (p : Portfolio) : Int :=
  p.cashTicks + MapSum.total (fun _ position => notional position) p.positions

/-- Every product and every partial sum of an equity is a 128-bit value. -/
def SumsFit : Int → List Position → Prop
  | _, [] => True
  | total, position :: positions =>
    Fits 128 (notional position) ∧ Fits 128 (total + notional position) ∧
      SumsFit (total + notional position) positions

/-- The equity is representable. -/
def EquityFits (p : Portfolio) : Prop := SumsFit p.cashTicks p.positions.values

theorem foldlM_notional_eq_some_iff {positions : List Position} {total equity : Int} :
    positions.foldlM (fun total position => do
        let notional ← narrow 128 (position.quantityTicks * position.markPriceTicks)
        narrow 128 (total + notional)) total = some equity ↔
      SumsFit total positions ∧ equity = total + (positions.map notional).sum := by
  induction positions generalizing total with
  | nil =>
    rw [List.foldlM_nil, SumsFit, List.map_nil, List.sum_nil, add_zero]
    exact ⟨fun h => ⟨trivial, (Option.some.inj h).symm⟩, fun h => by rw [h.2]; rfl⟩
  | cons position positions ih =>
    rw [List.foldlM_cons, SumsFit, List.map_cons, List.sum_cons, ← add_assoc]
    by_cases hnotional : Fits 128 (notional position)
    · by_cases htotal : Fits 128 (total + notional position)
      · have hstep : (do
            let notional ← narrow 128 (position.quantityTicks * position.markPriceTicks)
            narrow 128 (total + notional)) = some (total + notional position) := by
          rw [show narrow 128 (position.quantityTicks * position.markPriceTicks) =
            some (notional position) from if_pos hnotional]
          exact if_pos htotal
        rw [hstep]
        refine ih.trans ⟨fun h => ⟨⟨hnotional, htotal, h.1⟩, h.2⟩, fun h => ⟨h.1.2.2, h.2⟩⟩
      · have hstep : (do
            let notional ← narrow 128 (position.quantityTicks * position.markPriceTicks)
            narrow 128 (total + notional)) = none := by
          rw [show narrow 128 (position.quantityTicks * position.markPriceTicks) =
            some (notional position) from if_pos hnotional]
          exact if_neg htotal
        rw [hstep]
        exact iff_of_false (fun h => nomatch h) fun h => htotal h.1.2.1
    · have hstep : (do
          let notional ← narrow 128 (position.quantityTicks * position.markPriceTicks)
          narrow 128 (total + notional)) = none := by
        rw [show narrow 128 (position.quantityTicks * position.markPriceTicks) = none from
          if_neg hnotional]
        rfl
      rw [hstep]
      exact iff_of_false (fun h => nomatch h) fun h => hnotional h.1.1

/-- **The checked fold** computes the equity when every step of it fits. -/
theorem equityTicks_eq_some_iff {p : Portfolio} {equity : Int} :
    p.equityTicks = some equity ↔ p.EquityFits ∧ equity = p.equity := by
  rw [Portfolio.equity, MapSum.total_values]
  exact foldlM_notional_eq_some_iff

/-- The mark at which a position is held; zero without one. -/
def heldMark (p : Portfolio) (i : InstrumentId) : Int :=
  (p.position i).elim 0 (·.markPriceTicks)

theorem elim_notional (p : Portfolio) (i : InstrumentId) :
    (p.positions[i]?).elim 0 notional = p.quantity i * p.heldMark i := by
  unfold Portfolio.quantity heldMark position
  cases p.positions[i]? with
  | none => exact (mul_zero 0).symm
  | some position => rfl

/-- A position that is moved to a quantity moves equity at its mark. -/
theorem storePositionDelta_equity (p : Portfolio) (i : InstrumentId) (delta : Int) :
    (p.storePositionDelta i (p.quantity i + delta)).equity = p.equity + delta * p.heldMark i := by
  unfold storePositionDelta equity
  dsimp only
  split
  · next hflat =>
    have htotal := MapSum.total_erase (fun _ position => notional position) p.positions i
    rw [elim_notional] at htotal
    have hdelta : delta = -p.quantity i := by omega
    rw [← htotal, hdelta]
    ring
  · have htotal := MapSum.total_insert (fun _ position => notional position) p.positions i
      ⟨p.quantity i + delta, p.heldMark i⟩
    rw [elim_notional] at htotal
    have hnotional : notional ⟨p.quantity i + delta, p.heldMark i⟩ =
        p.quantity i * p.heldMark i + delta * p.heldMark i := add_mul _ _ _
    rw [hnotional] at htotal
    show p.cashTicks + MapSum.total _ (p.positions.insert i
      ⟨p.quantity i + delta, p.heldMark i⟩) = _
    omega

-- The peak

/-- A representable equity is at most the peak, which is there. -/
def PeakCovers (p : Portfolio) : Prop :=
  ∀ equity, p.equityTicks = some equity → ∃ peak, p.peakEquityTicks = some peak ∧ equity ≤ peak

/-- A peak that is missing or below the equity. -/
def Below (peak : Option Int) (equity : Int) : Prop := ∀ mark, peak = some mark → mark < equity

/-- The peak has not fallen. -/
def PeakKept (p p' : Portfolio) : Prop :=
  ∀ peak, p.peakEquityTicks = some peak → ∃ peak', p'.peakEquityTicks = some peak' ∧ peak ≤ peak'

instance : Std.Refl PeakKept := ⟨fun _ peak h => ⟨peak, h, le_rfl⟩⟩

instance : IsTrans Portfolio PeakKept := ⟨fun _ _ _ h h' peak hpeak => by
  obtain ⟨peak', hpeak', hle⟩ := h peak hpeak
  obtain ⟨peak'', hpeak'', hle'⟩ := h' peak' hpeak'
  exact ⟨peak'', hpeak'', hle.trans hle'⟩⟩

theorem PeakKept.of_eq {p p' : Portfolio} (h : p'.peakEquityTicks = p.peakEquityTicks) :
    PeakKept p p' :=
  fun peak hpeak => ⟨peak, h.trans hpeak, le_rfl⟩

/-- The peak covers the equity unless the equity is representable and above it. -/
theorem peakCovers_iff {p : Portfolio} :
    p.PeakCovers ↔ ¬(p.EquityFits ∧ Below p.peakEquityTicks p.equity) := by
  constructor
  · rintro hcovers ⟨hfits, hbelow⟩
    obtain ⟨peak, hpeak, hle⟩ := hcovers p.equity (equityTicks_eq_some_iff.mpr ⟨hfits, rfl⟩)
    exact absurd (hbelow peak hpeak) hle.not_gt
  · intro hnot equity hequity
    obtain ⟨hfits, rfl⟩ := equityTicks_eq_some_iff.mp hequity
    by_contra hnone
    refine hnot ⟨hfits, fun mark hmark => ?_⟩
    by_contra hle
    exact hnone ⟨mark, hmark, not_lt.mp hle⟩

theorem recordEquityPeak_of_equityTicks_eq_none {p : Portfolio} (h : p.equityTicks = none) :
    p.recordEquityPeak = p := by
  rw [recordEquityPeak, h]

theorem recordEquityPeak_of_equityTicks_eq_some {p : Portfolio} {equity : Int}
    (h : p.equityTicks = some equity) : p.recordEquityPeak =
      { p with peakEquityTicks := some (p.peakEquityTicks.elim equity (max · equity)) } := by
  rw [recordEquityPeak, h]

/-- **Recording** leaves a peak that covers the equity. -/
theorem recordEquityPeak_peakCovers (p : Portfolio) : p.recordEquityPeak.PeakCovers := by
  intro equity hequity
  cases h : p.equityTicks with
  | none =>
    rw [recordEquityPeak_of_equityTicks_eq_none h, h] at hequity
    cases hequity
  | some recorded =>
    rw [recordEquityPeak_of_equityTicks_eq_some h] at hequity ⊢
    obtain rfl : recorded = equity := Option.some.inj (h.symm.trans hequity)
    refine ⟨_, rfl, ?_⟩
    cases p.peakEquityTicks with
    | none => exact le_rfl
    | some peak => exact le_max_right peak recorded

/-- Recording never lowers the peak. -/
theorem recordEquityPeak_peakKept {p p' : Portfolio}
    (h : p'.peakEquityTicks = p.peakEquityTicks) : PeakKept p p'.recordEquityPeak := by
  intro peak hpeak
  rw [← h] at hpeak
  cases hequity : p'.equityTicks with
  | none =>
    rw [recordEquityPeak_of_equityTicks_eq_none hequity]
    exact ⟨peak, hpeak, le_rfl⟩
  | some equity =>
    rw [recordEquityPeak_of_equityTicks_eq_some hequity, hpeak]
    exact ⟨_, rfl, le_max_left peak equity⟩

/-- A restored peak covers no more than the old peak or the restored one. -/
theorem restorePeakEquityTicks_below_iff {p : Portfolio} {peak : Option Int} {equity : Int} :
    Below (p.restorePeakEquityTicks peak).peakEquityTicks equity ↔
      Below p.peakEquityTicks equity ∧ Below peak equity := by
  unfold restorePeakEquityTicks Below
  cases peak with
  | none => simp
  | some peak =>
    cases hold : p.peakEquityTicks with
    | none => simp
    | some old => simp

/-- Restoring never lowers the peak. -/
theorem restorePeakEquityTicks_peakKept (p : Portfolio) (peak : Option Int) :
    PeakKept p (p.restorePeakEquityTicks peak) := by
  cases peak with
  | none => exact Std.Refl.refl p
  | some restored =>
    intro old hold
    refine ⟨_, rfl, ?_⟩
    rw [hold, Option.getD_some]
    exact le_max_left old restored

-- Which methods record

theorem setMarkPrice_peakCovers (i : InstrumentId) (price : Int) :
    EndsIn PeakCovers (setMarkPrice i price) := by
  unfold setMarkPrice
  split
  · exact EndsIn.fail _
  · exact EndsIn.modify fun _ => recordEquityPeak_peakCovers _

theorem applyFill_peakCovers (i : InstrumentId) (quantity price fee : Int) :
    EndsIn PeakCovers (applyFill i quantity price fee) := by
  refine EndsIn.bind fun p => EndsIn.bind fun _ => EndsIn.bind fun outcome => ?_
  refine EndsIn.bind fun notional => EndsIn.bind fun cashDelta => EndsIn.bind fun nextCash => ?_
  refine EndsIn.bind fun nextRealized => EndsIn.bind fun nextFees => EndsIn.bind fun delta => ?_
  refine EndsIn.bind fun _ => EndsIn.bind fun cash => EndsIn.bind fun _ => ?_
  refine EndsIn.bind fun realizedPnl => EndsIn.bind fun _ => EndsIn.bind fun fees => ?_
  exact (EndsIn.modify fun _ => recordEquityPeak_peakCovers _).bind_pure _

theorem applySplit_peakCovers (i : InstrumentId) (numerator denominator : ℕ) :
    EndsIn PeakCovers (applySplit i numerator denominator) := by
  intro p h
  obtain ⟨-, -, nextCost, nextMark, entry, -, -, hafter⟩ := applySplit_of_succeeds h
  rw [hafter]
  exact recordEquityPeak_peakCovers _

theorem applyCashDividend_peakCovers (i : InstrumentId) (amount : Int) :
    EndsIn PeakCovers (applyCashDividend i amount) := by
  intro p h
  obtain ⟨entry, hafter⟩ := applyCashDividend_of_succeeds h
  rw [hafter]
  exact recordEquityPeak_peakCovers _

theorem applyOptionSettlement_peakCovers (i : InstrumentId) (kind : CorporateActionKind)
    (underlying : InstrumentId) (optionDelta underlyingDelta cashDelta : Int) :
    EndsIn PeakCovers
      (applyOptionSettlement i kind underlying optionDelta underlyingDelta cashDelta) := by
  intro p h
  obtain ⟨-, -, -, entry, hafter⟩ := applyOptionSettlement_of_succeeds h
  rw [hafter]
  exact recordEquityPeak_peakCovers _

/-- An expiry leaves the peak behind when the equity it leaves is representable and above it. -/
theorem applyOptionExpiry_peakCovers_iff {p : Portfolio} {i : InstrumentId}
    {optionDelta cashDelta : Int} (h : (applyOptionExpiry i optionDelta cashDelta).Succeeds p) :
    (applyOptionExpiry i optionDelta cashDelta p).2.PeakCovers ↔
      ¬(SumsFit (p.cashTicks + cashDelta)
          (p.storePositionDelta i (p.quantity i + optionDelta)).positions.values ∧
        Below p.peakEquityTicks (p.equity + optionDelta * p.heldMark i + cashDelta)) := by
  obtain ⟨-, hafter⟩ := applyOptionExpiry_of_succeeds h
  have hmoved := storePositionDelta_equity p i optionDelta
  have hcash : (p.storePositionDelta i (p.quantity i + optionDelta)).cashTicks = p.cashTicks := by
    unfold storePositionDelta
    dsimp only
    split <;> rfl
  have hpeak : (p.storePositionDelta i (p.quantity i + optionDelta)).peakEquityTicks =
      p.peakEquityTicks := by
    unfold storePositionDelta
    dsimp only
    split <;> rfl
  rw [hafter, peakCovers_iff]
  generalize p.storePositionDelta i (p.quantity i + optionDelta) = moved at hmoved hcash hpeak ⊢
  have hequity : equity { moved with cashTicks := p.cashTicks + cashDelta } =
      p.equity + optionDelta * p.heldMark i + cashDelta := by
    rw [← hmoved, equity, equity, hcash]
    dsimp only
    ring
  rw [hequity, hpeak]
  exact Iff.rfl

/-- A variation margin leaves the peak behind when it carries the equity above it. -/
theorem applyFuturesVariationMargin_peakCovers_iff {p : Portfolio} {i : InstrumentId}
    {cashDelta : Int} (h : (applyFuturesVariationMargin i cashDelta).Succeeds p) :
    (applyFuturesVariationMargin i cashDelta p).2.PeakCovers ↔
      ¬(SumsFit (p.cashTicks + cashDelta) p.positions.values ∧
        Below p.peakEquityTicks (p.equity + cashDelta)) := by
  rw [applyFuturesVariationMargin_of_succeeds h, peakCovers_iff]
  have hequity : equity { p with cashTicks := p.cashTicks + cashDelta } = p.equity + cashDelta := by
    rw [equity, equity]
    dsimp only
    ring
  rw [hequity]
  exact Iff.rfl

/-- A restored peak is left behind when the old peak and the restored one are. -/
theorem restorePeakEquityTicks_peakCovers_iff {p : Portfolio} {peak : Option Int} :
    (p.restorePeakEquityTicks peak).PeakCovers ↔
      ¬(p.EquityFits ∧ Below p.peakEquityTicks p.equity ∧ Below peak p.equity) := by
  have hsame : (p.restorePeakEquityTicks peak).cashTicks = p.cashTicks ∧
      (p.restorePeakEquityTicks peak).positions = p.positions := by
    cases peak <;> exact ⟨rfl, rfl⟩
  rw [peakCovers_iff, EquityFits, equity, hsame.1, hsame.2, ← restorePeakEquityTicks_below_iff]
  exact Iff.rfl

-- The peak never falls

theorem setMarkPrice_peakKept (i : InstrumentId) (price : Int) :
    Along PeakKept (setMarkPrice i price) := by
  unfold setMarkPrice
  exact Along.ite (fun _ => Along.fail _) fun _ => Along.modify fun _ =>
    recordEquityPeak_peakKept rfl

theorem applyFill_peakKept (i : InstrumentId) (quantity price fee : Int) :
    Along PeakKept (applyFill i quantity price fee) := by
  have hledger : ∀ (fees : Int) (entry : FillLedgerEntry), Along PeakKept (Fallible.modify fun p =>
      recordEquityPeak { p with feesTicks := fees, ledger := p.ledger ++ [entry] } :
      Fallible Portfolio AccountingError Unit) :=
    fun _ _ => Along.modify fun _ => recordEquityPeak_peakKept rfl
  refine (Along.reads _).bind fun p => Along.bind (Along.require _ _) fun _ => ?_
  refine Along.bind (Along.ofExcept _) fun outcome => (Along.orFail _ _).bind fun _ => ?_
  refine (Along.orFail _ _).bind fun _ => (Along.orFail _ _).bind fun _ => ?_
  refine (Along.orFail _ _).bind fun _ => (Along.orFail _ _).bind fun _ => ?_
  refine (Along.orFail _ _).bind fun _ => ?_
  refine Along.bind (Along.modify fun _ => PeakKept.of_eq rfl) fun _ => ?_
  refine (Along.orFail _ _).bind fun _ => ?_
  refine Along.bind (Along.modify fun _ => PeakKept.of_eq rfl) fun _ => ?_
  refine (Along.orFail _ _).bind fun _ => ?_
  refine Along.bind (Along.modify fun _ => PeakKept.of_eq rfl) fun _ => ?_
  exact (Along.orFail _ _).bind fun fees => (hledger fees _).bind fun _ => Along.ret _

theorem storePositionDelta_peakEquityTicks (p : Portfolio) (i : InstrumentId) (quantity : Int) :
    (p.storePositionDelta i quantity).peakEquityTicks = p.peakEquityTicks := by
  unfold storePositionDelta
  dsimp only
  split <;> rfl

theorem applySplit_peakKept (i : InstrumentId) (numerator denominator : ℕ) :
    Along PeakKept (applySplit i numerator denominator) := by
  intro p
  by_cases h : (applySplit i numerator denominator).Succeeds p
  · obtain ⟨-, -, nextCost, nextMark, entry, -, -, hafter⟩ := applySplit_of_succeeds h
    rw [hafter]
    refine recordEquityPeak_peakKept ?_
    unfold storeSplit
    split <;> rfl
  · rw [applySplit_atomicAt i numerator denominator p h]
    exact Std.Refl.refl p

theorem applyCashDividend_peakKept (i : InstrumentId) (amount : Int) :
    Along PeakKept (applyCashDividend i amount) := by
  intro p
  by_cases h : (applyCashDividend i amount).Succeeds p
  · obtain ⟨entry, hafter⟩ := applyCashDividend_of_succeeds h
    rw [hafter]
    exact recordEquityPeak_peakKept rfl
  · rw [applyCashDividend_atomicAt i amount p h]
    exact Std.Refl.refl p

theorem applyOptionSettlement_peakKept (i : InstrumentId) (kind : CorporateActionKind)
    (underlying : InstrumentId) (optionDelta underlyingDelta cashDelta : Int) :
    Along PeakKept
      (applyOptionSettlement i kind underlying optionDelta underlyingDelta cashDelta) := by
  intro p
  by_cases h : (applyOptionSettlement i kind underlying optionDelta underlyingDelta
      cashDelta).Succeeds p
  · obtain ⟨-, -, -, entry, hafter⟩ := applyOptionSettlement_of_succeeds h
    rw [hafter]
    refine recordEquityPeak_peakKept ?_
    dsimp only
    rw [storePositionDelta_peakEquityTicks, storePositionDelta_peakEquityTicks]
  · rw [applyOptionSettlement_atomicAt i kind underlying optionDelta underlyingDelta cashDelta p h]
    exact Std.Refl.refl p

theorem applyOptionExpiry_peakKept (i : InstrumentId) (optionDelta cashDelta : Int) :
    Along PeakKept (applyOptionExpiry i optionDelta cashDelta) := by
  intro p
  by_cases h : (applyOptionExpiry i optionDelta cashDelta).Succeeds p
  · rw [(applyOptionExpiry_of_succeeds h).2]
    exact PeakKept.of_eq (storePositionDelta_peakEquityTicks p i _)
  · rw [applyOptionExpiry_atomicAt i optionDelta cashDelta p h]
    exact Std.Refl.refl p

theorem applyFuturesVariationMargin_peakKept (i : InstrumentId) (cashDelta : Int) :
    Along PeakKept (applyFuturesVariationMargin i cashDelta) := by
  intro p
  by_cases h : (applyFuturesVariationMargin i cashDelta).Succeeds p
  · rw [applyFuturesVariationMargin_of_succeeds h]
    exact PeakKept.of_eq rfl
  · rw [applyFuturesVariationMargin_atomicAt i cashDelta p h]
    exact Std.Refl.refl p

/-- A corporate action of any kind, accepted or refused, keeps the peak. -/
theorem applyCorporateAction_peakKept (i : InstrumentId) (kind : CorporateActionKind) :
    Along PeakKept (applyCorporateAction i kind) := by
  cases kind with
  | split numerator denominator => exact applySplit_peakKept i numerator denominator
  | cashDividend amount => exact applyCashDividend_peakKept i amount
  | optionExercise underlying option underlyingDelta cash =>
    exact applyOptionSettlement_peakKept i _ underlying option underlyingDelta cash
  | optionAssignment underlying option underlyingDelta cash =>
    exact applyOptionSettlement_peakKept i _ underlying option underlyingDelta cash
  | optionExpiry option cash => exact applyOptionExpiry_peakKept i option cash
  | futuresVariationMargin cash => exact applyFuturesVariationMargin_peakKept i cash

theorem adoptPosition_peakEquityTicks (before p : Portfolio) (entry : InstrumentId × Int) :
    (before.adoptPosition p entry).peakEquityTicks = p.peakEquityTicks := by
  unfold adoptPosition
  split <;> rfl

theorem reconcilePositions_peakKept (p : Portfolio) (positions : List (InstrumentId × Int))
    (cash : Option Int) : PeakKept p (p.reconcilePositions positions cash) := by
  have hadopted : ∀ q : Portfolio,
      (positions.foldl (adoptPosition p) q).peakEquityTicks = q.peakEquityTicks := by
    induction positions with
    | nil => exact fun _ => rfl
    | cons entry positions ih =>
      exact fun q => (ih _).trans (adoptPosition_peakEquityTicks p q entry)
  exact recordEquityPeak_peakKept (hadopted _)

theorem setPosition_peakKept (p : Portfolio) (i : InstrumentId) (position : Position) :
    PeakKept p (p.setPosition i position) := by
  unfold setPosition
  refine recordEquityPeak_peakKept ?_
  dsimp only
  split <;> rfl

end Portfolio

-- Runs of calls

namespace PortfolioCall

open Portfolio

/-- The calls that move equity without recording it, or only restore a peak, where the equity
they leave is representable and above every peak. -/
def Outgrows (p : Portfolio) : PortfolioCall → Prop
  | applyCorporateAction i (.optionExpiry optionDelta cashDelta) =>
    SumsFit (p.cashTicks + cashDelta)
        (p.storePositionDelta i (p.quantity i + optionDelta)).positions.values ∧
      Below p.peakEquityTicks (p.equity + optionDelta * p.heldMark i + cashDelta)
  | applyCorporateAction _ (.futuresVariationMargin cashDelta) =>
    SumsFit (p.cashTicks + cashDelta) p.positions.values ∧
      Below p.peakEquityTicks (p.equity + cashDelta)
  | restorePeakEquityTicks peak =>
    p.EquityFits ∧ Below p.peakEquityTicks p.equity ∧ Below peak p.equity
  | _ => False

/-- **One accepted call** leaves a peak that covers the equity, exactly when it does not outgrow
the old one. -/
theorem after_peakCovers_iff {call : PortfolioCall} {p : Portfolio}
    (h : call.perform.Succeeds p) : (call.after p).PeakCovers ↔ ¬call.Outgrows p := by
  cases call with
  | setPosition i position => exact iff_of_true (recordEquityPeak_peakCovers _) id
  | reconcilePositions positions cash => exact iff_of_true (recordEquityPeak_peakCovers _) id
  | setMarkPrice i price => exact iff_of_true (setMarkPrice_peakCovers i price p h) id
  | applyFill i quantity price fee =>
    exact iff_of_true ((applyFill_peakCovers i quantity price fee).discard p h) id
  | applyCorporateAction i kind =>
    rw [perform, succeeds_discard] at h
    rw [after, perform, discard_snd]
    cases kind with
    | split numerator denominator =>
      exact iff_of_true (applySplit_peakCovers i numerator denominator p h) id
    | cashDividend amount => exact iff_of_true (applyCashDividend_peakCovers i amount p h) id
    | optionExercise underlying option underlyingDelta cash =>
      exact iff_of_true
        (applyOptionSettlement_peakCovers i _ underlying option underlyingDelta cash p h) id
    | optionAssignment underlying option underlyingDelta cash =>
      exact iff_of_true
        (applyOptionSettlement_peakCovers i _ underlying option underlyingDelta cash p h) id
    | optionExpiry option cash => exact applyOptionExpiry_peakCovers_iff h
    | futuresVariationMargin cash => exact applyFuturesVariationMargin_peakCovers_iff h
  | restorePeakEquityTicks peak => exact restorePeakEquityTicks_peakCovers_iff

/-- **One call**, accepted or refused, keeps the peak. -/
theorem after_peakKept (call : PortfolioCall) (p : Portfolio) : PeakKept p (call.after p) := by
  cases call with
  | setPosition i position => exact setPosition_peakKept p i position
  | reconcilePositions positions cash => exact reconcilePositions_peakKept p positions cash
  | setMarkPrice i price => exact setMarkPrice_peakKept i price p
  | applyFill i quantity price fee =>
    rw [after, perform, discard_snd]
    exact applyFill_peakKept i quantity price fee p
  | applyCorporateAction i kind =>
    rw [after, perform, discard_snd]
    exact applyCorporateAction_peakKept i kind p
  | restorePeakEquityTicks peak => exact restorePeakEquityTicks_peakKept p peak

end PortfolioCall

/-- **The peak along a run** never falls, and after every accepted call it covers the equity,
exactly when no accepted call of the run outgrows it. -/
theorem peak_covers_run_iff (run : List PortfolioCall) :
    ((∀ c ∈ Runs.calls PortfolioCall.after Portfolio.new run,
        c.2.perform.Succeeds c.1 → (c.2.after c.1).PeakCovers) ∧
      (Runs.states PortfolioCall.after Portfolio.new run).Pairwise Portfolio.PeakKept) ↔
      ∀ c ∈ Runs.calls PortfolioCall.after Portfolio.new run,
        c.2.perform.Succeeds c.1 → ¬c.2.Outgrows c.1 := by
  rw [and_iff_left (Runs.states_pairwise PortfolioCall.after_peakKept Portfolio.new run)]
  refine forall₂_congr fun c _ => forall_congr' fun h => ?_
  exact PortfolioCall.after_peakCovers_iff h

/-- A variation margin of 100 paid after a quote leaves the equity above the recorded peak. -/
theorem margin_leaves_peak :
    let quote := PortfolioCall.setMarkPrice 7 1
    let margin := PortfolioCall.applyCorporateAction 7 (.futuresVariationMargin 100)
    let p := Runs.final PortfolioCall.after Portfolio.new [quote]
    margin.perform.Succeeds p ∧ (margin.after p).equityTicks = some 100 ∧
      (margin.after p).peakEquityTicks = some 0 := by
  decide

end InsiderTrader
