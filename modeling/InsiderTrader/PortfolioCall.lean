import InsiderTrader.Library.Runs
import InsiderTrader.Portfolio

/-!
# Calls to the portfolio

Everything that writes a portfolio is a call of one of its mutating methods. A
corporate action writes only after its last check, so that a refused one leaves
the portfolio as it was.

## Main definitions

- `PortfolioCall` — a call of a mutating method
- `PortfolioCall.perform` — the method it calls
- `Portfolio.Opens` — no position yet, but a trusted mark

## Main results

- `Portfolio.applySplit_of_succeeds`, `Portfolio.applyOptionSettlement_of_succeeds`,
  `Portfolio.applyOptionExpiry_of_succeeds` — what an accepted action leaves
- `Portfolio.applyCorporateAction_atomicAt` — a refused action changes nothing
-/

namespace InsiderTrader

open MachineInt Fallible

namespace Portfolio

variable {p : Portfolio} {i : InstrumentId}

-- Accepted corporate actions

/-- The mark that a split scales: the trusted one, else the mark of the position. -/
def knownMark (p : Portfolio) (i : InstrumentId) : Option Int :=
  (p.markPrice i).orElse fun _ =>
    let mark := ((p.position i).getD ⟨0, 0⟩).markPriceTicks
    if 0 < mark then some mark else none

/-- The portfolio after a split to the given quantity, cost and mark. -/
def storeSplit (p : Portfolio) (i : InstrumentId) (nextQuantity nextCost nextMark : Int)
    (entry : CorporateActionEntry) : Portfolio :=
  if nextQuantity ≠ 0 then
    { p with
      positions := p.positions.insert i ⟨nextQuantity, nextMark⟩
      marks := if 0 < nextMark then p.marks.insert i nextMark else p.marks
      costBasis := if 0 < nextCost then p.costBasis.insert i nextCost else p.costBasis
      corporateActions := p.corporateActions ++ [entry] }
  else
    { p with
      positions := p.positions.erase i
      marks := p.marks.erase i
      costBasis := p.costBasis.erase i
      corporateActions := p.corporateActions ++ [entry] }

/-- **Inversion of a split**: its factors divide the position, and it scales cost and mark. -/
theorem applySplit_of_succeeds {numerator denominator : ℕ}
    (h : (applySplit i numerator denominator).Succeeds p) :
    numerator ≠ 0 ∧ denominator ≠ 0 ∧ ∃ nextCost nextMark entry,
      (p.quantity i * numerator).tmod denominator = 0 ∧
      scaleKnownPrice (p.knownMark i) denominator numerator = .ok nextMark ∧
      (applySplit i numerator denominator p).2 = recordEquityPeak
        (p.storeSplit i ((p.quantity i * numerator).tdiv denominator) nextCost nextMark entry) := by
  obtain ⟨entry, h⟩ := h.eq_ok
  generalize (applySplit i numerator denominator p).2 = p' at h ⊢
  unfold applySplit at h
  rw [reads_bind] at h
  obtain ⟨hfactors, h⟩ := require_bind_eq_ok h
  dsimp only [id] at h
  rw [getD_position_quantity] at h
  obtain ⟨product, hproduct, h⟩ := orFail_bind_eq_ok h
  obtain ⟨-, rfl⟩ := narrow_eq_some.mp hproduct
  obtain ⟨hexact, h⟩ := require_bind_eq_ok h
  obtain ⟨nextQuantity, hquantity, h⟩ := orFail_bind_eq_ok h
  obtain ⟨-, rfl⟩ := narrow_eq_some.mp hquantity
  obtain ⟨nextCost, -, h⟩ := ofExcept_bind_eq_ok h
  obtain ⟨nextMark, hmark, h⟩ := ofExcept_bind_eq_ok h
  rw [modify_bind, pure_apply, Prod.mk.injEq] at h
  exact ⟨by omega, by omega, nextCost, nextMark, _, hexact, hmark, h.2.symm⟩

/-- Inversion of a dividend: cash moves and nothing is held or valued otherwise. -/
theorem applyCashDividend_of_succeeds {amount : Int}
    (h : (applyCashDividend i amount).Succeeds p) :
    ∃ entry, (applyCashDividend i amount p).2 = recordEquityPeak { p with
      cashTicks := p.cashTicks + p.quantity i * amount
      corporateActions := p.corporateActions ++ [entry] } := by
  obtain ⟨entry, h⟩ := h.eq_ok
  generalize (applyCashDividend i amount p).2 = p' at h ⊢
  unfold applyCashDividend at h
  rw [reads_bind] at h
  obtain ⟨-, h⟩ := require_bind_eq_ok h
  dsimp only [id] at h
  obtain ⟨cashDelta, hdelta, h⟩ := orFail_bind_eq_ok h
  obtain ⟨-, rfl⟩ := narrow_eq_some.mp hdelta
  obtain ⟨nextCash, hnext, h⟩ := orFail_bind_eq_ok h
  obtain ⟨-, rfl⟩ := narrow_eq_some.mp hnext
  obtain ⟨cashDeltaTicks, -, h⟩ := orFail_bind_eq_ok h
  obtain ⟨nextCashTicks, hcash, h⟩ := orFail_bind_eq_ok h
  obtain ⟨-, rfl⟩ := narrow_eq_some.mp hcash
  rw [modify_bind, pure_apply, Prod.mk.injEq] at h
  exact ⟨_, h.2.symm⟩

@[simp] theorem storePositionDelta_corporateActions (p : Portfolio) (i : InstrumentId)
    (quantity : Int) : (p.storePositionDelta i quantity).corporateActions = p.corporateActions := by
  unfold storePositionDelta
  dsimp only
  split <;> rfl

/-- **Inversion of a settlement**: option and underlying move by their deltas. -/
theorem applyOptionSettlement_of_succeeds {kind : CorporateActionKind} {underlying : InstrumentId}
    {optionDelta underlyingDelta cashDelta : Int}
    (h : (applyOptionSettlement i kind underlying optionDelta underlyingDelta cashDelta).Succeeds p) :
    i ≠ underlying ∧ optionDelta ≠ 0 ∧ underlyingDelta ≠ 0 ∧ ∃ entry,
      (applyOptionSettlement i kind underlying optionDelta underlyingDelta cashDelta p).2 =
        recordEquityPeak { (p.storePositionDelta i (p.quantity i + optionDelta)).storePositionDelta
            underlying (p.quantity underlying + underlyingDelta) with
          cashTicks := p.cashTicks + cashDelta
          corporateActions := p.corporateActions ++ [entry] } := by
  obtain ⟨entry, h⟩ := h.eq_ok
  generalize
    (applyOptionSettlement i kind underlying optionDelta underlyingDelta cashDelta p).2 = p' at h ⊢
  unfold applyOptionSettlement at h
  rw [reads_bind] at h
  obtain ⟨hvalid, h⟩ := require_bind_eq_ok h
  dsimp only [id] at h
  obtain ⟨optionAfter, hoption, h⟩ := orFail_bind_eq_ok h
  obtain ⟨-, rfl⟩ := narrow_eq_some.mp hoption
  obtain ⟨underlyingAfter, hunderlying, h⟩ := orFail_bind_eq_ok h
  obtain ⟨-, rfl⟩ := narrow_eq_some.mp hunderlying
  unfold settledCash at h
  obtain ⟨cashAfter, hcash, h⟩ := orFail_bind_eq_ok h
  obtain ⟨-, rfl⟩ := narrow_eq_some.mp hcash
  rw [modify_bind, pure_apply, Prod.mk.injEq] at h
  simp only [not_or] at hvalid
  refine ⟨hvalid.1, hvalid.2.1, hvalid.2.2,
    ⟨i, kind, p.quantity i, p.quantity i + optionDelta, cashDelta⟩, ?_⟩
  rw [← h.2]
  dsimp only
  rw [storePositionDelta_corporateActions, storePositionDelta_corporateActions]

/-- **Inversion of an expiry**: the option and cash move by their deltas. -/
theorem applyOptionExpiry_of_succeeds {optionDelta cashDelta : Int}
    (h : (applyOptionExpiry i optionDelta cashDelta).Succeeds p) :
    optionDelta ≠ 0 ∧ (applyOptionExpiry i optionDelta cashDelta p).2 =
      { p.storePositionDelta i (p.quantity i + optionDelta) with
        cashTicks := p.cashTicks + cashDelta } := by
  obtain ⟨entry, h⟩ := h.eq_ok
  generalize (applyOptionExpiry i optionDelta cashDelta p).2 = p' at h ⊢
  unfold applyOptionExpiry at h
  rw [reads_bind] at h
  obtain ⟨hvalid, h⟩ := require_bind_eq_ok h
  dsimp only [id] at h
  obtain ⟨after, hafter, h⟩ := orFail_bind_eq_ok h
  obtain ⟨-, rfl⟩ := narrow_eq_some.mp hafter
  unfold settledCash at h
  obtain ⟨cashAfter, hcash, h⟩ := orFail_bind_eq_ok h
  obtain ⟨-, rfl⟩ := narrow_eq_some.mp hcash
  rw [modify_bind, pure_apply, Prod.mk.injEq] at h
  exact ⟨fun hzero => hvalid (.inl hzero), h.2.symm⟩

/-- Inversion of a variation margin: only cash moves. -/
theorem applyFuturesVariationMargin_of_succeeds {cashDelta : Int}
    (h : (applyFuturesVariationMargin i cashDelta).Succeeds p) :
    (applyFuturesVariationMargin i cashDelta p).2 =
      { p with cashTicks := p.cashTicks + cashDelta } := by
  obtain ⟨entry, h⟩ := h.eq_ok
  generalize (applyFuturesVariationMargin i cashDelta p).2 = p' at h ⊢
  unfold applyFuturesVariationMargin at h
  rw [reads_bind] at h
  obtain ⟨-, h⟩ := require_bind_eq_ok h
  dsimp only [id] at h
  unfold settledCash at h
  obtain ⟨cash, hcash, h⟩ := orFail_bind_eq_ok h
  obtain ⟨-, rfl⟩ := narrow_eq_some.mp hcash
  rw [modify_bind, pure_apply, Prod.mk.injEq] at h
  exact h.2.symm

-- Refused corporate actions

theorem applySplit_atomicAt (i : InstrumentId) (numerator denominator : ℕ) (p : Portfolio) :
    (applySplit i numerator denominator).AtomicAt p :=
  atomicAt_reads_bind.mpr <| atomicAt_require_bind.mpr fun _ =>
    atomicAt_orFail_bind.mpr fun _ _ => atomicAt_require_bind.mpr fun _ =>
    atomicAt_orFail_bind.mpr fun _ _ => atomicAt_ofExcept_bind.mpr fun _ _ =>
    atomicAt_ofExcept_bind.mpr fun _ _ => atomicAt_of_succeeds rfl

theorem applyCashDividend_atomicAt (i : InstrumentId) (amount : Int) (p : Portfolio) :
    (applyCashDividend i amount).AtomicAt p :=
  atomicAt_reads_bind.mpr <| atomicAt_require_bind.mpr fun _ =>
    atomicAt_orFail_bind.mpr fun _ _ => atomicAt_orFail_bind.mpr fun _ _ =>
    atomicAt_orFail_bind.mpr fun _ _ => atomicAt_orFail_bind.mpr fun _ _ =>
    atomicAt_of_succeeds rfl

theorem applyOptionSettlement_atomicAt (i : InstrumentId) (kind : CorporateActionKind)
    (underlying : InstrumentId) (optionDelta underlyingDelta cashDelta : Int) (p : Portfolio) :
    (applyOptionSettlement i kind underlying optionDelta underlyingDelta cashDelta).AtomicAt p :=
  atomicAt_reads_bind.mpr <| atomicAt_require_bind.mpr fun _ =>
    atomicAt_orFail_bind.mpr fun _ _ => atomicAt_orFail_bind.mpr fun _ _ =>
    atomicAt_orFail_bind.mpr fun _ _ => atomicAt_of_succeeds rfl

theorem applyOptionExpiry_atomicAt (i : InstrumentId) (optionDelta cashDelta : Int)
    (p : Portfolio) : (applyOptionExpiry i optionDelta cashDelta).AtomicAt p :=
  atomicAt_reads_bind.mpr <| atomicAt_require_bind.mpr fun _ =>
    atomicAt_orFail_bind.mpr fun _ _ => atomicAt_orFail_bind.mpr fun _ _ =>
    atomicAt_of_succeeds rfl

theorem applyFuturesVariationMargin_atomicAt (i : InstrumentId) (cashDelta : Int)
    (p : Portfolio) : (applyFuturesVariationMargin i cashDelta).AtomicAt p :=
  atomicAt_reads_bind.mpr <| atomicAt_require_bind.mpr fun _ =>
    atomicAt_orFail_bind.mpr fun _ _ => atomicAt_of_succeeds rfl

/-- **A refused corporate action** leaves the portfolio as it was. -/
theorem applyCorporateAction_atomicAt (i : InstrumentId) (kind : CorporateActionKind)
    (p : Portfolio) : (applyCorporateAction i kind).AtomicAt p := by
  cases kind with
  | split numerator denominator => exact applySplit_atomicAt i numerator denominator p
  | cashDividend amount => exact applyCashDividend_atomicAt i amount p
  | optionExercise underlying option underlyingDelta cash =>
    exact applyOptionSettlement_atomicAt i _ underlying option underlyingDelta cash p
  | optionAssignment underlying option underlyingDelta cash =>
    exact applyOptionSettlement_atomicAt i _ underlying option underlyingDelta cash p
  | optionExpiry option cash => exact applyOptionExpiry_atomicAt i option cash p
  | futuresVariationMargin cash => exact applyFuturesVariationMargin_atomicAt i cash p

/-- A refused mark changes nothing. -/
theorem setMarkPrice_atomicAt (i : InstrumentId) (price : Int) (p : Portfolio) :
    (setMarkPrice i price).AtomicAt p := by
  unfold setMarkPrice
  split
  · exact atomicAt_fail _
  · exact atomicAt_modify _

end Portfolio

-- Calls

/-- A call of a mutating method of the portfolio. -/
inductive PortfolioCall where
  | setPosition (instrumentId : InstrumentId) (position : Position)
  | reconcilePositions (positions : List (InstrumentId × Int)) (cashTicks : Option Int)
  | setMarkPrice (instrumentId : InstrumentId) (priceTicks : Int)
  | applyFill (instrumentId : InstrumentId) (quantityTicks priceTicks feeTicks : Int)
  | applyCorporateAction (instrumentId : InstrumentId) (kind : CorporateActionKind)
  | restorePeakEquityTicks (peak : Option Int)

namespace PortfolioCall

/-- The method that a call calls. -/
def perform : PortfolioCall → Fallible Portfolio AccountingError Unit
  | setPosition instrumentId position => Fallible.modify (·.setPosition instrumentId position)
  | reconcilePositions positions cashTicks =>
    Fallible.modify (·.reconcilePositions positions cashTicks)
  | setMarkPrice instrumentId priceTicks => Portfolio.setMarkPrice instrumentId priceTicks
  | applyFill instrumentId quantityTicks priceTicks feeTicks =>
    Fallible.discard (Portfolio.applyFill instrumentId quantityTicks priceTicks feeTicks)
  | applyCorporateAction instrumentId kind =>
    Fallible.discard (Portfolio.applyCorporateAction instrumentId kind)
  | restorePeakEquityTicks peak => Fallible.modify (·.restorePeakEquityTicks peak)

/-- The portfolio that a call leaves, refused or not. -/
def after (call : PortfolioCall) (p : Portfolio) : Portfolio := (call.perform p).2

end PortfolioCall

end InsiderTrader
