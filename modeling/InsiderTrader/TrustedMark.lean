import Mathlib.Tactic.Positivity
import InsiderTrader.PortfolioCall

/-!
# The trusted mark of a position

The mark of an instrument is kept twice: with its position and in the map of
trusted marks. Fills, quotes and reconciliation write both alike. A settlement
that opens a position writes mark zero beside a trusted mark that is there, and
a split whose scaled mark rounds to zero leaves the trusted mark as it was.

## Main definitions

- `Portfolio.MarksTrusted` — every position held has the trusted mark
- `Portfolio.MarksAgree` — the invariant: flat positions too, and trusted marks are positive
- `PortfolioCall.Estranges` — the calls that give a position a mark of its own

## Main results

- `PortfolioCall.after_marksAgree` — what one call preserves
- `marks_trusted_run_iff` — over every run, exactly the estranging calls break it
-/

namespace InsiderTrader

open MachineInt Fallible

namespace Portfolio

/-- Every position held, of an instrument with a trusted mark, has that mark. -/
def MarksTrusted (p : Portfolio) : Prop :=
  ∀ i position mark, p.position i = some position → position.quantityTicks ≠ 0 →
    p.markPrice i = some mark → position.markPriceTicks = mark

/-- Every position, flat or not, has the trusted mark, and trusted marks are positive. -/
structure MarksAgree (p : Portfolio) : Prop where
  agree : ∀ i position mark, p.position i = some position → p.markPrice i = some mark →
    position.markPriceTicks = mark
  positive : ∀ i mark, p.markPrice i = some mark → 0 < mark

/-- No position yet, but a trusted mark. -/
def Opens (p : Portfolio) (i : InstrumentId) : Prop :=
  p.position i = none ∧ (p.markPrice i).isSome

variable {p p' : Portfolio} {i : InstrumentId}

-- Writing positions and marks

theorem MarksAgree.trusted (h : p.MarksAgree) : p.MarksTrusted :=
  fun i position mark hposition _ hmark => h.agree i position mark hposition hmark

theorem MarksAgree.congr (h : p.MarksAgree) (hpositions : p'.positions = p.positions)
    (hmarks : p'.marks = p.marks) : p'.MarksAgree where
  agree i position mark hposition hmark := by
    rw [Portfolio.position, hpositions] at hposition
    rw [markPrice, hmarks] at hmark
    exact h.agree i position mark hposition hmark
  positive i mark hmark := by
    rw [markPrice, hmarks] at hmark
    exact h.positive i mark hmark

theorem recordEquityPeak_marks (p : Portfolio) : p.recordEquityPeak.marks = p.marks := by
  unfold recordEquityPeak
  cases p.equityTicks <;> rfl

theorem MarksAgree.record (h : p.MarksAgree) : p.recordEquityPeak.MarksAgree :=
  h.congr (recordEquityPeak_positions p) (recordEquityPeak_marks p)

/-- Recording the peak moves no mark. -/
theorem marksTrusted_record_iff : p.recordEquityPeak.MarksTrusted ↔ p.MarksTrusted := by
  unfold MarksTrusted Portfolio.position markPrice
  rw [recordEquityPeak_positions, recordEquityPeak_marks]

/-- A position written with its mark agrees with it. -/
theorem MarksAgree.insert (h : p.MarksAgree) (position : Position)
    (hpositions : p'.positions = p.positions.insert i position)
    (hmarks : p'.marks = p.marks.insert i position.markPriceTicks)
    (hpos : 0 < position.markPriceTicks) : p'.MarksAgree where
  agree k held mark hheld hmark := by
    rw [Portfolio.position, hpositions, Std.TreeMap.getElem?_insert] at hheld
    rw [markPrice, hmarks, Std.TreeMap.getElem?_insert] at hmark
    split at hheld
    · next hk =>
      rw [if_pos hk] at hmark
      cases hheld
      cases hmark
      rfl
    · next hk =>
      rw [if_neg hk] at hmark
      exact h.agree k held mark hheld hmark
  positive k mark hmark := by
    rw [markPrice, hmarks, Std.TreeMap.getElem?_insert] at hmark
    split at hmark
    · cases hmark
      exact hpos
    · exact h.positive k mark hmark

/-- A position written alone agrees when it has the trusted mark, if there is one. -/
theorem MarksAgree.insert_position (h : p.MarksAgree) (i : InstrumentId) (position : Position)
    (hpositions : p'.positions = p.positions.insert i position) (hmarks : p'.marks = p.marks)
    (hmark : ∀ mark, p.markPrice i = some mark → position.markPriceTicks = mark) :
    p'.MarksAgree where
  agree k held mark hheld hk := by
    rw [Portfolio.position, hpositions, Std.TreeMap.getElem?_insert] at hheld
    rw [markPrice, hmarks] at hk
    split at hheld
    · next heq =>
      obtain rfl : i = k := Std.LawfulEqCmp.eq_of_compare heq
      cases hheld
      exact hmark mark hk
    · exact h.agree k held mark hheld hk
  positive k mark hk := by
    rw [markPrice, hmarks] at hk
    exact h.positive k mark hk

/-- A position that is removed leaves the others as they are. -/
theorem MarksAgree.erase (h : p.MarksAgree) (i : InstrumentId)
    (hpositions : p'.positions = p.positions.erase i)
    (hmarks : p'.marks = p.marks ∨ p'.marks = p.marks.erase i) : p'.MarksAgree := by
  have hkept : ∀ k mark, p'.markPrice k = some mark → p.markPrice k = some mark := by
    intro k mark hk
    rw [markPrice] at hk
    rcases hmarks with hmarks | hmarks
    · rwa [hmarks] at hk
    · rw [hmarks, Std.TreeMap.getElem?_erase] at hk
      split at hk
      · cases hk
      · exact hk
  refine ⟨fun k held mark hheld hk => ?_, fun k mark hk => h.positive k mark (hkept k mark hk)⟩
  rw [Portfolio.position, hpositions, Std.TreeMap.getElem?_erase] at hheld
  split at hheld
  · cases hheld
  · exact h.agree k held mark hheld (hkept k mark hk)

-- Methods that keep the marks

theorem marksAgree_new : new.MarksAgree where
  agree i position mark hposition _ := by simp [Portfolio.position, new] at hposition
  positive i mark hmark := by simp [markPrice, new] at hmark

theorem MarksAgree.setPosition (h : p.MarksAgree) (i : InstrumentId) {position : Position}
    (hpos : 0 < position.markPriceTicks) : (p.setPosition i position).MarksAgree := by
  unfold Portfolio.setPosition
  rw [if_pos hpos]
  exact MarksAgree.record (h.insert position rfl rfl hpos)

/-- A quote writes both marks. -/
theorem MarksAgree.setMarkPrice (h : p.MarksAgree) (i : InstrumentId) (price : Int) :
    (Portfolio.setMarkPrice i price p).2.MarksAgree := by
  unfold Portfolio.setMarkPrice
  split
  · exact h
  · next hprice =>
    refine MarksAgree.record ?_
    cases hposition : p.positions[i]? with
    | some position =>
      exact h.insert ⟨position.quantityTicks, price⟩ rfl rfl (show 0 < price by omega)
    | none =>
      refine ⟨fun k held mark hheld hmark => ?_, fun k mark hmark => ?_⟩
      · rw [markPrice, Std.TreeMap.getElem?_insert] at hmark
        split at hmark
        · next heq =>
          obtain rfl : i = k := Std.LawfulEqCmp.eq_of_compare heq
          cases hposition.symm.trans hheld
        · exact h.agree k held mark hheld hmark
      · rw [markPrice, Std.TreeMap.getElem?_insert] at hmark
        split at hmark
        · cases hmark
          omega
        · exact h.positive k mark hmark

/-- A fill writes both marks, also one that is refused after the position is stored. -/
theorem applyFill_marksAgree (i : InstrumentId) (quantity price fee : Int) :
    Preserves MarksAgree (applyFill i quantity price fee) := by
  intro p
  unfold applyFill
  rw [reads_bind, require_bind]
  split
  · next hvalid =>
    have hprice : 0 < price := by omega
    have hstore : ∀ quantity average : Int, Along (fun p p' => MarksAgree p → MarksAgree p')
        (Fallible.modify (·.storeFillPosition i quantity average price) :
          Fallible Portfolio AccountingError Unit) :=
      fun quantity average => Along.modify fun p h =>
        h.insert ⟨quantity, price⟩ rfl rfl hprice
    have hledger : ∀ (fees : Int) (entry : FillLedgerEntry),
        Along (fun p p' => MarksAgree p → MarksAgree p') (Fallible.modify fun p =>
          recordEquityPeak { p with feesTicks := fees, ledger := p.ledger ++ [entry] } :
          Fallible Portfolio AccountingError Unit) :=
      fun _ _ => Along.modify fun _ h => MarksAgree.record (h.congr rfl rfl)
    suffices hrest : Along (fun p p' => MarksAgree p → MarksAgree p') _ from hrest p
    refine Along.bind (Along.ofExcept _) fun outcome => (Along.orFail _ _).bind fun _ => ?_
    refine (Along.orFail _ _).bind fun _ => (Along.orFail _ _).bind fun _ => ?_
    refine (Along.orFail _ _).bind fun _ => (Along.orFail _ _).bind fun _ => ?_
    refine (Along.orFail _ _).bind fun _ => (hstore _ _).bind fun _ => ?_
    refine (Along.orFail _ _).bind fun _ => ?_
    refine Along.bind (Along.modify fun _ h => h.congr rfl rfl) fun _ => ?_
    refine (Along.orFail _ _).bind fun _ => ?_
    refine Along.bind (Along.modify fun _ h => h.congr rfl rfl) fun _ => ?_
    exact (Along.orFail _ _).bind fun fees => (hledger fees _).bind fun _ => Along.ret _
  · exact id

/-- A broker snapshot keeps the marks of the positions it finds, and takes the trusted mark for
those it opens. -/
theorem MarksAgree.reconcilePositions (h : p.MarksAgree) (positions : List (InstrumentId × Int))
    (cash : Option Int) : (p.reconcilePositions positions cash).MarksAgree := by
  have hadopted : ∀ q : Portfolio, q.MarksAgree → q.marks = p.marks →
      (positions.foldl (adoptPosition p) q).MarksAgree := by
    induction positions with
    | nil => exact fun q hq _ => hq
    | cons entry positions ih =>
      intro q hq hmarks
      refine ih _ ?_ ?_
      · unfold adoptPosition
        split
        · exact hq
        · refine hq.insert_position entry.1 ⟨entry.2, _⟩ rfl rfl fun mark hmark => ?_
          cases hposition : p.positions[entry.1]? with
          | some position =>
            rw [markPrice, hmarks] at hmark
            exact h.agree entry.1 position mark hposition hmark
          | none =>
            rw [show q.marks[entry.1]? = some mark from hmark]
            rfl
      · unfold adoptPosition
        split
        · exact hmarks
        · exact hmarks
  refine MarksAgree.record ((hadopted { p with positions := ∅, costBasis := ∅ } ?_ rfl).congr rfl rfl)
  exact ⟨fun k held mark hheld _ => by simp [Portfolio.position] at hheld, h.positive⟩

-- Settlements

theorem storePositionDelta_marks (p : Portfolio) (i : InstrumentId) (quantity : Int) :
    (p.storePositionDelta i quantity).marks = p.marks := by
  unfold storePositionDelta
  dsimp only
  split <;> rfl

theorem storePositionDelta_position_self {quantity : Int} (hquantity : quantity ≠ 0) :
    (p.storePositionDelta i quantity).position i =
      some ⟨quantity, (p.position i).elim 0 (·.markPriceTicks)⟩ := by
  unfold storePositionDelta
  dsimp only
  rw [if_neg hquantity]
  exact Std.TreeMap.getElem?_insert_self

theorem storePositionDelta_position_of_ne {k : InstrumentId} (hne : i ≠ k) (quantity : Int) :
    (p.storePositionDelta i quantity).position k = p.position k := by
  have hkey : compare i k ≠ .eq := fun h => hne (Std.LawfulEqCmp.eq_of_compare h)
  unfold storePositionDelta
  dsimp only
  split
  · exact Std.TreeMap.getElem?_erase.trans (if_neg hkey)
  · exact Std.TreeMap.getElem?_insert.trans (if_neg hkey)

/-- Moving one position opens no other. -/
theorem storePositionDelta_opens_iff {k : InstrumentId} (hne : i ≠ k) (quantity : Int) :
    (p.storePositionDelta i quantity).Opens k ↔ p.Opens k := by
  rw [Opens, storePositionDelta_position_of_ne hne, markPrice, storePositionDelta_marks]
  exact Iff.rfl

/-- A position that is moved without being opened keeps its mark. -/
theorem MarksAgree.storePositionDelta (h : p.MarksAgree) (hopens : ¬p.Opens i) (quantity : Int) :
    (p.storePositionDelta i quantity).MarksAgree := by
  have hmarks := storePositionDelta_marks p i quantity
  by_cases hflat : quantity = 0
  · refine h.erase i ?_ (Or.inl hmarks)
    unfold Portfolio.storePositionDelta
    exact congrArg positions (if_pos hflat)
  · refine h.insert_position i ⟨quantity, (p.position i).elim 0 (·.markPriceTicks)⟩ ?_ hmarks
      fun mark hmark => ?_
    · unfold Portfolio.storePositionDelta
      exact congrArg positions (if_neg hflat)
    · cases hposition : p.position i with
      | none => exact absurd ⟨hposition, hmark ▸ rfl⟩ hopens
      | some position => exact h.agree i position mark hposition hmark

/-- A position that is opened without the trusted mark is estranged from it. -/
theorem MarksAgree.not_trusted_of_opens (h : p.MarksAgree) (hopens : p.Opens i) {quantity : Int}
    (hquantity : quantity ≠ 0) (hposition : p'.position i = some ⟨quantity, 0⟩)
    (hmarks : p'.marks = p.marks) : ¬p'.MarksTrusted := by
  intro htrusted
  obtain ⟨mark, hmark⟩ := Option.isSome_iff_exists.mp hopens.2
  have hzero := htrusted i ⟨quantity, 0⟩ mark hposition hquantity (by rw [markPrice, hmarks]; exact hmark)
  have hpos := h.positive i mark hmark
  exact absurd hzero hpos.ne

theorem Opens.quantity_eq (h : p.Opens i) : p.quantity i = 0 := by
  rw [Portfolio.quantity, h.1]
  rfl

section Settlement

variable {underlying : InstrumentId} {optionDelta underlyingDelta cash : Int}

/-- **A settlement** keeps the marks, exactly when neither side opens beside a trusted mark. -/
theorem applyOptionSettlement_marks (h : p.MarksAgree) {kind : CorporateActionKind}
    (hok : (applyOptionSettlement i kind underlying optionDelta underlyingDelta cash).Succeeds p) :
    let p' := (applyOptionSettlement i kind underlying optionDelta underlyingDelta cash p).2
    (¬(p.Opens i ∨ p.Opens underlying) → p'.MarksAgree) ∧
      (p.Opens i ∨ p.Opens underlying → ¬p'.MarksTrusted) := by
  obtain ⟨hne, hoption, hunderlying, entry, hafter⟩ := applyOptionSettlement_of_succeeds hok
  dsimp only
  rw [hafter, marksTrusted_record_iff]
  have hmarks : ∀ quantity quantity', ((p.storePositionDelta i quantity).storePositionDelta
      underlying quantity').marks = p.marks := fun quantity quantity' =>
    (storePositionDelta_marks _ underlying quantity').trans (storePositionDelta_marks p i quantity)
  refine ⟨fun hnot => ?_, ?_⟩
  · rw [not_or] at hnot
    have hleft := h.storePositionDelta hnot.1 (p.quantity i + optionDelta)
    have hright := hleft.storePositionDelta (fun hopens => hnot.2
      ((storePositionDelta_opens_iff hne _).mp hopens)) (p.quantity underlying + underlyingDelta)
    exact MarksAgree.record (hright.congr rfl rfl)
  · rintro (hopens | hopens)
    · have hquantity : p.quantity i + optionDelta ≠ 0 := by rw [hopens.quantity_eq]; omega
      refine h.not_trusted_of_opens hopens hquantity ?_ (hmarks _ _)
      have hposition := storePositionDelta_position_self (p := p) (i := i) hquantity
      rw [hopens.1] at hposition
      exact (storePositionDelta_position_of_ne hne.symm _).trans hposition
    · have hquantity : p.quantity underlying + underlyingDelta ≠ 0 := by
        rw [hopens.quantity_eq]
        omega
      refine h.not_trusted_of_opens hopens hquantity ?_ (hmarks _ _)
      refine (storePositionDelta_position_self hquantity).trans ?_
      rw [storePositionDelta_position_of_ne hne, hopens.1]
      rfl

/-- **An expiry** keeps the marks, exactly when it does not open beside a trusted mark. -/
theorem applyOptionExpiry_marks (h : p.MarksAgree)
    (hok : (applyOptionExpiry i optionDelta cash).Succeeds p) :
    let p' := (applyOptionExpiry i optionDelta cash p).2
    (¬p.Opens i → p'.MarksAgree) ∧ (p.Opens i → ¬p'.MarksTrusted) := by
  obtain ⟨hdelta, hafter⟩ := applyOptionExpiry_of_succeeds hok
  dsimp only
  rw [hafter]
  refine ⟨fun hnot => (h.storePositionDelta hnot _).congr rfl rfl, fun hopens => ?_⟩
  have hquantity : p.quantity i + optionDelta ≠ 0 := by rw [hopens.quantity_eq]; omega
  refine h.not_trusted_of_opens hopens hquantity ?_ (storePositionDelta_marks p i _)
  refine (storePositionDelta_position_self hquantity).trans ?_
  rw [hopens.1]
  rfl

end Settlement

-- Splits

/-- The trusted mark of a position held rounds to zero when the split scales it. -/
def RoundsAway (p : Portfolio) (i : InstrumentId) (numerator denominator : ℕ) : Prop :=
  p.quantity i ≠ 0 ∧ ∃ mark, p.markPrice i = some mark ∧
    mark * denominator + (numerator / 2 : ℕ) < numerator

/-- A scaled price is the rounded quotient. -/
theorem scalePrice_eq_ok {price scaled : Int} {numerator denominator : ℕ}
    (h : scalePrice price numerator denominator = .ok scaled) :
    scaled = (price * numerator + (denominator / 2 : ℕ)) / denominator := by
  unfold scalePrice at h
  split at h
  · cases h
  · split at h
    · cases h
    · next product hproduct =>
      obtain ⟨-, rfl⟩ := narrow_eq_some.mp hproduct
      split at h
      · cases h
      · next shifted hshifted =>
        obtain ⟨-, rfl⟩ := narrow_eq_some.mp hshifted
        split at h
        · cases h
        · next rounded hrounded =>
          obtain ⟨-, rfl⟩ := narrow_eq_some.mp hrounded
          cases h
          rfl

/-- **A split** keeps the marks, exactly when it does not round the trusted mark away. -/
theorem applySplit_marks (h : p.MarksAgree) {numerator denominator : ℕ}
    (hok : (applySplit i numerator denominator).Succeeds p) :
    let p' := (applySplit i numerator denominator p).2
    (¬p.RoundsAway i numerator denominator → p'.MarksAgree) ∧
      (p.RoundsAway i numerator denominator → ¬p'.MarksTrusted) := by
  obtain ⟨hnumerator, hdenominator, nextCost, nextMark, entry, hexact, hmark, hafter⟩ :=
    applySplit_of_succeeds hok
  dsimp only
  rw [hafter, marksTrusted_record_iff]
  -- the position is flat after the split exactly when it was before
  have hflat : (p.quantity i * numerator).tdiv denominator = 0 ↔ p.quantity i = 0 := by
    constructor
    · intro hzero
      have hproduct := Int.mul_tdiv_add_tmod (p.quantity i * numerator) denominator
      rw [hzero, hexact, mul_zero, add_zero] at hproduct
      exact (mul_eq_zero.mp hproduct.symm).resolve_right (by omega)
    · intro hzero
      rw [hzero, zero_mul, Int.zero_tdiv]
  -- a trusted mark is the one that is scaled, and it rounds to zero or to a positive mark
  have hscaled : ∀ mark, p.markPrice i = some mark →
      (nextMark ≤ 0 ↔ mark * denominator + (numerator / 2 : ℕ) < numerator) ∧ 0 ≤ nextMark := by
    intro mark hknown
    have hpositive := h.positive i mark hknown
    have hnext : scalePrice mark denominator numerator = .ok nextMark := by
      rw [knownMark, hknown] at hmark
      exact hmark
    rw [scalePrice_eq_ok hnext]
    have hnonneg : 0 ≤ mark * denominator + ((numerator / 2 : ℕ) : Int) := by positivity
    refine ⟨?_, Int.ediv_nonneg hnonneg (by omega)⟩
    rw [← Int.lt_add_one_iff, zero_add, Int.ediv_lt_iff_lt_mul (by omega), one_mul]
  unfold storeSplit
  by_cases hheld : p.quantity i = 0
  · rw [if_neg (not_not.mpr (hflat.mpr hheld))]
    exact ⟨fun _ => MarksAgree.record (h.erase i rfl (Or.inr rfl)), fun hrounds => absurd hheld hrounds.1⟩
  · rw [if_pos (fun hzero => hheld (hflat.mp hzero))]
    by_cases hpositive : 0 < nextMark
    · rw [if_pos hpositive]
      refine ⟨fun _ => MarksAgree.record (h.insert ⟨_, nextMark⟩ rfl rfl hpositive), ?_⟩
      rintro ⟨-, mark, hknown, hrounds⟩
      exact absurd ((hscaled mark hknown).1.mpr hrounds) hpositive.not_ge
    · rw [if_neg hpositive]
      refine ⟨fun hnot => MarksAgree.record (h.insert_position i ⟨_, nextMark⟩ rfl rfl fun mark hknown => ?_), ?_⟩
      · have hrounds := (hscaled mark hknown).1.mp (not_lt.mp hpositive)
        exact absurd ⟨hheld, mark, hknown, hrounds⟩ hnot
      · rintro ⟨-, mark, hknown, hrounds⟩ htrusted
        have hagree := htrusted i ⟨_, nextMark⟩ mark Std.TreeMap.getElem?_insert_self
          (fun hzero => hheld (hflat.mp hzero)) hknown
        have hmarkpos := h.positive i mark hknown
        exact absurd hagree (by dsimp only; omega)

end Portfolio

namespace PortfolioCall

open Portfolio

/-- A position is set with a positive mark. -/
def WellMarked : PortfolioCall → Prop
  | setPosition _ position => 0 < position.markPriceTicks
  | _ => True

/-- The calls that give a position a mark of its own: a settlement that opens a position beside a
trusted mark, and a split that rounds the trusted mark of a position away. -/
def Estranges (p : Portfolio) : PortfolioCall → Prop
  | applyCorporateAction i (.split numerator denominator) => p.RoundsAway i numerator denominator
  | applyCorporateAction i (.optionExercise underlying _ _ _) => p.Opens i ∨ p.Opens underlying
  | applyCorporateAction i (.optionAssignment underlying _ _ _) => p.Opens i ∨ p.Opens underlying
  | applyCorporateAction i (.optionExpiry _ _) => p.Opens i
  | _ => False

/-- The two halves of one call: it keeps the marks, or it is accepted and estranges one. -/
theorem after_marks {call : PortfolioCall} {p : Portfolio} (hcall : call.WellMarked)
    (h : p.MarksAgree) :
    (¬(call.perform.Succeeds p ∧ call.Estranges p) → (call.after p).MarksAgree) ∧
      (call.perform.Succeeds p ∧ call.Estranges p → ¬(call.after p).MarksTrusted) := by
  cases call with
  | setPosition i position => exact ⟨fun _ => h.setPosition i hcall, fun hbad => hbad.2.elim⟩
  | reconcilePositions positions cash =>
    exact ⟨fun _ => h.reconcilePositions positions cash, fun hbad => hbad.2.elim⟩
  | setMarkPrice i price => exact ⟨fun _ => h.setMarkPrice i price, fun hbad => hbad.2.elim⟩
  | applyFill i quantity price fee =>
    refine ⟨fun _ => ?_, fun hbad => hbad.2.elim⟩
    rw [after, perform, discard_snd]
    exact applyFill_marksAgree i quantity price fee p h
  | applyCorporateAction i kind =>
    rw [after, perform, discard_snd, succeeds_discard]
    by_cases hok : (Portfolio.applyCorporateAction i kind).Succeeds p
    · rw [and_iff_right hok]
      cases kind with
      | split numerator denominator => exact applySplit_marks h hok
      | cashDividend amount =>
        refine ⟨fun _ => ?_, fun hbad => hbad.elim⟩
        obtain ⟨entry, hafter⟩ := applyCashDividend_of_succeeds hok
        rw [show (Portfolio.applyCorporateAction i (.cashDividend amount) p).2 = _ from hafter]
        exact MarksAgree.record (h.congr rfl rfl)
      | optionExercise underlying option underlyingDelta cash =>
        exact applyOptionSettlement_marks h hok
      | optionAssignment underlying option underlyingDelta cash =>
        exact applyOptionSettlement_marks h hok
      | optionExpiry option cash => exact applyOptionExpiry_marks h hok
      | futuresVariationMargin cash =>
        refine ⟨fun _ => ?_, fun hbad => hbad.elim⟩
        rw [show (Portfolio.applyCorporateAction i (.futuresVariationMargin cash) p).2 = _ from
          applyFuturesVariationMargin_of_succeeds hok]
        exact h.congr rfl rfl
    · rw [applyCorporateAction_atomicAt i kind p hok]
      exact ⟨fun _ => h, fun hbad => absurd hbad.1 hok⟩
  | restorePeakEquityTicks peak =>
    refine ⟨fun _ => ?_, fun hbad => hbad.2.elim⟩
    cases peak with
    | none => exact h
    | some peak => exact h.congr rfl rfl

/-- **One call** keeps the marks in agreement unless it is accepted and estranges one. -/
theorem after_marksAgree {call : PortfolioCall} {p : Portfolio} (hcall : call.WellMarked)
    (h : p.MarksAgree) (hgood : ¬(call.perform.Succeeds p ∧ call.Estranges p)) :
    (call.after p).MarksAgree :=
  (after_marks hcall h).1 hgood

/-- After one call the positions held have the trusted marks, exactly when it does not estrange
one of them. -/
theorem after_marksTrusted_iff {call : PortfolioCall} {p : Portfolio} (hcall : call.WellMarked)
    (h : p.MarksAgree) :
    (call.after p).MarksTrusted ↔ ¬(call.perform.Succeeds p ∧ call.Estranges p) :=
  ⟨fun htrusted hbad => (after_marks hcall h).2 hbad htrusted,
    fun hgood => (after_marksAgree hcall h hgood).trusted⟩

end PortfolioCall

/-- **The marks along a run**: in every portfolio that a run reaches the positions held have the
trusted marks, exactly when no accepted call of the run estranges one. -/
theorem marks_trusted_run_iff {run : List PortfolioCall} (hrun : ∀ call ∈ run, call.WellMarked) :
    (∀ p ∈ Runs.states PortfolioCall.after Portfolio.new run, p.MarksTrusted) ↔
      ∀ c ∈ Runs.calls PortfolioCall.after Portfolio.new run,
        ¬(c.2.perform.Succeeds c.1 ∧ c.2.Estranges c.1) :=
  Runs.states_iff_of_inv (A := PortfolioCall.WellMarked) (I := Portfolio.MarksAgree)
    (B := fun call p => call.perform.Succeeds p ∧ call.Estranges p)
    (fun _ _ hcall h hgood => PortfolioCall.after_marksAgree hcall h hgood)
    (fun _ _ hcall h => PortfolioCall.after_marksTrusted_iff hcall h)
    Portfolio.marksAgree_new Portfolio.marksAgree_new.trusted hrun

/-- A position set at 5 and filled at 6 is valued at the trusted mark throughout. -/
theorem marks_trusted_run_filled :
    (Runs.states PortfolioCall.after Portfolio.new
      [.setPosition 7 ⟨3, 5⟩, .applyFill 7 1 6 0]).Forall Portfolio.MarksTrusted := by
  refine List.forall_iff_forall_mem.mpr ((marks_trusted_run_iff ?_).mpr ?_)
  · simp [PortfolioCall.WellMarked]
  · simp [Runs.calls, PortfolioCall.Estranges]

/-- An exercise into an underlying that is quoted at 100 and not held yet holds it at zero. -/
theorem exercise_estranges :
    let quote := PortfolioCall.setMarkPrice 9 100
    let option := PortfolioCall.setPosition 7 ⟨1, 5⟩
    let exercise := PortfolioCall.applyCorporateAction 7 (.optionExercise 9 (-1) 10 (-900))
    let p := Runs.final PortfolioCall.after Portfolio.new [quote, option, exercise]
    p.position 9 = some ⟨10, 0⟩ ∧ p.markPrice 9 = some 100 := by
  decide

end InsiderTrader
