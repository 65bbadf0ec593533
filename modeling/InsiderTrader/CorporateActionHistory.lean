import Mathlib.Algebra.Order.BigOperators.GroupWithZero.List
import Mathlib.Algebra.Order.Ring.Nat
import Mathlib.Data.Prod.Lex
import InsiderTrader.Broker
import InsiderTrader.Library.LastMax
import InsiderTrader.Library.MachineInt
import InsiderTrader.Library.MapFilter
import InsiderTrader.Library.Text

/-!
# Corporate actions and historical prices

The actions of an instrument by version, and a historical price adjusted by the
splits that came after it and are known. The products of the split factors are
checked one by one; the addition that rounds the quotient is not.

## Main definitions

- `CorporateActionHistory.insert` — add one version of an action
- `CorporateActionHistory.knownAsOf` — the actions known at a day, in order
- `CorporateActionHistory.adjustedPriceTicks` — a price adjusted by the known later splits

## Main results

- `foldlM_scaleBy` — the products of the factors, or an overflow that is found
- `adjusted_price_iff` — the prices that no unchecked operation overflows at
-/

namespace InsiderTrader

open MachineInt LastMax

/-- What a corporate action does. -/
inductive CorporateAction where
  | split (numerator denominator : ℕ)
  | cashDividend (amountTicks : Int)
  | symbolChange (newSymbol : String)
  deriving DecidableEq

/-- The payload of an action is well formed. -/
def CorporateAction.valid : CorporateAction → Bool
  | split numerator denominator => 0 < numerator && 0 < denominator
  | cashDividend amountTicks => 0 ≤ amountTicks
  | symbolChange newSymbol => !Text.isBlank newSymbol

/-- A version of an action, with the days it takes effect, was announced and became known. -/
structure CorporateActionRecord where
  instrumentId : InstrumentId
  effectiveDay : ℕ
  announcedDay : ℕ
  knowledgeDay : ℕ
  version : ℕ
  action : CorporateAction
  deriving DecidableEq

/-- Failure of the history. -/
inductive CorporateActionError where
  | invalidTiming
  | invalidPayload
  | conflictingVersion
  | overflow
  deriving DecidableEq

/-- Versions of actions by instrument; every stored payload is well formed. -/
structure CorporateActionHistory where
  records : Std.TreeMap InstrumentId (Std.TreeMap ℕ CorporateActionRecord)
  valid : ∀ (i : InstrumentId) versions, records[i]? = some versions →
    ∀ record ∈ versions.values, record.action.valid = true

namespace CorporateActionHistory

/-- A history without actions. -/
def empty : CorporateActionHistory := ⟨∅, fun i versions h => by simp at h⟩

/-- The versions of the actions of an instrument. -/
def versionsOf (history : CorporateActionHistory) (i : InstrumentId) :
    Std.TreeMap ℕ CorporateActionRecord :=
  (history.records[i]?).getD ∅

theorem valid_of_mem_versionsOf {history : CorporateActionHistory} {i : InstrumentId}
    {record : CorporateActionRecord} (h : record ∈ (history.versionsOf i).values) :
    record.action.valid = true := by
  unfold versionsOf at h
  cases hversions : history.records[i]? with
  | none => simp [hversions, MapFilter.mem_values] at h
  | some versions =>
    rw [hversions, Option.getD_some] at h
    exact history.valid i versions hversions record h

/-- The history with one more version of an action. -/
def store (history : CorporateActionHistory) (record : CorporateActionRecord)
    (hvalid : record.action.valid = true) : CorporateActionHistory where
  records := history.records.insert record.instrumentId
    ((history.versionsOf record.instrumentId).insert record.version record)
  valid i versions h record' hrecord' := by
    rw [Std.TreeMap.getElem?_insert] at h
    split at h
    · cases h
      obtain ⟨version, hversion⟩ := MapFilter.mem_values.mp hrecord'
      rw [Std.TreeMap.getElem?_insert] at hversion
      split at hversion
      · cases hversion
        exact hvalid
      · exact valid_of_mem_versionsOf (MapFilter.mem_values.mpr ⟨version, hversion⟩)
    · exact history.valid i versions h record' hrecord'

/-- Add one version of an action. -/
def insert (history : CorporateActionHistory) (record : CorporateActionRecord) :
    Except CorporateActionError CorporateActionHistory :=
  if record.effectiveDay < record.announcedDay ∨ record.knowledgeDay < record.announcedDay
      ∨ record.version = 0 then
    .error .invalidTiming
  else if hvalid : record.action.valid = true then
    match (history.versionsOf record.instrumentId)[record.version]? with
    | some existing => if existing = record then .ok history else .error .conflictingVersion
    | none => .ok (history.store record hvalid)
  else .error .invalidPayload

/-- The actions of an instrument known at a day, by the day of effect and then by version. -/
def knownAsOf (history : CorporateActionHistory) (i : InstrumentId) (knowledgeDay : ℕ) :
    List CorporateActionRecord :=
  sortByKey (fun record => toLex (record.effectiveDay, record.version))
    ((history.versionsOf i).values.filter (·.knowledgeDay ≤ knowledgeDay))

/-- One action in the products of the factors: those of a split after the day of the price. -/
def scaleBy (observationDay : ℕ) (scale : Int × Int) (record : CorporateActionRecord) :
    Except CorporateActionError (Int × Int) :=
  if record.effectiveDay ≤ observationDay then .ok scale
  else
    match record.action with
    | .split splitNumerator splitDenominator =>
      match narrow 128 (scale.2 * splitNumerator) with
      | none => .error .overflow
      | some denominator =>
        match narrow 128 (scale.1 * splitDenominator) with
        | none => .error .overflow
        | some numerator => .ok (numerator, denominator)
    | _ => .ok scale

/-- A historical price adjusted by the known later splits; `none` when an operation overflows that
is not checked. -/
def adjustedPriceTicks (history : CorporateActionHistory) (i : InstrumentId) (priceTicks : Int)
    (observationDay knowledgeDay : ℕ) : Option (Except CorporateActionError Int) :=
  if priceTicks < 0 then some (.error .invalidPayload)
  else
    match (history.knownAsOf i knowledgeDay).foldlM (scaleBy observationDay) (1, 1) with
    | .error e => some (.error e)
    | .ok (numerator, denominator) =>
      match narrow 128 (priceTicks * numerator) with
      | none => some (.error .overflow)
      | some scaled =>
        (narrow 128 (scaled + denominator.tdiv 2)).map fun sum =>
          match narrow 64 (sum.tdiv denominator) with
          | none => .error .overflow
          | some rounded => .ok rounded

-- The factors

/-- The new and old shares of a split. -/
def factors (record : CorporateActionRecord) : Option (ℕ × ℕ) :=
  match record.action with
  | .split numerator denominator => some (numerator, denominator)
  | _ => none

/-- The splits after a day that are known at another. -/
def laterSplits (history : CorporateActionHistory) (i : InstrumentId)
    (observationDay knowledgeDay : ℕ) : List (ℕ × ℕ) :=
  ((history.versionsOf i).values.filter fun record =>
    record.knowledgeDay ≤ knowledgeDay ∧ observationDay < record.effectiveDay).filterMap factors

/-- The product of the old shares of some splits: prices are multiplied by it. -/
def scaleUp (splits : List (ℕ × ℕ)) : Int := ((splits.map (·.2)).prod : ℕ)

/-- The product of the new shares of some splits: prices are divided by it. -/
def scaleDown (splits : List (ℕ × ℕ)) : Int := ((splits.map (·.1)).prod : ℕ)

/-- A quotient rounded to the nearest integer. -/
def Nearest (dividend divisor quotient : Int) : Prop :=
  2 * (quotient * divisor - dividend) ≤ divisor ∧ 2 * (dividend - quotient * divisor) ≤ divisor

/-- The splits among some records that take effect after a day. -/
def splitsAfter (observationDay : ℕ) (records : List CorporateActionRecord) : List (ℕ × ℕ) :=
  (records.filter (observationDay < ·.effectiveDay)).filterMap factors

variable {observationDay : ℕ} {records : List CorporateActionRecord}

theorem pos_of_mem_splitsAfter (hvalid : ∀ record ∈ records, record.action.valid = true)
    {split : ℕ × ℕ} (h : split ∈ splitsAfter observationDay records) :
    0 < split.1 ∧ 0 < split.2 := by
  obtain ⟨record, hrecord, hfactors⟩ := List.mem_filterMap.mp h
  have hpayload := hvalid record (List.mem_filter.mp hrecord).1
  unfold factors at hfactors
  split at hfactors
  · next haction =>
    cases hfactors
    simpa [haction, CorporateAction.valid] using hpayload
  · cases hfactors

theorem scaleUp_pos {splits : List (ℕ × ℕ)} (h : ∀ split ∈ splits, 0 < split.1 ∧ 0 < split.2) :
    0 < scaleUp splits := by
  refine Int.natCast_pos.mpr (List.prod_pos fun factor hfactor => ?_)
  obtain ⟨split, hsplit, rfl⟩ := List.mem_map.mp hfactor
  exact (h split hsplit).2

theorem scaleDown_pos {splits : List (ℕ × ℕ)} (h : ∀ split ∈ splits, 0 < split.1 ∧ 0 < split.2) :
    0 < scaleDown splits := by
  refine Int.natCast_pos.mpr (List.prod_pos fun factor hfactor => ?_)
  obtain ⟨split, hsplit, rfl⟩ := List.mem_map.mp hfactor
  exact (h split hsplit).1

/-- A product that does not fit does not fit with further factors. -/
theorem not_fits_mul {x y : Int} (hx : 0 ≤ x) (hy : 0 < y) (h : ¬Fits 128 x) :
    ¬Fits 128 (x * y) := by
  have hle : x * 1 ≤ x * y := mul_le_mul_of_nonneg_left hy hx
  rw [fits_128_iff] at h ⊢
  omega

/-- **The products of the factors** are found, or an overflow is, in whatever order the splits
come. -/
theorem foldlM_scaleBy (observationDay : ℕ)
    (hvalid : ∀ record ∈ records, record.action.valid = true) {a b : Int} (ha : 0 < a)
    (hb : 0 < b) (hafits : Fits 128 a) (hbfits : Fits 128 b) :
    records.foldlM (scaleBy observationDay) (a, b) =
      if Fits 128 (a * scaleUp (splitsAfter observationDay records)) ∧
          Fits 128 (b * scaleDown (splitsAfter observationDay records)) then
        .ok (a * scaleUp (splitsAfter observationDay records),
          b * scaleDown (splitsAfter observationDay records))
      else .error .overflow := by
  induction records generalizing a b with
  | nil =>
    have hone : scaleUp (splitsAfter observationDay []) = 1 ∧
        scaleDown (splitsAfter observationDay []) = 1 := ⟨rfl, rfl⟩
    rw [hone.1, hone.2, mul_one, mul_one, if_pos ⟨hafits, hbfits⟩]
    rfl
  | cons record records ih =>
    obtain ⟨hrecord, hrecords⟩ := List.forall_mem_cons.mp hvalid
    rw [List.foldlM_cons, scaleBy]
    by_cases hday : record.effectiveDay ≤ observationDay
    · rw [if_pos hday, splitsAfter, List.filter_cons_of_neg (by simpa using hday)]
      exact ih hrecords ha hb hafits hbfits
    · rw [if_neg hday]
      have hsplits : splitsAfter observationDay (record :: records) =
          (factors record).toList ++ splitsAfter observationDay records := by
        rw [splitsAfter, List.filter_cons_of_pos (by simpa using hday), List.filterMap_cons]
        cases factors record <;> rfl
      have hpos : ∀ split ∈ splitsAfter observationDay records, 0 < split.1 ∧ 0 < split.2 :=
        fun split => pos_of_mem_splitsAfter hrecords
      rw [hsplits]
      cases haction : record.action with
      | split n d =>
        have hfactors : factors record = some (n, d) := by rw [factors, haction]
        rw [haction] at hrecord
        simp only [CorporateAction.valid, Bool.and_eq_true, decide_eq_true_eq] at hrecord
        have hup : scaleUp ((factors record).toList ++ splitsAfter observationDay records) =
            d * scaleUp (splitsAfter observationDay records) := by
          rw [hfactors]
          simp [scaleUp]
        have hdown : scaleDown ((factors record).toList ++ splitsAfter observationDay records) =
            n * scaleDown (splitsAfter observationDay records) := by
          rw [hfactors]
          simp [scaleDown]
        rw [hup, hdown, ← mul_assoc, ← mul_assoc]
        dsimp only
        have hn : 0 < b * n := mul_pos hb (by omega)
        have hd : 0 < a * d := mul_pos ha (by omega)
        by_cases hdenominator : Fits 128 (b * n)
        · rw [narrow_of_fits hdenominator]
          by_cases hnumerator : Fits 128 (a * d)
          · rw [narrow_of_fits hnumerator]
            exact ih hrecords hd hn hnumerator hdenominator
          · rw [narrow_of_not_fits hnumerator,
              if_neg fun h => not_fits_mul hd.le (scaleUp_pos hpos) hnumerator h.1]
            rfl
        · rw [narrow_of_not_fits hdenominator,
            if_neg fun h => not_fits_mul hn.le (scaleDown_pos hpos) hdenominator h.2]
          rfl
      | cashDividend amountTicks =>
        rw [show factors record = none by rw [factors, haction]]
        exact ih hrecords ha hb hafits hbfits
      | symbolChange newSymbol =>
        rw [show factors record = none by rw [factors, haction]]
        exact ih hrecords ha hb hafits hbfits

/-- The known splits in order are a permutation of the known splits. -/
theorem splitsAfter_knownAsOf_perm (history : CorporateActionHistory) (i : InstrumentId)
    (observationDay knowledgeDay : ℕ) :
    (splitsAfter observationDay (history.knownAsOf i knowledgeDay)).Perm
      (history.laterSplits i observationDay knowledgeDay) := by
  have hsort := (List.mergeSort_perm ((history.versionsOf i).values.filter
    (·.knowledgeDay ≤ knowledgeDay)) fun x y =>
      toLex (x.effectiveDay, x.version) ≤ toLex (y.effectiveDay, y.version))
  have hfilter := (hsort.filter (observationDay < ·.effectiveDay)).filterMap factors
  rw [List.filter_filter] at hfilter
  refine hfilter.trans (List.Perm.of_eq ?_)
  rw [laterSplits]
  congr 2
  funext record
  rw [Bool.decide_and, Bool.and_comm]

/-- What is computed from the products of the factors. -/
theorem adjustedPriceTicks_eq (history : CorporateActionHistory) (i : InstrumentId)
    {priceTicks : Int} (observationDay knowledgeDay : ℕ) (hprice : 0 ≤ priceTicks)
    {splits : List (ℕ × ℕ)}
    (hsplits : splits = history.laterSplits i observationDay knowledgeDay) :
    history.adjustedPriceTicks i priceTicks observationDay knowledgeDay =
      if Fits 128 (scaleUp splits) ∧ Fits 128 (scaleDown splits) then
        match narrow 128 (priceTicks * scaleUp splits) with
        | none => some (.error .overflow)
        | some scaled =>
          (narrow 128 (scaled + (scaleDown splits).tdiv 2)).map fun sum =>
            match narrow 64 (sum.tdiv (scaleDown splits)) with
            | none => .error .overflow
            | some rounded => .ok rounded
      else some (.error .overflow) := by
  have hvalid : ∀ record ∈ history.knownAsOf i knowledgeDay, record.action.valid = true := by
    intro record hrecord
    have hmem := (List.mergeSort_perm _ _).mem_iff.mp hrecord
    exact valid_of_mem_versionsOf (List.mem_filter.mp hmem).1
  have hperm := splitsAfter_knownAsOf_perm history i observationDay knowledgeDay
  have hup : scaleUp (splitsAfter observationDay (history.knownAsOf i knowledgeDay)) =
      scaleUp splits := by
    rw [scaleUp, scaleUp, hsplits, (hperm.map (·.2)).prod_eq]
  have hdown : scaleDown (splitsAfter observationDay (history.knownAsOf i knowledgeDay)) =
      scaleDown splits := by
    rw [scaleDown, scaleDown, hsplits, (hperm.map (·.1)).prod_eq]
  have hfold := foldlM_scaleBy observationDay hvalid one_pos one_pos (by decide) (by decide)
  rw [hup, hdown, one_mul, one_mul] at hfold
  unfold adjustedPriceTicks
  rw [if_neg (not_lt.mpr hprice), hfold]
  split_ifs <;> rfl

/-- The quotient that is rounded by adding half the divisor is the nearest. -/
theorem nearest_tdiv {dividend divisor : Int} (hdividend : 0 ≤ dividend) (hdivisor : 0 < divisor) :
    Nearest dividend divisor ((dividend + divisor / 2).tdiv divisor) := by
  rw [Int.tdiv_eq_ediv_of_nonneg (by omega), Nearest]
  have hle := Int.ediv_mul_le (dividend + divisor / 2) hdivisor.ne'
  have hlt := Int.lt_ediv_add_one_mul_self (dividend + divisor / 2) hdivisor
  rw [add_mul, one_mul] at hlt
  generalize (dividend + divisor / 2) / divisor * divisor = product at hle hlt ⊢
  omega

/-- **An adjusted price** is an error or the nearest tick, and no operation overflows unchecked,
unless the products fit and the addition that rounds takes them out of range. -/
theorem adjusted_price_iff (history : CorporateActionHistory) (i : InstrumentId) {priceTicks : Int}
    (observationDay knowledgeDay : ℕ) (hprice : 0 ≤ priceTicks) :
    let splits := history.laterSplits i observationDay knowledgeDay
    (∃ result, history.adjustedPriceTicks i priceTicks observationDay knowledgeDay = some result ∧
        ∀ ticks, result = .ok ticks →
          Nearest (priceTicks * scaleUp splits) (scaleDown splits) ticks) ↔
      ¬(Fits 128 (scaleUp splits) ∧ Fits 128 (scaleDown splits) ∧
        Fits 128 (priceTicks * scaleUp splits) ∧
        ¬Fits 128 (priceTicks * scaleUp splits + scaleDown splits / 2)) := by
  intro splits
  have hvalid : ∀ record ∈ history.knownAsOf i knowledgeDay, record.action.valid = true :=
    fun record hrecord => valid_of_mem_versionsOf
      (List.mem_filter.mp ((List.mergeSort_perm _ _).mem_iff.mp hrecord)).1
  have hpositive : ∀ split ∈ splits, 0 < split.1 ∧ 0 < split.2 := fun split hsplit =>
    pos_of_mem_splitsAfter hvalid
      ((splitsAfter_knownAsOf_perm history i observationDay knowledgeDay).mem_iff.mpr hsplit)
  have hup := scaleUp_pos hpositive
  have hdown := scaleDown_pos hpositive
  have hhalf : (scaleDown splits).tdiv 2 = scaleDown splits / 2 :=
    Int.tdiv_eq_ediv_of_nonneg hdown.le
  have hscaled : 0 ≤ priceTicks * scaleUp splits := mul_nonneg hprice hup.le
  rw [adjustedPriceTicks_eq history i observationDay knowledgeDay hprice rfl]
  by_cases hproducts : Fits 128 (scaleUp splits) ∧ Fits 128 (scaleDown splits)
  · rw [if_pos hproducts]
    by_cases hfits : Fits 128 (priceTicks * scaleUp splits)
    · rw [narrow_of_fits hfits]
      dsimp only
      rw [hhalf]
      by_cases hsum : Fits 128 (priceTicks * scaleUp splits + scaleDown splits / 2)
      · rw [narrow_of_fits hsum]
        refine iff_of_true ⟨_, rfl, fun ticks hticks => ?_⟩ fun h => h.2.2.2 hsum
        dsimp only at hticks
        split at hticks
        · cases hticks
        · next rounded hrounded =>
          cases hticks
          rw [(narrow_eq_some.mp hrounded).2]
          exact nearest_tdiv hscaled hdown
      · rw [narrow_of_not_fits hsum]
        refine iff_of_false (fun h => ?_) fun h => h ⟨hproducts.1, hproducts.2, hfits, hsum⟩
        obtain ⟨result, hresult, -⟩ := h
        cases hresult
    · rw [narrow_of_not_fits hfits]
      exact iff_of_true ⟨_, rfl, fun ticks hticks => by cases hticks⟩ fun h => hfits h.2.2.1
  · rw [if_neg hproducts]
    exact iff_of_true ⟨_, rfl, fun ticks hticks => by cases hticks⟩
      fun h => hproducts ⟨h.1, h.2.1⟩

end CorporateActionHistory

namespace Sample

/-- A split of an instrument, announced on day 11 and effective on day 12. -/
def splitRecord (version numerator denominator : ℕ) : CorporateActionRecord :=
  ⟨7, 12, 11, 11, version, .split numerator denominator⟩

/-- Two shares for one. -/
def twoForOne : CorporateActionHistory :=
  CorporateActionHistory.empty.store (splitRecord 1 2 1) rfl

/-- Two splits with large factors. -/
def largeSplits : CorporateActionHistory :=
  (CorporateActionHistory.empty.store (splitRecord 1 (2 ^ 63) (2 ^ 32)) rfl).store
    (splitRecord 2 (2 ^ 63) (2 ^ 32)) rfl

end Sample

/-- A price before a split in two is halved to the nearest tick. -/
theorem adjusted_price_halved :
    let splits := Sample.twoForOne.laterSplits 7 10 12
    ∃ result, Sample.twoForOne.adjustedPriceTicks 7 101 10 12 = some result ∧
      ∀ ticks, result = .ok ticks → CorporateActionHistory.Nearest
        (101 * CorporateActionHistory.scaleUp splits) (CorporateActionHistory.scaleDown splits)
        ticks :=
  (CorporateActionHistory.adjusted_price_iff Sample.twoForOne 7 10 12 (by decide)).mpr
    (by decide)

/-- The greatest price after two splits with large factors: the products fit, and the addition that
rounds overflows. -/
theorem adjusted_price_overflows :
    ((CorporateActionHistory.empty.insert (Sample.splitRecord 1 (2 ^ 63) (2 ^ 32))).bind
        (·.insert (Sample.splitRecord 2 (2 ^ 63) (2 ^ 32)))) = .ok Sample.largeSplits ∧
      Sample.largeSplits.adjustedPriceTicks 7 (2 ^ 63 - 1) 10 12 = none := by
  refine ⟨rfl, ?_⟩
  have hsplits : [(2 ^ 63, 2 ^ 32), (2 ^ 63, 2 ^ 32)] = Sample.largeSplits.laterSplits 7 10 12 := by
    decide
  rw [CorporateActionHistory.adjustedPriceTicks_eq Sample.largeSplits 7 10 12 (by decide) hsplits]
  decide

end InsiderTrader
