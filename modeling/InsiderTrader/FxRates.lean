import Mathlib.Data.Prod.Lex
import InsiderTrader.Library.LastMax
import InsiderTrader.Library.MachineInt
import InsiderTrader.Library.Text
import Std.Data.TreeMap.Lemmas

/-!
# Foreign exchange rates

The book of currency rates: every rate has a time as of which it holds and a
time from which it is known. A conversion takes the latest rate knowable at a
time. A rate of the time and source of another replaces it where it stands.

## Main definitions

- `FxRateBook.insert` — add a rate, or correct one
- `FxRateBook.convertTicks` — convert with the latest rate knowable
- `FxRateBook.Rewritten` — a rate corrects the one an earlier query converts with

## Main results

- `FxRateBook.convertTicks_push` — an added rate is not seen before it is known
- `conversion_stable_iff` — the queries that an inserted rate leaves alone
-/

namespace InsiderTrader

open MachineInt LastMax

/-- A rate of a currency pair at a time, with its source and the time it is known from. -/
structure FxRate where
  base : String
  quote : String
  numerator : ℕ
  denominator : ℕ
  source : String
  asOfNs : Int
  knowledgeNs : Int
  deriving DecidableEq

/-- Failure of the rate book. -/
inductive FxError where
  | invalidRate
  | missingRate
  | overflow
  deriving DecidableEq

/-- Rates by currency pair. -/
structure FxRateBook where
  rates : Std.TreeMap (String × String) (List FxRate) lexOrd.compare

/-- A currency code has three capital letters. -/
def validCurrency (value : String) : Bool :=
  value.utf8ByteSize = 3 && value.toList.all fun c => 'A' ≤ c && c ≤ 'Z'

namespace FxRate

/-- Rates are in order of the time they hold as of, then of the time they are known from. -/
def key (rate : FxRate) : Int ×ₗ Int := toLex (rate.asOfNs, rate.knowledgeNs)

/-- A rate of the same time and source, which a new one corrects. -/
def sameVersion (rate existing : FxRate) : Bool :=
  existing.asOfNs = rate.asOfNs && existing.source = rate.source

/-- The rate holds as of a time, and is known at a time. -/
def knowable (asOfNs knowledgeNs : Int) (rate : FxRate) : Bool :=
  rate.asOfNs ≤ asOfNs && rate.knowledgeNs ≤ knowledgeNs

/-- The amount at a rate, rounded to the nearest tick. -/
def convert (rate : FxRate) (amountTicks : Int) : Except FxError Int :=
  match narrow 128 (amountTicks * rate.numerator) with
  | none => .error .overflow
  | some converted =>
    match narrow 64 ((converted + (rate.denominator : Int).tdiv 2).tdiv rate.denominator) with
    | none => .error .overflow
    | some ticks => .ok ticks

end FxRate

/-- The rates of a pair after a new one: it takes the place of the one it corrects, else it is
added in time order. -/
def upsertRate (rates : List FxRate) (rate : FxRate) : List FxRate :=
  match rates.findIdx? rate.sameVersion with
  | some i => rates.set i rate
  | none => sortByKey FxRate.key (rates ++ [rate])

namespace FxRateBook

/-- A book without rates. -/
def empty : FxRateBook := ⟨∅⟩

/-- Add a rate to the book. -/
def insert (book : FxRateBook) (rate : FxRate) : Except FxError FxRateBook :=
  if ¬validCurrency rate.base ∨ ¬validCurrency rate.quote ∨ rate.base = rate.quote
      ∨ rate.numerator = 0 ∨ rate.denominator = 0 ∨ Text.isBlank rate.source
      ∨ rate.asOfNs < 0 ∨ rate.knowledgeNs < rate.asOfNs then
    .error .invalidRate
  else
    let rates := (book.rates[(rate.base, rate.quote)]?).getD []
    .ok ⟨book.rates.insert (rate.base, rate.quote) (upsertRate rates rate)⟩

/-- Convert an amount with the latest rate knowable. -/
def convertTicks (book : FxRateBook) (amountTicks : Int) (base quote : String)
    (asOfNs knowledgeNs : Int) : Except FxError Int :=
  if amountTicks < 0 ∨ asOfNs < 0 ∨ knowledgeNs < 0 then .error .invalidRate
  else match book.rates[(base, quote)]? with
    | none => .error .missingRate
    | some rates =>
      match lastMaxBy FxRate.key (rates.filter (FxRate.knowable asOfNs knowledgeNs)) with
      | none => .error .missingRate
      | some rate => rate.convert amountTicks

end FxRateBook

/-- `e` is the latest of the rates knowable at a time: the last one, where several are as late. -/
def InForce (rates : List FxRate) (asOfNs knowledgeNs : Int) (e : FxRate) : Prop :=
  IsLastMax FxRate.key (rates.filter (FxRate.knowable asOfNs knowledgeNs)) e

/-- The rate corrects the one that a well-formed query converts with, and without that one the
query has no rate, or one that converts the amount to something else. -/
def FxRateBook.Rewritten (book : FxRateBook) (rate : FxRate) (amountTicks : Int)
    (base quote : String) (asOfNs knowledgeNs : Int) : Prop :=
  (0 ≤ amountTicks ∧ 0 ≤ asOfNs ∧ 0 ≤ knowledgeNs) ∧ (rate.base = base ∧ rate.quote = quote) ∧
    ∃ rates e, book.rates[(base, quote)]? = some rates ∧ rates.find? rate.sameVersion = some e ∧
      InForce rates asOfNs knowledgeNs e ∧
      ∀ e', InForce (rates.erase e) asOfNs knowledgeNs e' →
        e'.convert amountTicks ≠ e.convert amountTicks

section Pair

variable {rates : List FxRate} {rate : FxRate} {amountTicks asOfNs knowledgeNs : Int}

/-- The latest rate knowable of a pair. -/
def latest (rates : List FxRate) (asOfNs knowledgeNs : Int) : Option FxRate :=
  lastMaxBy FxRate.key (rates.filter (FxRate.knowable asOfNs knowledgeNs))

theorem latest_eq_some_iff {e : FxRate} :
    latest rates asOfNs knowledgeNs = some e ↔ InForce rates asOfNs knowledgeNs e :=
  lastMaxBy_eq_some_iff

theorem convert_ne_missingRate (e : FxRate) : e.convert amountTicks ≠ .error .missingRate := by
  unfold FxRate.convert
  split
  · nofun
  · split <;> nofun

/-- A rate that is not known at a time is not seen at it. -/
theorem not_knowable (h : knowledgeNs < rate.knowledgeNs) :
    ¬rate.knowable asOfNs knowledgeNs = true := by
  rw [FxRate.knowable, Bool.and_eq_true, decide_eq_true_iff, decide_eq_true_iff]
  omega

/-- The place of a correction splits the rates of a pair. -/
theorem findIdx?_split {i : ℕ} (h : rates.findIdx? rate.sameVersion = some i) :
    ∃ e before after, rates = before ++ e :: after ∧ rates.set i rate = before ++ rate :: after ∧
      rates.find? rate.sameVersion = some e ∧ rates.erase e = before ++ after := by
  induction rates generalizing i with
  | nil => cases h
  | cons head tail ih =>
    by_cases hhead : rate.sameVersion head = true
    · rw [List.findIdx?_cons, if_pos hhead] at h
      cases h
      exact ⟨head, [], tail, rfl, rfl, List.find?_cons_of_pos hhead, List.erase_cons_head ..⟩
    · rw [List.findIdx?_cons, if_neg hhead] at h
      obtain ⟨j, hj, rfl⟩ := Option.map_eq_some_iff.mp h
      obtain ⟨e, before, after, hsplit, hset, hfind, herase⟩ := ih hj
      have hne : ¬(head == e) = true := by
        intro heq
        rw [beq_iff_eq.mp heq] at hhead
        exact hhead (List.find?_some hfind)
      refine ⟨e, head :: before, after, ?_, ?_, ?_, ?_⟩
      · rw [hsplit]
        rfl
      · rw [List.set_cons_succ, hset]
        rfl
      · rw [List.find?_cons_of_neg hhead, hfind]
      · rw [List.erase_cons_tail hne, herase]
        rfl

/-- **An added rate** is not seen before it is known. -/
theorem latest_push (h : knowledgeNs < rate.knowledgeNs) :
    latest (sortByKey FxRate.key (rates ++ [rate])) asOfNs knowledgeNs =
      latest rates asOfNs knowledgeNs := by
  rw [latest, lastMaxBy_filter_sortByKey, List.filter_append,
    List.filter_cons_of_neg (not_knowable h), List.filter_nil, List.append_nil]
  rfl

/-- **A correction** is seen, before it is known, as the rates without the corrected one. -/
theorem latest_set {before after : List FxRate} (h : knowledgeNs < rate.knowledgeNs) :
    latest (before ++ rate :: after) asOfNs knowledgeNs =
      latest (before ++ after) asOfNs knowledgeNs := by
  rw [latest, List.filter_append, List.filter_cons_of_neg (not_knowable h), ← List.filter_append]
  rfl

/-- Without a rate that is not in force, the rate in force is the same. -/
theorem latest_remove {before after : List FxRate} {e : FxRate}
    (h : ¬InForce (before ++ e :: after) asOfNs knowledgeNs e) :
    latest (before ++ after) asOfNs knowledgeNs =
      latest (before ++ e :: after) asOfNs knowledgeNs := by
  rw [← latest_eq_some_iff] at h
  by_cases he : e.knowable asOfNs knowledgeNs = true
  · rw [latest, List.filter_append, List.filter_cons_of_pos he] at h
    rw [latest, latest, List.filter_append, List.filter_append, List.filter_cons_of_pos he]
    exact lastMaxBy_remove h
  · rw [latest, latest, List.filter_append, List.filter_append, List.filter_cons_of_neg he]

/-- What a query of a pair returns. -/
def outcome (rates : List FxRate) (amountTicks asOfNs knowledgeNs : Int) : Except FxError Int :=
  (latest rates asOfNs knowledgeNs).elim (.error .missingRate) (·.convert amountTicks)

/-- **One insertion into the rates of a pair**: an earlier query is answered the same unless it
converts with the corrected rate, and the others convert differently. -/
theorem outcome_upsertRate_iff (h : knowledgeNs < rate.knowledgeNs) :
    outcome (upsertRate rates rate) amountTicks asOfNs knowledgeNs =
        outcome rates amountTicks asOfNs knowledgeNs ↔
      ¬∃ e, rates.find? rate.sameVersion = some e ∧ InForce rates asOfNs knowledgeNs e ∧
        ∀ e', InForce (rates.erase e) asOfNs knowledgeNs e' →
          e'.convert amountTicks ≠ e.convert amountTicks := by
  cases hindex : rates.findIdx? rate.sameVersion with
  | none =>
    have hfind : rates.find? rate.sameVersion = none := by
      rw [List.find?_eq_none]
      exact fun e he => by rw [List.findIdx?_eq_none_iff.mp hindex e he]; decide
    rw [hfind]
    refine iff_of_true ?_ (by rintro ⟨e, ⟨⟩, -⟩)
    rw [upsertRate, hindex, outcome, outcome, latest_push h]
  | some i =>
    obtain ⟨e, before, after, hsplit, hset, hfind, herase⟩ := findIdx?_split hindex
    rw [upsertRate, hindex]
    show outcome (rates.set i rate) _ _ _ = _ ↔ _
    rw [hset, outcome, latest_set h, ← herase]
    constructor
    · rintro heq ⟨e', hfind', hforce, hother⟩
      rw [hfind] at hfind'
      cases hfind'
      rw [outcome, latest_eq_some_iff.mpr hforce, Option.elim_some] at heq
      cases hlatest : latest (rates.erase e) asOfNs knowledgeNs with
      | none =>
        rw [hlatest] at heq
        exact convert_ne_missingRate e heq.symm
      | some e' =>
        rw [hlatest] at heq
        exact hother e' (latest_eq_some_iff.mp hlatest) heq
    · intro hnot
      by_cases hforce : InForce rates asOfNs knowledgeNs e
      · rw [outcome, latest_eq_some_iff.mpr hforce, Option.elim_some]
        by_contra hne
        refine hnot ⟨e, hfind, hforce, fun e' he' heq => hne ?_⟩
        rw [latest_eq_some_iff.mpr he', Option.elim_some, heq]
      · rw [herase, outcome, hsplit]
        rw [hsplit] at hforce
        rw [latest_remove hforce]

end Pair

section Book

variable {book book' : FxRateBook} {rate : FxRate}

namespace FxRateBook

theorem convertTicks_eq (book : FxRateBook) (amountTicks : Int) (base quote : String)
    (asOfNs knowledgeNs : Int) :
    book.convertTicks amountTicks base quote asOfNs knowledgeNs =
      if amountTicks < 0 ∨ asOfNs < 0 ∨ knowledgeNs < 0 then .error .invalidRate
      else outcome ((book.rates[(base, quote)]?).getD []) amountTicks asOfNs knowledgeNs := by
  unfold convertTicks
  split
  · rfl
  · cases book.rates[(base, quote)]? with
    | none => rfl
    | some rates =>
      show _ = outcome rates amountTicks asOfNs knowledgeNs
      rw [outcome, latest]
      dsimp only
      cases lastMaxBy FxRate.key (rates.filter (FxRate.knowable asOfNs knowledgeNs)) with
      | none => rfl
      | some rate => rfl

/-- An accepted rate goes into the rates of its pair. -/
theorem insert_eq_ok (h : book.insert rate = .ok book') (base quote : String) :
    (book'.rates[(base, quote)]?).getD [] =
      if rate.base = base ∧ rate.quote = quote then
        upsertRate ((book.rates[(base, quote)]?).getD []) rate
      else (book.rates[(base, quote)]?).getD [] := by
  unfold insert at h
  split at h
  · cases h
  · cases h
    rw [Std.TreeMap.getElem?_insert]
    simp only [Std.LawfulEqCmp.compare_eq_iff_eq, Prod.mk.injEq]
    split
    · next hpair =>
      obtain ⟨rfl, rfl⟩ := hpair
      rfl
    · rfl

end FxRateBook

/-- The queries that a rate, known only later, leaves alone: all but those that it rewrites. -/
theorem conversion_stable_iff (h : book.insert rate = .ok book')
    {amountTicks asOfNs knowledgeNs : Int} {base quote : String}
    (hlater : knowledgeNs < rate.knowledgeNs) :
    book'.convertTicks amountTicks base quote asOfNs knowledgeNs =
        book.convertTicks amountTicks base quote asOfNs knowledgeNs ↔
      ¬book.Rewritten rate amountTicks base quote asOfNs knowledgeNs := by
  rw [FxRateBook.convertTicks_eq, FxRateBook.convertTicks_eq, FxRateBook.insert_eq_ok h]
  by_cases hquery : amountTicks < 0 ∨ asOfNs < 0 ∨ knowledgeNs < 0
  · rw [if_pos hquery, if_pos hquery]
    refine iff_of_true rfl ?_
    rintro ⟨hvalid, -⟩
    omega
  · rw [if_neg hquery, if_neg hquery]
    by_cases hpair : rate.base = base ∧ rate.quote = quote
    · rw [if_pos hpair, outcome_upsertRate_iff hlater, not_iff_not]
      constructor
      · rintro ⟨e, hfind, hforce, hother⟩
        cases hrates : book.rates[(base, quote)]? with
        | none =>
          rw [hrates] at hfind
          cases hfind
        | some rates =>
          rw [hrates] at hfind hforce hother
          exact ⟨by omega, hpair, rates, e, hrates, hfind, hforce, hother⟩
      · rintro ⟨-, -, rates, e, hrates, hfind, hforce, hother⟩
        rw [hrates]
        exact ⟨e, hfind, hforce, hother⟩
    · rw [if_neg hpair]
      refine iff_of_true rfl ?_
      rintro ⟨-, hsame, -⟩
      exact hpair hsame

end Book

namespace Sample

/-- A euro in dollars as of one time, from one source, known from a time on. -/
def euro (numerator : ℕ) (source : String) (knowledgeNs : Int) : FxRate :=
  ⟨"EUR", "USD", numerator, 10, source, 100, knowledgeNs⟩

/-- A book with rates of the euro. -/
def euroBook (rates : List FxRate) : FxRateBook := ⟨Std.TreeMap.insert ∅ ("EUR", "USD") rates⟩

/-- The book after a rate of the euro is added. -/
def addEuro (book : FxRateBook) (rates : List FxRate) : FxRateBook :=
  ⟨book.rates.insert ("EUR", "USD") rates⟩

theorem insert_euro {book : FxRateBook} {numerator : ℕ} {source : String} {knowledgeNs : Int}
    (hnumerator : numerator ≠ 0) (hsource : ¬Text.isBlank source = true)
    (hknowledge : 100 ≤ knowledgeNs) :
    book.insert (euro numerator source knowledgeNs) =
      .ok (addEuro book (upsertRate ((book.rates[("EUR", "USD")]?).getD [])
        (euro numerator source knowledgeNs))) := by
  refine if_neg ?_
  rintro (h | h | h | h | h | h | h | h)
  · exact h (by show validCurrency "EUR" = true; decide)
  · exact h (by show validCurrency "USD" = true; decide)
  · exact absurd h (by show ¬"EUR" = "USD"; decide)
  · exact hnumerator h
  · exact absurd h (by show ¬10 = 0; decide)
  · exact hsource h
  · exact absurd h (by show ¬(100 : Int) < 0; decide)
  · exact absurd h (Int.not_lt.mpr hknowledge)

end Sample

/-- A rate of another source, known from 300 on, leaves a query at 150 alone. -/
theorem conversion_stable_euro :
    (Sample.addEuro (Sample.euroBook [Sample.euro 11 "fixture" 110])
        (upsertRate [Sample.euro 11 "fixture" 110] (Sample.euro 12 "desk" 300))).convertTicks
          100 "EUR" "USD" 100 150 =
      (Sample.euroBook [Sample.euro 11 "fixture" 110]).convertTicks 100 "EUR" "USD" 100 150 := by
  have hinsert : (Sample.euroBook [Sample.euro 11 "fixture" 110]).insert
      (Sample.euro 12 "desk" 300) = _ := Sample.insert_euro (by decide) (by decide) (by decide)
  refine (conversion_stable_iff hinsert (by decide)).mpr ?_
  rintro ⟨-, -, rates, e, hrates, hfind, -⟩
  have hbook : (Sample.euroBook [Sample.euro 11 "fixture" 110]).rates[("EUR", "USD")]? =
      some [Sample.euro 11 "fixture" 110] := by rfl
  rw [hbook] at hrates
  cases hrates
  exact absurd hfind (by rw [show List.find? _ _ = none by decide]; nofun)

/-- The first rate converts 100 euros to 110 dollars and is known from 110 on. Once a correction
known from 200 on has come in, a query at 150 has no rate. -/
theorem conversion_rewritten_euro :
    FxRateBook.empty.insert (Sample.euro 11 "fixture" 110) =
        .ok (Sample.euroBook [Sample.euro 11 "fixture" 110]) ∧
      (Sample.euroBook [Sample.euro 11 "fixture" 110]).insert (Sample.euro 12 "fixture" 200) =
        .ok (Sample.addEuro (Sample.euroBook [Sample.euro 11 "fixture" 110])
          [Sample.euro 12 "fixture" 200]) ∧
      (Sample.euroBook [Sample.euro 11 "fixture" 110]).convertTicks 100 "EUR" "USD" 100 150 =
        .ok 110 ∧
      (Sample.addEuro (Sample.euroBook [Sample.euro 11 "fixture" 110])
          [Sample.euro 12 "fixture" 200]).convertTicks 100 "EUR" "USD" 100 150 =
        .error .missingRate := by
  refine ⟨?_, Sample.insert_euro (by decide) (by decide) (by decide), by decide, by decide⟩
  rw [Sample.insert_euro (by decide) (by decide) (by decide)]
  show Except.ok (Sample.euroBook (sortByKey FxRate.key [Sample.euro 11 "fixture" 110])) = _
  rw [sortByKey, List.mergeSort_singleton]

end InsiderTrader
