import InsiderTrader.EventDelivery
import InsiderTrader.OrderlyCalls

/-!
# What a fill adds to a summary

A fill that is journaled, stamped and written to its order is attributed when
the graph takes the positions it leaves. It then adds one fill and its signed
quantity to the summary of the strategy that the id of its order names.

## Main definitions

- `Host.summaryOf` — the summary of a strategy
- `Runtime.TakesEvent` — a fill that the order it names takes
- `Host.Graphs` — the graph takes the positions after an event

## Main results

- `Host.applyBrokerEvent_books` — an event makes no order and records no proposal
- `Host.applyBrokerEvent_untaken`, `Host.applyBrokerEvent_unattributed`,
  `Host.applyBrokerEvent_attributed` — what an event does to the summaries
-/

namespace InsiderTrader

open MachineInt Fallible

namespace StrategyExecutionSummary

/-- The counters of a summary have room for a fill. -/
structure HasRoom (summary : StrategyExecutionSummary) (signedQuantity : Int) : Prop where
  count : summary.fillCount < u64Max
  filled : Fits 128 (summary.filledQuantityTicks + signedQuantity)

instance (summary : StrategyExecutionSummary) (signedQuantity : Int) :
    Decidable (summary.HasRoom signedQuantity) :=
  decidable_of_iff (summary.fillCount < u64Max ∧
      Fits 128 (summary.filledQuantityTicks + signedQuantity))
    ⟨fun ⟨hcount, hfilled⟩ => ⟨hcount, hfilled⟩, fun ⟨hcount, hfilled⟩ => ⟨hcount, hfilled⟩⟩

/-- **One fill** is counted once, with its quantity, whatever becomes of the notional. -/
theorem addFill_of_hasRoom {signedQuantity : Int} (priceTicks : Int)
    {summary : StrategyExecutionSummary} (h : summary.HasRoom signedQuantity) :
    (addFill signedQuantity priceTicks summary).2.fillCount = summary.fillCount + 1 ∧
      (addFill signedQuantity priceTicks summary).2.filledQuantityTicks =
        summary.filledQuantityTicks + signedQuantity := by
  rw [addFill, reads_bind, id_eq, require_bind, if_pos h.count, modify_bind,
    orFail_bind_some (narrow_of_fits h.filled), modify_bind]
  let counted : StrategyExecutionSummary :=
    { summary with
      fillCount := summary.fillCount + 1
      filledQuantityTicks := summary.filledQuantityTicks + signedQuantity }
  have hrest : Along (Same fun s : StrategyExecutionSummary => (s.fillCount, s.filledQuantityTicks))
      (do
        let product ← Fallible.orFail (narrow 128 (signedQuantity * priceTicks))
          EngineError.invalidRequest
        let notional ← Fallible.orFail (narrow 128 (summary.notionalTicks + product)) .invalidRequest
        Fallible.modify ({ · with notionalTicks := notional })) := by
    refine (Along.orFail _ _).bind fun _ => (Along.orFail _ _).bind fun _ =>
      Along.modify fun _ => rfl
  have hkept := hrest counted
  exact ⟨congrArg Prod.fst hkept, congrArg Prod.snd hkept⟩

end StrategyExecutionSummary

-- The runtime

namespace Runtime

/-- A fill that the order it names takes, and accounting with it. -/
def TakesEvent (r : Runtime) : BrokerEvent → Prop
  | .filled clientOrderId quantityTicks priceTicks =>
    ∃ record ∈ r.orders.get clientOrderId, record.TakesFill quantityTicks priceTicks ∧
      (r.fillTrial record clientOrderId quantityTicks priceTicks).1.isOk
  | _ => False

instance (r : Runtime) : (event : BrokerEvent) → Decidable (r.TakesEvent event)
  | .filled clientOrderId quantityTicks priceTicks => inferInstanceAs (Decidable
      (∃ record ∈ r.orders.get clientOrderId, record.TakesFill quantityTicks priceTicks ∧
        (r.fillTrial record clientOrderId quantityTicks priceTicks).1.isOk))
  | .acknowledged _ _ => inferInstanceAs (Decidable False)
  | .rejected _ _ => inferInstanceAs (Decidable False)
  | .cancelled _ => inferInstanceAs (Decidable False)

variable {r : Runtime} {id : String} {quantity price : Int}

/-- A fill that is not taken leaves the filled quantity of its order. -/
theorem applyBrokerEvent_untaken (h : ¬r.TakesEvent (.filled id quantity price)) :
    (Runtime.applyBrokerEvent (.filled id quantity price) r).2.filledQuantity id =
      r.filledQuantity id := by
  cases hget : r.orders.get id with
  | none => rw [applyBrokerEvent_of_unknown hget]
  | some record =>
    have hput {r' : Runtime} (hr : r'.orders = r.orders.put id record) :
        r'.filledQuantity id = r.filledQuantity id := by
      rw [filledQuantity, hr, OrderBook.get_put, if_pos rfl, filledQuantity, hget]
    by_cases hfilled : record.state = .filled
    · rw [applyBrokerEvent_of_filled hget hfilled]
      exact hput rfl
    · rw [applyBrokerEvent_of_open hget hfilled]
      dsimp only
      cases htrial : (r.fillTrial record id quantity price).1 with
      | error e => rfl
      | ok entry =>
        have hrefused : ¬record.TakesFill quantity price :=
          fun htakes => h ⟨record, hget, htakes, by rw [htrial]; rfl⟩
        obtain ⟨hok, hkept⟩ := OrderRecord.applyBrokerEvent_of_not_takesFill id hrefused
        rw [hkept]
        cases (OrderRecord.applyBrokerEvent (.filled id quantity price) record).1 <;>
          exact hput rfl

/-- A fill that is taken moves the filled quantity of its order; it is applied unless the book
refuses the step after it. -/
theorem applyBrokerEvent_taken (h : r.TakesEvent (.filled id quantity price)) :
    (Runtime.applyBrokerEvent (.filled id quantity price) r).2.filledQuantity id =
        r.filledQuantity id + quantity ∧ 0 < quantity ∧
      (Runtime.applyBrokerEvent (.filled id quantity price) r).2.orderSide id = r.orderSide id ∧
      (¬r.SplitsFill (.filled id quantity price) →
        (Runtime.applyBrokerEvent (.filled id quantity price) r).1 = .ok () ∧
        (Runtime.applyBrokerEvent (.filled id quantity price) r).2.portfolio =
          r.portfolioAfter (.filled id quantity price)) := by
  obtain ⟨record, hget, htakes, htrial⟩ := h
  have hmove (r' : Runtime) {record' : OrderRecord} (hr : r'.orders = r.orders.put id record')
      (hquantity : record'.filledQuantityTicks = record.filledQuantityTicks + quantity)
      (hside : record'.intent.side = record.intent.side) :
      r'.filledQuantity id = r.filledQuantity id + quantity ∧ 0 < quantity ∧
        r'.orderSide id = r.orderSide id := by
    rw [filledQuantity, orderSide, hr, OrderBook.get_put, if_pos rfl, filledQuantity, orderSide,
      hget]
    exact ⟨hquantity, htakes.quantity_pos, congrArg some hside⟩
  rw [applyBrokerEvent_of_open hget htakes.unfilled,
    OrderRecord.applyBrokerEvent_of_takesFill htakes]
  dsimp only
  cases hentry : (r.fillTrial record id quantity price).1 with
  | error e =>
    rw [hentry] at htrial
    cases htrial
  | ok entry =>
    by_cases hlegal : legalTransition record.state (record.fillState quantity) = true
    · rw [if_pos hlegal]
      obtain ⟨hfilled, hpos, hside⟩ := hmove (pushFill { r with
        orders := r.orders.put id ((record.addFill quantity).setState (record.fillState quantity))
        portfolio := (r.fillTrial record id quantity price).2 }
        (fillRecord record id quantity price)) rfl rfl rfl
      refine ⟨hfilled, hpos, hside, fun _ => ⟨rfl, ?_⟩⟩
      rw [portfolioAfter, hget]
      dsimp only
      rw [if_neg htakes.unfilled]
      rfl
    · rw [if_neg hlegal]
      obtain ⟨hfilled, hpos, hside⟩ := hmove ({ r with
        orders := r.orders.put id (record.addFill quantity) }) rfl rfl rfl
      refine ⟨hfilled, hpos, hside, fun hsplits => absurd ?_ hsplits⟩
      exact ⟨record, hget, htakes, htrial, Bool.eq_false_iff.mpr hlegal⟩

end Runtime

-- The graph

namespace Host

variable {env : Env} {h s : Host} {event : BrokerEvent}

/-- The fact of a position. -/
def positionFact (known : ℕ) (entry : InstrumentId × Position) : PositionFact :=
  ⟨entry.1, knownMs known, entry.2.quantityTicks, entry.2.markPriceTicks⟩

/-- No fact of the graph says something else of a position at the same time. -/
def Agrees (facts : List PositionFact) (known : ℕ) (entry : InstrumentId × Position) : Prop :=
  ∀ f ∈ facts, f.instrumentId = entry.1 → f.knownMs = knownMs known → f = positionFact known entry

instance (facts : List PositionFact) (known : ℕ) (entry : InstrumentId × Position) :
    Decidable (Agrees facts known entry) :=
  inferInstanceAs (Decidable (∀ f ∈ facts, _ → _ → f = positionFact known entry))

/-- Positions of different instruments that agree with the graph are inserted. -/
theorem upsertFacts_ok {known : ℕ} {entries : List (InstrumentId × Position)}
    {facts : List PositionFact} (hagrees : ∀ entry ∈ entries, Agrees facts known entry)
    (hdistinct : entries.Pairwise fun a b => a.1 ≠ b.1) :
    (Fallible.forEach (fun entry => upsertPositionFact (positionFact known entry)) entries
      facts).1 = .ok () := by
  induction entries generalizing facts with
  | nil => rfl
  | cons entry entries ih =>
    obtain ⟨hentry, hagrees⟩ := List.forall_mem_cons.mp hagrees
    obtain ⟨hfirst, hdistinct⟩ := List.pairwise_cons.mp hdistinct
    have hfree : ¬(facts.any fun f => f.instrumentId = (positionFact known entry).instrumentId ∧
        f.knownMs = (positionFact known entry).knownMs ∧ f ≠ positionFact known entry) = true := by
      intro hany
      obtain ⟨f, hf, hconflict⟩ := List.any_eq_true.mp hany
      obtain ⟨hi, hk, hne⟩ := of_decide_eq_true hconflict
      exact hne (hentry f hf hi hk)
    have hinsert : upsertPositionFact (positionFact known entry) facts =
        (.ok (), positionFact known entry :: facts) := by
      rw [upsertPositionFact, reads_bind, id_eq, require_bind, if_pos hfree]
      rfl
    rw [Fallible.forEach, bind_of_ok hinsert]
    refine ih (fun e he => List.forall_mem_cons.mpr ⟨fun hi => ?_, hagrees e he⟩) hdistinct
    exact absurd hi (hfirst e he)

/-- A portfolio that agrees with the graph is indexed. -/
theorem indexPortfolio_ok {known : ℕ}
    (h : ∀ entry ∈ s.runtime.portfolio.positions.toList, Agrees s.contextGraph known entry) :
    (indexPortfolio known s).1 = .ok () := by
  have hdistinct : s.runtime.portfolio.positions.toList.Pairwise fun a b => a.1 ≠ b.1 := by
    refine Std.TreeMap.distinct_keys_toList.imp ?_
    intro a b hne heq
    exact hne (Std.ReflCmp.cmp_eq_of_eq heq)
  have hfacts := upsertFacts_ok h hdistinct
  rw [indexPortfolio, reads_bind, id_eq, zoom_apply]
  exact mapError_eq_ok.mpr hfacts

-- What follows an event

/-- The host with other facts in the graph, some clock readings later. -/
def indexed (s : Host) (facts : List PositionFact) (reads : ℕ) : Host :=
  { s with contextGraph := facts, clockReads := reads }

theorem indexFillNow_indexed (env : Env) (event : BrokerEvent) (s : Host) :
    ∃ reads, (indexFillNow env event s).2 = s.indexed s.contextGraph reads := by
  cases event with
  | filled id quantity price =>
    refine ⟨s.clockReads + 1, ?_⟩
    unfold indexFillNow indexFill Fallible.require
    dsimp only
    split <;> rfl
  | _ => exact ⟨s.clockReads, rfl⟩

theorem indexPortfolio_indexed (known : ℕ) (s : Host) :
    ∃ facts, (indexPortfolio known s).2 = s.indexed facts s.clockReads := ⟨_, rfl⟩

/-- An event that stops at the graph is not attributed; else attribution meets the same books. -/
theorem afterEvent_cases (env : Env) (event : BrokerEvent) (priorFill : Int) (s : Host) :
    ∃ facts reads, (afterEvent env event priorFill s).2 = s.indexed facts reads ∨
      (afterEvent env event priorFill s).2 =
        ((recordAttribution env event priorFill >>= fun _ => recordChildEvent env event)
          (s.indexed facts reads)).2 := by
  obtain ⟨reads, hfill⟩ := indexFillNow_indexed env event s
  unfold afterEvent
  rcases hindex : indexFillNow env event s with ⟨_ | _, s₁⟩ <;> rw [hindex] at hfill <;>
    dsimp only at hfill <;> subst hfill
  · exact ⟨_, _, .inl (congrArg Prod.snd (bind_of_error hindex))⟩
  · obtain ⟨facts, hfacts⟩ := indexPortfolio_indexed (env.clock reads)
      (s.indexed s.contextGraph (reads + 1))
    have hnow : monotonicNow env (s.indexed s.contextGraph reads) =
        (.ok (env.clock reads), s.indexed s.contextGraph (reads + 1)) := rfl
    rw [bind_of_ok hindex, bind_of_ok hnow]
    refine ⟨facts, reads + 1, ?_⟩
    rcases hportfolio : indexPortfolio (env.clock reads) (s.indexed s.contextGraph (reads + 1)) with
      ⟨_ | _, s₂⟩ <;> rw [hportfolio] at hfacts <;> dsimp only at hfacts <;> subst hfacts
    · exact .inl (congrArg Prod.snd (bind_of_error hportfolio))
    · exact .inr (congrArg Prod.snd (bind_of_ok hportfolio))

/-- A fill whose order has a name and whose positions agree with the graph is attributed. -/
theorem afterEvent_of_agrees {id : String} (quantity price priorFill : Int)
    (hname : Text.isBlank id = false)
    (hagrees : ∀ entry ∈ s.runtime.portfolio.positions.toList,
      Agrees s.contextGraph (env.clock (s.clockReads + 1)) entry) :
    ∃ facts reads, (afterEvent env (.filled id quantity price) priorFill s).2 =
        ((recordAttribution env (.filled id quantity price) priorFill >>= fun _ =>
          recordChildEvent env (.filled id quantity price)) (s.indexed facts reads)).2 := by
  have hfill : indexFillNow env (.filled id quantity price) s =
      (.ok (), s.indexed s.contextGraph (s.clockReads + 1)) := by
    unfold indexFillNow indexFill Fallible.require
    dsimp only
    rw [if_pos (by simp [hname])]
    rfl
  have hnow : monotonicNow env (s.indexed s.contextGraph (s.clockReads + 1)) =
      (.ok (env.clock (s.clockReads + 1)), s.indexed s.contextGraph (s.clockReads + 2)) := rfl
  obtain ⟨facts, hfacts⟩ := indexPortfolio_indexed (env.clock (s.clockReads + 1))
    (s.indexed s.contextGraph (s.clockReads + 2))
  have hportfolio : indexPortfolio (env.clock (s.clockReads + 1))
      (s.indexed s.contextGraph (s.clockReads + 2)) =
      (.ok (), s.indexed facts (s.clockReads + 2)) :=
    Prod.ext (indexPortfolio_ok hagrees) hfacts
  refine ⟨facts, s.clockReads + 2, ?_⟩
  unfold afterEvent
  rw [bind_of_ok hfill, bind_of_ok hnow]
  exact congrArg Prod.snd (bind_of_ok hportfolio)

-- Attribution

/-- The summary of a strategy; it is empty before its first fill. -/
def summaryOf (h : Host) (strategyId : String) : StrategyExecutionSummary :=
  (h.strategyExecutionSummaries[strategyId]?).getD ⟨strategyId, 0, 0, 0⟩

/-- A fill that advanced no order, or an order of no recorded proposal, is not attributed. -/
theorem recordAttribution_unattributed (env : Env) (event : BrokerEvent) {priorFill : Int}
    (h : s.fillAdvanced event priorFill = false ∨ s.strategyOfOrder event.clientOrderId = none) :
    recordAttribution env event priorFill s = (.ok (), s) := by
  rw [recordAttribution, reads_bind, id_eq]
  split
  · next hadvanced =>
    have hnone : attributeStrategyFill event s = (.ok none, s) := by
      rw [attributeStrategyFill, reads_bind, id_eq]
      cases event with
      | filled id quantity price =>
        have hstrategy : s.strategyOfOrder id = none := h.resolve_left (by simp [hadvanced])
        dsimp only
        rw [hstrategy]
        rfl
      | _ => rfl
    rw [bind_of_ok hnone]
    rfl
  · rfl

/-- **Attribution** adds the fill to the summary of the strategy that the id of the order names. -/
theorem recordAttribution_attributed (env : Env) {id strategyId : String} {quantity : Int}
    (price : Int) {priorFill : Int} {side : Side}
    (hadvanced : s.fillAdvanced (.filled id quantity price) priorFill = true)
    (hstrategy : s.strategyOfOrder id = some strategyId)
    (hside : s.runtime.orderSide id = some side) :
    (recordAttribution env (.filled id quantity price) priorFill s).2.strategyExecutionSummaries =
      s.strategyExecutionSummaries.insert strategyId
        (StrategyExecutionSummary.addFill (signedFill side quantity) price
          (s.summaryOf strategyId)).2 := by
  let filled := StrategyExecutionSummary.addFill (signedFill side quantity) price
    (s.summaryOf strategyId)
  let s' : Host := { s with
    strategyExecutionSummaries := s.strategyExecutionSummaries.insert strategyId filled.2 }
  have hadd : addStrategyFill strategyId (signedFill side quantity) price s =
      (filled.1.map fun _ => filled.2, s') := rfl
  have hattribute : attributeStrategyFill (.filled id quantity price) s =
      (filled.1.map fun _ => some filled.2, s') := by
    rw [attributeStrategyFill, reads_bind, id_eq]
    dsimp only
    rw [hstrategy]
    dsimp only
    rw [orFail_bind_some hside, bind_apply, hadd]
    cases filled.1 <;> rfl
  rw [recordAttribution, reads_bind, id_eq, if_pos hadvanced, bind_apply, hattribute]
  cases filled.1 with
  | error e => rfl
  | ok _ => exact (appendEvent_makes (N := fun _ => False) s').summaries

theorem recordAttribution_books {N : String → Prop} {priorFill : Int} :
    Along (Books N) (recordAttribution env event priorFill) := by
  refine (Along.reads _).bind fun h => Along.ite (fun _ => Along.bind ?_ fun summary => ?_)
    fun _ => Along.ret _
  · refine (Along.reads _).bind fun h => ?_
    cases event with
    | filled id quantity price =>
      dsimp only
      split
      · exact Along.ret _
      · exact (Along.orFail _ _).bind fun _ =>
          Along.bind (fun s => ⟨Std.Refl.refl s.runtime, rfl⟩) fun _ => Along.ret _
    | _ => exact Along.ret _
  · cases summary with
    | none => exact Along.ret _
    | some _ => exact appendEvent_makes.mono fun _ _ => Makes.toBooks

/-- **A broker event** makes no order, and leaves the recorded proposals. -/
theorem applyBrokerEvent_books {N : String → Prop} : Along (Books N) (applyBrokerEvent env event) := by
  have keep {α : Type} {p : Fallible Host EngineError α} (hp : Along (Makes N) p) :
      Along (Books N) p := hp.mono fun _ _ => Makes.toBooks
  exact (keep appendEvent_makes).bind fun _ => (keep recordTiming_makes).bind fun _ =>
    (Along.reads _).bind fun _ =>
    (keep (onRuntime_makes Runtime.applyBrokerEventInner_makes)).bind fun _ =>
    (keep indexFillNow_makes).bind fun _ => (keep monotonicNow_makes).bind fun _ =>
    (keep indexPortfolio_makes).bind fun _ => recordAttribution_books.bind fun _ =>
    keep recordChildEvent_makes

/-- An event other than a fill changes no summary. -/
theorem applyBrokerEvent_of_not_fill {N : String → Prop} (hevent : event.isFill = false) :
    Along (Makes N) (applyBrokerEvent env event) :=
  Along.bind appendEvent_makes fun _ => Along.bind recordTiming_makes fun _ =>
    (Along.reads _).bind fun _ => (onRuntime_makes Runtime.applyBrokerEventInner_makes).bind
    fun _ => Along.bind indexFillNow_makes fun _ => Along.bind monotonicNow_makes fun _ =>
    Along.bind indexPortfolio_makes fun _ => (recordAttribution_of_not_fill hevent).bind fun _ =>
    recordChildEvent_makes

-- One event

/-- A host whose clock was read once, but where nothing else that an event meets has changed. -/
structure Stamped (h s : Host) : Prop where
  orders : s.runtime.orders = h.runtime.orders
  portfolio : s.runtime.portfolio = h.runtime.portfolio
  strategyCoordinator : s.strategyCoordinator = h.strategyCoordinator
  summaries : s.strategyExecutionSummaries = h.strategyExecutionSummaries
  contextGraph : s.contextGraph = h.contextGraph
  clockReads : s.clockReads = h.clockReads + 1

namespace Stamped

variable {h s : Host} (hs : Stamped h s)

include hs

theorem filledQuantity {id : String} :
    s.runtime.filledQuantity id = h.runtime.filledQuantity id := by
  rw [Runtime.filledQuantity, hs.orders]
  rfl

theorem orderSide {id : String} : s.runtime.orderSide id = h.runtime.orderSide id := by
  rw [Runtime.orderSide, hs.orders]
  rfl

theorem takesEvent {event : BrokerEvent} :
    s.runtime.TakesEvent event ↔ h.runtime.TakesEvent event := by
  unfold Runtime.TakesEvent Runtime.fillTrial
  rw [hs.orders, hs.portfolio]

theorem splitsFill {event : BrokerEvent} :
    s.runtime.SplitsFill event ↔ h.runtime.SplitsFill event := by
  unfold Runtime.SplitsFill Runtime.fillTrial
  rw [hs.orders, hs.portfolio]

theorem portfolioAfter {event : BrokerEvent} :
    s.runtime.portfolioAfter event = h.runtime.portfolioAfter event := by
  unfold Runtime.portfolioAfter Runtime.fillTrial
  rw [hs.orders, hs.portfolio]

theorem strategyOfOrder {id : String} : s.strategyOfOrder id = h.strategyOfOrder id := by
  rw [Host.strategyOfOrder, hs.strategyCoordinator]
  rfl

theorem summaryOf {strategyId : String} : s.summaryOf strategyId = h.summaryOf strategyId := by
  rw [Host.summaryOf, hs.summaries]
  rfl

end Stamped

/-- A stamp reads the clock once and leaves the graph. -/
theorem recordTiming_reads (env : Env) (event : BrokerEvent) (h : Host) :
    (recordTiming env event h).2.contextGraph = h.contextGraph ∧
      (recordTiming env event h).2.clockReads = h.clockReads + 1 := by
  have happend (record : JournalRecord) :
      Along (Same fun h : Host => (h.contextGraph, h.clockReads)) (appendEvent env record) := by
    refine (Along.reads _).bind fun _ => Along.bind ?_ fun _ => (Along.reads _).bind
      fun _ => (Along.require _ _).bind fun _ => Along.modify fun _ => rfl
    refine (Along.reads _).bind fun _ => ?_
    split
    · exact Along.fail _
    · exact Along.modify fun _ => rfl
  have hclock : monotonicNow env h =
      (.ok (env.clock h.clockReads), { h with clockReads := h.clockReads + 1 }) := rfl
  suffices hkept : Same (fun h : Host => (h.contextGraph, h.clockReads))
      { h with clockReads := h.clockReads + 1 } (recordTiming env event h).2 from
    ⟨congrArg Prod.fst hkept, congrArg Prod.snd hkept⟩
  unfold recordTiming
  rw [bind_of_ok hclock, reads_bind]
  refine Along.bind_at rfl fun timing s hstamped => ?_
  cases timing with
  | none => exact Std.Refl.refl s
  | some timing => exact happend _ s

@[simp] theorem met_summaries (event : BrokerEvent) (s : Host) :
    (s.met event).strategyExecutionSummaries = s.strategyExecutionSummaries := rfl

@[simp] theorem met_strategyOfOrder (event : BrokerEvent) (s : Host) (id : String) :
    (s.met event).strategyOfOrder id = s.strategyOfOrder id := rfl

/-- **A delivered event** reaches the runtime, and is followed up when the runtime applies it. -/
theorem applyBrokerEvent_stamped (h : Host) (hdelivers : Delivers env h event) :
    ∃ s, Stamped h s ∧ (applyBrokerEvent env event h).2 =
      if (Runtime.applyBrokerEvent event s.runtime).1 = .ok () then
        (afterEvent env event (h.runtime.filledQuantity event.clientOrderId) (s.met event)).2
      else s.met event := by
  obtain ⟨s, ht, hafter⟩ := applyBrokerEvent_delivered hdelivers
  have hstamp : Bookkeeping (fun _ => True) (h.withEvent event)
      (recordTiming env event (h.withEvent event)).2 :=
    recordTiming_bookkeeping (fun _ => trivial) _
  have hmakes : Makes (fun _ => False) (h.withEvent event)
      (recordTiming env event (h.withEvent event)).2 := recordTiming_makes _
  have hreads := recordTiming_reads env event (h.withEvent event)
  rw [ht] at hstamp hmakes hreads
  have hs : Stamped h s := ⟨hstamp.orders, hstamp.portfolio, hstamp.strategyCoordinator,
    hmakes.summaries, hreads.1, hreads.2⟩
  rw [hs.filledQuantity] at hafter
  exact ⟨s, hs, hafter⟩

/-- What follows an event leaves the orders. -/
theorem afterEvent_filledQuantity (env : Env) (event : BrokerEvent) (priorFill : Int) (s : Host)
    (id : String) : (afterEvent env event priorFill s).2.runtime.filledQuantity id =
      s.runtime.filledQuantity id := by
  have hkept : Bookkeeping (fun _ => True) s (afterEvent env event priorFill s).2 :=
    afterEvent_bookkeeping env event priorFill s
  rw [Runtime.filledQuantity, hkept.orders]
  rfl

/-- What follows an event that is not attributed leaves the summaries. -/
theorem afterEvent_unattributed (env : Env) (event : BrokerEvent) {priorFill : Int}
    (h : s.fillAdvanced event priorFill = false ∨ s.strategyOfOrder event.clientOrderId = none) :
    (afterEvent env event priorFill s).2.strategyExecutionSummaries =
      s.strategyExecutionSummaries := by
  obtain ⟨facts, reads, hstopped | hattributed⟩ := afterEvent_cases env event priorFill s
  · rw [hstopped]
    rfl
  · have hnothing : recordAttribution env event priorFill (s.indexed facts reads) =
        (.ok (), s.indexed facts reads) := recordAttribution_unattributed env event h
    rw [hattributed, bind_of_ok hnothing]
    exact (recordChildEvent_makes (N := fun _ => False) (s.indexed facts reads)).summaries

/-- **A fill that is not taken** changes neither its order nor a summary. -/
theorem applyBrokerEvent_untaken {id : String} {quantity price : Int} (h : Host)
    (hfill : ¬(Delivers env h (.filled id quantity price) ∧
      h.runtime.TakesEvent (.filled id quantity price))) :
    let h' := (applyBrokerEvent env (.filled id quantity price) h).2
    h'.runtime.filledQuantity id = h.runtime.filledQuantity id ∧
      h'.strategyExecutionSummaries = h.strategyExecutionSummaries := by
  by_cases hdelivers : Delivers env h (.filled id quantity price)
  · have huntaken : ¬h.runtime.TakesEvent (.filled id quantity price) :=
      fun htakes => hfill ⟨hdelivers, htakes⟩
    obtain ⟨s, hs, hafter⟩ := applyBrokerEvent_stamped h hdelivers
    have hkept : (s.met (.filled id quantity price)).runtime.filledQuantity id =
        h.runtime.filledQuantity id :=
      (Runtime.applyBrokerEvent_untaken (hs.takesEvent.not.mpr huntaken)).trans hs.filledQuantity
    rw [hafter]
    split
    · have hadvanced : (s.met (.filled id quantity price)).fillAdvanced (.filled id quantity price)
          (h.runtime.filledQuantity id) = false := by
        simp [fillAdvanced, hkept]
      exact ⟨(afterEvent_filledQuantity env _ _ _ id).trans hkept,
        (afterEvent_unattributed env _ (.inl hadvanced)).trans hs.summaries⟩
    · exact ⟨hkept, hs.summaries⟩
  · refine ⟨?_, ?_⟩
    · rw [Runtime.filledQuantity, (applyBrokerEvent_of_not_delivers hdelivers).1]
      rfl
    · have hmakes : Makes (fun _ => False) h
          (applyBrokerEvent env (.filled id quantity price) h).2 :=
        applyBrokerEvent_undelivered appendEvent_makes recordTiming_makes hdelivers
      exact hmakes.summaries

section Delivered

variable {id : String} {quantity price : Int}
  (hdelivers : Delivers env h (.filled id quantity price))

include hdelivers

/-- A fill that is taken moves the filled quantity of its order. -/
theorem applyBrokerEvent_moved (htakes : h.runtime.TakesEvent (.filled id quantity price)) :
    0 < quantity ∧ (applyBrokerEvent env (.filled id quantity price) h).2.runtime.filledQuantity id =
      h.runtime.filledQuantity id + quantity := by
  obtain ⟨s, hs, hafter⟩ := applyBrokerEvent_stamped h hdelivers
  obtain ⟨hmoved, hpos, -⟩ := Runtime.applyBrokerEvent_taken (hs.takesEvent.mpr htakes)
  rw [hs.filledQuantity] at hmoved
  rw [hafter]
  split
  · exact ⟨hpos, (afterEvent_filledQuantity env _ _ _ id).trans hmoved⟩
  · exact ⟨hpos, hmoved⟩

/-- A fill of an order that names no recorded proposal changes no summary. -/
theorem applyBrokerEvent_unattributed (hstrategy : h.strategyOfOrder id = none) :
    (applyBrokerEvent env (.filled id quantity price) h).2.strategyExecutionSummaries =
      h.strategyExecutionSummaries := by
  obtain ⟨s, hs, hafter⟩ := applyBrokerEvent_stamped h hdelivers
  rw [hafter]
  split
  · have hnone : (s.met (.filled id quantity price)).strategyOfOrder id = none := by
      rw [met_strategyOfOrder, hs.strategyOfOrder, hstrategy]
    rw [afterEvent_unattributed env (.filled id quantity price) (.inr hnone), met_summaries, hs.summaries]
  · rw [met_summaries, hs.summaries]

/-- The graph takes the positions an event leaves. -/
def Graphs (env : Env) (h : Host) (event : BrokerEvent) : Prop :=
  ∀ entry ∈ (h.runtime.portfolioAfter event).positions.toList,
    Agrees h.contextGraph (env.clock (h.clockReads + 2)) entry

instance (env : Env) (h : Host) (event : BrokerEvent) : Decidable (Graphs env h event) :=
  inferInstanceAs (Decidable (∀ entry ∈ _, Agrees _ _ entry))

/-- **A fill that is taken** is added to the summary of the strategy that its order names, unless
the book refuses the step after it or the graph conflicts. -/
theorem applyBrokerEvent_attributed
    (htakes : h.runtime.TakesEvent (.filled id quantity price)) {strategyId : String}
    (hstrategy : h.strategyOfOrder id = some strategyId)
    (hlegal : ¬h.runtime.SplitsFill (.filled id quantity price))
    (hgraphs : Graphs env h (.filled id quantity price)) :
    ∃ side, h.runtime.orderSide id = some side ∧
      (applyBrokerEvent env (.filled id quantity price) h).2.strategyExecutionSummaries =
        h.strategyExecutionSummaries.insert strategyId
          (StrategyExecutionSummary.addFill (signedFill side quantity) price
            (h.summaryOf strategyId)).2 := by
  obtain ⟨s, hs, hafter⟩ := applyBrokerEvent_stamped h hdelivers
  obtain ⟨hmoved, hpos, hside, hok⟩ := Runtime.applyBrokerEvent_taken (hs.takesEvent.mpr htakes)
  obtain ⟨hok, hportfolio⟩ := hok (hs.splitsFill.not.mpr hlegal)
  have hname : Text.isBlank id = false := by
    obtain ⟨proposalId, hnamed, -⟩ := Option.bind_eq_some_iff.mp hstrategy
    exact isBlank_of_names hnamed
  have hagrees : ∀ entry ∈ (s.met (.filled id quantity price)).runtime.portfolio.positions.toList,
      Agrees (s.met (.filled id quantity price)).contextGraph
        (env.clock ((s.met (.filled id quantity price)).clockReads + 1)) entry := by
    intro entry hentry
    have hlater : (s.met (.filled id quantity price)).clockReads + 1 = h.clockReads + 2 :=
      congrArg (· + 1) hs.clockReads
    rw [hlater, met, hs.contextGraph]
    refine hgraphs entry ?_
    rw [← hs.portfolioAfter, ← hportfolio]
    exact hentry
  obtain ⟨facts, reads, hrecorded⟩ := afterEvent_of_agrees quantity price
    (h.runtime.filledQuantity id) hname hagrees
  obtain ⟨side, hknown⟩ : ∃ side, h.runtime.orderSide id = some side := by
    obtain ⟨record, hget, -⟩ := htakes
    exact ⟨record.intent.side, by rw [Runtime.orderSide, hget]; rfl⟩
  refine ⟨side, hknown, ?_⟩
  rw [hafter, if_pos hok]
  refine (congrArg (·.strategyExecutionSummaries) hrecorded).trans ?_
  let t : Host := (s.met (.filled id quantity price)).indexed facts reads
  have hadvanced : t.fillAdvanced (.filled id quantity price) (h.runtime.filledQuantity id) =
      true := by
    have hgrown : t.runtime.filledQuantity id = h.runtime.filledQuantity id + quantity := by
      rw [← hs.filledQuantity]
      exact hmoved
    exact decide_eq_true (by omega)
  have hfound : t.strategyOfOrder id = some strategyId := hs.strategyOfOrder.trans hstrategy
  have hsided : t.runtime.orderSide id = some side := by
    rw [← hknown, ← hs.orderSide]
    exact hside
  have hadded := recordAttribution_attributed env price hadvanced hfound hsided
  have hsummary : t.summaryOf strategyId = h.summaryOf strategyId := hs.summaryOf
  have hsummaries : t.strategyExecutionSummaries = h.strategyExecutionSummaries := hs.summaries
  rw [hsummary, hsummaries] at hadded
  rw [← hadded, bind_apply]
  rcases recordAttribution env (.filled id quantity price) (h.runtime.filledQuantity id) t with
    ⟨_ | _, t'⟩
  · rfl
  · exact (recordChildEvent_makes (N := fun _ => False) t').summaries

end Delivered

end Host

end InsiderTrader
