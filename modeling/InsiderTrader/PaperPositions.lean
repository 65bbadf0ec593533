import Mathlib.Algebra.BigOperators.Group.Multiset.Basic
import InsiderTrader.PaperSession

/-!
# Positions of the paper broker

The reported positions are derived from the last events, joined with the
accepted intents. Along every run they are those of the emitted fills, of which
each order has at most one.

## Main definitions

- `signedFill` — what an event fills of an instrument, by the side of its order
- `PaperSession.PositionsReported` — the reported positions are those of the emitted fills

## Main results

- `PaperBroker.foldlM_addFill` — the loop over the last events
- `PaperSession.Sound.positionsReported` — what a snapshot of a sound session reports
- `paper_positions_reported` — positions and fills along every run
-/

namespace InsiderTrader

open MachineInt Fallible

/-- What an event fills of an instrument: the quantity of a fill, signed by the side of the order
that was sent under its client order id. -/
def signedFill (sent : List OrderIntent) (i : InstrumentId) : BrokerEvent → Int
  | .filled id quantity _ =>
    match sent.find? fun intent => intent.clientOrderId = id with
    | some intent =>
      if intent.instrumentId = i then (if intent.side = .buy then quantity else -quantity) else 0
    | none => 0
  | _ => 0

theorem signedFill_of_not_isFill {sent : List OrderIntent} {i : InstrumentId} {event : BrokerEvent}
    (h : ¬event.IsFill) : signedFill sent i event = 0 := by
  cases event with
  | filled => exact absurd trivial h
  | acknowledged => rfl
  | rejected => rfl
  | cancelled => rfl

/-- What counts for no other event counts the same over the fills as over all events. -/
theorem sum_fillsOf {g : BrokerEvent → Int} (hg : ∀ event, ¬event.IsFill → g event = 0)
    (events : List BrokerEvent) : ((fillsOf events).map g).sum = (events.map g).sum := by
  induction events with
  | nil => rfl
  | cons event events ih =>
    rw [fillsOf_cons, Multiset.map_add, Multiset.sum_add, ih, List.map_cons, List.sum_cons,
      fillsOf_singleton]
    by_cases hfill : event.IsFill
    · rw [if_pos hfill, Multiset.map_singleton, Multiset.sum_singleton]
    · rw [if_neg hfill, hg event hfill, Multiset.map_zero, Multiset.sum_zero]

theorem total_fillsOf (seen : Std.TreeMap String BrokerEvent) :
    MapSum.total (fun _ event => fillsOf [event]) seen = fillsOf (seen.toList.map Prod.snd) := by
  rw [MapSum.total]
  generalize seen.toList = entries
  induction entries with
  | nil => rfl
  | cons entry entries ih => rw [List.map_cons, List.sum_cons, ih, List.map_cons, ← fillsOf_cons]

-- The loop over the last events

namespace PaperSession

variable {s : PaperSession} {id : String} {event : BrokerEvent}

/-- What was filled of an instrument: the emitted fills, buys positive and sells negative. -/
def filledTicks (s : PaperSession) (i : InstrumentId) : Int :=
  (s.emitted.map (signedFill s.sent i)).sum

/-- The last event of an order in a sound session belongs to an accepted order, and as a fill it
has a positive quantity. -/
theorem Sound.of_seen (h : s.Sound) (hseen : s.broker.seen[id]? = some event) :
    event.clientOrderId = id ∧ (∃ intent, s.broker.accepted[id]? = some intent ∧
      s.sentAs id = some intent) ∧ ∀ c quantity price, event = .filled c quantity price → 0 < quantity := by
  have hlife := h.lives id
  rw [LifeAt, hseen] at hlife
  generalize s.broker.resting[id]? = resting, s.broker.accepted[id]? = accepted, s.sentAs id = sent,
    s.emittedOf id = events at hlife ⊢
  cases hlife with
  | working => exact ⟨rfl, ⟨_, rfl, rfl⟩, fun _ _ _ heq => by cases heq⟩
  | filled hpos =>
    refine ⟨rfl, ⟨_, rfl, rfl⟩, ?_⟩
    rintro c quantity price heq
    cases heq
    exact hpos
  | cancelled => exact ⟨rfl, ⟨_, rfl, rfl⟩, fun _ _ _ heq => by cases heq⟩

/-- One entry of the loop: every instrument moves by what the event fills of it, unless a
quantity leaves its range. -/
theorem Sound.addFill (h : s.Sound) (hseen : s.broker.seen[id]? = some event)
    (quantities : Std.TreeMap InstrumentId Int) :
    (∃ next, PaperBroker.addFill s.broker.accepted quantities (id, event) = .ok next ∧
      ∀ i, next.getD i 0 = quantities.getD i 0 + signedFill s.sent i event) ∨
    (PaperBroker.addFill s.broker.accepted quantities (id, event) = .error .positionOverflow ∧
      ∃ i, ¬Fits 64 (quantities.getD i 0 + signedFill s.sent i event)) := by
  obtain ⟨hkey, ⟨intent, haccepted, hsent⟩, hpos⟩ := h.of_seen hseen
  cases event with
  | filled c quantity price =>
    obtain rfl : c = id := hkey
    have hquantity := hpos c quantity price rfl
    have hneg : saturatingNeg 64 quantity = -quantity := by
      rw [saturatingNeg, if_neg]
      omega
    have hsigned : ∀ i, signedFill s.sent i (.filled c quantity price) =
        if intent.instrumentId = i then
          (if intent.side = .buy then quantity else saturatingNeg 64 quantity) else 0 := by
      intro i
      rw [sentAs] at hsent
      rw [signedFill, hsent, hneg]
    rw [PaperBroker.addFill, haccepted]
    dsimp only
    by_cases hfits : Fits 64 (quantities.getD intent.instrumentId 0 +
        if intent.side = .buy then quantity else saturatingNeg 64 quantity)
    · rw [narrow_of_fits hfits]
      refine .inl ⟨_, rfl, fun i => ?_⟩
      rw [Std.TreeMap.getD_insert, hsigned]
      simp only [Std.LawfulEqCmp.compare_eq_iff_eq]
      split
      · next heq => rw [heq]
      · rw [add_zero]
    · rw [narrow_of_not_fits hfits]
      refine .inr ⟨rfl, intent.instrumentId, ?_⟩
      rwa [hsigned, if_pos rfl]
  | acknowledged => exact .inl ⟨quantities, rfl, fun i => (add_zero _).symm⟩
  | rejected => exact .inl ⟨quantities, rfl, fun i => (add_zero _).symm⟩
  | cancelled => exact .inl ⟨quantities, rfl, fun i => (add_zero _).symm⟩

/-- **The loop over last events**: every instrument moves by what the events fill of it, unless a
quantity leaves its range after some of them. -/
theorem Sound.foldlM_addFill (h : s.Sound) {entries : List (String × BrokerEvent)}
    (hentries : ∀ entry ∈ entries, s.broker.seen[entry.1]? = some entry.2)
    (quantities : Std.TreeMap InstrumentId Int) :
    (∃ next, entries.foldlM (PaperBroker.addFill s.broker.accepted) quantities = .ok next ∧
      ∀ i, next.getD i 0 = quantities.getD i 0 +
        (entries.map fun entry => signedFill s.sent i entry.2).sum) ∨
    (entries.foldlM (PaperBroker.addFill s.broker.accepted) quantities = .error .positionOverflow ∧
      ∃ some others, entries = some ++ others ∧ ∃ i, ¬Fits 64 (quantities.getD i 0 +
        (some.map fun entry => signedFill s.sent i entry.2).sum)) := by
  induction entries generalizing quantities with
  | nil => exact .inl ⟨quantities, rfl, fun i => (add_zero _).symm⟩
  | cons entry entries ih =>
    obtain ⟨hentry, hrest⟩ := List.forall_mem_cons.mp hentries
    rw [List.foldlM_cons]
    rcases h.addFill hentry quantities with ⟨next, hnext, hmoved⟩ | ⟨hfail, i, hfits⟩
    · rw [show PaperBroker.addFill s.broker.accepted quantities entry = .ok next from hnext]
      rcases ih hrest next with ⟨final, hfinal, htotal⟩ | ⟨hfail, part, others, hsplit, i, hfits⟩
      · refine .inl ⟨final, hfinal, fun i => ?_⟩
        rw [htotal, hmoved, List.map_cons, List.sum_cons, add_assoc]
      · refine .inr ⟨hfail, entry :: part, others, by rw [hsplit, List.cons_append], i, ?_⟩
        rwa [List.map_cons, List.sum_cons, ← add_assoc, ← hmoved]
    · rw [show PaperBroker.addFill s.broker.accepted quantities entry = _ from hfail]
      refine .inr ⟨rfl, [entry], entries, rfl, i, ?_⟩
      rwa [List.map_singleton, List.sum_singleton]

-- The snapshot

/-- A snapshot reports, once each, the instruments whose emitted fills do not cancel out, with what
they add up to. Only fills of an instrument that add up to no 64-bit quantity keep it from
answering. -/
def PositionsReported (s : PaperSession) : Prop :=
  (∃ snap, s.broker.snapshot = .ok snap ∧
    snap.positions.Pairwise (fun p p' => p.instrumentId ≠ p'.instrumentId) ∧
    ∀ position, position ∈ snap.positions ↔
      position.quantityTicks = s.filledTicks position.instrumentId ∧ position.quantityTicks ≠ 0) ∨
  (s.broker.snapshot = .error .positionOverflow ∧
    ∃ fills ≤ fillsOf s.emitted, ∃ i, ¬Fits 64 (fills.map (signedFill s.sent i)).sum)

/-- Over the last events the fills add up to what was filled. -/
theorem Sound.sum_seen (h : s.Sound) (i : InstrumentId) :
    (s.broker.seen.toList.map fun entry => signedFill s.sent i entry.2).sum = s.filledTicks i := by
  have hzero : ∀ event, ¬event.IsFill → signedFill s.sent i event = 0 :=
    fun _ => signedFill_of_not_isFill
  have hfills := h.fills
  rw [total_fillsOf] at hfills
  rw [filledTicks, ← sum_fillsOf hzero s.emitted, ← hfills, sum_fillsOf hzero, List.map_map]
  rfl

/-- **What a snapshot of a sound session reports.** -/
theorem Sound.positionsReported (h : s.Sound) : s.PositionsReported := by
  have hentries : ∀ entry ∈ s.broker.seen.toList, s.broker.seen[entry.1]? = some entry.2 :=
    fun _ hentry => Std.TreeMap.mem_toList_iff_getElem?_eq_some.mp hentry
  rcases h.foldlM_addFill hentries ∅ with ⟨quantities, hfold, htotal⟩ |
    ⟨hfail, part, others, hsplit, i, hfits⟩
  · have hquantity : ∀ i, quantities.getD i 0 = s.filledTicks i := by
      intro i
      rw [htotal, h.sum_seen, Std.TreeMap.getD_emptyc, zero_add]
    have hsnap : s.broker.snapshot = .ok {
        orders := s.broker.seen.toList.map PaperBroker.orderSnapshot
        positions := (quantities.toList.filter (·.2 ≠ 0)).map fun entry => ⟨entry.1, entry.2⟩
        accountValues := ∅ } := by
      unfold PaperBroker.snapshot
      rw [hfold]
      rfl
    refine .inl ⟨_, hsnap, ?_, ?_⟩
    · refine List.pairwise_map.mpr (List.Pairwise.filter _ ?_)
      exact (MapSum.distinct_toList quantities).imp fun hne => hne
    · intro position
      dsimp only
      rw [List.mem_map, ← hquantity]
      constructor
      · rintro ⟨⟨i, q⟩, hmem, rfl⟩
        obtain ⟨hentry, hne⟩ := List.mem_filter.mp hmem
        have hget := Std.TreeMap.mem_toList_iff_getElem?_eq_some.mp hentry
        dsimp only at hne ⊢
        rw [Std.TreeMap.getD_eq_getD_getElem?, hget, Option.getD_some]
        exact ⟨rfl, of_decide_eq_true hne⟩
      · rintro ⟨hq, hne⟩
        refine ⟨(position.instrumentId, position.quantityTicks), ?_, rfl⟩
        refine List.mem_filter.mpr ⟨?_, decide_eq_true hne⟩
        rw [Std.TreeMap.mem_toList_iff_getElem?_eq_some]
        rw [Std.TreeMap.getD_eq_getD_getElem?] at hq
        cases hget : quantities[position.instrumentId]? with
        | none =>
          rw [hget] at hq
          exact absurd hq hne
        | some q =>
          rw [hget, Option.getD_some] at hq
          rw [hq]
  · refine .inr ⟨?_, fillsOf (part.map Prod.snd), ?_, i, ?_⟩
    · unfold PaperBroker.snapshot
      rw [hfail]
      rfl
    · rw [← h.fills, total_fillsOf, hsplit, List.map_append, fillsOf_append]
      exact Multiset.le_add_right _ _
    · rw [Std.TreeMap.getD_emptyc, zero_add] at hfits
      rw [sum_fillsOf (fun _ => signedFill_of_not_isFill), List.map_map]
      exact hfits

/-- Each accepted order has emitted at most one fill. -/
def FilledOnce (s : PaperSession) : Prop :=
  ∀ id, (s.emitted.filter fun event => event.IsFill ∧ event.clientOrderId = id).length ≤ 1

theorem Sound.filledOnce (h : s.Sound) : s.FilledOnce := by
  intro id
  have hsplit : (s.emitted.filter fun event => event.IsFill ∧ event.clientOrderId = id) =
      (s.emittedOf id).filter fun event => event.IsFill := by
    rw [emittedOf, List.filter_filter]
    refine List.filter_congr fun event _ => ?_
    simp only [Bool.decide_and]
  have hlife := h.lives id
  rw [hsplit]
  rw [LifeAt] at hlife
  generalize s.broker.seen[id]? = seen, s.broker.resting[id]? = resting,
    s.broker.accepted[id]? = accepted, s.sentAs id = sent, s.emittedOf id = events at hlife ⊢
  cases hlife with
  | unseen => exact Nat.zero_le _
  | working => exact Nat.zero_le _
  | filled => exact le_rfl
  | cancelled => exact Nat.zero_le _

/-- What was emitted of an order that was cancelled is no fill. -/
theorem Sound.not_filled_of_cancelled (h : s.Sound) (hcancelled : .cancelled id ∈ s.emitted)
    (quantity price : Int) : .filled id quantity price ∉ s.emitted := by
  have hof : ∀ event : BrokerEvent, event.clientOrderId = id →
      (event ∈ s.emitted ↔ event ∈ s.emittedOf id) := by
    intro event hid
    rw [emittedOf, List.mem_filter, decide_eq_true_iff, and_iff_left hid]
  rw [hof _ rfl] at hcancelled ⊢
  have hlife := h.lives id
  rw [LifeAt] at hlife
  generalize s.broker.seen[id]? = seen, s.broker.resting[id]? = resting,
    s.broker.accepted[id]? = accepted, s.sentAs id = sent, s.emittedOf id = events at hlife hcancelled ⊢
  cases hlife with
  | unseen => exact List.not_mem_nil
  | working => simp at hcancelled
  | filled => simp at hcancelled
  | cancelled => simp

end PaperSession

-- Along a run

namespace PaperSession

variable {s : PaperSession} {event : BrokerEvent}

/-- What was emitted stays emitted. -/
theorem mem_emitted_after (h : event ∈ s.emitted) (call : PaperCall) :
    event ∈ (call.after s).emitted := by
  have hleave : ∀ (s : PaperSession) (left : BrokerEvent), event ∈ s.emitted →
      event ∈ (s.leave left).emitted := by
    intro s left hevent
    rw [emitted_leave]
    exact List.mem_append_left _ hevent
  cases call with
  | setPrice i price =>
    have hfill : ∀ (ids : List String) (s : PaperSession), event ∈ s.emitted → event ∈
        ({ s with broker := ids.foldl (PaperBroker.fillResting price) s.broker } :
          PaperSession).emitted := by
      intro ids
      induction ids with
      | nil => exact fun _ hevent => hevent
      | cons id ids ih =>
        intro s hevent
        refine ih { s with broker := s.broker.fillResting price id } ?_
        unfold PaperBroker.fillResting
        split
        · exact hevent
        · exact hleave s _ hevent
    rw [PaperCall.after, PaperBroker.setPrice_snd]
    split
    · exact hfill _ { s with broker := { s.broker with
        prices := s.broker.prices.insert i price } } h
    · exact h
  | send intent =>
    rw [PaperCall.after]
    rcases PaperBroker.send_cases intent s.broker with ⟨hrefused, hsame⟩ |
      ⟨haccepted, -, -, price, -, hnext⟩
    · rw [if_neg hrefused, hsame]
      exact h
    · rw [if_pos haccepted, hnext]
      split
      · rw [sent_filled, emitted_enter]
        exact List.mem_append_left _ h
      · rw [sent_rested, emitted_enter]
        exact List.mem_append_left _ h
  | cancel id =>
    rw [PaperCall.after]
    rcases PaperBroker.cancel_cases id s.broker with ⟨-, hsame⟩ | ⟨-, kept, -, hnext⟩
    · rw [hsame]
      exact h
    · rw [hnext]
      exact hleave s _ h
  | replace id quantity limit =>
    rw [PaperCall.after]
    rcases PaperBroker.replace_cases id quantity limit s.broker with ⟨-, hsame⟩ |
      ⟨-, -, kept, -, hnext⟩
    · rw [hsame]
      exact h
    · rw [hnext]
      exact h
  | drainEvents =>
    have hemitted : (PaperCall.drainEvents.after s).emitted = s.emitted := List.append_nil _
    rwa [hemitted]

theorem mem_emitted_final (h : event ∈ s.emitted) (run : List PaperCall) :
    event ∈ (Runs.final PaperCall.after s run).emitted := by
  induction run generalizing s with
  | nil => exact h
  | cons call run ih => exact ih (mem_emitted_after h call)

end PaperSession

/-- **Positions and fills along every run**: a snapshot reports the positions of the emitted fills,
each order emits at most one fill, and an order that was cancelled never emits one. -/
theorem paper_positions_reported (run : List PaperCall) :
    (∀ s ∈ Runs.states PaperCall.after PaperSession.new run, s.PositionsReported ∧ s.FilledOnce) ∧
      ∀ before after id, run = before ++ .cancel id :: after →
        (PaperBroker.cancel id).Succeeds
          (Runs.final PaperCall.after PaperSession.new before).broker →
        ∀ quantity price, .filled id quantity price ∉
          (Runs.final PaperCall.after PaperSession.new run).emitted := by
  constructor
  · intro s hs
    have hsound := PaperSession.sound_of_mem_states s hs
    exact ⟨hsound.positionsReported, hsound.filledOnce⟩
  · rintro before after id rfl hok
    rw [Runs.final_append, Runs.final_cons]
    generalize hmid : Runs.final PaperCall.after PaperSession.new before = s at hok ⊢
    have hcancelled : BrokerEvent.cancelled id ∈ ((PaperCall.cancel id).after s).emitted := by
      rw [PaperCall.after]
      rcases PaperBroker.cancel_cases id s.broker with ⟨hrefused, -⟩ | ⟨-, kept, -, hnext⟩
      · exact absurd hok hrefused
      · rw [hnext, show PaperSession.mk (s.broker.leave (.cancelled id)) s.drained s.sent =
          s.leave (.cancelled id) from rfl, PaperSession.emitted_leave]
        exact List.mem_append_right _ (List.mem_singleton_self _)
    refine PaperSession.Sound.not_filled_of_cancelled ?_
      (PaperSession.mem_emitted_final hcancelled after)
    have hfinal : Runs.final PaperCall.after ((PaperCall.cancel id).after s) after =
        Runs.final PaperCall.after PaperSession.new (before ++ .cancel id :: after) := by
      rw [Runs.final_append, Runs.final_cons, hmid]
    rw [hfinal]
    exact PaperSession.sound_of_mem_states _ (Runs.final_mem_states _ _)

end InsiderTrader
