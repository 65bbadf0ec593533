import Std.Data.String.ToNat
import InsiderTrader.PaperSession

/-!
# What the paper broker reports

The broker answers for an order from its last event and for the account from
the last events joined with the accepted intents. Both are compared with the
events it has emitted, along every run of calls.

## Main definitions

- `PaperSession.IdsAgree` — a reported acknowledgement has the emitted order number
- `PaperSession.Unmarketable` — no resting order is marketable at the mark
- `PaperSession.PositionsReported` — the reported positions are those of the emitted fills

## Main results

- `paper_ids_agree_iff` — the runs along which the order numbers agree
- `paper_resting_unmarketable_iff` — the runs along which no resting order is marketable
- `paper_positions_reported` — positions and fills along every run
-/

namespace InsiderTrader

open MachineInt Fallible

namespace PaperBroker

/-- The broker reports an event for a client order id. -/
def Reports (b : PaperBroker) (id : String) (event : BrokerEvent) : Prop :=
  b.reconcile id = some event ∨ ∃ snap, b.snapshot = .ok snap ∧
    ∃ order ∈ snap.orders, order.clientOrderId = id ∧ order.event = event

/-- The orders of a snapshot are the last events. -/
theorem snapshot_orders {b : PaperBroker} {snap : BrokerSnapshot} (h : b.snapshot = .ok snap) :
    snap.orders = b.seen.toList.map orderSnapshot := by
  unfold snapshot at h
  cases hfold : b.seen.toList.foldlM (addFill b.accepted) ∅ with
  | error e =>
    rw [hfold] at h
    cases h
  | ok quantities =>
    rw [hfold] at h
    cases h
    rfl

theorem reports_iff {b : PaperBroker} {id : String} {event : BrokerEvent} :
    b.Reports id event ↔ b.seen[id]? = some event := by
  refine ⟨?_, .inl⟩
  rintro (h | ⟨snap, hsnap, order, horder, rfl, rfl⟩)
  · exact h
  · rw [snapshot_orders hsnap, List.mem_map] at horder
    obtain ⟨⟨id, event⟩, hentry, rfl⟩ := horder
    exact Std.TreeMap.mem_toList_iff_getElem?_eq_some.mp hentry

end PaperBroker

namespace PaperSession

variable {s : PaperSession} {id : String}

-- Order numbers

/-- Whenever the broker reports an acknowledgement of an order, it has emitted exactly this one. -/
def IdsAgree (s : PaperSession) : Prop :=
  ∀ id c n, s.broker.Reports id (.acknowledged c n) →
    ∀ n', .acknowledged id n' ∈ s.emitted ↔ n' = n

/-- The acknowledgement that an order is remembered by is the one that was emitted. -/
def AgreesAt (s : PaperSession) (id : String) : Prop :=
  ∀ c n, s.broker.seen[id]? = some (.acknowledged c n) → s.emittedOf id = [.acknowledged id n]

theorem mem_emittedOf {event : BrokerEvent} :
    event ∈ s.emittedOf id ↔ event ∈ s.emitted ∧ event.clientOrderId = id := by
  rw [emittedOf, List.mem_filter, decide_eq_true_iff]

theorem Sound.idsAgree_iff (h : s.Sound) : s.IdsAgree ↔ ∀ id, s.AgreesAt id := by
  constructor
  · intro hagree id c n hseen
    have hlife := h.lives id
    have hmem := hagree id c n (PaperBroker.reports_iff.mpr hseen) n
    have hin : BrokerEvent.acknowledged id n ∈ s.emittedOf id := mem_emittedOf.mpr ⟨hmem.mpr rfl, rfl⟩
    rw [LifeAt, hseen] at hlife
    generalize s.broker.resting[id]? = resting, s.broker.accepted[id]? = accepted,
      s.sentAs id = sent, s.emittedOf id = events at hlife hin ⊢
    cases hlife with
    | working =>
      rw [List.mem_singleton] at hin
      rw [hin]
  · intro hagree id c n hreports n'
    have hevents := hagree id c n (PaperBroker.reports_iff.mp hreports)
    have hmem : BrokerEvent.acknowledged id n' ∈ s.emittedOf id ↔ n' = n := by
      rw [hevents, List.mem_singleton, BrokerEvent.acknowledged.injEq, and_iff_right rfl]
    rw [← hmem, mem_emittedOf]
    exact (and_iff_left rfl).symm

/-- Orders that leave the book are no longer remembered by an acknowledgement. -/
theorem AgreesAt.leave {event : BrokerEvent} (hevent : ∀ c n, event ≠ .acknowledged c n)
    (h : ∀ id, s.AgreesAt id) (id : String) : (s.leave event).AgreesAt id := by
  intro c n hseen
  rw [PaperSession.leave, PaperBroker.leave, seen_report] at hseen
  by_cases hid : event.clientOrderId = id
  · rw [if_pos hid, Option.some.injEq] at hseen
    exact absurd hseen (hevent c n)
  · rw [if_neg hid] at hseen
    rw [emittedOf, emitted_leave, filter_append_singleton_of_ne hid]
    exact h id c n hseen

theorem AgreesAt.fillAll {price : Int} {ids : List String} (h : ∀ id, s.AgreesAt id) :
    ∀ id, ({ s with broker := ids.foldl (PaperBroker.fillResting price) s.broker } :
      PaperSession).AgreesAt id := by
  induction ids generalizing s with
  | nil => exact h
  | cons id ids ih =>
    have hfill : ∀ id', ({ s with broker := s.broker.fillResting price id } :
        PaperSession).AgreesAt id' := by
      unfold PaperBroker.fillResting
      split
      · exact h
      · exact AgreesAt.leave (fun _ _ heq => by cases heq) h
    exact ih hfill

end PaperSession

theorem paperOrderId_inj {n m : ℕ} : paperOrderId n = paperOrderId m ↔ n = m := by
  refine ⟨fun h => ?_, fun h => by rw [h]⟩
  have htext : toString n = toString m := by simpa [paperOrderId] using h
  exact Nat.repr_injective htext

/-- A call that gives an order two numbers: it accepts an order that rests while the counter is
not yet saturated. -/
def PaperCall.Misnumbers (call : PaperCall) (s : PaperSession) : Prop :=
  ∃ intent price, call = .send intent ∧ (PaperBroker.send intent).Succeeds s.broker ∧
    s.broker.prices[intent.instrumentId]? = some price ∧
    PaperBroker.marketable intent price = false ∧ s.broker.nextOrderId ≠ lastOrderId

namespace PaperSession

variable {s : PaperSession}

/-- **The order numbers after one call** agree exactly when it gives no order two numbers. -/
theorem Sound.after_idsAgree_iff (h : s.Sound) (hagree : s.IdsAgree) (call : PaperCall) :
    (call.after s).IdsAgree ↔ ¬call.Misnumbers s := by
  rw [(h.after call).idsAgree_iff]
  rw [h.idsAgree_iff] at hagree
  have hquiet : (∀ intent, call ≠ .send intent) → (∀ id, (call.after s).AgreesAt id) →
      ((∀ id, (call.after s).AgreesAt id) ↔ ¬call.Misnumbers s) := by
    intro hcall hafter
    refine iff_of_true hafter ?_
    rintro ⟨intent, price, heq, -⟩
    exact hcall intent heq
  cases call with
  | setPrice i price =>
    refine hquiet (fun _ heq => by cases heq) ?_
    rw [PaperCall.after, PaperBroker.setPrice_snd]
    split
    · have hmark : ∀ id, ({ s with broker := { s.broker with
          prices := s.broker.prices.insert i price } } : PaperSession).AgreesAt id := hagree
      exact AgreesAt.fillAll hmark
    · exact hagree
  | cancel id =>
    refine hquiet (fun _ heq => by cases heq) ?_
    rw [PaperCall.after]
    rcases PaperBroker.cancel_cases id s.broker with ⟨-, hsame⟩ | ⟨-, kept, hresting, hnext⟩
    · rw [hsame]
      exact hagree
    · rw [hnext]
      exact AgreesAt.leave (fun _ _ heq => by cases heq) hagree
  | replace id quantity limit =>
    refine hquiet (fun _ heq => by cases heq) ?_
    rw [PaperCall.after]
    rcases PaperBroker.replace_cases id quantity limit s.broker with ⟨-, hsame⟩ |
      ⟨-, -, kept, -, hnext⟩
    · rw [hsame]
      exact hagree
    · rw [hnext]
      exact hagree
  | drainEvents =>
    refine hquiet (fun _ heq => by cases heq) fun id c n hseen => ?_
    have hemitted : (PaperCall.drainEvents.after s).emitted = s.emitted := List.append_nil _
    rw [emittedOf, hemitted]
    exact hagree id c n hseen
  | send intent =>
    rcases PaperBroker.send_cases intent s.broker with ⟨hrefused, hsame⟩ |
      ⟨haccepted, -, hseen, price, hprice, hnext⟩
    · refine iff_of_true ?_ ?_
      · rw [PaperCall.after, if_neg hrefused, hsame]
        exact hagree
      · rintro ⟨intent', price, heq, hok, -⟩
        cases heq
        exact hrefused hok
    · obtain ⟨-, -, hnone⟩ := (h.lives _).of_unseen hseen
      have hothers : ∀ (last : BrokerEvent) (resting : Std.TreeMap String OrderIntent)
          (behind : List BrokerEvent),
          (∀ event ∈ behind, event.clientOrderId = intent.clientOrderId) →
          ∀ id, intent.clientOrderId ≠ id → (s.enter intent last resting behind).AgreesAt id := by
        intro last resting behind hbehind id hid c n hlast
        rw [seen_enter, if_neg hid] at hlast
        rw [emittedOf_enter_of_ne hbehind hid]
        exact hagree id c n hlast
      rw [PaperCall.after, if_pos haccepted, hnext]
      by_cases hmarket : PaperBroker.marketable intent price = true
      · -- the order is remembered by its fill
        rw [if_pos hmarket, sent_filled]
        refine iff_of_true (fun id => ?_) ?_
        · by_cases hid : intent.clientOrderId = id
          · intro c n hlast
            rw [seen_enter, if_pos hid] at hlast
            cases hlast
          · exact hothers _ _ _ (by simp [BrokerEvent.clientOrderId]) id hid
        · rintro ⟨intent', price', heq, -, hprice', hrests, -⟩
          cases heq
          rw [hprice, Option.some.injEq] at hprice'
          rw [← hprice', hmarket] at hrests
          cases hrests
      · -- the order is remembered by the number after the increment
        rw [if_neg hmarket, sent_rested]
        have hself : ∀ resting, (s.enter intent (.acknowledged intent.clientOrderId
            (paperOrderId (min (s.broker.nextOrderId + 1) lastOrderId))) resting []).AgreesAt
              intent.clientOrderId ↔ s.broker.nextOrderId = lastOrderId := by
          intro resting
          have hnumber : s.broker.nextOrderId = min (s.broker.nextOrderId + 1) lastOrderId ↔
              s.broker.nextOrderId = lastOrderId := by
            have := h.counter
            omega
          rw [AgreesAt, seen_enter, if_pos rfl, emittedOf_enter_self (by simp) hnone, ← hnumber,
            ← paperOrderId_inj]
          constructor
          · intro hsame
            simpa using hsame _ _ rfl
          · rintro hsame c n hlast
            cases hlast
            rw [hsame]
        constructor
        · rintro hall ⟨intent', price', heq, -, -, -, hcounter⟩
          cases heq
          exact hcounter ((hself _).mp (hall _))
        · intro hgood id
          by_cases hid : intent.clientOrderId = id
          · subst hid
            refine (hself _).mpr (by_contra fun hcounter => hgood ?_)
            exact ⟨intent, price, rfl, haccepted, hprice, by simpa using hmarket, hcounter⟩
          · exact hothers _ _ _ (by simp) id hid

end PaperSession

/-- **The order numbers along a run** agree exactly when no accepted order rests while the counter
is not yet saturated. -/
theorem paper_ids_agree_iff (run : List PaperCall) :
    (∀ s ∈ Runs.states PaperCall.after PaperSession.new run, s.IdsAgree) ↔
      ∀ c ∈ Runs.calls PaperCall.after PaperSession.new run, ¬c.2.Misnumbers c.1 := by
  have hnew : PaperSession.new.IdsAgree := by
    rw [PaperSession.sound_new.idsAgree_iff]
    intro id c n hseen
    rw [show PaperSession.new.broker.seen[id]? = none from Std.TreeMap.getElem?_emptyc] at hseen
    cases hseen
  have hiff : (∀ s ∈ Runs.states PaperCall.after PaperSession.new run, s.Sound ∧ s.IdsAgree) ↔
      ∀ c ∈ Runs.calls PaperCall.after PaperSession.new run, ¬c.2.Misnumbers c.1 :=
    Runs.states_iff (A := fun _ => True) (P := fun s : PaperSession => s.Sound ∧ s.IdsAgree)
      (B := fun call s => call.Misnumbers s)
      (fun call s _ h => (and_iff_right (h.1.after call)).trans (h.1.after_idsAgree_iff h.2 call))
      ⟨PaperSession.sound_new, hnew⟩ fun _ _ => trivial
  rw [← hiff]
  exact ⟨fun h s hs => ⟨PaperSession.sound_of_mem_states s hs, h s hs⟩, fun h s hs => (h s hs).2⟩

namespace Sample

/-- A purchase of 10 with the given limit. -/
def limited (limit : Int) : OrderIntent :=
  ⟨"i-1", 1, 7, "o-1", .buy, 10, .limit, some limit, .day, .riskApproved, 1⟩

end Sample

/-- A purchase that rests is acknowledged under number 1 and remembered under number 2. -/
theorem paper_ids_disagree :
    ¬∀ s ∈ Runs.states PaperCall.after PaperSession.new [.setPrice 7 100, .send (Sample.limited 90)],
      s.IdsAgree := by
  have hreached : ∃ s ∈ Runs.states PaperCall.after PaperSession.new
      [.setPrice 7 100, .send (Sample.limited 90)],
      s.broker.reconcile "o-1" = some (.acknowledged "o-1" "paper-2") ∧
        .acknowledged "o-1" "paper-1" ∈ s.emitted := by
    decide
  intro hagree
  obtain ⟨s, hs, hreports, hemitted⟩ := hreached
  have hnumber := (hagree s hs "o-1" "o-1" "paper-2" (.inl hreports) "paper-1").mp hemitted
  exact absurd hnumber (by decide)

-- Resting orders and the mark

namespace PaperSession

/-- No resting order carries a limit that is marketable at the mark of its instrument. -/
def Unmarketable (s : PaperSession) : Prop :=
  ∀ (id : String) (intent : OrderIntent), s.broker.resting[id]? = some intent →
    ∀ price, s.broker.prices[intent.instrumentId]? = some price → intent.crosses price = false

end PaperSession

/-- A call that leaves a marketable order resting: an accepted replacement with a limit that is
marketable at the mark. -/
def PaperCall.Uncovers (call : PaperCall) (s : PaperSession) : Prop :=
  ∃ id quantity limit intent price, call = .replace id quantity (some limit) ∧
    (PaperBroker.replace id quantity (some limit)).Succeeds s.broker ∧
    s.broker.resting[id]? = some intent ∧ s.broker.prices[intent.instrumentId]? = some price ∧
    intent.side.crosses limit price

namespace PaperBroker

variable {b : PaperBroker} {price : Int} {id : String} {intent : OrderIntent}

theorem resting_fillResting (price : Int) (b : PaperBroker) (id id' : String) :
    (b.fillResting price id).resting[id']? = if id = id' then none else b.resting[id']? := by
  unfold fillResting
  split
  · next hnone =>
    split
    · next heq => rw [← heq, hnone]
    · rfl
  · show (b.resting.erase id)[id']? = _
    rw [Std.TreeMap.getElem?_erase]
    simp only [Std.LawfulEqCmp.compare_eq_iff_eq]

theorem prices_fillResting (price : Int) (b : PaperBroker) (id : String) :
    (b.fillResting price id).prices = b.prices := by
  unfold fillResting
  split <;> rfl

theorem resting_fillAll (price : Int) (ids : List String) (b : PaperBroker) (id : String) :
    (ids.foldl (fillResting price) b).resting[id]? =
      if id ∈ ids then none else b.resting[id]? := by
  induction ids generalizing b with
  | nil => simp
  | cons head ids ih =>
    rw [List.foldl_cons, ih, resting_fillResting]
    by_cases hids : id ∈ ids
    · simp [hids]
    · by_cases hhead : head = id
      · simp [hhead]
      · rw [if_neg hids, if_neg hhead, if_neg]
        rw [List.mem_cons]
        exact fun hor => hor.elim (fun heq => hhead heq.symm) hids

theorem prices_fillAll (price : Int) (ids : List String) (b : PaperBroker) :
    (ids.foldl (fillResting price) b).prices = b.prices := by
  induction ids generalizing b with
  | nil => rfl
  | cons head ids ih => rw [List.foldl_cons, ih, prices_fillResting]

theorem mem_candidates {i : InstrumentId} :
    id ∈ b.candidates i price ↔ ∃ intent : OrderIntent, b.resting[id]? = some intent ∧
      intent.instrumentId = i ∧ intent.crosses price := by
  rw [candidates, List.mem_map]
  constructor
  · rintro ⟨⟨id', intent⟩, hentry, rfl⟩
    rw [List.mem_filter] at hentry
    exact ⟨intent, Std.TreeMap.mem_toList_iff_getElem?_eq_some.mp hentry.1,
      by simpa using hentry.2⟩
  · rintro ⟨intent, hresting, hmatch⟩
    refine ⟨(id, intent), ?_, rfl⟩
    rw [List.mem_filter]
    exact ⟨Std.TreeMap.mem_toList_iff_getElem?_eq_some.mpr hresting, by simpa using hmatch⟩

end PaperBroker

namespace PaperSession

variable {s : PaperSession}

/-- **The resting orders after one call** are unmarketable exactly when it uncovers none. -/
theorem Unmarketable.after_iff (h : s.Unmarketable) (call : PaperCall) :
    (call.after s).Unmarketable ↔ ¬call.Uncovers s := by
  have hquiet : (∀ id quantity limit, call ≠ .replace id quantity limit) →
      (call.after s).Unmarketable → ((call.after s).Unmarketable ↔ ¬call.Uncovers s) := by
    intro hcall hafter
    refine iff_of_true hafter ?_
    rintro ⟨id, quantity, limit, intent, price, heq, -⟩
    exact hcall id quantity (some limit) heq
  cases call with
  | setPrice i price =>
    refine hquiet (fun _ _ _ heq => by cases heq) ?_
    rw [PaperCall.after, PaperBroker.setPrice_snd]
    split
    · intro id intent hresting price' hprice'
      rw [show ∀ b : PaperBroker, PaperBroker.matchResting i price b =
        (b.candidates i price).foldl (PaperBroker.fillResting price) b from fun _ => rfl]
        at hresting hprice'
      rw [PaperBroker.resting_fillAll] at hresting
      rw [PaperBroker.prices_fillAll, Std.TreeMap.getElem?_insert] at hprice'
      split at hresting
      · cases hresting
      · next hkept =>
        split at hprice'
        · next hmark =>
          -- the order is not among those that the new mark fills
          rw [Option.some.injEq] at hprice'
          rw [Std.LawfulEqCmp.compare_eq_iff_eq] at hmark
          rw [← hprice', Bool.eq_false_iff]
          exact fun hcrosses => hkept (PaperBroker.mem_candidates.mpr
            ⟨intent, hresting, hmark.symm, hcrosses⟩)
        · exact h id intent hresting price' hprice'
    · exact h
  | send intent =>
    refine hquiet (fun _ _ _ heq => by cases heq) ?_
    rw [PaperCall.after]
    rcases PaperBroker.send_cases intent s.broker with ⟨hrefused, hsame⟩ |
      ⟨haccepted, -, -, price, hprice, hnext⟩
    · rw [if_neg hrefused, hsame]
      exact h
    · rw [if_pos haccepted, hnext]
      by_cases hmarket : PaperBroker.marketable intent price = true
      · rw [if_pos hmarket]
        exact h
      · rw [if_neg hmarket]
        intro id intent' hresting price' hprice'
        rw [show (PaperBroker.rest intent (PaperBroker.accept intent s.broker)).resting =
          s.broker.resting.insert intent.clientOrderId intent from rfl,
          Std.TreeMap.getElem?_insert] at hresting
        split at hresting
        · cases hresting
          rw [show s.broker.prices[intent.instrumentId]? = some price' from hprice',
            Option.some.injEq] at hprice
          rw [PaperBroker.marketable, Bool.not_eq_true] at hmarket
          rw [hprice]
          split at hmarket
          · cases hmarket
          · exact hmarket
        · exact h id intent' hresting price' hprice'
  | cancel id =>
    refine hquiet (fun _ _ _ heq => by cases heq) ?_
    rw [PaperCall.after]
    rcases PaperBroker.cancel_cases id s.broker with ⟨-, hsame⟩ | ⟨-, kept, -, hnext⟩
    · rw [hsame]
      exact h
    · rw [hnext]
      intro id' intent hresting
      rw [show (PaperBroker.leave (.cancelled id) s.broker).resting[id']? = _ from
        resting_leave (.cancelled id) s id'] at hresting
      split at hresting
      · cases hresting
      · exact h id' intent hresting
  | replace id quantity limit =>
    rw [PaperCall.after]
    rcases PaperBroker.replace_cases id quantity limit s.broker with ⟨hrefused, hsame⟩ |
      ⟨haccepted, -, kept, hkept, hnext⟩
    · rw [hsame]
      refine iff_of_true h ?_
      rintro ⟨id', quantity', limit', -, -, heq, hok, -⟩
      cases heq
      exact hrefused hok
    · rw [hnext]
      constructor
      · rintro hafter ⟨id', quantity', limit', intent, price, heq, -, hresting, hprice, hcrosses⟩
        cases heq
        rw [hkept, Option.some.injEq] at hresting
        subst hresting
        have hquiet := hafter id _ Std.TreeMap.getElem?_insert_self price hprice
        rw [OrderIntent.crosses, Option.any_some, hcrosses] at hquiet
        cases hquiet
      · intro hcovered id' intent hresting price hprice
        rw [Std.TreeMap.getElem?_insert] at hresting
        split at hresting
        · cases hresting
          rw [Bool.eq_false_iff]
          intro hcrosses
          cases limit with
          | none => cases hcrosses
          | some limit =>
            exact hcovered ⟨id, quantity, limit, kept, price, rfl, haccepted, hkept, hprice,
              hcrosses⟩
        · exact h id' intent hresting price hprice
  | drainEvents => exact hquiet (fun _ _ _ heq => by cases heq) h

end PaperSession

/-- **The resting orders along a run** are unmarketable exactly when no accepted replacement gives
one a limit that is marketable at the mark. -/
theorem paper_resting_unmarketable_iff (run : List PaperCall) :
    (∀ s ∈ Runs.states PaperCall.after PaperSession.new run, s.Unmarketable) ↔
      ∀ c ∈ Runs.calls PaperCall.after PaperSession.new run, ¬c.2.Uncovers c.1 := by
  refine Runs.states_iff (A := fun _ => True) (P := PaperSession.Unmarketable)
    (B := fun call s => call.Uncovers s) (fun call s _ h => h.after_iff call) ?_ fun _ _ => trivial
  intro id intent hresting
  rw [show PaperSession.new.broker.resting[id]? = none from Std.TreeMap.getElem?_emptyc] at hresting
  cases hresting

/-- A purchase at 90 that rests below a mark of 100 is replaced by one at 110, and still rests. -/
theorem paper_resting_marketable :
    ¬∀ s ∈ Runs.states PaperCall.after PaperSession.new
      [.setPrice 7 100, .send (Sample.limited 90), .replace "o-1" 10 (some 110)],
      s.Unmarketable := by
  have hreached : ∃ s ∈ Runs.states PaperCall.after PaperSession.new
      [.setPrice 7 100, .send (Sample.limited 90), .replace "o-1" 10 (some 110)],
      s.broker.resting["o-1"]? = some (Sample.limited 110) ∧ s.broker.prices[7]? = some 100 := by
    decide
  intro hcovered
  obtain ⟨s, hs, hresting, hprice⟩ := hreached
  exact absurd (hcovered s hs "o-1" _ hresting 100 hprice) (by decide)

end InsiderTrader
