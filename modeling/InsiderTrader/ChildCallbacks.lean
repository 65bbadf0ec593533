import InsiderTrader.ChildPlan

/-!
# Repeated callbacks

A broker may deliver a callback twice. A child keeps no identity of what it has
applied, so whether the second delivery changes it depends on the event: an
acknowledgement is only repeated, a fill is counted again unless the first one
completed the child, and a cancelled or rejected child refuses its own event.

## Main definitions

- `ChildRecord.Settles` — the events that a child absorbs when they come again

## Main results

- `ChildRecord.applyBrokerEvent_again_iff` — an event that comes again at one child
- `broker_event_repeats_iff` — an event that comes again at a plan
-/

namespace InsiderTrader

open MachineInt

namespace ChildRecord

/-- An event that the child absorbs when it comes again: an acknowledgement, or a fill that finds
it filled or completes it. -/
def Settles (r : ChildRecord) : BrokerEvent → Prop
  | .acknowledged _ _ => True
  | .filled _ quantityTicks _ =>
    r.state = .filled ∨ r.filledQuantityTicks + quantityTicks = r.order.quantityTicks
  | .cancelled _ | .rejected _ _ => False

variable {r r' : ChildRecord} {event : BrokerEvent}

/-- What a fill does to a child: nothing when it is filled, else it is counted. -/
theorem applyBrokerEvent_filled {clientOrderId : String} {quantityTicks priceTicks : Int}
    (h : r.applyBrokerEvent (.filled clientOrderId quantityTicks priceTicks) = some r') :
    0 < quantityTicks ∧ ((r.state = .filled ∧ r' = r) ∨
      (r.state ≠ .filled ∧ r'.order = r.order ∧
        r'.filledQuantityTicks = r.filledQuantityTicks + quantityTicks ∧
        r'.state = if r.filledQuantityTicks + quantityTicks = r.order.quantityTicks then .filled
          else .partiallyFilled)) := by
  simp only [applyBrokerEvent] at h
  split at h
  · next hvalid =>
    refine ⟨hvalid.1, ?_⟩
    split at h
    · next hfilled =>
      cases h
      exact .inl ⟨hfilled, rfl⟩
    · next hopen =>
      obtain ⟨total, htotal, h⟩ := Option.bind_eq_some_iff.mp h
      obtain ⟨-, rfl⟩ := narrow_eq_some.mp htotal
      split at h
      · cases h
      · cases h
        exact .inr ⟨hopen, rfl, rfl, rfl⟩
  · cases h

/-- The event leaves the order of a child as it is. -/
theorem applyBrokerEvent_order (h : r.applyBrokerEvent event = some r') : r'.order = r.order := by
  cases event with
  | filled clientOrderId quantityTicks priceTicks =>
    obtain ⟨-, ⟨-, rfl⟩ | ⟨-, horder, -⟩⟩ := applyBrokerEvent_filled h
    · rfl
    · exact horder
  | acknowledged clientOrderId brokerOrderId =>
    simp only [applyBrokerEvent, Option.ite_none_right_eq_some, Option.some.injEq] at h
    rw [← h.2]
  | cancelled clientOrderId =>
    simp only [applyBrokerEvent, Option.ite_none_right_eq_some, Option.some.injEq] at h
    rw [← h.2]
  | rejected clientOrderId reason =>
    simp only [applyBrokerEvent, Option.ite_none_right_eq_some, Option.some.injEq] at h
    rw [← h.2]

/-- **An event that comes again** changes nothing when the child absorbs it, and only then. -/
theorem applyBrokerEvent_again_iff (h : r.applyBrokerEvent event = some r') :
    r'.applyBrokerEvent event = some r' ↔ r.Settles event := by
  cases event with
  | acknowledged clientOrderId brokerOrderId =>
    simp only [applyBrokerEvent, Option.ite_none_right_eq_some, Option.some.injEq] at h
    rw [← h.2]
    exact iff_of_true rfl trivial
  | cancelled clientOrderId =>
    simp only [applyBrokerEvent, Option.ite_none_right_eq_some, Option.some.injEq] at h
    rw [← h.2]
    exact iff_of_false (fun hagain => by cases hagain) id
  | rejected clientOrderId reason =>
    simp only [applyBrokerEvent, Option.ite_none_right_eq_some, Option.some.injEq] at h
    rw [← h.2]
    exact iff_of_false (fun hagain => by cases hagain) id
  | filled clientOrderId quantityTicks priceTicks =>
    obtain ⟨hpos, ⟨hfilled, rfl⟩ | ⟨hopen, horder, hcount, hstate⟩⟩ := applyBrokerEvent_filled h
    · exact iff_of_true h (.inl hfilled)
    · by_cases hcomplete : r.filledQuantityTicks + quantityTicks = r.order.quantityTicks
      · rw [if_pos hcomplete] at hstate
        refine iff_of_true ?_ (.inr hcomplete)
        rw [applyBrokerEvent, if_pos ⟨hpos, by rw [hstate]; decide⟩, if_pos hstate]
      · refine iff_of_false (fun hagain => ?_) (not_or.mpr ⟨hopen, hcomplete⟩)
        rw [if_neg hcomplete] at hstate
        obtain ⟨-, ⟨hfilled, -⟩ | ⟨-, -, hagain, -⟩⟩ := applyBrokerEvent_filled hagain
        · rw [hstate] at hfilled
          cases hfilled
        · omega

end ChildRecord

namespace ChildPlan

/-- A change that is made twice: the child is the same, and it is left alone the second time when
the child leaves the change alone. -/
theorem updateList_again {clientOrderId : String} {f : ChildRecord → Option ChildRecord}
    (hf : ∀ r r', f r = some r' → r'.order = r.order) {rs rs' : List ChildRecord}
    (h : updateList clientOrderId f rs = some rs') :
    ∃ r r', rs.find? (·.order.clientOrderId = clientOrderId) = some r ∧ f r = some r' ∧
      (updateList clientOrderId f rs' = some rs' ↔ f r' = some r') := by
  induction rs generalizing rs' with
  | nil => cases h
  | cons first rs ih =>
    unfold updateList at h
    split at h
    · next hid =>
      obtain ⟨first', hfirst, rfl⟩ := Option.map_eq_some_iff.mp h
      refine ⟨first, first', List.find?_cons_of_pos (decide_eq_true hid), hfirst, ?_⟩
      have hid' : first'.order.clientOrderId = clientOrderId := by rw [hf first first' hfirst, hid]
      rw [updateList, if_pos hid']
      cases f first' <;> simp
    · next hid =>
      obtain ⟨rest, hrest, rfl⟩ := Option.map_eq_some_iff.mp h
      obtain ⟨r, r', hfind, hr, hagain⟩ := ih hrest
      refine ⟨r, r', ?_, hr, ?_⟩
      · rw [List.find?_cons_of_neg (by simpa using hid), hfind]
      · rw [updateList, if_neg hid, ← hagain]
        cases updateList clientOrderId f rest <;> simp

end ChildPlan

/-- **A callback that comes twice** leaves the plan as the first one left it exactly when its child
absorbs it. -/
theorem broker_event_repeats_iff {plan plan' : ChildPlan} {event : BrokerEvent}
    (h : ChildPlan.applyBrokerEvent event plan = (.ok (), plan')) :
    ChildPlan.applyBrokerEvent event plan' = (.ok (), plan') ↔
      ∃ r, plan.children.find? (·.order.clientOrderId = event.clientOrderId) = some r ∧
        r.Settles event := by
  unfold ChildPlan.applyBrokerEvent ChildPlan.update at h ⊢
  cases hchildren : ChildPlan.updateList event.clientOrderId (·.applyBrokerEvent event)
      plan.children with
  | none =>
    rw [hchildren] at h
    cases h
  | some children =>
    rw [hchildren] at h
    cases h
    obtain ⟨r, r', hfind, hr, hagain⟩ :=
      ChildPlan.updateList_again (fun r r' => ChildRecord.applyBrokerEvent_order) hchildren
    have hsettles : (∃ s, plan.children.find? (·.order.clientOrderId = event.clientOrderId) = some s ∧
        s.Settles event) ↔ r.Settles event := by
      rw [hfind]
      simp
    rw [hsettles, ← ChildRecord.applyBrokerEvent_again_iff hr, ← hagain]
    dsimp only
    cases ChildPlan.updateList event.clientOrderId (·.applyBrokerEvent event) children <;> simp

namespace Sample

/-- A plan with one child of ten ticks, in a state and with a filled quantity. -/
def onlyChild (state : ChildState) (filledQuantityTicks : Int) : ChildPlan :=
  ⟨"o-1", 0, [⟨⟨"o-1", 1, "o-1-child-1", 10, 0, .buy, .market, none⟩, state,
    filledQuantityTicks, none⟩]⟩

/-- A fill of the child at a price of five. -/
def childFill (quantityTicks : Int) : BrokerEvent := .filled "o-1-child-1" quantityTicks 5

end Sample

/-- A fill that completes the child may come twice. -/
theorem broker_event_repeats_last :
    ChildPlan.applyBrokerEvent (Sample.childFill 6) (Sample.onlyChild .filled 10) =
      (.ok (), Sample.onlyChild .filled 10) := by
  have hlast : ChildPlan.applyBrokerEvent (Sample.childFill 6)
      (Sample.onlyChild .partiallyFilled 4) = (.ok (), Sample.onlyChild .filled 10) := rfl
  exact (broker_event_repeats_iff hlast).mpr ⟨_, rfl, .inr rfl⟩

/-- A partial fill is counted twice, and a cancelled child refuses its cancellation. -/
theorem broker_event_counts_twice :
    (ChildPlan.applyBrokerEvent (Sample.childFill 4) (Sample.onlyChild .sent 0) =
        (.ok (), Sample.onlyChild .partiallyFilled 4) ∧
      ChildPlan.applyBrokerEvent (Sample.childFill 4) (Sample.onlyChild .partiallyFilled 4) =
        (.ok (), Sample.onlyChild .partiallyFilled 8)) ∧
    ChildPlan.applyBrokerEvent (.cancelled "o-1-child-1") (Sample.onlyChild .sent 0) =
        (.ok (), Sample.onlyChild .cancelled 0) ∧
      ChildPlan.applyBrokerEvent (.cancelled "o-1-child-1") (Sample.onlyChild .cancelled 0) =
        (.error .invalidChildTransition, Sample.onlyChild .cancelled 0) :=
  ⟨⟨rfl, rfl⟩, rfl, rfl⟩

end InsiderTrader
