import InsiderTrader.SnapshotSweep

/-!
# What events make of a record

The order events of a broker and the cumulative quantities of its snapshots move
an order through its lifecycle. Neither takes back what the other did: a record
that they lead on keeps its intent, never has less filled, and admits no step
that it did not admit before.

## Main definitions

- `OrderRecord.Leads` — what events and quantities can make of a record
- `OrderRecord.TakesCount` — a record takes a cumulative quantity
- `OrderRecord.Repeats` — an event is the one a record has had

## Main results

- `OrderRecord.leads_applyCumulativeFill` — a cumulative quantity leads a record on
- `OrderRecord.leads_applyBrokerEvent` — so does an event
- `OrderRecord.ok_iff_repeats` — an event succeeds twice exactly when it repeats
-/

namespace InsiderTrader

open MachineInt Fallible

-- The lifecycle

/-- The states that events and quantities lead to. -/
def OrderState.reported : OrderState → Bool
  | .acknowledged | .partiallyFilled | .filled | .rejected | .cancelled => true
  | _ => false

/-- A state is reached by events and quantities: it is the same or a reported one, and does not
admit more of these. -/
structure OrderState.Leads (s later : OrderState) : Prop where
  reached : later = s ∨ later.reported
  illegal : ∀ next, OrderState.reported next → legalTransition s next = false →
    legalTransition later next = false ∧ (later = next → s = next)

theorem OrderState.Leads.refl (s : OrderState) : s.Leads s :=
  ⟨.inl rfl, fun _ _ hillegal => ⟨hillegal, id⟩⟩

theorem OrderState.Leads.trans {s later latest : OrderState} (h : s.Leads later)
    (h' : later.Leads latest) : s.Leads latest := by
  refine ⟨?_, fun next hnext hillegal => ?_⟩
  · rcases h'.reached with rfl | hreported
    · exact h.reached
    · exact .inr hreported
  · obtain ⟨hlater, hsame⟩ := h.illegal next hnext hillegal
    obtain ⟨hlatest, hsame'⟩ := h'.illegal next hnext hlater
    exact ⟨hlatest, fun heq => hsame (hsame' heq)⟩

/-- A legal step to a reported state leads there. -/
theorem leads_of_legalTransition {s next : OrderState} (hlegal : legalTransition s next = true)
    (hnext : next.reported = true) : s.Leads next := by
  have htable : ∀ s next other : OrderState, legalTransition s next = true →
      next.reported = true → other.reported = true → legalTransition s other = false →
        legalTransition next other = false ∧ next ≠ other := by
    intro s next other
    cases s <;> cases next <;> first | (intro h; cases h; done) | (cases other <;> decide)
  refine ⟨.inr hnext, fun other hother hillegal => ?_⟩
  obtain ⟨hlater, hne⟩ := htable s next other hlegal hnext hother hillegal
  exact ⟨hlater, fun heq => absurd heq hne⟩

/-- What is known to be acknowledged stays so. -/
theorem OrderState.Leads.acknowledgedBefore {s later : OrderState} (h : s.Leads later)
    (hs : OrderRecord.acknowledgedBefore s = true) :
    OrderRecord.acknowledgedBefore later = true := by
  rcases h.reached with rfl | hreported
  · exact hs
  · revert hreported
    cases later <;> decide

/-- An order that cannot be acknowledged is not known to be so later, unless it was. -/
theorem acknowledgedBefore_of_leads {s later : OrderState} (h : s.Leads later)
    (hillegal : legalTransition s .acknowledged = false)
    (hlater : OrderRecord.acknowledgedBefore later = true) :
    OrderRecord.acknowledgedBefore s = true := by
  have htable : ∀ s next : OrderState, legalTransition s .acknowledged = false →
      OrderRecord.acknowledgedBefore s = false → next.reported = true →
        legalTransition s next = false ∧ s ≠ next := by
    intro s next
    cases s <;> first | (intro h; cases h; done) | (cases next <;> decide)
  by_contra hbefore
  have hunknown := Bool.eq_false_of_not_eq_true hbefore
  rcases h.reached with rfl | hreported
  · exact hbefore hlater
  · obtain ⟨hstuck, hne⟩ := htable s later hillegal hunknown hreported
    exact hne ((h.illegal later hreported hstuck).2 rfl)

-- One record

namespace OrderRecord

variable {record later latest : OrderRecord} {event : BrokerEvent} {cumulative : Int}

/-- A record without the id that the broker gave it. -/
def core (record : OrderRecord) : OrderRecord := { record with brokerOrderId := none }

/-- What events and quantities can make of a record. -/
structure Leads (record later : OrderRecord) : Prop where
  intent_eq : later.intent = { record.intent with state := later.state }
  filled_le : record.filledQuantityTicks ≤ later.filledQuantityTicks
  state_leads : record.state.Leads later.state
  brokerOrderId_eq : acknowledgedBefore record.state = true →
    later.brokerOrderId = record.brokerOrderId

theorem Leads.refl (record : OrderRecord) : record.Leads record :=
  ⟨rfl, le_rfl, .refl _, fun _ => rfl⟩

theorem Leads.trans (h : record.Leads later) (h' : later.Leads latest) : record.Leads latest where
  intent_eq := by rw [h'.intent_eq, h.intent_eq]
  filled_le := h.filled_le.trans h'.filled_le
  state_leads := h.state_leads.trans h'.state_leads
  brokerOrderId_eq hs := (h'.brokerOrderId_eq (h.state_leads.acknowledgedBefore hs)).trans
    (h.brokerOrderId_eq hs)

/-- A step to a reported state, which an unknown broker id may come with. -/
theorem leads_setState {next : OrderState} (hlegal : legalTransition record.state next = true)
    (hnext : next.reported = true) {filled : Int} (hfilled : record.filledQuantityTicks ≤ filled) :
    record.Leads { record.setState next with filledQuantityTicks := filled } :=
  ⟨rfl, hfilled, leads_of_legalTransition hlegal hnext, fun _ => rfl⟩

/-- The state that a cumulative quantity leads to. -/
def countState (record : OrderRecord) (cumulative : Int) : OrderState :=
  if record.intent.quantityTicks ≤ cumulative then .filled else .partiallyFilled

/-- A cumulative quantity is new, and the state of the record admits it. -/
structure TakesCount (record : OrderRecord) (cumulative : Int) : Prop where
  new : record.filledQuantityTicks < cumulative
  within : cumulative ≤ record.intent.quantityTicks
  legal : legalTransition record.state (record.countState cumulative) = true

theorem countState_reported (record : OrderRecord) (cumulative : Int) :
    (record.countState cumulative).reported = true := by
  unfold countState
  split <;> rfl

/-- A cumulative quantity that is taken. -/
theorem applyCumulativeFill_of_takesCount (h : record.TakesCount cumulative) :
    applyCumulativeFill cumulative record = (.ok (),
      { record.setState (record.countState cumulative) with
        filledQuantityTicks := cumulative }) := by
  obtain ⟨hnew, hwithin, hlegal⟩ := h
  rw [applyCumulativeFill, reads_bind]
  dsimp only [id]
  rw [if_neg (by omega), if_neg (by omega)]
  have hstep : transition (record.countState cumulative) record =
      (.ok (), record.setState (record.countState cumulative)) := by
    rw [transition_apply, if_pos hlegal]
  exact bind_of_ok hstep

/-- A cumulative quantity that is not taken changes nothing. -/
theorem applyCumulativeFill_of_not_takesCount (h : ¬record.TakesCount cumulative) :
    (applyCumulativeFill cumulative record).2 = record := by
  rw [applyCumulativeFill, reads_bind]
  dsimp only [id]
  split
  · rfl
  · next hrange =>
    split
    · rfl
    · next hnew =>
      have hillegal : legalTransition record.state (record.countState cumulative) = false :=
        Bool.eq_false_of_not_eq_true fun hlegal => h ⟨by omega, by omega, hlegal⟩
      have hstep : transition (record.countState cumulative) record =
          (.error (.invalidTransition record.state (record.countState cumulative)), record) := by
        rw [transition_apply, if_neg (by rw [hillegal]; exact Bool.false_ne_true)]
      exact congrArg Prod.snd (bind_of_error hstep)

theorem leads_applyCumulativeFill (record : OrderRecord) (cumulative : Int) :
    record.Leads (applyCumulativeFill cumulative record).2 := by
  by_cases h : record.TakesCount cumulative
  · rw [applyCumulativeFill_of_takesCount h]
    exact leads_setState h.legal (countState_reported _ _) h.new.le
  · rw [applyCumulativeFill_of_not_takesCount h]
    exact .refl _

/-- A record admits no quantity later that it does not admit before. -/
theorem Leads.takesCount (h : record.Leads later) (htakes : later.TakesCount cumulative) :
    record.TakesCount cumulative := by
  have hquantity : later.intent.quantityTicks = record.intent.quantityTicks := by
    rw [h.intent_eq]
  have hstate : later.countState cumulative = record.countState cumulative := by
    rw [countState, countState, hquantity]
  refine ⟨h.filled_le.trans_lt htakes.new, hquantity ▸ htakes.within, ?_⟩
  by_contra hillegal
  have hlater := (h.state_leads.illegal _ (countState_reported record cumulative)
    (Bool.eq_false_of_not_eq_true hillegal)).1
  rw [← hstate, htakes.legal] at hlater
  cases hlater

/-- A cumulative quantity that was applied is not taken again. -/
theorem not_takesCount_applied (record : OrderRecord) (cumulative : Int) :
    ¬(applyCumulativeFill cumulative record).2.TakesCount cumulative := by
  by_cases h : record.TakesCount cumulative
  · rw [applyCumulativeFill_of_takesCount h]
    exact fun hagain => lt_irrefl _ hagain.new
  · rwa [applyCumulativeFill_of_not_takesCount h]

/-- The state that an event without a quantity leads to. -/
def target : BrokerEvent → Option OrderState
  | .acknowledged _ _ => some .acknowledged
  | .rejected _ _ => some .rejected
  | .cancelled _ => some .cancelled
  | .filled _ _ _ => none

/-- An event without a quantity repeats what is known. -/
def Repeats (record : OrderRecord) : BrokerEvent → Prop
  | .acknowledged _ brokerOrderId =>
    acknowledgedBefore record.state = true ∧ record.brokerOrderId = some brokerOrderId
  | .rejected _ _ => record.state = .rejected
  | .cancelled _ => record.state = .cancelled
  | .filled _ _ _ => False

theorem reported_of_target {next : OrderState} (h : target event = some next) :
    next.reported = true := by
  cases event with
  | acknowledged _ _ => cases h; rfl
  | rejected _ _ => cases h; rfl
  | cancelled _ => cases h; rfl
  | filled _ _ _ => cases h

/-- What is known to be acknowledged is not acknowledged again. -/
theorem illegal_of_acknowledgedBefore {s : OrderState} (h : acknowledgedBefore s = true) :
    legalTransition s .acknowledged = false := by
  revert h
  cases s <;> decide

/-- **An event without a quantity** takes its step when that is legal. Else it changes at most the
broker id of an order that was not acknowledged, and succeeds when it repeats what is known. -/
theorem applyBrokerEvent_cases {next : OrderState} (h : target event = some next)
    (record : OrderRecord) :
    ∃ brokerOrderId, (acknowledgedBefore record.state = true →
        brokerOrderId = record.brokerOrderId) ∧
      ((legalTransition record.state next = true ∧ applyBrokerEvent event record =
          (.ok (), { record.setState next with brokerOrderId := brokerOrderId })) ∨
        (legalTransition record.state next = false ∧
          (applyBrokerEvent event record).2 = { record with brokerOrderId := brokerOrderId } ∧
          ((applyBrokerEvent event record).1 = .ok () ↔ record.Repeats event))) := by
  have hterminal : ∀ s : OrderState, s.terminal = true → legalTransition s s = false := by
    intro s hs
    revert hs
    cases s <;> decide
  have hclose : ∀ next : OrderState, next.terminal = true →
      let step : Fallible OrderRecord TransitionError Unit :=
        if record.state = next then pure () else transition next
      (legalTransition record.state next = true ∧ step record = (.ok (), record.setState next)) ∨
        (legalTransition record.state next = false ∧ (step record).2 = record ∧
          ((step record).1 = .ok () ↔ record.state = next)) := by
    intro next hnext step
    by_cases hsame : record.state = next
    · have hrun : step record = (.ok (), record) := congrFun (if_pos hsame) record
      rw [hrun]
      exact .inr ⟨hsame ▸ hterminal _ (hsame ▸ hnext), rfl, ⟨fun _ => hsame, fun _ => rfl⟩⟩
    · have hrun : step record = _ := (congrFun (if_neg hsame) record).trans (transition_apply _ _)
      rw [hrun]
      cases hlegal : legalTransition record.state next with
      | true => exact .inl ⟨rfl, rfl⟩
      | false => exact .inr ⟨rfl, rfl, ⟨(fun hok => by cases hok), fun heq => absurd heq hsame⟩⟩
  cases event with
  | acknowledged orderId brokerOrderId =>
    cases h
    rw [applyBrokerEvent, reads_bind]
    dsimp only [id]
    by_cases hbefore : acknowledgedBefore record.state = true
    · rw [if_pos hbefore]
      refine ⟨record.brokerOrderId, fun _ => rfl, .inr
        ⟨illegal_of_acknowledgedBefore hbefore, ?_⟩⟩
      split
      · next hid => exact ⟨rfl, ⟨fun _ => ⟨hbefore, hid⟩, fun _ => rfl⟩⟩
      · next hid => exact ⟨rfl, ⟨(fun hok => by cases hok), fun hrepeats => absurd hrepeats.2 hid⟩⟩
    · rw [if_neg hbefore, modify_bind, transition_apply]
      refine ⟨some brokerOrderId, fun h => absurd h hbefore, ?_⟩
      cases hlegal : legalTransition record.state .acknowledged with
      | true => exact .inl ⟨rfl, if_pos rfl⟩
      | false =>
        rw [if_neg Bool.false_ne_true]
        exact .inr ⟨rfl, rfl, ⟨(fun hok => by cases hok), fun hrepeats => absurd hrepeats.1 hbefore⟩⟩
  | rejected orderId reason =>
    cases h
    exact ⟨record.brokerOrderId, fun _ => rfl, hclose .rejected rfl⟩
  | cancelled orderId =>
    cases h
    exact ⟨record.brokerOrderId, fun _ => rfl, hclose .cancelled rfl⟩
  | filled => cases h

theorem leads_applyBrokerEvent (event : BrokerEvent) (record : OrderRecord) :
    record.Leads (applyBrokerEvent event record).2 := by
  cases htarget : target event with
  | some next =>
    obtain ⟨brokerOrderId, hid, ⟨hlegal, hrun⟩ | ⟨-, hrun, -⟩⟩ :=
      applyBrokerEvent_cases htarget record
    · rw [hrun]
      exact ⟨rfl, le_rfl, leads_of_legalTransition hlegal (reported_of_target htarget), hid⟩
    · rw [hrun]
      exact ⟨rfl, le_rfl, .refl _, hid⟩
  | none =>
    cases event with
    | filled orderId ticks price =>
      by_cases htakes : record.TakesFill ticks price
      · have hle : record.filledQuantityTicks ≤ record.filledQuantityTicks + ticks := by
          have hticks := htakes.quantity_pos
          omega
        rw [applyBrokerEvent_of_takesFill htakes]
        split
        · next hlegal =>
          have hreported : (record.fillState ticks).reported = true := by
            unfold fillState
            split <;> rfl
          exact leads_setState hlegal hreported hle
        · exact ⟨rfl, hle, .refl _, fun _ => rfl⟩
      · rw [(applyBrokerEvent_of_not_takesFill orderId htakes).2]
        exact .refl _
    | acknowledged _ _ => cases htarget
    | rejected _ _ => cases htarget
    | cancelled _ => cases htarget

/-- A fill that is taken adds to the filled quantity. -/
theorem filled_lt_of_takesFill {ticks price : Int} (orderId : String)
    (h : record.TakesFill ticks price) : record.filledQuantityTicks <
      (applyBrokerEvent (.filled orderId ticks price) record).2.filledQuantityTicks := by
  have hlt : record.filledQuantityTicks < record.filledQuantityTicks + ticks := by
    have hticks := h.quantity_pos
    omega
  rw [applyBrokerEvent_of_takesFill h]
  split <;> exact hlt

/-- A fill that is not taken succeeds at a filled order only. -/
theorem applyBrokerEvent_filled_eq_ok_iff {ticks price : Int} (orderId : String)
    (h : ¬record.TakesFill ticks price) :
    (applyBrokerEvent (.filled orderId ticks price) record).1 = .ok () ↔
      record.state = .filled ∧ 0 < ticks ∧ 0 < price := by
  constructor
  · intro hok
    have hfilled := (applyBrokerEvent_of_not_takesFill orderId h).1 hok
    rw [applyBrokerEvent, reads_bind] at hok
    dsimp only [id] at hok
    split at hok
    · cases hok
    · exact ⟨hfilled, by omega, by omega⟩
  · rintro ⟨hfilled, hticks, hprice⟩
    rw [applyBrokerEvent, reads_bind]
    dsimp only [id]
    rw [if_neg (by omega), if_pos hfilled]
    rfl

section Targets

variable {next : OrderState}

/-- An event that was applied has no step left. -/
theorem illegal_applied (h : target event = some next) (record : OrderRecord) :
    legalTransition (applyBrokerEvent event record).2.state next = false := by
  obtain ⟨_, -, ⟨-, hrun⟩ | ⟨hillegal, hrun, -⟩⟩ := applyBrokerEvent_cases h record
  · rw [hrun]
    show legalTransition next next = false
    cases event <;> cases h <;> rfl
  · rw [hrun]
    exact hillegal

/-- An event without a step left changes at most the broker id. -/
theorem core_of_illegal (h : target event = some next)
    (hillegal : legalTransition record.state next = false) :
    (applyBrokerEvent event record).2.core = record.core := by
  obtain ⟨_, -, ⟨hlegal, -⟩ | ⟨-, hrun, -⟩⟩ := applyBrokerEvent_cases h record
  · rw [hillegal] at hlegal
    cases hlegal
  · rw [hrun]
    rfl

/-- A record without a step left repeats no more later than it does already. -/
theorem Leads.repeats (h : target event = some next)
    (hillegal : legalTransition record.state next = false) (hleads : record.Leads later)
    (hrepeats : later.Repeats event) : record.Repeats event := by
  have hsame := (hleads.state_leads.illegal next (reported_of_target h) hillegal).2
  cases event with
  | rejected _ _ =>
    cases h
    exact hsame hrepeats
  | cancelled _ =>
    cases h
    exact hsame hrepeats
  | filled _ _ _ => cases h
  | acknowledged _ _ =>
    cases h
    have hbefore := acknowledgedBefore_of_leads hleads.state_leads hillegal hrepeats.1
    exact ⟨hbefore, (hleads.brokerOrderId_eq hbefore).symm.trans hrepeats.2⟩

/-- An event succeeded when the record repeats it. -/
theorem ok_of_repeats (h : target event = some next)
    (hrepeats : (applyBrokerEvent event record).2.Repeats event) :
    (applyBrokerEvent event record).1 = .ok () := by
  obtain ⟨brokerOrderId, hid, ⟨-, hrun⟩ | ⟨-, hrun, hok⟩⟩ := applyBrokerEvent_cases h record
  · rw [hrun]
  · rw [hrun] at hrepeats
    refine hok.mpr ?_
    cases event with
    | acknowledged _ _ => exact ⟨hrepeats.1, (hid hrepeats.1).symm.trans hrepeats.2⟩
    | rejected _ _ => exact hrepeats
    | cancelled _ => exact hrepeats
    | filled _ _ _ => cases h

/-- An event without a step left succeeds when the record repeats it, and only then. -/
theorem ok_iff_repeats (h : target event = some next)
    (hillegal : legalTransition record.state next = false) :
    (applyBrokerEvent event record).1 = .ok () ↔ record.Repeats event := by
  obtain ⟨_, -, ⟨hlegal, -⟩ | ⟨-, -, hok⟩⟩ := applyBrokerEvent_cases h record
  · rw [hillegal] at hlegal
    cases hlegal
  · exact hok

end Targets

-- Records that differ in the broker id

theorem core_eq_iff {other : OrderRecord} : record.core = other.core ↔
    record.intent = other.intent ∧ record.filledQuantityTicks = other.filledQuantityTicks := by
  simp [core]

theorem takesFill_of_core {other : OrderRecord} {ticks price : Int} (h : record.core = other.core)
    (htakes : record.TakesFill ticks price) : other.TakesFill ticks price := by
  obtain ⟨hintent, hfilled⟩ := core_eq_iff.mp h
  obtain ⟨hquantity, hprice, hopen, hfits, hwithin⟩ := htakes
  rw [hfilled] at hfits hwithin
  rw [state, hintent] at hopen
  rw [hintent] at hwithin
  exact ⟨hquantity, hprice, hopen, hfits, hwithin⟩

theorem takesCount_of_core {other : OrderRecord} (h : record.core = other.core)
    (htakes : record.TakesCount cumulative) : other.TakesCount cumulative := by
  obtain ⟨hintent, hfilled⟩ := core_eq_iff.mp h
  obtain ⟨hnew, hwithin, hlegal⟩ := htakes
  rw [hfilled] at hnew
  rw [hintent] at hwithin
  rw [state, countState, hintent] at hlegal
  exact ⟨hnew, hwithin, hlegal⟩

theorem snapshotEvent_of_core {other : OrderRecord} (h : record.core = other.core)
    (order : BrokerOrderSnapshot) : record.snapshotEvent order = other.snapshotEvent order := by
  have hcore : ∀ r : OrderRecord, r.snapshotEvent order = r.core.snapshotEvent order :=
    fun _ => rfl
  rw [hcore record, h, ← hcore]

end OrderRecord

end InsiderTrader
