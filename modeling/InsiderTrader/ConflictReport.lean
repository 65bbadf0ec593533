import InsiderTrader.Library.MapFilter
import InsiderTrader.Operation
import InsiderTrader.Resolution
import Mathlib.Data.List.Induction
import Mathlib.Data.List.Nodup

/-!
# What becomes of a proposal

A resolution attributes a proposal to an accepted one, or reports it in a
conflict. Netting leaves out the instruments that it cannot net, and nets a
closing proposal as one of no quantity.

## Main definitions

- `Coordinator.submitAll` — the coordinator after any proposals
- `ResultSet.Settles`, `ResultSet.Closes` — a proposal is accounted for, or closes its position
- `Coordinator.Nets` — every instrument without a conflict can be netted, and has nothing to close

## Main results

- `settles_resolveInstrument`, `closes_resolveInstrument` — one instrument at a time
- `Coordinator.agreesOn_resolve` — all instruments, each as on its own
- `proposals_reported_iff` — the proposals that a resolution accounts for
-/

namespace InsiderTrader

/-- The action leaves no position. -/
def Action.Closing : Action → Prop
  | close => True
  | targetQuantity q => q = 0
  | increase _ | decrease _ | targetWeight _ | noAction => False

/-- The proposal is the source of one attribution, to an accepted proposal, or in a conflict. -/
def ResultSet.Settles (result : ResultSet) (p : Proposal) : Prop :=
  (∃ a, result.attributions.filter (p.proposalId ∈ ·.sourceProposalIds) = [a] ∧
      ∃ q ∈ result.accepted, q.proposalId = a.resultProposalId) ∨
    ∃ conflict ∈ result.conflicts, p.proposalId ∈ conflict.proposalIds

/-- The proposal is the source of an accepted one that closes its position. -/
def ResultSet.Closes (result : ResultSet) (p : Proposal) : Prop :=
  ∃ a ∈ result.attributions, p.proposalId ∈ a.sourceProposalIds ∧
    ∃ q ∈ result.accepted, q.proposalId = a.resultProposalId ∧ q.action.Closing

/-- Some proposals ask for opposite sides. -/
def Opposed (float : FloatArith) (proposals : List Proposal) : Prop :=
  (∃ p ∈ proposals, 0 < p.action.direction float) ∧
    ∃ p ∈ proposals, p.action.direction float < 0

/-- The quantities of the proposals, each by its confidence, added up in their order. -/
def weightedSum (float : FloatArith) (proposals : List Proposal) : F64 :=
  proposals.foldl (fun total p => float.add total
    (float.times ((p.action.netQuantity float).getD float.zero) p.confidence)) float.zero

/-- The confidences of the proposals, added up in their order. -/
def confidenceSum (float : FloatArith) (proposals : List Proposal) : F64 :=
  proposals.foldl (fun total p => float.add total p.confidence) float.zero

/-- No action is a weight, and the sums are finite. -/
structure Nettable (float : FloatArith) (proposals : List Proposal) : Prop where
  noWeight : ∀ p ∈ proposals, ∀ w, p.action ≠ .targetWeight w
  weighted : float.isFinite (weightedSum float proposals) = true
  confidence : float.isFinite (confidenceSum float proposals) = true

namespace Coordinator

/-- Add a proposal for later resolution, unless one of its identity is known. -/
def submit (proposal : Proposal) (c : Coordinator) : Coordinator :=
  if (c.record proposal.proposalId).isSome then c
  else ⟨c.records.insert proposal.proposalId ⟨proposal, .pending⟩, c.pending ++ [proposal]⟩

/-- The coordinator after any proposals. -/
def submitAll (proposals : List Proposal) : Coordinator :=
  proposals.foldl (fun c p => c.submit p) new

/-- The pending proposals of an instrument, as they are resolved. -/
def group (instrumentId : InstrumentId) (c : Coordinator) : List Proposal :=
  (c.pending.filter (·.instrumentId = instrumentId)).mergeSort resolvesBefore

/-- What is resolved accounts for every pending proposal, and closes what is to be closed on
instruments without opposite sides. -/
structure Reports (float : FloatArith) (policy : StrategyPolicy) (c : Coordinator) : Prop where
  settles : ∀ p ∈ c.pending, (c.resolve float policy).1.Settles p
  closes : ∀ p ∈ c.pending, p.action = .close → ¬Opposed float (c.group p.instrumentId) →
    (c.resolve float policy).1.Closes p

/-- On every instrument without opposite sides nothing is to be closed, and the proposals can be
netted. -/
def Nets (float : FloatArith) (c : Coordinator) : Prop :=
  ∀ p ∈ c.pending, ¬Opposed float (c.group p.instrumentId) →
    p.action ≠ .close ∧ Nettable float (c.group p.instrumentId)

end Coordinator

-- Netting

variable {float : FloatArith} {policy : StrategyPolicy} {proposals : List Proposal} {p : Proposal}
  {instrumentId : InstrumentId}

theorem netQuantity_eq_none {action : Action} :
    action.netQuantity float = none ↔ ∃ w, action = .targetWeight w := by
  cases action <;> simp [Action.netQuantity]

/-- The quantities of proposals without weights. -/
theorem mapM_netQuantity (h : ∀ p ∈ proposals, ∀ w, p.action ≠ .targetWeight w) :
    proposals.mapM (fun p => p.action.netQuantity float) =
      some (proposals.map fun p => (p.action.netQuantity float).getD float.zero) := by
  induction proposals with
  | nil => rfl
  | cons p ps ih =>
    obtain ⟨hp, hps⟩ := List.forall_mem_cons.mp h
    obtain ⟨q, hq⟩ := Option.ne_none_iff_exists'.mp
      (mt netQuantity_eq_none.mp (not_exists.mpr hp) : p.action.netQuantity float ≠ none)
    rw [List.mapM_cons, ih hps, hq, List.map_cons, hq]
    rfl

theorem mapM_netQuantity_weight {w : F64} (hp : p ∈ proposals) (hw : p.action = .targetWeight w) :
    proposals.mapM (fun p => p.action.netQuantity float) = none := by
  induction proposals with
  | nil => cases hp
  | cons q qs ih =>
    rw [List.mapM_cons]
    obtain rfl | hp := List.mem_cons.mp hp
    · rw [hw]
      rfl
    · rw [ih hp]
      cases q.action.netQuantity float <;> rfl

/-- The quantities added up next to their proposals. -/
theorem foldl_zip_map {α β : Type} (f : Proposal → α) (g : β → α × Proposal → β) (total : β)
    (proposals : List Proposal) :
    ((proposals.map f).zip proposals).foldl g total =
      proposals.foldl (fun total p => g total (f p, p)) total := by
  induction proposals generalizing total with
  | nil => rfl
  | cons p ps ih =>
    rw [List.map_cons, List.zip_cons_cons, List.foldl_cons, List.foldl_cons, ih]

/-- **What netting makes** of the proposals of an instrument: one proposal, which closes nothing,
or none. -/
theorem weightedNet_cases (float : FloatArith) (instrumentId : InstrumentId)
    (hne : proposals ≠ []) :
    Nettable float proposals ∧ (∃ net, weightedNet float instrumentId proposals = some net ∧
        net.proposalId ∈ proposals.map (·.proposalId) ∧ ¬net.action.Closing) ∨
      ¬Nettable float proposals ∧ weightedNet float instrumentId proposals = none := by
  obtain ⟨first, rest, rfl⟩ := List.exists_cons_of_ne_nil hne
  unfold weightedNet
  rw [List.head?_cons]
  by_cases hweight : ∀ p ∈ first :: rest, ∀ w, p.action ≠ .targetWeight w
  · rw [mapM_netQuantity hweight]
    simp only [Option.bind_eq_bind, Option.bind_some, foldl_zip_map]
    rw [← weightedSum, ← confidenceSum]
    by_cases hfinite : float.isFinite (weightedSum float (first :: rest)) = true ∧
        float.isFinite (confidenceSum float (first :: rest)) = true
    · rw [if_neg (by simp [hfinite])]
      refine .inl ⟨⟨hweight, hfinite.1, hfinite.2⟩, _, rfl, by simp, ?_⟩
      dsimp only
      split
      · exact id
      · next hrounded => exact hrounded
    · refine .inr ⟨fun h => hfinite ⟨h.weighted, h.confidence⟩, if_pos ?_⟩
      by_contra hboth
      rw [not_or, not_not, not_not] at hboth
      exact hfinite hboth
  · simp only [not_forall, not_not] at hweight
    obtain ⟨p, hp, w, hw⟩ := hweight
    rw [mapM_netQuantity_weight hp hw]
    exact .inr ⟨fun h => h.noWeight p hp w hw, rfl⟩

-- One instrument

/-- Proposals that are each accepted as they are settle each other's account. -/
theorem settles_each {conflicts : List Conflict} (hnodup : (proposals.map (·.proposalId)).Nodup)
    (hp : p ∈ proposals) :
    (ResultSet.mk proposals conflicts []
      (proposals.map fun p => ⟨p.proposalId, instrumentId, [p.proposalId]⟩)).Settles p := by
  refine .inl ⟨⟨p.proposalId, instrumentId, [p.proposalId]⟩, ?_, p, hp, rfl⟩
  have hself : proposals.filter (fun q => p.proposalId ∈ [q.proposalId]) = [p] := by
    refine MapFilter.filter_eq_singleton ((List.pairwise_map.mp hnodup).imp ?_) hp (by simp)
    rintro e f hne ⟨he, hf⟩
    rw [decide_eq_true_iff, List.mem_singleton] at he hf
    exact hne (he.symm.trans hf)
  rw [List.filter_map]
  show (proposals.filter fun q => decide (p.proposalId ∈ [q.proposalId])).map _ = _
  rw [hself, List.map_singleton]

theorem any_opposed : ((proposals.any fun p => 0 < p.action.direction float) = true ∧
    (proposals.any fun p => p.action.direction float < 0) = true) ↔ Opposed float proposals := by
  simp [Opposed]

/-- What a group of proposals comes to, in the order they are looked at. -/
theorem resolveInstrument_cases (float : FloatArith) (policy : StrategyPolicy)
    (instrumentId : InstrumentId) (proposals : List Proposal)
    (hne : proposals.mergeSort resolvesBefore ≠ []) :
    let sorted := proposals.mergeSort resolvesBefore
    let ids := sorted.map (·.proposalId)
    let r := resolveInstrument float policy instrumentId proposals
    Opposed float sorted ∧ r.conflicts = [⟨instrumentId, ids⟩] ∨
      ¬Opposed float sorted ∧ policy ≠ .weightedNet ∧ r = ⟨sorted, [], [],
        sorted.map fun p => ⟨p.proposalId, instrumentId, [p.proposalId]⟩⟩ ∨
      ¬Opposed float sorted ∧ policy = .weightedNet ∧ Nettable float sorted ∧
        (∃ net, r = ⟨[net], [], [], [⟨net.proposalId, instrumentId, ids⟩]⟩ ∧
          net.proposalId ∈ ids ∧ ¬net.action.Closing) ∨
      ¬Opposed float sorted ∧ policy = .weightedNet ∧ ¬Nettable float sorted ∧
        r = ⟨[], [], [], []⟩ := by
  intro sorted ids r
  by_cases hopposed : Opposed float sorted
  · have hboth := any_opposed.mpr hopposed
    refine .inl ⟨hopposed, ?_⟩
    cases policy with
    | isolatedBooks => exact if_pos hboth
    | priority =>
      simp only [r, resolveInstrument]
      rw [if_pos hboth]
      exact if_pos hboth
    | weightedNet =>
      simp only [r, resolveInstrument]
      cases weightedNet float instrumentId sorted with
      | none => exact if_pos hboth
      | some net => exact if_pos hboth
  · have hno := mt any_opposed.mp hopposed
    refine .inr ?_
    cases policy with
    | isolatedBooks =>
      refine .inl ⟨hopposed, nofun, ?_⟩
      simp only [r, resolveInstrument]
      rw [if_neg hno]
    | priority =>
      refine .inl ⟨hopposed, nofun, ?_⟩
      simp only [r, resolveInstrument]
      rw [if_neg hno, if_neg hno]
    | weightedNet =>
      refine .inr ?_
      obtain ⟨hnet, net, hsome, hid, hopen⟩ | ⟨hnot, hnone⟩ :=
        weightedNet_cases float instrumentId hne
      · refine .inl ⟨hopposed, rfl, hnet, net, ?_, hid, hopen⟩
        simp only [r, resolveInstrument]
        rw [hsome]
        dsimp only
        rw [if_neg hno]
      · refine .inr ⟨hopposed, rfl, hnot, ?_⟩
        simp only [r, resolveInstrument]
        rw [hnone]
        dsimp only
        rw [if_neg hno]

/-- What is accepted and attributed is of the group. -/
structure ResultSet.Within (r : ResultSet) (ids : List ProposalId) : Prop where
  accepted : ∀ q ∈ r.accepted, q.proposalId ∈ ids
  result : ∀ a ∈ r.attributions, a.resultProposalId ∈ ids
  sources : ∀ a ∈ r.attributions, ∀ id ∈ a.sourceProposalIds, id ∈ ids
  conflicts : ∀ conflict ∈ r.conflicts, ∀ id ∈ conflict.proposalIds, id ∈ ids

/-- Proposals that are each accepted as they are are of the group. -/
theorem within_each {accepted sorted : List Proposal} {conflicts : List Conflict}
    (hsub : ∀ q ∈ accepted, q ∈ sorted)
    (hconflicts : ∀ conflict ∈ conflicts, conflict.proposalIds = sorted.map (·.proposalId)) :
    (ResultSet.mk accepted conflicts []
      (accepted.map fun p => ⟨p.proposalId, instrumentId, [p.proposalId]⟩)).Within
        (sorted.map (·.proposalId)) where
  accepted q hq := List.mem_map_of_mem (hsub q hq)
  result a ha := by
    obtain ⟨q, hq, rfl⟩ := List.mem_map.mp ha
    exact List.mem_map_of_mem (hsub q hq)
  sources a ha id hid := by
    obtain ⟨q, hq, rfl⟩ := List.mem_map.mp ha
    rw [List.mem_singleton.mp hid]
    exact List.mem_map_of_mem (hsub q hq)
  conflicts conflict hmem id hid := hconflicts conflict hmem ▸ hid

theorem within_resolveInstrument (float : FloatArith) (policy : StrategyPolicy)
    (instrumentId : InstrumentId) (hne : proposals.mergeSort resolvesBefore ≠ []) :
    (resolveInstrument float policy instrumentId proposals).Within
      ((proposals.mergeSort resolvesBefore).map (·.proposalId)) := by
  have hconflicts : ∀ c : Prop, [Decidable c] → ∀ conflict ∈
      (if c then [Conflict.mk instrumentId
        ((proposals.mergeSort resolvesBefore).map (·.proposalId))] else []),
      conflict.proposalIds = (proposals.mergeSort resolvesBefore).map (·.proposalId) := by
    intro c _ conflict hmem
    split at hmem
    · rw [List.mem_singleton.mp hmem]
    · cases hmem
  cases policy with
  | isolatedBooks => exact within_each (fun _ hq => hq) (hconflicts _)
  | priority =>
    simp only [resolveInstrument]
    split
    · refine within_each (fun _ hq => (List.mem_filter.mp hq).1) fun conflict hmem => ?_
      rw [List.mem_singleton.mp hmem]
    · refine within_each (fun _ hq => hq) fun conflict hmem => ?_
      cases hmem
  | weightedNet =>
    simp only [resolveInstrument]
    obtain ⟨-, net, hsome, hid, -⟩ | ⟨-, hnone⟩ := weightedNet_cases float instrumentId hne
    · rw [hsome]
      refine ⟨?_, ?_, ?_, fun conflict hmem id hid => hconflicts _ conflict hmem ▸ hid⟩
      · exact List.forall_mem_singleton.mpr hid
      · exact List.forall_mem_singleton.mpr hid
      · exact List.forall_mem_singleton.mpr fun _ hid => hid
    · rw [hnone]
      exact ⟨by simp, by simp, by simp, fun conflict hmem id hid =>
        hconflicts _ conflict hmem ▸ hid⟩

/-- **A proposal of an instrument** is accounted for, unless it cannot be netted. -/
theorem settles_resolveInstrument (float : FloatArith) (policy : StrategyPolicy)
    (instrumentId : InstrumentId)
    (hnodup : ((proposals.mergeSort resolvesBefore).map (·.proposalId)).Nodup)
    (hp : p ∈ proposals.mergeSort resolvesBefore) :
    (resolveInstrument float policy instrumentId proposals).Settles p ↔
      (policy = .weightedNet → ¬Opposed float (proposals.mergeSort resolvesBefore) →
        Nettable float (proposals.mergeSort resolvesBefore)) := by
  have hid := List.mem_map_of_mem (f := (·.proposalId)) hp
  obtain ⟨hopposed, hconflicts⟩ | ⟨-, hpolicy, hr⟩ | ⟨-, -, hnet, net, hr, -, -⟩ |
      ⟨hopposed, hpolicy, hnot, hr⟩ :=
    resolveInstrument_cases float policy instrumentId proposals (List.ne_nil_of_mem hp)
  · refine iff_of_true (.inr ⟨⟨instrumentId, _⟩, ?_, hid⟩) fun _ hnot => absurd hopposed hnot
    rw [hconflicts]
    exact List.mem_singleton_self _
  · rw [hr]
    exact iff_of_true (settles_each hnodup hp) fun heq => absurd heq hpolicy
  · rw [hr]
    refine iff_of_true (.inl ⟨⟨net.proposalId, instrumentId,
      (proposals.mergeSort resolvesBefore).map (·.proposalId)⟩, ?_, net,
      List.mem_singleton_self _, rfl⟩) fun _ _ => hnet
    exact List.filter_cons_of_pos (decide_eq_true hid)
  · rw [hr]
    refine iff_of_false ?_ fun h => hnot (h hpolicy hopposed)
    rintro (⟨a, ha, -⟩ | ⟨conflict, hmem, -⟩)
    · cases ha
    · cases hmem

/-- **A closing proposal** on an instrument without opposite sides closes, unless it is netted. -/
theorem closes_resolveInstrument (float : FloatArith) (policy : StrategyPolicy)
    (instrumentId : InstrumentId) (hp : p ∈ proposals.mergeSort resolvesBefore)
    (hclose : p.action = .close)
    (hopposed : ¬Opposed float (proposals.mergeSort resolvesBefore)) :
    (resolveInstrument float policy instrumentId proposals).Closes p ↔ policy ≠ .weightedNet := by
  obtain ⟨hboth, -⟩ | ⟨-, hpolicy, hr⟩ | ⟨-, hpolicy, -, net, hr, -, hopen⟩ |
      ⟨-, hpolicy, -, hr⟩ :=
    resolveInstrument_cases float policy instrumentId proposals (List.ne_nil_of_mem hp)
  · exact absurd hboth hopposed
  · rw [hr]
    refine iff_of_true ⟨_, List.mem_map_of_mem hp, List.mem_singleton_self _, p, hp, rfl, ?_⟩ hpolicy
    rw [hclose]
    trivial
  · rw [hr]
    refine iff_of_false ?_ (not_not.mpr hpolicy)
    rintro ⟨a, -, -, q, hq, -, hclosing⟩
    rw [List.mem_singleton.mp hq] at hclosing
    exact hopen hclosing
  · rw [hr]
    refine iff_of_false ?_ (not_not.mpr hpolicy)
    rintro ⟨a, ha, -⟩
    cases ha

-- All instruments

/-- Results that agree on what concerns a proposal and the identities of its group. -/
structure ResultSet.AgreesOn (p : Proposal) (ids : List ProposalId) (r r' : ResultSet) : Prop where
  attributions : r'.attributions.filter (p.proposalId ∈ ·.sourceProposalIds) =
    r.attributions.filter (p.proposalId ∈ ·.sourceProposalIds)
  conflicts : r'.conflicts.filter (p.proposalId ∈ ·.proposalIds) =
    r.conflicts.filter (p.proposalId ∈ ·.proposalIds)
  accepted : r'.accepted.filter (·.proposalId ∈ ids) = r.accepted.filter (·.proposalId ∈ ids)

/-- A member of the one list that passes a test is one of the other. -/
theorem mem_iff_of_filter_eq {α : Type} {test : α → Bool} {l l' : List α}
    (h : l'.filter test = l.filter test) {x : α} (hx : test x = true) : x ∈ l' ↔ x ∈ l := by
  have hboth : x ∈ l'.filter test ↔ x ∈ l.filter test := by rw [h]
  rwa [List.mem_filter, List.mem_filter, and_iff_left hx, and_iff_left hx] at hboth

/-- Such results settle the proposal alike. -/
theorem settles_iff_of_agreesOn {r r' : ResultSet} {ids : List ProposalId}
    (h : r.AgreesOn p ids r') (hwithin : r.Within ids) : r'.Settles p ↔ r.Settles p := by
  unfold ResultSet.Settles
  rw [h.attributions]
  refine or_congr (exists_congr fun a => and_congr_right fun ha => ?_)
    (exists_congr fun conflict => and_congr_left fun hid => ?_)
  · have hmem : a ∈ r.attributions.filter (p.proposalId ∈ ·.sourceProposalIds) :=
      ha ▸ List.mem_singleton_self a
    refine exists_congr fun q => and_congr_left fun hq => mem_iff_of_filter_eq h.accepted ?_
    exact decide_eq_true (hq ▸ hwithin.result a (List.mem_filter.mp hmem).1)
  · exact mem_iff_of_filter_eq h.conflicts (decide_eq_true hid)

/-- Such results close the proposal alike. -/
theorem closes_iff_of_agreesOn {r r' : ResultSet} {ids : List ProposalId}
    (h : r.AgreesOn p ids r') (hwithin : r.Within ids) : r'.Closes p ↔ r.Closes p := by
  have hattributed : ∀ a, p.proposalId ∈ a.sourceProposalIds →
      (a ∈ r'.attributions ↔ a ∈ r.attributions) := fun a hid =>
    mem_iff_of_filter_eq h.attributions (decide_eq_true hid)
  have haccepted : ∀ a ∈ r.attributions, ∀ q, q.proposalId = a.resultProposalId →
      (q ∈ r'.accepted ↔ q ∈ r.accepted) := fun a ha q hq =>
    mem_iff_of_filter_eq h.accepted (decide_eq_true (hq ▸ hwithin.result a ha))
  constructor
  · rintro ⟨a, ha, hid, q, hq, hresult, hclosing⟩
    have ha' := (hattributed a hid).mp ha
    exact ⟨a, ha', hid, q, (haccepted a ha' q hresult).mp hq, hresult, hclosing⟩
  · rintro ⟨a, ha, hid, q, hq, hresult, hclosing⟩
    exact ⟨a, (hattributed a hid).mpr ha, hid, q, (haccepted a ha q hresult).mpr hq, hresult,
      hclosing⟩

/-- The pending proposals of each instrument, in the order of submission. -/
theorem groupByInstrument_getElem? (proposals : List Proposal) (instrumentId : InstrumentId) :
    (groupByInstrument proposals)[instrumentId]? =
      if proposals.filter (·.instrumentId = instrumentId) = [] then none
      else some (proposals.filter (·.instrumentId = instrumentId)) := by
  induction proposals using List.reverseRecOn with
  | nil => exact Std.TreeMap.getElem?_emptyc
  | append_singleton ps p ih =>
    have hstep : groupByInstrument (ps ++ [p]) = (groupByInstrument ps).insert p.instrumentId
        (((groupByInstrument ps)[p.instrumentId]?).getD [] ++ [p]) := by
      rw [groupByInstrument, List.foldl_append]
      rfl
    rw [hstep, Std.TreeMap.getElem?_insert, List.filter_append]
    by_cases hp : p.instrumentId = instrumentId
    · have hone : [p].filter (·.instrumentId = instrumentId) = [p] := by simp [hp]
      have hbefore : ((groupByInstrument ps)[p.instrumentId]?).getD [] =
          ps.filter (·.instrumentId = instrumentId) := by
        rw [hp, ih]
        split
        · next hnone => exact hnone.symm
        · rfl
      rw [if_pos (Std.LawfulEqCmp.compare_eq_iff_eq.mpr hp), hbefore, hone,
        if_neg (List.append_ne_nil_of_right_ne_nil _ (List.cons_ne_nil p []))]
    · have hnone : [p].filter (·.instrumentId = instrumentId) = [] := by simp [hp]
      rw [if_neg fun h => hp (Std.LawfulEqCmp.compare_eq_iff_eq.mp h), ih, hnone, List.append_nil]

/-- The results of several groups, one after the other. -/
theorem foldl_append_eq {α : Type} (R : α → ResultSet) (entries : List α) (result : ResultSet) :
    let all := entries.foldl (fun result e => result.append (R e)) result
    all.accepted = result.accepted ++ entries.flatMap (fun e => (R e).accepted) ∧
      all.conflicts = result.conflicts ++ entries.flatMap (fun e => (R e).conflicts) ∧
      all.attributions = result.attributions ++ entries.flatMap (fun e => (R e).attributions) := by
  induction entries generalizing result with
  | nil => simp
  | cons e entries ih =>
    obtain ⟨haccepted, hconflicts, hattributions⟩ := ih (result.append (R e))
    simp only [List.foldl_cons, List.flatMap_cons] at *
    rw [haccepted, hconflicts, hattributions]
    simp only [ResultSet.append, List.append_assoc, and_self]

namespace Coordinator

variable {c : Coordinator}

/-- A part of a group that passes a test which only the group's identities pass. -/
theorem filter_groups {γ : Type} (float : FloatArith) (policy : StrategyPolicy)
    (f : ResultSet → List γ) (test : γ → Bool) (hp : p ∈ c.pending)
    (hother : ∀ i, i ≠ p.instrumentId → c.group i ≠ [] → ∀ x ∈ f (resolveInstrument float policy i
      (c.pending.filter (·.instrumentId = i))), ¬test x = true) :
    ((groupByInstrument c.pending).toList.flatMap fun e =>
        f (resolveInstrument float policy e.1 e.2)).filter test =
      (f (resolveInstrument float policy p.instrumentId
        (c.pending.filter (·.instrumentId = p.instrumentId)))).filter test := by
  have hmem : p ∈ c.pending.filter (·.instrumentId = p.instrumentId) :=
    List.mem_filter.mpr ⟨hp, decide_eq_true rfl⟩
  have hown : (groupByInstrument c.pending)[p.instrumentId]? =
      some (c.pending.filter (·.instrumentId = p.instrumentId)) := by
    rw [groupByInstrument_getElem?, if_neg (List.ne_nil_of_mem hmem)]
  rw [List.filter_flatMap]
  refine MapFilter.flatMap_toList_of_key (h := fun e =>
    (f (resolveInstrument float policy e.1 e.2)).filter test) hown fun i ps hi hne => ?_
  rw [groupByInstrument_getElem?] at hi
  split at hi
  · cases hi
  next hsome =>
  obtain rfl := Option.some.inj hi
  refine List.filter_eq_nil_iff.mpr (hother i hne ?_)
  rw [group]
  exact fun hnil => hsome (List.perm_nil.mp (hnil ▸ (List.mergeSort_perm _ _).symm))

theorem mem_group {i : InstrumentId} : p ∈ c.group i ↔ p ∈ c.pending ∧ p.instrumentId = i := by
  rw [group, List.mem_mergeSort, List.mem_filter, decide_eq_true_iff]

theorem nodup_group (hnodup : (c.pending.map (·.proposalId)).Nodup) (i : InstrumentId) :
    ((c.group i).map (·.proposalId)).Nodup := by
  refine ((List.mergeSort_perm _ resolvesBefore).map _).nodup_iff.mpr ?_
  exact (List.filter_sublist.map _).nodup hnodup

/-- An identity of another group is not the proposal's. -/
theorem not_mem_other (hnodup : (c.pending.map (·.proposalId)).Nodup) (hp : p ∈ c.pending)
    {i : InstrumentId} (hi : i ≠ p.instrumentId) :
    p.proposalId ∉ (c.group i).map (·.proposalId) := by
  intro hmem
  obtain ⟨q, hq, hid⟩ := List.mem_map.mp hmem
  obtain ⟨hq, hqi⟩ := mem_group.mp hq
  obtain rfl := List.inj_on_of_nodup_map hnodup hq hp hid
  exact hi hqi.symm

/-- **What is resolved** agrees with what its instrument comes to, on each proposal. -/
theorem agreesOn_resolve (float : FloatArith) (policy : StrategyPolicy)
    (hnodup : (c.pending.map (·.proposalId)).Nodup) (hp : p ∈ c.pending) :
    (resolveInstrument float policy p.instrumentId
      (c.pending.filter (·.instrumentId = p.instrumentId))).AgreesOn p
        ((c.group p.instrumentId).map (·.proposalId)) (c.resolve float policy).1 := by
  have hwithin : ∀ i, c.group i ≠ [] → (resolveInstrument float policy i
      (c.pending.filter (·.instrumentId = i))).Within ((c.group i).map (·.proposalId)) :=
    fun i hi => within_resolveInstrument float policy i hi
  obtain ⟨haccepted, hconflicts, hattributions⟩ := foldl_append_eq
    (fun e : InstrumentId × List Proposal => resolveInstrument float policy e.1 e.2)
    (groupByInstrument c.pending).toList ⟨[], [], [], []⟩
  refine ⟨?_, ?_, ?_⟩
  · refine (congrArg (List.filter _) hattributions).trans (filter_groups float policy
      (·.attributions) _ hp fun i hi hgroup a ha hmem => ?_)
    exact not_mem_other hnodup hp hi
      ((hwithin i hgroup).sources a ha _ (of_decide_eq_true hmem))
  · refine (congrArg (List.filter _) hconflicts).trans (filter_groups float policy
      (·.conflicts) _ hp fun i hi hgroup conflict hconflict hmem => ?_)
    exact not_mem_other hnodup hp hi
      ((hwithin i hgroup).conflicts conflict hconflict _ (of_decide_eq_true hmem))
  · refine (congrArg (List.filter _) haccepted).trans (filter_groups float policy
      (·.accepted) _ hp fun i hi hgroup q hq hmem => ?_)
    obtain ⟨q', hq', hid⟩ := List.mem_map.mp (of_decide_eq_true hmem)
    obtain ⟨hq', hinstrument⟩ := mem_group.mp hq'
    exact not_mem_other hnodup hq' (hinstrument ▸ hi) (hid ▸ (hwithin i hgroup).accepted q hq)

/-- **A resolution accounts for all** that is pending, unless it nets what cannot be netted. -/
theorem reports_iff (float : FloatArith) (policy : StrategyPolicy)
    (hnodup : (c.pending.map (·.proposalId)).Nodup) :
    c.Reports float policy ↔ (policy = .weightedNet → c.Nets float) := by
  have hsettles : ∀ p ∈ c.pending, (c.resolve float policy).1.Settles p ↔
      (policy = .weightedNet → ¬Opposed float (c.group p.instrumentId) →
        Nettable float (c.group p.instrumentId)) := fun p hp => by
    have hgroup : p ∈ c.group p.instrumentId := mem_group.mpr ⟨hp, rfl⟩
    rw [settles_iff_of_agreesOn (agreesOn_resolve float policy hnodup hp)
      (within_resolveInstrument float policy _ (List.ne_nil_of_mem hgroup))]
    exact settles_resolveInstrument float policy _ (nodup_group hnodup _) hgroup
  have hcloses : ∀ p ∈ c.pending, p.action = .close → ¬Opposed float (c.group p.instrumentId) →
      ((c.resolve float policy).1.Closes p ↔ policy ≠ .weightedNet) :=
      fun p hp hclose hopposed => by
    have hgroup : p ∈ c.group p.instrumentId := mem_group.mpr ⟨hp, rfl⟩
    rw [closes_iff_of_agreesOn (agreesOn_resolve float policy hnodup hp)
      (within_resolveInstrument float policy _ (List.ne_nil_of_mem hgroup))]
    exact closes_resolveInstrument float policy _ hgroup hclose hopposed
  constructor
  · intro h hpolicy p hp hopposed
    exact ⟨fun hclose => (hcloses p hp hclose hopposed).mp (h.closes p hp hclose hopposed) hpolicy,
      (hsettles p hp).mp (h.settles p hp) hpolicy hopposed⟩
  · intro h
    refine ⟨fun p hp => (hsettles p hp).mpr fun hpolicy hopposed => (h hpolicy p hp hopposed).2,
      fun p hp hclose hopposed => (hcloses p hp hclose hopposed).mpr fun hpolicy => ?_⟩
    exact (h hpolicy p hp hopposed).1 hclose

/-- Every pending proposal is on record. -/
structure Queued (c : Coordinator) : Prop where
  nodup : (c.pending.map (·.proposalId)).Nodup
  recorded : ∀ p ∈ c.pending, (c.record p.proposalId).isSome

theorem queued_submit (h : c.Queued) (p : Proposal) : (c.submit p).Queued := by
  unfold submit
  by_cases hknown : (c.record p.proposalId).isSome
  · rwa [if_pos hknown]
  rw [if_neg hknown]
  refine ⟨?_, fun q hq => ?_⟩
  · rw [List.map_append, List.map_singleton]
    refine h.nodup.append (List.nodup_singleton _) fun id hid hnew => hknown ?_
    obtain ⟨q, hq, rfl⟩ := List.mem_map.mp hid
    exact List.mem_singleton.mp hnew ▸ h.recorded q hq
  · show ((c.records.insert p.proposalId ⟨p, .pending⟩)[q.proposalId]?).isSome
    rw [Std.TreeMap.getElem?_insert]
    obtain hq | hq := List.mem_append.mp hq
    · split
      · rfl
      · exact h.recorded q hq
    · obtain rfl := List.mem_singleton.mp hq
      rw [if_pos (Std.LawfulEqCmp.compare_eq_iff_eq.mpr rfl)]
      rfl

theorem queued_submitAll (proposals : List Proposal) : (submitAll proposals).Queued := by
  have hall : ∀ c : Coordinator, c.Queued →
      (proposals.foldl (fun c p => c.submit p) c).Queued := by
    induction proposals with
    | nil => exact fun _ h => h
    | cons p ps ih => exact fun c h => ih _ (queued_submit h p)
  exact hall new ⟨List.nodup_nil, fun p hp => absurd hp List.not_mem_nil⟩

end Coordinator

/-- **The proposals that a resolution accounts for**: all of them, with a proposal that closes for
each that is to close on an instrument without opposite sides, if and only if no such instrument
is netted that has something to close, a weight, or sums that are not finite. -/
theorem proposals_reported_iff (float : FloatArith) (policy : StrategyPolicy)
    (proposals : List Proposal) :
    (Coordinator.submitAll proposals).Reports float policy ↔
      (policy = .weightedNet → (Coordinator.submitAll proposals).Nets float) :=
  Coordinator.reports_iff float policy (Coordinator.queued_submitAll proposals).nodup

/-- A proposal to close a position, and one of a weight, each on an instrument of its own. -/
def Sample.closing : List Proposal :=
  [⟨1, "s", 1, .close, one, 1, 1, [], 0⟩, ⟨2, "s", 2, .targetWeight one, one, 1, 1, [], 0⟩]

/-- Netting leaves the position open, and drops the weight. -/
theorem proposals_reported_netted :
    ¬(Coordinator.submitAll Sample.closing).Reports Sample.float .weightedNet := by
  intro h
  have hpending : (Coordinator.submitAll Sample.closing).pending = Sample.closing := by
    decide
  have hnets := (Coordinator.reports_iff _ _ (Coordinator.queued_submitAll _).nodup).mp h rfl
  rw [Coordinator.Nets, hpending] at hnets
  refine (hnets _ (List.mem_cons_self ..) ?_).1 rfl
  -- both proposals ask for no less than they have, so that no sides are opposite
  rintro ⟨-, p, hp, hless⟩
  obtain ⟨hp, -⟩ := Coordinator.mem_group.mp hp
  rw [hpending] at hp
  have hnever : ∀ p ∈ Sample.closing, ¬p.action.direction Sample.float < 0 := by decide
  exact hnever p hp hless

end InsiderTrader
