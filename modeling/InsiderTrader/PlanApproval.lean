import InsiderTrader.PlanReplay
import InsiderTrader.SubmissionMoves
import Mathlib.Data.List.Nodup

/-!
# Approval of a plan

An account's policy judges the actions of a plan twice: by the operating mode,
and by the bounds on strategies, instruments and notionals. What is approved is
executed later by the submission of an approved action.

## Main definitions

- `approvePlanBound` — the judgment by the mode, then by the bounds of an account
- `executedTarget` — the target that an approved action asks for
- `Granted` — what a policy promises of an approved action
- `Overlooked` — the entries that the entry test does not see

## Main results

- `submitApprovedAction_opens` — an action that is carried out from flat opens a position
- `approvePlanBound_granted_iff` — the plans whose approval keeps the promise
-/

namespace InsiderTrader

open MachineInt Fallible

/-- Permissions of an account; no list permits every healthy strategy, every instrument. -/
structure PermissionPolicy where
  accountId : String
  mode : AutonomyMode
  allowEntries : Bool
  maxScale : F64
  allowedStrategyIds : Option (List String)
  allowedInstrumentIds : Option (List String)
  maxNotionalTicks : Option ℕ
  activeWindow : Option (MonoTime × MonoTime)

/-- Versions and facts captured immediately before an approval. -/
structure ApprovalContext where
  accountId : String
  expectedProposalVersion : ℕ
  proposalVersion : ℕ
  expectedRiskVersion : ℕ
  riskVersion : ℕ
  proposals : List Proposal
  notionalsTicks : Std.TreeMap String ℕ
  unhealthyStrategyIds : List String

/-- An approval and what has to be the same when it is executed. -/
structure BoundApproval where
  approved : List ApprovedAction
  rejected : List (AutonomousAction × RejectReason)
  proposalVersion : ℕ
  riskVersion : ℕ
  proposalDigest : List UInt8

-- The digest of a snapshot

/-- The bytes of an action. -/
def Action.digestBytes : Action → List UInt8
  | noAction => [0]
  | targetQuantity q => 1 :: Wire.signedBytes 8 q
  | targetWeight w => 2 :: LittleEndian.bytes 8 w.bits
  | increase q => 3 :: Wire.signedBytes 8 q
  | decrease q => 4 :: Wire.signedBytes 8 q
  | close => [5]

/-- The bytes of a proposal, closed by a mark. -/
def Proposal.digestBytes (p : Proposal) : List UInt8 :=
  LittleEndian.bytes 16 p.proposalId ++ Wire.utf8 p.strategyId
    ++ LittleEndian.bytes 16 p.instrumentId ++ p.action.digestBytes
    ++ LittleEndian.bytes 8 p.confidence.bits ++ LittleEndian.bytes 8 p.horizonNs
    ++ LittleEndian.bytes 8 p.ttlNs ++ LittleEndian.bytes 8 p.generatedMono
    ++ p.evidence.flatMap (fun e => LittleEndian.bytes 8 e.utf8ByteSize ++ Wire.utf8 e)
    ++ [0xff]

/-- The lanes of a digest before the first byte. -/
def digestLanes : List UInt64 :=
  [0xcbf29ce484222325, 0x84222325cbf29ce4, 0x9e3779b185ebca87, 0xd6e8feb86659fd93]

/-- Mix a byte into all lanes. -/
def feedLanes (lanes : List UInt64) (byte : UInt8) : List UInt64 :=
  lanes.mapIdx fun index lane =>
    (lane ^^^ (byte.toUInt64 + UInt64.ofNat index <<< 8))
      * ((0x0100000001b3 : UInt64) ^^^ UInt64.ofNat index <<< 32)

/-- The digest of a snapshot, which does not depend on the order of the proposals. -/
def proposalSnapshotDigest (proposals : List Proposal) : List UInt8 :=
  let ordered := proposals.mergeSort fun p q => p.proposalId ≤ q.proposalId
  let lanes := (ordered.flatMap Proposal.digestBytes).foldl feedLanes digestLanes
  lanes.flatMap fun lane => LittleEndian.bytes 8 lane.toNat

-- The judgment by the bounds

/-- The proposal that an action names. -/
def findProposal (proposals : List Proposal) (action : AutonomousAction) : Option Proposal :=
  action.proposalId.bind fun id =>
    proposals.find? (displayIdentity "proposal" ·.proposalId = id)

/-- Why the bounds of an account reject an action, if they do. -/
def boundRejection (policy : PermissionPolicy) (context : ApprovalContext)
    (action : AutonomousAction) : Option RejectReason :=
  match findProposal context.proposals action with
  | none => some .proposalUnavailable
  | some proposal =>
    if policy.allowedStrategyIds.any (fun allowed => proposal.strategyId ∉ allowed)
        ∨ proposal.strategyId ∈ context.unhealthyStrategyIds then some .strategyUnavailable
    else if policy.allowedInstrumentIds.any fun allowed =>
        displayIdentity "instrument" proposal.instrumentId ∉ allowed then
      some .instrumentUnavailable
    else if policy.maxNotionalTicks.any fun maxNotional =>
        (context.notionalsTicks[displayIdentity "proposal" proposal.proposalId]?).any
          (maxNotional < ·) then
      some .notionalLimit
    else none

/-- Approve a plan under the policy of an account, in a context. -/
def approvePlanBound (float : FloatArith) (plan : Plan) (now : MonoTime)
    (policy : PermissionPolicy) (context : ApprovalContext) : Except String BoundApproval := do
  plan.validate float now
  if Text.isBlank policy.accountId ∨ context.accountId ≠ policy.accountId
      ∨ ¬float.inPositiveUnit policy.maxScale then
    .error "invalid account policy"
  else if context.expectedProposalVersion ≠ context.proposalVersion
      ∨ context.expectedRiskVersion ≠ context.riskVersion then
    .error "critical context changed"
  else if policy.activeWindow.any fun window => now < window.1 ∨ window.2 < now then
    .error "outside autonomy policy window"
  else
    let judged ← approvePlan float plan now ⟨policy.mode, policy.allowEntries, policy.maxScale⟩
      context.proposals
    .ok {
      approved := judged.1.filter fun a => (boundRejection policy context a.action).isNone
      rejected := judged.2 ++ judged.1.filterMap fun a =>
        (boundRejection policy context a.action).map fun reason => (a.action, reason)
      proposalVersion := context.proposalVersion
      riskVersion := context.riskVersion
      proposalDigest := proposalSnapshotDigest context.proposals }

-- What a policy promises

/-- The target that an approved action asks for, when it is carried out. -/
def executedTarget (float : FloatArith) (portfolio : Portfolio) (approved : ApprovedAction)
    (proposal : Proposal) : Option Target :=
  if approved.action.proposalId = some (displayIdentity "proposal" proposal.proposalId)
      ∧ (approved.action.actionType = .executeProposal
        ∨ approved.action.actionType = .executeProposalScaled)
      ∧ float.inPositiveUnit approved.scale then
    (scaleAction float approved.scale proposal.action).bind fun action =>
      (portfolio.targetFromProposal float { proposal with action := action }).toOption
  else none

/-- A scale in `(0, limit]`. -/
structure InScale (float : FloatArith) (limit scale : F64) : Prop where
  finite : float.isFinite scale
  positive : ¬float.atMost scale float.zero
  within : ¬float.exceeds scale limit

/-- The strategy and the instrument of a proposal are open to an account. -/
structure Permitted (policy : PermissionPolicy) (context : ApprovalContext) (p : Proposal) :
    Prop where
  allowed : ∀ ids, policy.allowedStrategyIds = some ids → p.strategyId ∈ ids
  healthy : p.strategyId ∉ context.unhealthyStrategyIds
  instrument : ∀ ids, policy.allowedInstrumentIds = some ids →
    displayIdentity "instrument" p.instrumentId ∈ ids

/-- The estimated notional of a proposal. -/
def ApprovalContext.notional (context : ApprovalContext) (p : Proposal) : Option ℕ :=
  context.notionalsTicks[displayIdentity "proposal" p.proposalId]?

/-- The bounds of an account hold for an approved action. -/
structure WithinBounds (float : FloatArith) (policy : PermissionPolicy)
    (context : ApprovalContext) (a : ApprovedAction) (p : Proposal) : Prop where
  found : findProposal context.proposals a.action = some p
  permitted : Permitted policy context p
  notional : ∀ bound, policy.maxNotionalTicks = some bound →
    ∃ notional, context.notional p = some notional ∧ notional ≤ bound
  scale : InScale float policy.maxScale a.scale
  entry : policy.mode = .hybrid → policy.allowEntries = false →
    ∀ portfolio target, Portfolio.quantity portfolio p.instrumentId = 0 →
      executedTarget float portfolio a p = some target → target.quantityTicks = 0

/-- **The promise of a policy** for an approved action. -/
def Granted (float : FloatArith) (policy : PermissionPolicy) (context : ApprovalContext)
    (a : ApprovedAction) : Prop := ∃ p, WithinBounds float policy context a p

-- When it is kept

/-- What is used of the arithmetic: a scale below one of the unit interval is in it, and scaling
by it keeps the sign and does not increase the size. -/
structure FloatArith.Scales (float : FloatArith) : Prop where
  inPositiveUnit_of_le : ∀ limit scale, float.inPositiveUnit limit → InScale float limit scale →
    float.inPositiveUnit scale
  sign_scaled : ∀ quantity scale scaled, float.inPositiveUnit scale →
    float.scaledQuantity quantity scale = some scaled → scaled.sign = quantity.sign
  scaled_le : ∀ quantity scale scaled, float.inPositiveUnit scale →
    float.scaledQuantity quantity scale = some scaled → scaled.natAbs ≤ quantity.natAbs

/-- The entries that the entry test does not see: a sale, and a weight that buys or sells at some
equity and mark. -/
def Overlooked (float : FloatArith) (scale : F64) : Action → Prop
  | .targetQuantity q | .increase q => q < 0 ∧ (scaleQuantity float scale q).isSome
  | .decrease q => q ≠ 0 ∧ (scaleQuantity float scale q).isSome
  | .targetWeight w => float.inSignedUnit (float.times w scale) ∧
      ∃ equity mark : Int, 0 < mark ∧
        ∃ q, float.desiredQuantity equity (float.times w scale) mark = some q ∧ q ≠ 0
  | .noAction | .close => False

/-- An action that no check of the approval stops. -/
structure Unstopped (float : FloatArith) (policy : PermissionPolicy) (context : ApprovalContext)
    (action : AutonomousAction) (p : Proposal) : Prop where
  automatic : policy.mode ≠ .manual
  found : findProposal context.proposals action = some p
  scale : InScale float policy.maxScale (action.scale.getD float.one)
  entry : policy.mode = .hybrid → policy.allowEntries = false → p.isEntry = false
  permitted : Permitted policy context p
  notional : ∀ bound notional, policy.maxNotionalTicks = some bound →
    context.notional p = some notional → notional ≤ bound

/-- What the checks leave open: an unknown notional under a bound, and an overlooked entry. -/
structure Covered (float : FloatArith) (policy : PermissionPolicy) (context : ApprovalContext)
    (action : AutonomousAction) (p : Proposal) : Prop where
  known : policy.maxNotionalTicks.isSome → (context.notional p).isSome
  seen : policy.mode = .hybrid → policy.allowEntries = false →
    action.actionType = .executeProposal ∨ action.actionType = .executeProposalScaled →
      ¬Overlooked float (action.scale.getD float.one) p.action

variable {float : FloatArith} {plan : Plan} {now : MonoTime} {policy : PermissionPolicy}
  {context : ApprovalContext} {approval : BoundApproval} {a : ApprovedAction}
  {action : AutonomousAction} {p : Proposal} {scale : F64}

-- The judgments

theorem findProposal_proposalId {proposals : List Proposal}
    (h : findProposal proposals action = some p) :
    action.proposalId = some (displayIdentity "proposal" p.proposalId) := by
  obtain ⟨id, hid, hfind⟩ := Option.bind_eq_some_iff.mp h
  have hsame := List.find?_some hfind
  rw [hid, of_decide_eq_true hsame]

theorem not_inScale_iff {limit : F64} : ¬InScale float limit scale ↔
    ¬float.isFinite scale ∨ float.atMost scale float.zero ∨ float.exceeds scale limit := by
  constructor
  · intro h
    by_contra hnot
    simp only [not_or, not_not] at hnot
    exact h ⟨hnot.1, hnot.2.1, hnot.2.2⟩
  · rintro (hfinite | hzero | hexceeds) h
    · exact hfinite h.finite
    · exact h.positive hzero
    · exact h.within hexceeds

/-- What the judgment by the mode lets pass. -/
theorem approveAction_eq_ok {mode : AutonomyPolicy} {proposals : List Proposal} :
    approveAction float mode proposals action = .ok a ↔
      mode.mode ≠ .manual ∧
      ((action.actionType = .executeProposal ∨ action.actionType = .executeProposalScaled) →
        findProposal proposals action ≠ none) ∧
      InScale float mode.maxScale (action.scale.getD float.one) ∧
      (mode.mode = .hybrid → mode.allowEntries = false →
        ∀ p, findProposal proposals action = some p → p.isEntry = false) ∧
      a = ⟨action, action.scale.getD float.one⟩ := by
  have heq : approveAction float mode proposals action =
      if mode.mode = .manual then .error .manualMode
      else if (action.actionType = .executeProposal ∨ action.actionType = .executeProposalScaled)
          ∧ (findProposal proposals action).isNone then .error .proposalUnavailable
      else if ¬float.isFinite (action.scale.getD float.one)
          ∨ float.atMost (action.scale.getD float.one) float.zero
          ∨ float.exceeds (action.scale.getD float.one) mode.maxScale then .error .scaleLimit
      else if mode.mode = .hybrid ∧ ¬mode.allowEntries
          ∧ (findProposal proposals action).any (·.isEntry) then .error .policy
      else .ok ⟨action, action.scale.getD float.one⟩ := rfl
  rw [heq]
  constructor
  · intro h
    split at h
    · cases h
    next hmanual =>
    split at h
    · cases h
    next hfound =>
    split at h
    · cases h
    next hscale =>
    split at h
    · cases h
    next hentry =>
    cases h
    refine ⟨hmanual, fun hexecutes hnone => hfound ⟨hexecutes, Option.isNone_iff_eq_none.mpr hnone⟩,
      not_not.mp fun hout => hscale (not_inScale_iff.mp hout), fun hhybrid hallow p hp => ?_, rfl⟩
    by_contra hne
    exact hentry ⟨hhybrid, by simp [hallow],
      (Option.any_eq_true _ _).mpr ⟨p, hp, Bool.eq_true_of_not_eq_false hne⟩⟩
  · rintro ⟨hmanual, hfound, hscale, hentry, rfl⟩
    rw [if_neg hmanual, if_neg, if_neg, if_neg]
    · rintro ⟨hhybrid, hallow, hany⟩
      obtain ⟨p, hp, hisentry⟩ := (Option.any_eq_true _ _).mp hany
      rw [hentry hhybrid (by simpa using hallow) p hp] at hisentry
      cases hisentry
    · exact fun hout => not_inScale_iff.mpr hout hscale
    · rintro ⟨hexecutes, hnone⟩
      exact hfound hexecutes (Option.isNone_iff_eq_none.mp hnone)

/-- What the judgment by the bounds lets pass. -/
theorem boundRejection_eq_none :
    boundRejection policy context action = none ↔
      ∃ p, findProposal context.proposals action = some p ∧ Permitted policy context p ∧
        ∀ bound notional, policy.maxNotionalTicks = some bound →
          context.notional p = some notional → notional ≤ bound := by
  unfold boundRejection
  cases hfind : findProposal context.proposals action with
  | none => simp
  | some p =>
    dsimp only
    constructor
    · intro h
      split at h
      · cases h
      next hstrategy =>
      split at h
      · cases h
      next hinstrument =>
      split at h
      · cases h
      next hnotional =>
      rw [not_or] at hstrategy
      refine ⟨p, rfl, ⟨fun ids hids => ?_, hstrategy.2, fun ids hids => ?_⟩,
        fun bound notional hbound hget => ?_⟩
      · simpa [hids] using hstrategy.1
      · simpa [hids] using hinstrument
      · rw [ApprovalContext.notional] at hget
        simpa [hbound, hget] using hnotional
    · rintro ⟨p', hp', ⟨hallowed, hhealthy, hinstrument⟩, hnotional⟩
      cases hp'
      rw [if_neg, if_neg, if_neg]
      · intro hany
        obtain ⟨bound, hbound, hany⟩ := (Option.any_eq_true _ _).mp hany
        obtain ⟨notional, hget, hlt⟩ := (Option.any_eq_true _ _).mp hany
        have hle := hnotional bound notional hbound hget
        exact absurd (of_decide_eq_true hlt) (by omega)
      · intro hany
        obtain ⟨ids, hids, hnot⟩ := (Option.any_eq_true _ _).mp hany
        exact of_decide_eq_true hnot (hinstrument ids hids)
      · rintro (hany | hunhealthy)
        · obtain ⟨ids, hids, hnot⟩ := (Option.any_eq_true _ _).mp hany
          exact of_decide_eq_true hnot (hallowed ids hids)
        · exact hhealthy hunhealthy

-- The plan

theorem mem_approvePlan {mode : AutonomyPolicy} {proposals : List Proposal}
    {judged : Approval} (h : approvePlan float plan now mode proposals = .ok judged) :
    a ∈ judged.1 ↔ ∃ action ∈ plan.actions, approveAction float mode proposals action = .ok a := by
  obtain ⟨-, -, h⟩ := Wire.bind_eq_ok.mp h
  split at h
  · cases h
    simp only [List.mem_filterMap, List.mem_map, exists_exists_and_eq_and]
    refine exists_congr fun action => and_congr_right fun _ => ?_
    cases approveAction float mode proposals action <;> simp [Except.toOption]
  · cases h

/-- An approval consists of the actions that both judgments let pass. -/
theorem approvePlanBound_eq_ok
    (h : approvePlanBound float plan now policy context = .ok approval) :
    float.inPositiveUnit policy.maxScale ∧
      ∃ judged, approvePlan float plan now ⟨policy.mode, policy.allowEntries, policy.maxScale⟩
          context.proposals = .ok judged ∧
        approval.approved =
          judged.1.filter fun a => (boundRejection policy context a.action).isNone := by
  obtain ⟨-, -, h⟩ := Wire.bind_eq_ok.mp h
  split at h
  · cases h
  next haccount =>
  split at h
  · cases h
  split at h
  · cases h
  obtain ⟨judged, hjudged, h⟩ := Wire.bind_eq_ok.mp h
  cases h
  simp only [not_or, not_not] at haccount
  exact ⟨haccount.2.2, judged, hjudged, rfl⟩

/-- **What is approved**: the actions that no check stops, each at its scale. -/
theorem mem_approved (h : approvePlanBound float plan now policy context = .ok approval) :
    a ∈ approval.approved ↔ ∃ action ∈ plan.actions, ∃ p,
      Unstopped float policy context action p ∧ a = ⟨action, action.scale.getD float.one⟩ := by
  obtain ⟨-, judged, hjudged, happroved⟩ := approvePlanBound_eq_ok h
  rw [happroved, List.mem_filter, mem_approvePlan hjudged, Option.isNone_iff_eq_none,
    boundRejection_eq_none]
  simp only [approveAction_eq_ok]
  constructor
  · rintro ⟨⟨action, hmem, hmode, -, hscale, hentry, rfl⟩, p, hp, hpermitted, hnotional⟩
    exact ⟨action, hmem, p, ⟨hmode, hp, hscale, fun hhybrid hallow => hentry hhybrid hallow p hp,
      hpermitted, hnotional⟩, rfl⟩
  · rintro ⟨action, hmem, p, hp, rfl⟩
    refine ⟨⟨action, hmem, hp.automatic, fun _ hnone => ?_, hp.scale,
      fun hhybrid hallow p' hp' => ?_, rfl⟩, p, hp.found, hp.permitted, hp.notional⟩
    · cases hnone.symm.trans hp.found
    · cases hp'.symm.trans hp.found
      exact hp.entry hhybrid hallow

-- The target of an execution

theorem executedTarget_eq_some {portfolio : Portfolio} {target : Target} :
    executedTarget float portfolio a p = some target ↔
      a.action.proposalId = some (displayIdentity "proposal" p.proposalId) ∧
      (a.action.actionType = .executeProposal ∨ a.action.actionType = .executeProposalScaled) ∧
      float.inPositiveUnit a.scale ∧ ∃ scaled, scaleAction float a.scale p.action = some scaled ∧
        portfolio.targetFromProposal float { p with action := scaled } = .ok target := by
  unfold executedTarget
  split
  · next hexecuted =>
    rw [Option.bind_eq_some_iff]
    constructor
    · rintro ⟨scaled, hscaled, htarget⟩
      refine ⟨hexecuted.1, hexecuted.2.1, hexecuted.2.2, scaled, hscaled, ?_⟩
      cases hrun : portfolio.targetFromProposal float { p with action := scaled } with
      | error e =>
        rw [hrun] at htarget
        cases htarget
      | ok t =>
        rw [hrun] at htarget
        cases htarget
        rfl
    · rintro ⟨-, -, -, scaled, hscaled, htarget⟩
      exact ⟨scaled, hscaled, by rw [htarget]; rfl⟩
  · next hnot =>
    exact ⟨fun h => (by cases h), fun h => absurd ⟨h.1, h.2.1, h.2.2.1⟩ hnot⟩

/-- A quantity that is scaled keeps its sign, and stays within what a double represents. -/
theorem scaleQuantity_spec (hfloat : float.Scales) (hscale : float.inPositiveUnit scale)
    {q scaled : Int} (h : scaleQuantity float scale q = some scaled) :
    (scaled = 0 ↔ q = 0) ∧ scaled.natAbs ≤ 2 ^ 53 := by
  unfold scaleQuantity at h
  split at h
  · cases h
  · next hsmall =>
    have hle := hfloat.scaled_le q scale scaled hscale h
    refine ⟨?_, by omega⟩
    rw [← Int.sign_eq_zero_iff_zero, hfloat.sign_scaled q scale scaled hscale h,
      Int.sign_eq_zero_iff_zero]

/-- From a flat position an execution asks for zero, or the action was overlooked. -/
theorem executedTarget_flat (hfloat : float.Scales) {portfolio : Portfolio} {target : Target}
    (hflat : portfolio.quantity p.instrumentId = 0) (hentry : p.isEntry = false)
    (h : executedTarget float portfolio a p = some target) :
    target.quantityTicks = 0 ∨ Overlooked float a.scale p.action := by
  obtain ⟨-, -, hscale, scaled, hscaled, htarget⟩ := executedTarget_eq_some.mp h
  unfold Portfolio.targetFromProposal at htarget
  unfold Proposal.isEntry at hentry
  cases haction : p.action with
  | noAction =>
    rw [haction] at hscaled
    cases hscaled
  | close =>
    rw [haction] at hscaled
    cases hscaled
    cases htarget
    exact .inl rfl
  | targetQuantity q =>
    rw [haction] at hscaled hentry
    obtain ⟨s, hs, rfl⟩ := Option.map_eq_some_iff.mp hscaled
    cases htarget
    have hzero := (scaleQuantity_spec hfloat hscale hs).1
    have hle := of_decide_eq_false hentry
    by_cases hq : q = 0
    · exact .inl (hzero.mpr hq)
    · exact .inr ⟨by omega, by rw [hs]; rfl⟩
  | increase q =>
    rw [haction] at hscaled hentry
    obtain ⟨s, hs, rfl⟩ := Option.map_eq_some_iff.mp hscaled
    have hzero := (scaleQuantity_spec hfloat hscale hs).1
    have hle := of_decide_eq_false hentry
    by_cases hq : q = 0
    · dsimp only at htarget
      rw [hflat, hzero.mpr hq] at htarget
      cases htarget
      exact .inl rfl
    · exact .inr ⟨by omega, by rw [hs]; rfl⟩
  | decrease q =>
    rw [haction] at hscaled
    obtain ⟨s, hs, rfl⟩ := Option.map_eq_some_iff.mp hscaled
    have hzero := (scaleQuantity_spec hfloat hscale hs).1
    by_cases hq : q = 0
    · dsimp only at htarget
      rw [hflat, hzero.mpr hq] at htarget
      cases htarget
      exact .inl rfl
    · exact .inr ⟨hq, by rw [hs]; rfl⟩
  | targetWeight w =>
    rw [haction] at hscaled
    cases hscaled
    dsimp only at htarget
    split at htarget
    · cases htarget
    next hweight =>
    split at htarget
    · cases htarget
    next mark hmark =>
    split at htarget
    · cases htarget
    next hpos =>
    split at htarget
    · cases htarget
    next equity hequity =>
    cases hdesired : float.desiredQuantity equity (float.times w a.scale) mark with
    | none =>
      rw [hdesired] at htarget
      cases htarget
    | some quantity =>
      rw [hdesired] at htarget
      cases htarget
      by_cases hq : quantity = 0
      · exact .inl hq
      · exact .inr ⟨not_not.mp hweight, equity, mark, by omega, quantity, hdesired, hq⟩

/-- A portfolio without positions, with cash and a mark. -/
def Portfolio.cashAt (instrumentId : InstrumentId) (cashTicks mark : Int) : Portfolio :=
  { Portfolio.new with cashTicks := cashTicks, marks := Std.TreeMap.empty.insert instrumentId mark }

theorem Portfolio.quantity_cashAt (instrumentId : InstrumentId) (cashTicks mark : Int) :
    (Portfolio.cashAt instrumentId cashTicks mark).quantity instrumentId = 0 := by
  rw [quantity, position, cashAt, new]
  simp

theorem Portfolio.equityTicks_cashAt (instrumentId : InstrumentId) (cashTicks mark : Int) :
    (Portfolio.cashAt instrumentId cashTicks mark).equityTicks = some cashTicks := rfl

theorem Portfolio.markPrice_cashAt (instrumentId : InstrumentId) (cashTicks mark : Int) :
    (Portfolio.cashAt instrumentId cashTicks mark).markPrice instrumentId = some mark := by
  rw [markPrice, cashAt]
  simp

/-- An overlooked action moves some flat portfolio. -/
theorem exists_executedTarget (hfloat : float.Scales) (hscale : float.inPositiveUnit a.scale)
    (hid : a.action.proposalId = some (displayIdentity "proposal" p.proposalId))
    (hexecutes : a.action.actionType = .executeProposal
      ∨ a.action.actionType = .executeProposalScaled)
    (h : Overlooked float a.scale p.action) :
    ∃ portfolio target, Portfolio.quantity portfolio p.instrumentId = 0 ∧
      executedTarget float portfolio a p = some target ∧ target.quantityTicks ≠ 0 := by
  -- cash and mark matter for a weight only
  suffices ∃ scaled, scaleAction float a.scale p.action = some scaled ∧ ∃ cash mark quantity,
      (Portfolio.cashAt p.instrumentId cash mark).targetFromProposal float
        { p with action := scaled } = .ok ⟨p.instrumentId, quantity, p.proposalId⟩ ∧
      quantity ≠ 0 by
    obtain ⟨scaled, hscaled, cash, mark, quantity, htarget, hne⟩ := this
    exact ⟨_, _, Portfolio.quantity_cashAt p.instrumentId cash mark,
      executedTarget_eq_some.mpr ⟨hid, hexecutes, hscale, scaled, hscaled, htarget⟩, hne⟩
  unfold Portfolio.targetFromProposal
  simp only [Portfolio.quantity_cashAt]
  cases haction : p.action with
  | noAction | close =>
    rw [haction] at h
    cases h
  | targetQuantity q =>
    rw [haction] at h
    obtain ⟨s, hs⟩ := Option.isSome_iff_exists.mp h.2
    have hspec := scaleQuantity_spec hfloat hscale hs
    refine ⟨_, (congrArg (Option.map Action.targetQuantity) hs :), 0, 1, s, rfl, ?_⟩
    have := h.1
    omega
  | increase q =>
    rw [haction] at h
    obtain ⟨s, hs⟩ := Option.isSome_iff_exists.mp h.2
    have hspec := scaleQuantity_spec hfloat hscale hs
    have hfits : narrow 64 (0 + s) = some s := by
      rw [zero_add, narrow_of_fits (fits_64_iff.mpr (by omega))]
    refine ⟨_, (congrArg (Option.map Action.increase) hs :), 0, 1, s, ?_, ?_⟩
    · dsimp only
      rw [hfits]
      rfl
    · have := h.1
      omega
  | decrease q =>
    rw [haction] at h
    obtain ⟨s, hs⟩ := Option.isSome_iff_exists.mp h.2
    have hspec := scaleQuantity_spec hfloat hscale hs
    have hfits : narrow 64 (0 - s) = some (-s) := by
      rw [zero_sub, narrow_of_fits (fits_64_iff.mpr (by omega))]
    refine ⟨_, (congrArg (Option.map Action.decrease) hs :), 0, 1, -s, ?_, ?_⟩
    · dsimp only
      rw [hfits]
      rfl
    · have := h.1
      omega
  | targetWeight w =>
    rw [haction] at h
    obtain ⟨hweight, equity, mark, hpos, q, hq, hne⟩ := h
    refine ⟨_, rfl, equity, mark, q, ?_, hne⟩
    dsimp only
    rw [if_neg (not_not.mpr hweight), Portfolio.markPrice_cashAt]
    dsimp only [Option.or]
    rw [if_neg (by omega), Portfolio.equityTicks_cashAt]
    dsimp only
    rw [hq]
    rfl

-- The execution

/-- A flat position that is asked to stay flat does. -/
theorem RiskEngine.Passes.flat {risk : RiskEngine} {portfolio : Portfolio} {target : Target}
    {safe : Int} (h : risk.Passes portfolio target safe)
    (hflat : portfolio.quantity target.instrumentId = 0) (hzero : target.quantityTicks = 0) :
    safe = 0 := by
  obtain ⟨-, hlimits, -, hlimited, -⟩ := h
  have hpos : 0 < risk.limits.maxPositionTicks := by omega
  have hbetween := RiskEngine.positionLimited_between hpos target.quantityTicks
  have hcases := RiskEngine.orderLimited_eq_some hlimited
  rw [hflat] at hcases
  generalize RiskEngine.positionLimited _ _ = limited at *
  obtain rfl : limited = 0 := by omega
  simp only [Int.sign_zero, zero_mul] at hcases
  omega

/-- A proposal that is planned from a flat position asks for another one. -/
theorem Runtime.prepareProposal_opens {env : Env} {traceId : TraceId} {r r' : Runtime}
    {intent : OrderIntent} (hflat : r.portfolio.quantity p.instrumentId = 0)
    (h : prepareProposal env p now traceId r = (.ok intent, r')) :
    ∃ target, r.portfolio.targetFromProposal env.float p = .ok target ∧
      target.quantityTicks ≠ 0 := by
  obtain ⟨_, -, h⟩ := ofExcept_bind_eq_ok h
  rw [reads_bind] at h
  obtain ⟨target, htarget, h⟩ := ofExcept_bind_eq_ok h
  have htarget := mapError_eq_ok.mp htarget
  rw [planTarget, reads_bind] at h
  obtain ⟨inputs, _, -, h⟩ := bind_eq_ok h
  rw [ofExcept_apply, Prod.mk.injEq, mapError_eq_ok] at h
  obtain ⟨safe, delta, haccepts, hdelta, hne, -⟩ := planTargetWithGuardrails_eq_ok h.1
  refine ⟨target, htarget, fun hzero => ?_⟩
  have hflat' : r.portfolio.quantity target.instrumentId = 0 := by
    rw [(Portfolio.targetFromProposal_eq_ok htarget).1, hflat]
  have hsafe := (RiskEngine.accepts_iff_passes.mp haccepts).flat hflat' hzero
  change delta = safe - r.portfolio.quantity target.instrumentId at hdelta
  omega

/-- **The execution**: an approved action that is carried out from a flat position asks for
another one. -/
theorem Host.submitApprovedAction_opens {env : Env} {traceId : TraceId} {h h' : Host}
    {clientOrderId : String} (hflat : h.runtime.portfolio.quantity p.instrumentId = 0)
    (hrun : submitApprovedAction env a p now traceId h = (.ok clientOrderId, h')) :
    ∃ target, executedTarget env.float h.runtime.portfolio a p = some target ∧
      target.quantityTicks ≠ 0 := by
  obtain ⟨_, s, hrunning, hrest⟩ := bind_eq_ok hrun
  obtain ⟨-, rfl⟩ := requireRunning_eq_ok hrunning
  obtain ⟨proposalId, hid, hrest⟩ := orFail_bind_eq_ok hrest
  obtain ⟨hexecutes, hrest⟩ := require_bind_eq_ok hrest
  obtain ⟨hscale, hrest⟩ := require_bind_eq_ok hrest
  obtain ⟨scaled, s₁, hscaled, hrest⟩ := bind_eq_ok hrest
  obtain ⟨action, haction, hpure⟩ := orFail_bind_eq_ok hscaled
  cases hpure
  obtain ⟨intent, s₂, hplanned, -⟩ := bind_eq_ok hrest
  obtain ⟨_, s₃, hrunning', hplan⟩ := bind_eq_ok hplanned
  obtain ⟨-, rfl⟩ := requireRunning_eq_ok hrunning'
  rw [reads_bind] at hplan
  obtain ⟨_, -, hplan⟩ := ofExcept_bind_eq_ok hplan
  obtain ⟨_, -, hplan⟩ := ofExcept_bind_eq_ok hplan
  obtain ⟨target, htarget, hne⟩ := Runtime.prepareProposal_opens
    (p := { p with action := action }) hflat (onRuntime_eq_ok hplan)
  exact ⟨target, executedTarget_eq_some.mpr ⟨hid.trans (congrArg some hexecutes.1), hexecutes.2,
    hscale, action, haction, htarget⟩, hne⟩

/-- **The bounds of an account and what they miss**: an approval keeps the promise for every action
exactly when the notionals are known where they are bounded, and no entry is overlooked. -/
theorem approvePlanBound_granted_iff (hfloat : float.Scales)
    (h : approvePlanBound float plan now policy context = .ok approval) :
    (∀ a ∈ approval.approved, Granted float policy context a) ↔
      ∀ action ∈ plan.actions, ∀ p, Unstopped float policy context action p →
        Covered float policy context action p := by
  obtain ⟨hunit, -⟩ := approvePlanBound_eq_ok h
  constructor
  · intro hgranted action hmem p hp
    obtain ⟨p', hbounds⟩ := hgranted _ ((mem_approved h).mpr ⟨action, hmem, p, hp, rfl⟩)
    cases hp.found.symm.trans hbounds.found
    refine ⟨fun hbound => ?_, fun hhybrid hallow hexecutes hoverlooked => ?_⟩
    · obtain ⟨bound, hbound⟩ := Option.isSome_iff_exists.mp hbound
      obtain ⟨notional, hknown, -⟩ := hbounds.notional bound hbound
      rw [hknown]
      rfl
    · obtain ⟨portfolio, target, hflat, hexecuted, hne⟩ := exists_executedTarget
        (a := ⟨action, action.scale.getD float.one⟩) hfloat
        (hfloat.inPositiveUnit_of_le _ _ hunit hp.scale) (findProposal_proposalId hp.found)
        hexecutes hoverlooked
      exact hne (hbounds.entry hhybrid hallow portfolio target hflat hexecuted)
  · intro hcovered a ha
    obtain ⟨action, hmem, p, hp, rfl⟩ := (mem_approved h).mp ha
    obtain ⟨hknown, hseen⟩ := hcovered action hmem p hp
    refine ⟨p, hp.found, hp.permitted, fun bound hbound => ?_, hp.scale,
      fun hhybrid hallow portfolio target hflat hexecuted => ?_⟩
    · obtain ⟨notional, hget⟩ := Option.isSome_iff_exists.mp (hknown (by rw [hbound]; rfl))
      exact ⟨notional, hget, hp.notional bound notional hbound hget⟩
    · have hexecutes := (executedTarget_eq_some.mp hexecuted).2.1
      exact (executedTarget_flat hfloat hflat (hp.entry hhybrid hallow) hexecuted).resolve_right
        (hseen hhybrid hallow hexecutes)

-- Two accounts

namespace Sample

theorem scaledQuantity_one (hscale : Sample.float.inPositiveUnit scale) (quantity : Int) :
    Sample.float.scaledQuantity quantity scale = some quantity := by
  have hone : scale = one := of_decide_eq_true hscale
  exact if_pos hone

theorem float_scales : Sample.float.Scales where
  inPositiveUnit_of_le limit scale hlimit hscale := by
    have hfinite : scale = ⟨0⟩ ∨ scale = one := of_decide_eq_true hscale.finite
    refine decide_eq_true (hfinite.resolve_left fun hzero => hscale.positive ?_)
    exact decide_eq_true (.inl hzero)
  sign_scaled quantity scale scaled hscale h := by
    rw [scaledQuantity_one hscale quantity] at h
    cases h
    rfl
  scaled_le quantity scale scaled hscale h := by
    rw [scaledQuantity_one hscale quantity] at h
    cases h
    exact le_rfl

/-- A proposal about instrument 7. -/
def proposed (action : Action) : Proposal := ⟨9, "s", 7, action, one, 100, 100, [], 1⟩

/-- A plan that executes the proposal. -/
def proposalPlan : Plan :=
  ⟨"p", 1, 100, [⟨.executeProposal, some (displayIdentity "proposal" 9), none, ["signal"]⟩]⟩

/-- Permissions for strategy `s` with a bound of ten ticks. -/
def permissions (mode : AutonomyMode) : PermissionPolicy :=
  ⟨"account-a", mode, false, one, some ["s"], none, some 10, none⟩

/-- A context with one proposal, and the notionals that are known of it. -/
def snapshot (action : Action) (notionals : Std.TreeMap String ℕ) : ApprovalContext :=
  ⟨"account-a", 3, 3, 1, 1, [proposed action], notionals, []⟩

/-- A notional of eight ticks for the proposal. -/
def known : Std.TreeMap String ℕ := Std.TreeMap.empty.insert (displayIdentity "proposal" 9) 8

/-- What is approved of the plan. -/
def approves (action : Action) : BoundApproval :=
  ⟨[⟨⟨.executeProposal, some (displayIdentity "proposal" 9), none, ["signal"]⟩, one⟩], [], 3, 1,
    proposalSnapshotDigest [proposed action]⟩

end Sample

/-- Closing under a known notional is approved as promised. -/
theorem granted_close :
    approvePlanBound Sample.float Sample.proposalPlan 2 (Sample.permissions .hybrid)
        (Sample.snapshot .close Sample.known) = .ok (Sample.approves .close) ∧
      ∀ a ∈ (Sample.approves .close).approved,
        Granted Sample.float (Sample.permissions .hybrid)
          (Sample.snapshot .close Sample.known) a := by
  have hrun : approvePlanBound Sample.float Sample.proposalPlan 2 (Sample.permissions .hybrid)
      (Sample.snapshot .close Sample.known) = .ok (Sample.approves .close) := rfl
  refine ⟨hrun, (approvePlanBound_granted_iff Sample.float_scales hrun).mpr
    fun action haction p hp => ?_⟩
  obtain rfl := List.mem_singleton.mp haction
  obtain rfl : Sample.proposed .close = p := Option.some.inj hp.found
  exact ⟨fun _ => by decide, fun _ _ _ => id⟩

/-- A purchase whose notional is unknown is approved under a bound, and a sale without entries. -/
theorem ungranted_approvals :
    (approvePlanBound Sample.float Sample.proposalPlan 2 (Sample.permissions .autonomous)
        (Sample.snapshot (.increase 2) ∅) = .ok (Sample.approves (.increase 2)) ∧
      ¬∀ a ∈ (Sample.approves (.increase 2)).approved,
        Granted Sample.float (Sample.permissions .autonomous)
          (Sample.snapshot (.increase 2) ∅) a) ∧
    (approvePlanBound Sample.float Sample.proposalPlan 2 (Sample.permissions .hybrid)
        (Sample.snapshot (.decrease 2) Sample.known) = .ok (Sample.approves (.decrease 2)) ∧
      ¬∀ a ∈ (Sample.approves (.decrease 2)).approved,
        Granted Sample.float (Sample.permissions .hybrid)
          (Sample.snapshot (.decrease 2) Sample.known) a) := by
  refine ⟨⟨rfl, fun hgranted => ?_⟩, rfl, fun hgranted => ?_⟩
  · obtain ⟨p, hp⟩ := hgranted _ (List.mem_singleton.mpr rfl)
    obtain ⟨notional, hknown, -⟩ := hp.notional 10 rfl
    obtain rfl : Sample.proposed (.increase 2) = p := Option.some.inj hp.found
    cases hknown
  · obtain ⟨p, hp⟩ := hgranted _ (List.mem_singleton.mpr rfl)
    obtain rfl : Sample.proposed (.decrease 2) = p := Option.some.inj hp.found
    -- a sale of two ticks from a portfolio without positions
    have hsells : executedTarget Sample.float Portfolio.new
        ⟨⟨.executeProposal, some (displayIdentity "proposal" 9), none, ["signal"]⟩, Sample.one⟩
        (Sample.proposed (.decrease 2)) = some ⟨7, -2, 9⟩ := rfl
    have hzero := hp.entry rfl rfl Portfolio.new _ rfl hsells
    cases hzero

end InsiderTrader
