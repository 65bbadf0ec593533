import InsiderTrader.Library.WireList
import InsiderTrader.Llm

/-!
# Plan events in the journal

An event of the plan lifecycle as bytes. A text stands after a length of 32
bits, and a decoder accepts texts, lists and events within its own bounds; the
plan of a submission is validated again, at the time it was generated.

## Main definitions

- `encodePlanEvent`, `decodePlanEvent` — an event, written and read
- `Plan.Stored` — a plan that the decoder takes back
- `Plan.Fits` — the numbers of a plan have 64 bits

## Main results

- `decodePlanEvent_submitted_iff` — which submissions are read back
- `decodePlanEvent_transition` — the lifecycle steps of short identities are read back
-/

namespace InsiderTrader

open Wire

namespace PlanEvents

/-- The mark of an event. -/
def magic : List UInt8 := utf8 "IT_PLAN_EVENT_V1" ++ [0]

/-- The greatest event in bytes. -/
def maxPlanBytes : ℕ := 4 * 1024 * 1024

/-- The greatest text in bytes. -/
def maxStringBytes : ℕ := 1048576

/-- The greatest number of actions of a plan. -/
def maxActions : ℕ := 4096

/-- The greatest number of reason codes of an action. -/
def maxReasons : ℕ := 256

def malformed (message : String) : LlmError := .malformedOutput message

-- Codes

def actionTypeCode : ActionType → UInt8
  | .executeProposal => 1
  | .executeProposalScaled => 2
  | .ignoreProposal => 3
  | .pauseStrategy => 4
  | .resumeStrategy => 5
  | .requestReanalysis => 6
  | .addToWatch => 7
  | .removeFromWatch => 8
  | .reduceAutonomy => 9
  | .noAction => 10

def decodeActionType : ℕ → Except LlmError ActionType
  | 1 => .ok .executeProposal
  | 2 => .ok .executeProposalScaled
  | 3 => .ok .ignoreProposal
  | 4 => .ok .pauseStrategy
  | 5 => .ok .resumeStrategy
  | 6 => .ok .requestReanalysis
  | 7 => .ok .addToWatch
  | 8 => .ok .removeFromWatch
  | 9 => .ok .reduceAutonomy
  | 10 => .ok .noAction
  | _ => .error (malformed "unknown action type")

def planStateCode : PlanState → UInt8
  | .pending => 1
  | .approved => 2
  | .rejected => 3
  | .expired => 4
  | .executing => 5
  | .completed => 6
  | .failed => 7

def decodePlanState : ℕ → Except LlmError PlanState
  | 1 => .ok .pending
  | 2 => .ok .approved
  | 3 => .ok .rejected
  | 4 => .ok .expired
  | 5 => .ok .executing
  | 6 => .ok .completed
  | 7 => .ok .failed
  | _ => .error (malformed "unknown plan state")

-- Writing

def pushString (value : String) : List UInt8 := cappedBytes 4 (utf8 value).length ++ utf8 value

def pushOptionalString : Option String → List UInt8
  | none => [0]
  | some value => 1 :: pushString value

def pushAction (action : AutonomousAction) : List UInt8 :=
  [[actionTypeCode action.actionType], pushOptionalString action.proposalId,
    [if action.scale.isSome then 1 else 0], LittleEndian.bytes 8 (action.scale.elim 0 (·.bits)),
    listBytes 2 pushString action.reasonCodes].flatten

/-- The bytes of an event. -/
def encodePlanEvent : PlanEvent → List UInt8
  | .submitted plan => [magic, [1], pushString plan.planId, LittleEndian.bytes 8 plan.generatedAt,
      LittleEndian.bytes 8 plan.expiresAt, listBytes 4 pushAction plan.actions].flatten
  | .transition planId state => [magic, [2], pushString planId, [planStateCode state]].flatten

-- Reading

abbrev Reader (α : Type) : Type := Wire.Reader LlmError α

def readNumber (width : ℕ) : Reader ℕ := number (malformed "truncated plan event") width

/-- The text of the bytes that were taken. -/
def decodeText (bytes : List UInt8) : Reader String :=
  match fromUtf8 bytes with
  | some value => pure value
  | none => Reader.fail (malformed "invalid UTF-8")

def readString : Reader String := do
  let length ← readNumber 4
  Reader.require (length ≤ maxStringBytes) (malformed "string exceeds bound")
  let bytes ← Reader.take (malformed "truncated plan event") length
  decodeText bytes

def readOptionalString : Reader (Option String) := do
  let marker ← readNumber 1
  if marker = 0 then pure none
  else if marker = 1 then do
    let value ← readString
    pure (some value)
  else Reader.fail (malformed "invalid optional string marker")

def readReasons : Reader (List String) :=
  listOf (malformed "truncated plan event") (malformed "reason count exceeds bound") 2 maxReasons
    readString

def readAction : Reader AutonomousAction := do
  let code ← readNumber 1
  let actionType ← Reader.ofExcept (decodeActionType code)
  let proposalId ← readOptionalString
  let hasScale ← readNumber 1
  Reader.require (hasScale ≤ 1) (malformed "invalid scale marker")
  let scale ← readNumber 8
  let reasonCodes ← readReasons
  pure ⟨actionType, proposalId, if hasScale = 1 then some ⟨scale⟩ else none, reasonCodes⟩

def readActions : Reader (List AutonomousAction) :=
  listOf (malformed "truncated plan event") (malformed "action count exceeds bound") 4 maxActions
    readAction

def readPlan : Reader Plan := do
  let planId ← readString
  let generatedAt ← readNumber 8
  let expiresAt ← readNumber 8
  let actions ← readActions
  pure ⟨planId, generatedAt, expiresAt, actions⟩

def readTransition : Reader PlanEvent := do
  let planId ← readString
  let code ← readNumber 1
  let state ← Reader.ofExcept (decodePlanState code)
  pure (.transition planId state)

/-- Nothing is left. -/
def readEnd (trailing : LlmError) : Reader Unit := fun bytes =>
  if bytes.isEmpty then .ok ((), bytes) else .error trailing

def readEvent (float : FloatArith) : Reader PlanEvent := do
  let kind ← readNumber 1
  if kind = 1 then do
    let plan ← readPlan
    readEnd (malformed "trailing plan event bytes")
    Reader.ofExcept ((plan.validate float plan.generatedAt).mapError fun text =>
      .schemaViolation ("invalid persisted plan: InvalidAction(\"" ++ text ++ "\")"))
    pure (.submitted plan)
  else if kind = 2 then do
    let event ← readTransition
    readEnd (malformed "trailing transition bytes")
    pure event
  else Reader.fail (malformed "unknown plan event kind")

/-- The event of some bytes. -/
def decodePlanEvent (float : FloatArith) (payload : List UInt8) : Except LlmError PlanEvent :=
  if maxPlanBytes < payload.length ∨ magic.isPrefixOf payload = false then
    .error (malformed "invalid plan event framing")
  else (readEvent float (payload.drop magic.length)).map (·.1)

-- The outcome of reading what was written

/-- A text as it arrives. -/
def sentString (value : String) : Except LlmError String :=
  if (utf8 value).length ≤ maxStringBytes then .ok value else .error (malformed "string exceeds bound")

theorem sentString_eq_ok_iff {value sent : String} :
    sentString value = .ok sent ↔ sent = value ∧ (utf8 value).length ≤ maxStringBytes := by
  unfold sentString
  split
  · next h =>
    rw [Except.ok.injEq, and_iff_left h]
    exact eq_comm
  · next h => exact iff_of_false nofun fun hsent => h hsent.2

theorem reads_string (value : String) : Reads readString (pushString value) (sentString value) := by
  apply Reads.ok_bind (reads_capped _ 4 (utf8 value).length)
  have hmax : maxStringBytes < 256 ^ 4 - 1 := by decide
  have hiff : min (utf8 value).length (256 ^ 4 - 1) ≤ maxStringBytes ↔
      (utf8 value).length ≤ maxStringBytes := by omega
  have hread : Reads (Reader.take (malformed "truncated plan event") (utf8 value).length >>= decodeText)
      (utf8 value ++ []) (.ok value) :=
    Reads.ok_bind (reads_take _ (utf8 value)) (by
      rw [decodeText, fromUtf8_utf8]
      exact reads_pure value)
  rw [List.append_nil] at hread
  have htext := Reads.require (c := min (utf8 value).length (256 ^ 4 - 1) ≤ maxStringBytes)
    (e := malformed "string exceeds bound") (k := fun _ => Reader.take
      (malformed "truncated plan event") (min (utf8 value).length (256 ^ 4 - 1)) >>= decodeText)
    fun hlength => by
      rw [min_eq_left (by omega)]
      exact hread
  rwa [if_congr hiff rfl rfl] at htext

theorem reads_optionalString (value : Option String) :
    Reads readOptionalString (pushOptionalString value) (value.mapM sentString) := by
  cases value with
  | none => exact Reads.ok_bind (reads_byte _ 0) (reads_pure none)
  | some value =>
    have hmark : Reads (readNumber 1) [1] (.ok 1) := reads_byte _ 1
    exact hmark.ok_bind ((reads_string value).bind_pure (g := some))

/-- An action as it arrives. -/
def sentAction (action : AutonomousAction) : Except LlmError AutonomousAction := do
  let proposalId ← action.proposalId.mapM sentString
  let reasonCodes ← listed (malformed "reason count exceeds bound") maxReasons sentString
    action.reasonCodes
  pure { action with proposalId := proposalId, reasonCodes := reasonCodes }

theorem decodeActionType_code (actionType : ActionType) :
    decodeActionType (actionTypeCode actionType).toNat = .ok actionType := by
  cases actionType <;> rfl

theorem decodePlanState_code (state : PlanState) :
    decodePlanState (planStateCode state).toNat = .ok state := by
  cases state <;> rfl

theorem reads_reasons (reasonCodes : List String) :
    Reads readReasons (listBytes 2 pushString reasonCodes)
      (listed (malformed "reason count exceeds bound") maxReasons sentString reasonCodes) :=
  reads_listOf (by decide) fun value _ => reads_string value

theorem reads_action {action : AutonomousAction} (hscale : ∀ x ∈ action.scale, x.bits < 2 ^ 64) :
    Reads readAction (pushAction action) (sentAction action) := by
  have hbits : action.scale.elim 0 (·.bits) < 256 ^ 8 := by
    cases hvalue : action.scale with
    | none => decide
    | some x => exact hscale x hvalue
  have hmark : (if action.scale.isSome then 1 else 0 : UInt8).toNat ≤ 1 := by
    split <;> decide
  have hvalue : (if (if action.scale.isSome then 1 else 0 : UInt8).toNat = 1 then
      some (F64.mk (action.scale.elim 0 (·.bits))) else none) = action.scale := by
    cases action.scale <;> rfl
  apply Reads.value (reads_byte _ (actionTypeCode action.actionType))
  rw [decodeActionType_code]
  apply Reads.ofExcept (p := fun _ => sentAction action)
  rintro _ ⟨⟩
  apply (reads_optionalString action.proposalId).next
  intro proposalId _
  apply Reads.value (reads_byte _ (if action.scale.isSome then 1 else 0))
  apply Reads.checked hmark
  apply Reads.value (reads_number _ 8 hbits)
  apply (reads_reasons action.reasonCodes).next
  intro reasonCodes _
  rw [hvalue]
  exact reads_pure _

/-- The bytes of a plan. -/
def planBytes (plan : Plan) : List UInt8 :=
  [pushString plan.planId, LittleEndian.bytes 8 plan.generatedAt,
    LittleEndian.bytes 8 plan.expiresAt, listBytes 4 pushAction plan.actions].flatten

/-- A plan as it arrives. -/
def sentPlan (plan : Plan) : Except LlmError Plan := do
  let planId ← sentString plan.planId
  let actions ← listed (malformed "action count exceeds bound") maxActions sentAction plan.actions
  pure { plan with planId := planId, actions := actions }

end PlanEvents

open PlanEvents

/-- The numbers of a plan have 64 bits. -/
structure Plan.Fits (plan : Plan) : Prop where
  generatedAt : plan.generatedAt < 2 ^ 64
  expiresAt : plan.expiresAt < 2 ^ 64
  scales : ∀ action ∈ plan.actions, ∀ x ∈ action.scale, x.bits < 2 ^ 64

/-- The texts of an action are within the bounds of the decoder. -/
structure AutonomousAction.Stored (action : AutonomousAction) : Prop where
  proposalId : ∀ id ∈ action.proposalId, (utf8 id).length ≤ maxStringBytes
  reasons : action.reasonCodes.length ≤ maxReasons
  reasonCodes : ∀ reason ∈ action.reasonCodes, (utf8 reason).length ≤ maxStringBytes

/-- The decoder takes a plan back: it is within the bounds of the decoder, and was generated
before it expires. -/
structure Plan.Stored (plan : Plan) : Prop where
  size : (encodePlanEvent (.submitted plan)).length ≤ maxPlanBytes
  planId : (utf8 plan.planId).length ≤ maxStringBytes
  count : plan.actions.length ≤ maxActions
  actions : ∀ action ∈ plan.actions, action.Stored
  interval : plan.generatedAt < plan.expiresAt

namespace PlanEvents

variable {float : FloatArith} {plan : Plan} {action : AutonomousAction} {now : MonoTime}

theorem reads_plan (hfits : plan.Fits) : Reads readPlan (planBytes plan) (sentPlan plan) := by
  apply (reads_string plan.planId).next
  intro planId _
  apply Reads.value (reads_number _ 8 hfits.generatedAt)
  apply Reads.value (reads_number _ 8 hfits.expiresAt)
  have hactions : Reads readActions (listBytes 4 pushAction plan.actions)
      (listed (malformed "action count exceeds bound") maxActions sentAction plan.actions) :=
    reads_listOf (by decide) fun action haction => reads_action (hfits.scales action haction)
  exact hactions.next fun actions _ => reads_pure _

theorem mapM_sentString_eq_ok_iff {value sent : Option String} :
    value.mapM sentString = .ok sent ↔
      sent = value ∧ ∀ text ∈ value, (utf8 text).length ≤ maxStringBytes := by
  cases value with
  | none => exact ⟨fun h => ⟨(Except.ok.inj h).symm, by simp⟩, fun h => by rw [h.1]; rfl⟩
  | some text =>
    show (do let value ← sentString text; pure (some value)) = .ok sent ↔ _
    rw [bind_eq_ok]
    simp only [Option.mem_def, Option.some.injEq, forall_eq', sentString_eq_ok_iff]
    constructor
    · rintro ⟨_, ⟨rfl, hshort⟩, ⟨⟩⟩
      exact ⟨rfl, hshort⟩
    · rintro ⟨rfl, hshort⟩
      exact ⟨text, ⟨rfl, hshort⟩, rfl⟩

theorem sentAction_eq_ok_iff {sent : AutonomousAction} :
    sentAction action = .ok sent ↔ sent = action ∧ action.Stored := by
  rw [sentAction, bind_eq_ok]
  constructor
  · rintro ⟨proposalId, hid, h⟩
    obtain ⟨reasonCodes, hreasons, hsent⟩ := bind_eq_ok.mp h
    obtain ⟨rfl, hshort⟩ := mapM_sentString_eq_ok_iff.mp hid
    obtain ⟨rfl, hcount, hcodes⟩ :=
      (listed_eq_ok_iff fun _ _ _ => sentString_eq_ok_iff).mp hreasons
    exact ⟨(Except.ok.inj hsent).symm, hshort, hcount, hcodes⟩
  · rintro ⟨rfl, hshort, hcount, hcodes⟩
    refine ⟨sent.proposalId, mapM_sentString_eq_ok_iff.mpr ⟨rfl, hshort⟩, ?_⟩
    exact bind_eq_ok.mpr ⟨sent.reasonCodes,
      (listed_eq_ok_iff fun _ _ _ => sentString_eq_ok_iff).mpr ⟨rfl, hcount, hcodes⟩, rfl⟩

theorem sentPlan_eq_ok_iff {sent : Plan} : sentPlan plan = .ok sent ↔ sent = plan ∧
    (utf8 plan.planId).length ≤ maxStringBytes ∧ plan.actions.length ≤ maxActions ∧
      ∀ action ∈ plan.actions, action.Stored := by
  rw [sentPlan, bind_eq_ok]
  constructor
  · rintro ⟨planId, hid, h⟩
    obtain ⟨actions, hactions, hsent⟩ := bind_eq_ok.mp h
    obtain ⟨rfl, hshort⟩ := sentString_eq_ok_iff.mp hid
    obtain ⟨rfl, hstored⟩ := (listed_eq_ok_iff fun _ _ _ => sentAction_eq_ok_iff).mp hactions
    exact ⟨(Except.ok.inj hsent).symm, hshort, hstored⟩
  · rintro ⟨rfl, hshort, hstored⟩
    refine ⟨sent.planId, sentString_eq_ok_iff.mpr ⟨rfl, hshort⟩, ?_⟩
    exact bind_eq_ok.mpr ⟨sent.actions,
      (listed_eq_ok_iff fun _ _ _ => sentAction_eq_ok_iff).mpr ⟨rfl, hstored⟩, rfl⟩

/-- The submission of a plan, when the plan is valid at the time it was generated. -/
def validated (float : FloatArith) (plan : Plan) : Except LlmError PlanEvent := do
  (plan.validate float plan.generatedAt).mapError fun text =>
    .schemaViolation ("invalid persisted plan: InvalidAction(\"" ++ text ++ "\")")
  pure (.submitted plan)

/-- An event that is not too great is decoded from what follows its mark. -/
theorem decodePlanEvent_marked {bytes : List UInt8}
    (hsize : (magic ++ bytes).length ≤ maxPlanBytes) :
    decodePlanEvent float (magic ++ bytes) = (readEvent float bytes).map (·.1) := by
  have hmark : magic.isPrefixOf (magic ++ bytes) = true := by simp
  rw [decodePlanEvent, if_neg, List.drop_left' rfl]
  rintro (hgreat | hunmarked)
  · omega
  · rw [hmark] at hunmarked
    cases hunmarked

/-- What the decoder makes of a submission. -/
theorem decodePlanEvent_submitted (hfits : plan.Fits)
    (hsize : (encodePlanEvent (.submitted plan)).length ≤ maxPlanBytes) :
    decodePlanEvent float (encodePlanEvent (.submitted plan)) =
      sentPlan plan >>= validated float := by
  have hread : readEvent float ([1] ++ planBytes plan) =
      (sentPlan plan >>= validated float).map (·, []) := by
    have hkind : Reads (readNumber 1) [1] (.ok 1) := reads_byte _ 1
    have hplan := reads_plan hfits []
    rw [List.append_nil] at hplan
    rw [readEvent, hkind.run, if_pos rfl]
    cases hsent : sentPlan plan with
    | error e =>
      rw [hsent] at hplan
      rw [Reader.bind_of_error hplan]
      rfl
    | ok sent =>
      rw [hsent] at hplan
      rw [Reader.bind_of_ok hplan]
      show _ = (validated float sent).map (·, [])
      rw [validated]
      cases (sent.validate float sent.generatedAt).mapError _ <;> rfl
  have hmarked : encodePlanEvent (.submitted plan) = magic ++ ([1] ++ planBytes plan) := rfl
  rw [hmarked] at hsize ⊢
  rw [decodePlanEvent_marked hsize, hread]
  cases sentPlan plan >>= validated float <;> rfl

theorem validate_generatedAt_iff (hvalid : plan.validate float now = .ok ()) :
    plan.validate float plan.generatedAt = .ok () ↔ plan.generatedAt < plan.expiresAt := by
  rw [Plan.validate] at hvalid ⊢
  split at hvalid
  · cases hvalid
  · next hidentity =>
    split at hvalid
    · cases hvalid
    · rw [if_neg hidentity]
      split
      · next hexpired => exact iff_of_false nofun (Nat.not_lt.mpr hexpired)
      · next hlive => exact iff_of_true hvalid (Nat.not_le.mp hlive)

theorem validated_eq_ok_iff {event : PlanEvent} : validated float plan = .ok event ↔
    plan.validate float plan.generatedAt = .ok () ∧ event = .submitted plan := by
  rw [validated, bind_eq_ok]
  constructor
  · rintro ⟨⟨⟩, hvalid, ⟨⟩⟩
    exact ⟨Fallible.mapError_eq_ok.mp hvalid, rfl⟩
  · rintro ⟨hvalid, rfl⟩
    exact ⟨(), Fallible.mapError_eq_ok.mpr hvalid, rfl⟩

/-- **Which submissions are read back**: those of the plans that the decoder takes. -/
theorem decodePlanEvent_submitted_iff (hfits : plan.Fits)
    (hvalid : plan.validate float now = .ok ()) {event : PlanEvent} :
    decodePlanEvent float (encodePlanEvent (.submitted plan)) = .ok event ↔
      event = .submitted plan ∧ plan.Stored := by
  constructor
  · intro h
    have hsize : (encodePlanEvent (.submitted plan)).length ≤ maxPlanBytes := by
      by_contra hgreat
      rw [decodePlanEvent, if_pos (.inl (Nat.not_le.mp hgreat))] at h
      cases h
    rw [decodePlanEvent_submitted hfits hsize] at h
    obtain ⟨sent, hsent, hsubmitted⟩ := bind_eq_ok.mp h
    obtain ⟨rfl, hid, hcount, hactions⟩ := sentPlan_eq_ok_iff.mp hsent
    obtain ⟨hinterval, rfl⟩ := validated_eq_ok_iff.mp hsubmitted
    exact ⟨rfl, hsize, hid, hcount, hactions, (validate_generatedAt_iff hvalid).mp hinterval⟩
  · rintro ⟨rfl, h⟩
    rw [decodePlanEvent_submitted hfits h.size]
    exact bind_eq_ok.mpr ⟨plan, sentPlan_eq_ok_iff.mpr ⟨rfl, h.planId, h.count, h.actions⟩,
      validated_eq_ok_iff.mpr ⟨(validate_generatedAt_iff hvalid).mpr h.interval, rfl⟩⟩

/-- **A lifecycle step** of a plan with a short identity is read back. -/
theorem decodePlanEvent_transition {planId : String} (hid : (utf8 planId).length ≤ maxStringBytes)
    (state : PlanState) : decodePlanEvent float (encodePlanEvent (.transition planId state)) =
      .ok (.transition planId state) := by
  have hmarked : encodePlanEvent (.transition planId state) =
      magic ++ ([2] ++ (pushString planId ++ [planStateCode state])) := by
    simp [encodePlanEvent]
  have hsize : (magic ++ ([2] ++ (pushString planId ++ [planStateCode state]))).length ≤
      maxPlanBytes := by
    have hmagic : magic.length = 17 := by decide
    have hbounds : maxStringBytes + 32 ≤ maxPlanBytes := by decide
    rw [List.length_append, List.length_append, List.length_append, pushString,
      List.length_append, cappedBytes, LittleEndian.bytes_length, hmagic, List.length_singleton,
      List.length_singleton]
    omega
  have hcode : Reads (do
      let code ← readNumber 1
      let state ← Reader.ofExcept (decodePlanState code)
      pure (PlanEvent.transition planId state) : Reader PlanEvent) ([planStateCode state] ++ [])
      (.ok (.transition planId state)) := by
    apply (reads_byte _ (planStateCode state)).ok_bind
    rw [decodePlanState_code]
    exact reads_pure _
  have hstring := reads_string planId
  rw [sentString_eq_ok_iff.mpr ⟨rfl, hid⟩] at hstring
  have htransition : Reads readTransition (pushString planId ++ ([planStateCode state] ++ []))
      (.ok (.transition planId state)) := hstring.ok_bind hcode
  have hkind : Reads (readNumber 1) [2] (.ok 2) := reads_byte _ 2
  have hread := htransition []
  rw [List.append_nil, List.append_nil] at hread
  rw [hmarked, decodePlanEvent_marked hsize, readEvent, hkind.run, if_neg (by decide), if_pos rfl,
    Reader.bind_of_ok hread]
  rfl

end PlanEvents

end InsiderTrader
