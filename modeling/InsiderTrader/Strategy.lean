import InsiderTrader.Portfolio
import InsiderTrader.Library.Text

/-!
# Proposals

Strategy proposals, their validation, their conversion into absolute targets
and the coordinator that keeps every proposal it admitted. Floating point
values are kept as their bit patterns; what is computed with them is a
parameter.

## Main definitions

- `F64`, `FloatArith` — floating point values and the arithmetic used on them
- `Proposal.validate` — admission checks at a decision time
- `Portfolio.targetFromProposal` — the target an action asks for
- `Coordinator` — admitted proposals by identity
-/

namespace InsiderTrader

open MachineInt

/-- A 64-bit floating point value, by its bits. -/
structure F64 where
  bits : ℕ
  deriving DecidableEq

/-- The floating point operations of the program. -/
structure FloatArith where
  /-- finite and in `[0, 1]` -/
  inUnit : F64 → Bool
  /-- finite and in `[-1, 1]` -/
  inSignedUnit : F64 → Bool
  /-- finite and in `(0, 1]` -/
  inPositiveUnit : F64 → Bool
  /-- finite and not negative -/
  isRatio : F64 → Bool
  /-- the first value is greater than the second -/
  exceeds : F64 → F64 → Bool
  /-- finite -/
  isFinite : F64 → Bool
  /-- the first value is less than or equal to the second -/
  atMost : F64 → F64 → Bool
  /-- a positive zero -/
  zero : F64
  /-- the value one -/
  one : F64
  neg : F64 → F64
  abs : F64 → F64
  add : F64 → F64 → F64
  sub : F64 → F64 → F64
  max : F64 → F64 → F64
  /-- a value clamped to `[0, 1]` -/
  clampUnit : F64 → F64
  /-- a signed 64-bit integer -/
  ofInt : Int → F64
  /-- a value divided by a count -/
  divide : F64 → ℕ → F64
  /-- a value rounded and clamped to the signed 64-bit integers -/
  round : F64 → Int
  /-- the value a decimal text denotes -/
  parse : String → Option F64
  /-- the quotient of two integers -/
  ratio : Int → Int → F64
  /-- the product of two values -/
  times : F64 → F64 → F64
  /-- a quantity times a scale, rounded; none when zero, infinite or out of range -/
  scaledQuantity : Int → F64 → Option Int
  /-- equity times weight over the mark, rounded; none when infinite or out of range -/
  desiredQuantity : Int → F64 → Int → Option Int

/-- Monotonic times are unsigned 64-bit nanoseconds. -/
abbrev MonoTime := ℕ

/-- The greatest unsigned 64-bit value. -/
def u64Max : ℕ := 2 ^ 64 - 1

/-- A strategy's recommendation. -/
inductive Action where
  | noAction
  | targetQuantity (quantityTicks : Int)
  | targetWeight (weight : F64)
  | increase (quantityTicks : Int)
  | decrease (quantityTicks : Int)
  | close
  deriving DecidableEq

/-- Proposal validation failure. -/
inductive ProposalError where
  | missingIdentity
  | invalidAction
  | invalidConfidence
  | invalidHorizon
  deriving DecidableEq

/-- Failure turning a proposal into a target. -/
inductive TargetError where
  | missingPosition
  | invalidWeight
  | overflow
  deriving DecidableEq

/-- An immutable strategy proposal. -/
structure Proposal where
  proposalId : ProposalId
  strategyId : String
  instrumentId : InstrumentId
  action : Action
  confidence : F64
  horizonNs : ℕ
  ttlNs : ℕ
  evidence : List String
  generatedMono : MonoTime
  deriving DecidableEq

/-- An absolute target quantity. -/
structure Target where
  instrumentId : InstrumentId
  quantityTicks : Int
  proposalId : ProposalId
  deriving DecidableEq

/-- An action a proposal may carry. -/
def Action.valid (float : FloatArith) : Action → Bool
  | noAction | close => true
  | targetQuantity q | increase q | decrease q => q != 0
  | targetWeight w => float.inSignedUnit w

/-- Validate a proposal at a decision time. -/
def Proposal.validate (float : FloatArith) (p : Proposal) (now : MonoTime) :
    Except ProposalError Unit :=
  if Text.isBlank p.strategyId ∨ p.proposalId = 0 then .error .missingIdentity
  else if ¬float.inUnit p.confidence then .error .invalidConfidence
  else if p.horizonNs = 0 ∨ p.ttlNs = 0 ∨ min (p.horizonNs * 10) u64Max < p.ttlNs then
    .error .invalidHorizon
  else if ¬p.action.valid float then .error .invalidAction
  else if now < p.generatedMono ∨ p.ttlNs ≤ now - p.generatedMono then .error .invalidHorizon
  else .ok ()

/-- The absolute target a proposal's action asks for. -/
def Portfolio.targetFromProposal (float : FloatArith) (p : Portfolio) (proposal : Proposal) :
    Except TargetError Target := do
  let current := p.quantity proposal.instrumentId
  let quantity ← match proposal.action with
    | .noAction => .ok current
    | .targetQuantity q => .ok q
    | .increase q => ((narrow 64 (current + q)).elim (.error .overflow) .ok)
    | .decrease q => ((narrow 64 (current - q)).elim (.error .overflow) .ok)
    | .close => .ok 0
    | .targetWeight weight =>
      if ¬float.inSignedUnit weight then .error .invalidWeight
      else
        match (p.markPrice proposal.instrumentId).or
            ((p.position proposal.instrumentId).map (·.markPriceTicks)) with
        | none => .error .missingPosition
        | some mark =>
          if mark ≤ 0 then .error .missingPosition
          else
            match p.equityTicks with
            | none => .error .overflow
            | some equity =>
              (float.desiredQuantity equity weight mark).elim (.error .overflow) .ok
  .ok ⟨proposal.instrumentId, quantity, proposal.proposalId⟩

-- The coordinator

/-- Coordinator lifecycle of a proposal. -/
inductive ProposalState where
  | accepted
  | pending
  | rejected
  | superseded
  | expired
  deriving DecidableEq

/-- A proposal and its lifecycle state. -/
structure ProposalRecord where
  proposal : Proposal
  state : ProposalState
  deriving DecidableEq

/-- Coordinator submission failure. -/
inductive ProposalSubmitError where
  | duplicateProposal (proposalId : ProposalId)
  | invalidProposal (error : ProposalError)
  deriving DecidableEq

/-- Admitted proposals: the immutable records and the queue awaiting resolution. -/
structure Coordinator where
  records : Std.TreeMap ProposalId ProposalRecord
  pending : List Proposal

namespace Coordinator

/-- No proposals. -/
def new : Coordinator := ⟨∅, []⟩

/-- The record of a proposal. -/
def record (c : Coordinator) (proposalId : ProposalId) : Option ProposalRecord :=
  c.records[proposalId]?

/-- Admit a valid proposal once. -/
def submitChecked (float : FloatArith) (proposal : Proposal) (now : MonoTime) :
    Fallible Coordinator ProposalSubmitError Unit := do
  let c ← Fallible.reads id
  match proposal.validate float now with
  | .error e => Fallible.fail (.invalidProposal e)
  | .ok _ =>
    if (c.record proposal.proposalId).isSome then
      Fallible.fail (.duplicateProposal proposal.proposalId)
    else
      Fallible.modify fun c =>
        ⟨c.records.insert proposal.proposalId ⟨proposal, .pending⟩, c.pending ++ [proposal]⟩

end Coordinator

/-- Scale the quantity of an action. Only integers a double represents exactly are scaled. -/
def scaleQuantity (float : FloatArith) (scale : F64) (q : Int) : Option Int :=
  if 2 ^ 53 < q.natAbs then none else float.scaledQuantity q scale

/-- Scale an action; abstaining cannot be scaled. -/
def scaleAction (float : FloatArith) (scale : F64) : Action → Option Action
  | .noAction => none
  | .targetQuantity q => (scaleQuantity float scale q).map .targetQuantity
  | .targetWeight w => some (.targetWeight (float.times w scale))
  | .increase q => (scaleQuantity float scale q).map .increase
  | .decrease q => (scaleQuantity float scale q).map .decrease
  | .close => some .close

/-- Read the canonical text of a proposal identity. -/
def parseProposalId (s : String) : Option ProposalId := do
  let digits ← Text.stripPrefix "proposal_".toList s.toList
  if (String.ofList digits).utf8ByteSize ≠ 32 then none
  else
    let value ← Text.parseRadix 16 (2 ^ 128) digits
    if value = 0 then none else some value

/-- Read a proposal identity written as a decimal number. -/
def parseDecimalProposalId (s : String) : Option ProposalId := do
  let value ← Text.parseRadix 10 (2 ^ 128) s.toList
  if value = 0 then none else some value

/-- The proposal a client order id was derived from: the text after its last hyphen. -/
def proposalIdFromClientOrderId (clientOrderId : String) : Option ProposalId := do
  let tail ← Text.afterLast '-' clientOrderId.toList
  let digits ← Text.stripPrefix "proposal_".toList tail
  let value ← Text.parseRadix 16 (2 ^ 128) digits
  if value = 0 then none else some value

end InsiderTrader
