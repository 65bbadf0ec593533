import InsiderTrader.Autonomy

/-!
# The LLM boundary

Requests to the analysis provider, its failures, and the strict parser that
turns one complete answer into an autonomous action. One object is read,
unknown or repeated fields are refused and nothing may follow it.

## Main definitions

- `LlmRequest`, `LlmError`, `LlmProvider` — the provider boundary
- `parseAutonomousAction` — the action of an answer
-/

namespace InsiderTrader

/-- Protocol endpoint preference. -/
inductive Endpoint where
  | responses
  | chatCompletions
  deriving DecidableEq

/-- A request with its budget and reproducibility metadata. -/
structure LlmRequest where
  traceId : String
  promptVersion : String
  model : String
  task : String
  contextHash : String
  input : String
  maxOutputTokens : ℕ
  endpoint : Endpoint
  deriving DecidableEq

/-- Failure of the provider or of its answer. -/
inductive LlmError where
  | emptyField (name : String)
  | zeroBudget
  | provider (message : String)
  | authentication (message : String)
  | rateLimited (retryAfterMs : Option ℕ)
  | timeout
  | interruptedStream
  | refusal (message : String)
  | malformedOutput (message : String)
  | schemaViolation (message : String)
  | semanticValidation (message : String)
  | invalidAction (message : String)
  deriving DecidableEq

/-- A complete answer. -/
structure LlmResponse where
  traceId : String
  content : String
  finishReason : String
  deriving DecidableEq

/-- One item of a streamed answer. -/
inductive StreamItem where
  | delta (text : String)
  | done (finishReason : String)
  deriving DecidableEq

/-- An installed provider. -/
structure LlmProvider where
  complete : LlmRequest → Except LlmError LlmResponse
  stream : LlmRequest → Except LlmError (List StreamItem)

/-- The greatest input of a request in bytes. -/
def maxInputBytes : ℕ := 4 * 1024 * 1024

/-- Check the metadata and the budget of a request. -/
def LlmRequest.validate (r : LlmRequest) : Except LlmError Unit :=
  let fields := [("trace_id", r.traceId), ("prompt_version", r.promptVersion), ("model", r.model),
    ("task", r.task), ("context_hash", r.contextHash), ("input", r.input)]
  match fields.find? fun f => Text.isBlank f.2 with
  | some f => .error (.emptyField f.1)
  | none =>
    if r.promptVersion = "latest" then
      .error (.schemaViolation "LLM requests must pin an exact prompt version")
    else if r.maxOutputTokens = 0 then .error .zeroBudget
    else if maxInputBytes < r.input.utf8ByteSize then
      .error (.provider "LLM input exceeds bounded size")
    else .ok ()

/-- The name of an action type in the protocol. -/
def ActionType.name : ActionType → String
  | executeProposal => "EXECUTE_PROPOSAL"
  | executeProposalScaled => "EXECUTE_PROPOSAL_SCALED"
  | ignoreProposal => "IGNORE_PROPOSAL"
  | pauseStrategy => "PAUSE_STRATEGY"
  | resumeStrategy => "RESUME_STRATEGY"
  | requestReanalysis => "REQUEST_REANALYSIS"
  | addToWatch => "ADD_TO_WATCH"
  | removeFromWatch => "REMOVE_FROM_WATCH"
  | reduceAutonomy => "REDUCE_AUTONOMY"
  | noAction => "NO_ACTION"

/-- All action types. -/
def ActionType.all : List ActionType :=
  [executeProposal, executeProposalScaled, ignoreProposal, pauseStrategy, resumeStrategy,
    requestReanalysis, addToWatch, removeFromWatch, reduceAutonomy, noAction]

/-- The action type with a name. -/
def ActionType.ofName (name : String) : Option ActionType := all.find? (·.name = name)

/-- Names tell the action types apart. -/
theorem ActionType.ofName_name (a : ActionType) : ofName a.name = some a := by
  cases a <;> decide

-- The parser

/-- The bytes that are left and the offset of the first of them. -/
structure JsonParser where
  rest : List UInt8
  cursor : ℕ

namespace JsonParser

/-- A parser at the start of a text. -/
def new (input : String) : JsonParser := ⟨input.toUTF8.data.toList, 0⟩

/-- The byte of an ASCII character. -/
def ascii (c : Char) : UInt8 := c.toNat.toUInt8

/-- ASCII white space. -/
def isAsciiWhitespace (b : UInt8) : Bool := b = 0x20 ∨ b = 0x09 ∨ b = 0x0A ∨ b = 0x0C ∨ b = 0x0D

/-- The parser some bytes further on. -/
def skip (n : ℕ) (p : JsonParser) : JsonParser := ⟨p.rest.drop n, p.cursor + n⟩

/-- Skip white space. -/
def whitespace : Fallible JsonParser LlmError Unit :=
  Fallible.modify fun p => p.skip (p.rest.takeWhile isAsciiWhitespace).length

/-- Whether the next byte is a given one. -/
def peeks (expected : Char) : Fallible JsonParser LlmError Bool :=
  Fallible.reads fun p => p.rest.head? = some (ascii expected)

/-- Skip white space and one expected byte. -/
def consume (expected : Char) : Fallible JsonParser LlmError Unit := do
  whitespace
  let p ← Fallible.reads id
  if p.rest.head? = some (ascii expected) then Fallible.modify (skip 1)
  else Fallible.fail (.malformedOutput
    ("expected '" ++ String.singleton expected ++ "': offset " ++ toString p.cursor))

/-- The character an escape stands for. -/
def escaped (b : UInt8) : Option Char :=
  ([('"', '"'), ('\\', '\\'), ('/', '/'), ('b', Char.ofNat 8), ('f', Char.ofNat 12),
    ('n', '\n'), ('r', '\r'), ('t', '\t')].find? fun e => b = ascii e.1).map (·.2)

/-- The rest of a string after its opening quote. -/
def stringBody (output : String) : List UInt8 → ℕ → Except LlmError String × JsonParser
  | [], n => (.error (.malformedOutput "unterminated string"), ⟨[], n⟩)
  | b :: rest, n =>
    if b = ascii '"' then (.ok output, ⟨rest, n + 1⟩)
    else if b = ascii '\\' then
      match rest with
      | [] => (.error (.malformedOutput "unterminated escape"), ⟨[], n + 1⟩)
      | e :: rest =>
        match escaped e with
        | none => (.error (.malformedOutput "unsupported string escape"), ⟨rest, n + 2⟩)
        | some c => stringBody (output.push c) rest (n + 2)
    else if b ≤ 0x1F then (.error (.malformedOutput "control byte in string"), ⟨rest, n + 1⟩)
    else if b < 0x80 then stringBody (output.push (Char.ofNat b.toNat)) rest (n + 1)
    else (.error (.malformedOutput "non-ASCII JSON requires escaped UTF-8"), ⟨rest, n + 1⟩)

/-- Read a string. -/
def string : Fallible JsonParser LlmError String := do
  whitespace
  consume '"'
  fun p => stringBody "" p.rest p.cursor

/-- A byte of a number. -/
def isNumberByte (b : UInt8) : Bool :=
  ("0123456789-+.eE".toList.map ascii).contains b

/-- Read a number. -/
def number (float : FloatArith) : Fallible JsonParser LlmError F64 := do
  whitespace
  let p ← Fallible.reads id
  let bytes := p.rest.takeWhile isNumberByte
  Fallible.modify (skip bytes.length)
  Fallible.require (bytes ≠ []) (.malformedOutput "number required")
  Fallible.orFail (float.parse (String.ofList (bytes.map fun b => Char.ofNat b.toNat)))
    (.malformedOutput "invalid number")

/-- Read `null`. -/
def null : Fallible JsonParser LlmError Unit := do
  whitespace
  let p ← Fallible.reads id
  if p.rest.take 4 = "null".toList.map ascii then Fallible.modify (skip 4)
  else Fallible.fail (.malformedOutput "null required")

/-- Read `null` or a value. -/
def nullable {α : Type} (value : Fallible JsonParser LlmError α) :
    Fallible JsonParser LlmError (Option α) := do
  whitespace
  let isNull ← peeks 'n'
  if isNull then
    null
    pure none
  else
    let v ← value
    pure (some v)

/-- The strings of an array up to its closing bracket; each takes at least one byte of fuel. -/
def strings : ℕ → List String → Fallible JsonParser LlmError (List String)
  | 0, _ => Fallible.fail (.malformedOutput "unterminated string")
  | fuel + 1, values => do
    let value ← string
    whitespace
    let closed ← peeks ']'
    if closed then pure (values ++ [value])
    else
      consume ','
      strings fuel (values ++ [value])

/-- What stands before the closing byte: nothing, or elements with the remaining bytes as
fuel. -/
def emptyOr {α : Type} (closing : Char) (empty : α) (elements : ℕ → Fallible JsonParser LlmError α) :
    Fallible JsonParser LlmError α := do
  whitespace
  let closed ← peeks closing
  let p ← Fallible.reads id
  if closed then pure empty else elements p.rest.length

/-- Read an array of strings. -/
def stringArray : Fallible JsonParser LlmError (List String) := do
  consume '['
  let values ← emptyOr ']' [] (strings · [])
  consume ']'
  pure values

/-- What was read of an action so far. -/
structure ActionFields where
  actionType : Option String := none
  proposalId : Option (Option String) := none
  scale : Option (Option F64) := none
  reasons : Option (List String) := none
  seen : List String := []

/-- Read the value of a field. -/
def field (float : FloatArith) (fields : ActionFields) (key : String) :
    Fallible JsonParser LlmError ActionFields := do
  if key = "type" then
    let value ← string
    pure { fields with actionType := some value }
  else if key = "proposal_id" then
    let value ← nullable string
    pure { fields with proposalId := some value }
  else if key = "scale" then
    let value ← nullable (number float)
    pure { fields with scale := some value }
  else if key = "reason_codes" then
    let value ← stringArray
    pure { fields with reasons := some value }
  else Fallible.fail (.schemaViolation ("unknown field: " ++ key))

/-- The fields of an object up to its closing brace; each takes at least one byte of fuel. -/
def members (float : FloatArith) : ℕ → ActionFields → Fallible JsonParser LlmError ActionFields
  | 0, _ => Fallible.fail (.malformedOutput "unterminated string")
  | fuel + 1, fields => do
    let key ← string
    Fallible.require (key ∉ fields.seen) (.schemaViolation ("duplicate field: " ++ key))
    consume ':'
    let fields ← field float { fields with seen := key :: fields.seen } key
    whitespace
    let closed ← peeks '\x7d'
    if closed then pure fields
    else
      consume ','
      members float fuel fields

/-- The action of the fields that were read. -/
def ActionFields.action (float : FloatArith) (fields : ActionFields) :
    Except LlmError AutonomousAction := do
  let name ← fields.actionType.elim (.error (.schemaViolation "type is required")) .ok
  let actionType ← (ActionType.ofName name).elim
    (.error (.schemaViolation "unsupported action type")) .ok
  let reasons ← fields.reasons.elim (.error (.schemaViolation "reason_codes is required")) .ok
  let action : AutonomousAction :=
    ⟨actionType, fields.proposalId.join, fields.scale.join, reasons⟩
  (action.validate float).mapError fun text =>
    .semanticValidation ("InvalidAction(\"" ++ text ++ "\")")
  .ok action

/-- Read one action object and nothing after it. -/
def objectAction (float : FloatArith) : Fallible JsonParser LlmError AutonomousAction := do
  consume '\x7b'
  let fields ← emptyOr '\x7d' {} (members float · {})
  consume '\x7d'
  whitespace
  let p ← Fallible.reads id
  Fallible.require (p.rest = []) (.malformedOutput "trailing JSON content")
  Fallible.ofExcept (fields.action float)

end JsonParser

/-- Parse one complete autonomous action. -/
def parseAutonomousAction (float : FloatArith) (input : String) :
    Except LlmError AutonomousAction :=
  (JsonParser.objectAction float (.new input)).1

/-- Inversion of a sequence of checks. -/
private lemma checks_eq_ok {ε α β : Type} {x : Except ε α} {f : α → Except ε β} {b : β}
    (h : (x >>= f) = .ok b) : ∃ a, x = .ok a ∧ f a = .ok b := by
  cases x with
  | error e => cases h
  | ok a => exact ⟨a, rfl, h⟩

/-- What is parsed is valid. -/
theorem parseAutonomousAction_valid {float : FloatArith} {input : String}
    {action : AutonomousAction} (h : parseAutonomousAction float input = .ok action) :
    action.validate float = .ok () := by
  have haction : ∃ fields : JsonParser.ActionFields, fields.action float = .ok action := by
    have hrun : JsonParser.objectAction float (.new input) =
        (.ok action, (JsonParser.objectAction float (.new input)).2) := Prod.ext h rfl
    obtain ⟨_, _, -, hrun⟩ := Fallible.bind_eq_ok hrun
    obtain ⟨fields, _, -, hrun⟩ := Fallible.bind_eq_ok hrun
    obtain ⟨_, _, -, hrun⟩ := Fallible.bind_eq_ok hrun
    obtain ⟨_, _, -, hrun⟩ := Fallible.bind_eq_ok hrun
    obtain ⟨_, _, -, hrun⟩ := Fallible.bind_eq_ok hrun
    obtain ⟨-, hrun⟩ := Fallible.require_bind_eq_ok hrun
    exact ⟨fields, congrArg Prod.fst hrun⟩
  obtain ⟨fields, haction⟩ := haction
  obtain ⟨_, -, haction⟩ := checks_eq_ok haction
  obtain ⟨_, -, haction⟩ := checks_eq_ok haction
  obtain ⟨_, -, haction⟩ := checks_eq_ok haction
  obtain ⟨⟨⟩, hvalid, haction⟩ := checks_eq_ok haction
  cases haction
  exact Fallible.mapError_eq_ok.mp hvalid

end InsiderTrader
