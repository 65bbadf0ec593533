import InsiderTrader.Library.Fallible
import InsiderTrader.Library.Text
import Std.Data.TreeMap
import Std.Data.TreeSet

/-!
# The command dispatcher

Validation, authorization, idempotency and optimistic concurrency in front of a
command handler. Accepted commands are kept with their responses by actor and
idempotency key, so that a retry is answered without the handler.

## Main definitions

- `CommandEnvelope` — a command with its metadata
- `CapabilityPolicy` — capabilities granted to actors
- `CommandDispatcher.dispatch` — one command

## Main results

- `dispatch_of_refused`, `dispatch_of_cached`, `dispatch_of_stale` — what is
  answered without the handler
- `dispatch_of_error`, `dispatch_of_ok` — what is answered with it
-/

namespace InsiderTrader

/-- A command with its metadata; `payloadLen` is the length of the encoded payload. -/
structure CommandEnvelope (π : Type) where
  commandId : String
  traceId : String
  actor : String
  issuedWallNs : ℕ
  expectedStateVersion : ℕ
  idempotencyKey : String
  payload : π
  payloadLen : ℕ
  deriving DecidableEq

/-- The outcome of a handled command, at the version it left. -/
structure CommandResponse (ρ : Type) where
  stateVersion : ℕ
  payload : ρ
  deriving DecidableEq

/-- Structural failure of an envelope or a frame. -/
inductive FrameError where
  | invalidLimit
  | tooLarge (size : ℕ)
  | incomplete
  | lengthMismatch (declared actual : ℕ)
  deriving DecidableEq

/-- Command authorization failure. -/
inductive AuthorizationError where
  | unknownActor
  | invalidCapability
  | denied
  deriving DecidableEq

/-- Why a command was not carried out; the handler's own failures are in `ε`. -/
inductive DispatchError (ε : Type) where
  | invalid (error : FrameError)
  | unauthorized (error : AuthorizationError)
  | staleState (expected current : ℕ)
  | idempotencyConflict
  | handler (error : ε)
  | regressedVersion
  deriving DecidableEq

/-- Bound of the identities of a command in bytes. -/
def maxCorrelationIdBytes : ℕ := 256

/-- Bound of the actor of a command in bytes. -/
def maxActorBytes : ℕ := 128

/-- Check the identities and sizes of a command. -/
def CommandEnvelope.validate {π : Type} (c : CommandEnvelope π) (maxPayloadBytes : ℕ) :
    Except FrameError Unit :=
  let sizes := [c.commandId, c.traceId, c.idempotencyKey].map (·.utf8ByteSize)
  if [c.commandId, c.traceId, c.actor, c.idempotencyKey].any Text.isBlank then .error .incomplete
  else if sizes.any (maxCorrelationIdBytes < ·) ∨ maxActorBytes < c.actor.utf8ByteSize then
    .error (.tooLarge (sizes.foldl max c.actor.utf8ByteSize))
  else if maxPayloadBytes < c.payloadLen then .error (.tooLarge c.payloadLen)
  else if c.issuedWallNs = 0 then .error .incomplete
  else .ok ()

/-- Capabilities by actor. -/
structure CapabilityPolicy where
  grants : Std.TreeMap String (Std.TreeSet String)

/-- An exact grant is needed. -/
def CapabilityPolicy.authorize (p : CapabilityPolicy) (actor capability : String) :
    Except AuthorizationError Unit :=
  if Text.isBlank actor then .error .unknownActor
  else if Text.isBlank capability then .error .invalidCapability
  else if (p.grants[actor]?).any (·.contains capability) then .ok ()
  else .error .denied

/-- An accepted command and its response. -/
structure CachedCommand (π ρ : Type) where
  command : CommandEnvelope π
  response : CommandResponse ρ

/-- The dispatcher: its policy and the bounded cache of accepted commands. -/
structure CommandDispatcher (π ρ : Type) where
  policy : CapabilityPolicy
  cacheCapacity : ℕ
  cache : Std.TreeMap String (CachedCommand π ρ)

/-- The key a retry is recognized by. -/
def CommandEnvelope.cacheKey {π : Type} (c : CommandEnvelope π) : String :=
  c.actor ++ "\u001f" ++ c.idempotencyKey

/-- The greatest payload of a command in bytes. -/
def maxCommandBytes : ℕ := 16 * 1024 * 1024

namespace CommandDispatcher

variable {π ρ σ ε : Type}

/-- The accepted command with the key of a command. -/
def cached (d : CommandDispatcher π ρ) (command : CommandEnvelope π) :
    Option (CachedCommand π ρ) :=
  d.cache[command.cacheKey]?

/-- A command that passes the checks before the cache is looked at. -/
def Admits (d : CommandDispatcher π ρ) (command : CommandEnvelope π) (capability : String) :
    Prop :=
  command.validate maxCommandBytes = .ok () ∧ d.policy.authorize command.actor capability = .ok ()

/-- Keep an accepted command. A full cache gives up its least key first. -/
def remember (command : CommandEnvelope π) (response : CommandResponse ρ)
    (d : CommandDispatcher π ρ) : CommandDispatcher π ρ :=
  let cache := if d.cacheCapacity ≤ d.cache.size then
      (d.cache.minKey?).elim d.cache d.cache.erase
    else d.cache
  { d with cache := cache.insert command.cacheKey ⟨command, response⟩ }

variable [DecidableEq π]

/-- Answer an admitted command: from the cache, or by its handler at the current version. A
handler's response may not fall behind that version. -/
def answer (command : CommandEnvelope π) (currentVersion : ℕ)
    (handler : CommandEnvelope π → Fallible σ ε (CommandResponse ρ)) :
    Fallible (CommandDispatcher π ρ × σ) (DispatchError ε) (CommandResponse ρ) := do
  let d ← Fallible.reads (·.1)
  match d.cached command with
  | some cached =>
    Fallible.require (cached.command = command) .idempotencyConflict
    pure cached.response
  | none =>
    Fallible.require (command.expectedStateVersion = currentVersion)
      (.staleState command.expectedStateVersion currentVersion)
    let response ← Fallible.zoom (·.2) (fun s t => (s.1, t)) .handler (handler command)
    Fallible.require (currentVersion ≤ response.stateVersion) .regressedVersion
    Fallible.modify fun s => (s.1.remember command response, s.2)
    pure response

/-- Dispatch one command after validation and authorization. -/
def dispatch (command : CommandEnvelope π) (capability : String) (currentVersion : ℕ)
    (handler : CommandEnvelope π → Fallible σ ε (CommandResponse ρ)) :
    Fallible (CommandDispatcher π ρ × σ) (DispatchError ε) (CommandResponse ρ) := do
  let d ← Fallible.reads (·.1)
  Fallible.ofExcept ((command.validate maxCommandBytes).mapError .invalid)
  Fallible.ofExcept ((d.policy.authorize command.actor capability).mapError .unauthorized)
  answer command currentVersion handler

section Dispatch

variable {d : CommandDispatcher π ρ} {s s' : σ} {command : CommandEnvelope π}
  {capability : String} {version : ℕ}
  {handler : CommandEnvelope π → Fallible σ ε (CommandResponse ρ)}
  {response : CommandResponse ρ}

/-- A command that fails a check changes nothing. -/
theorem dispatch_of_refused (h : ¬d.Admits command capability) :
    ∃ error, dispatch command capability version handler (d, s) = (.error error, (d, s)) := by
  rw [dispatch, Fallible.reads_bind]
  cases hv : command.validate maxCommandBytes with
  | error e => exact ⟨.invalid e, rfl⟩
  | ok _ =>
    cases ha : d.policy.authorize command.actor capability with
    | error e =>
      exact ⟨.unauthorized e, (Fallible.bind_of_ok rfl).trans (Fallible.bind_of_error rfl)⟩
    | ok _ => exact absurd ⟨hv, ha⟩ h

theorem dispatch_of_admits (h : d.Admits command capability) :
    dispatch command capability version handler (d, s) = answer command version handler (d, s) := by
  rw [dispatch, Fallible.reads_bind, h.1]
  exact (Fallible.bind_of_ok rfl).trans (Fallible.bind_of_ok (by rw [h.2]; rfl))

/-- **A retry is answered from the cache**; another command under its key is a conflict. -/
theorem dispatch_of_cached {cached : CachedCommand π ρ} (h : d.Admits command capability)
    (hc : d.cached command = some cached) :
    dispatch command capability version handler (d, s) =
      (if cached.command = command then .ok cached.response else .error .idempotencyConflict,
        (d, s)) := by
  rw [dispatch_of_admits h, answer, Fallible.reads_bind, hc]
  exact (Fallible.require_bind _ _ _ _).trans (by split <;> rfl)

/-- A new command at another version changes nothing. -/
theorem dispatch_of_stale (h : d.Admits command capability) (hc : d.cached command = none)
    (hv : command.expectedStateVersion ≠ version) :
    dispatch command capability version handler (d, s) =
      (.error (.staleState command.expectedStateVersion version), (d, s)) := by
  rw [dispatch_of_admits h, answer, Fallible.reads_bind, hc]
  exact (Fallible.require_bind _ _ _ _).trans (if_neg hv)

theorem dispatch_of_error {error : ε} (h : d.Admits command capability)
    (hc : d.cached command = none) (hv : command.expectedStateVersion = version)
    (hh : handler command s = (.error error, s')) :
    dispatch command capability version handler (d, s) = (.error (.handler error), (d, s')) := by
  rw [dispatch_of_admits h, answer, Fallible.reads_bind, hc]
  exact (Fallible.require_bind _ _ _ _).trans
    ((if_pos hv).trans (Fallible.bind_of_error (by rw [Fallible.zoom_apply, hh]; rfl)))

theorem dispatch_of_ok (h : d.Admits command capability) (hc : d.cached command = none)
    (hv : command.expectedStateVersion = version)
    (hh : handler command s = (.ok response, s')) (hr : version ≤ response.stateVersion) :
    dispatch command capability version handler (d, s) =
      (.ok response, (d.remember command response, s')) := by
  rw [dispatch_of_admits h, answer, Fallible.reads_bind, hc]
  exact (Fallible.require_bind _ _ _ _).trans
    ((if_pos hv).trans ((Fallible.bind_of_ok (by rw [Fallible.zoom_apply, hh]; rfl)).trans
      ((Fallible.require_bind _ _ _ _).trans (if_pos hr))))

/-- A response that falls behind the version is not kept; the handler has run. -/
theorem dispatch_of_regressed (h : d.Admits command capability)
    (hc : d.cached command = none) (hv : command.expectedStateVersion = version)
    (hh : handler command s = (.ok response, s')) (hr : ¬version ≤ response.stateVersion) :
    dispatch command capability version handler (d, s) = (.error .regressedVersion, (d, s')) := by
  rw [dispatch_of_admits h, answer, Fallible.reads_bind, hc]
  exact (Fallible.require_bind _ _ _ _).trans
    ((if_pos hv).trans ((Fallible.bind_of_ok (by rw [Fallible.zoom_apply, hh]; rfl)).trans
      ((Fallible.require_bind _ _ _ _).trans (if_neg hr))))

end Dispatch

end CommandDispatcher

end InsiderTrader
