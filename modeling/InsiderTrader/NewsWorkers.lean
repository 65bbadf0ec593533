import InsiderTrader.Library.FixedWindow
import InsiderTrader.Library.LatestSamples
import InsiderTrader.Library.Runs
import InsiderTrader.NewsPolling
import InsiderTrader.ProviderStates

/-!
# The workers of the news providers

Each provider has a cursor, a request limiter, a retry state and a queue of pages that were given
up. A poll is deferred while a retry is due later or the limiter is used up; else it asks for one
page. The outcome of a request sets the retry state: a page that is stored clears it, and a failure
is retried later or given up.

## Main definitions

- `RetryState.onFailure` — what becomes of a failed request
- `RequestLimiter.allow` — one request slot
- `pollCursorProvider` — one poll of a provider
- `ProviderRegistry.poll`, `ProviderRegistry.pollFallback` — polls of registered providers
- `RegistryOp` — the operations of a registry
-/

namespace InsiderTrader

open Fallible NewsProviders

namespace NewsWorkers

/-- The sum of two times, within 64 bits. -/
def saturatingAdd (a b : Int64) : Int64 := .ofIntClamp (a.toInt + b.toInt)

/-- The difference of two times, within 64 bits. -/
def saturatingSub (a b : Int64) : Int64 := .ofIntClamp (a.toInt - b.toInt)

-- Manifests

/-- What a provider is for. -/
inductive ProviderKind where
  | market
  | news
  | llm
  | broker
  deriving DecidableEq

/-- The delays that a provider declares. -/
structure DeclaredRetry where
  initialBackoffMs : ℕ
  maxBackoffMs : ℕ

/-- The limits that a provider declares. -/
structure TimeoutPolicy where
  connectTimeoutMs : ℕ
  requestTimeoutMs : ℕ
  maxParallelRequests : ℕ
  maxRequests : ℕ
  windowMs : ℕ

/-- The manifest of a provider. -/
structure ProviderManifest where
  providerId : String
  kind : ProviderKind
  schemaVersion : String
  baseUrl : String
  capabilities : List String
  retry : DeclaredRetry
  timeout : TimeoutPolicy
  healthProbe : Option String

/-- Why a manifest is refused. -/
inductive ManifestError where
  | invalidField (name : String)
  | invalidPolicy
  deriving DecidableEq

def maxFieldBytes : ℕ := 256

def maxProviderIdBytes : ℕ := 64

def maxCapabilities : ℕ := 64

/-- A text that is blank or has more bytes than a bound. -/
def unfit (bound : ℕ) (value : String) : Bool := Text.isBlank value ∨ bound < value.utf8ByteSize

/-- The checks of a manifest. -/
def ProviderManifest.validate (m : ProviderManifest) : Except ManifestError Unit :=
  if unfit maxProviderIdBytes m.providerId then .error (.invalidField "provider_id")
  else if unfit maxFieldBytes m.schemaVersion then .error (.invalidField "schema_version")
  else if unfit maxFieldBytes m.baseUrl then .error (.invalidField "base_url")
  else if maxCapabilities < m.capabilities.length ∨ ¬m.capabilities.IsChain (· < ·) ∨
      m.capabilities.any (unfit maxFieldBytes) then .error (.invalidField "capabilities")
  else if m.retry.maxBackoffMs < m.retry.initialBackoffMs ∨ m.timeout.connectTimeoutMs = 0 ∨
      m.timeout.requestTimeoutMs = 0 ∨ m.timeout.maxParallelRequests = 0 ∨
      m.timeout.maxRequests = 0 ∨ m.timeout.windowMs = 0 then .error .invalidPolicy
  else if m.healthProbe.any (unfit maxFieldBytes) then .error (.invalidField "health_probe")
  else .ok ()

-- Retries

/-- The bounds of retries. -/
structure RetryPolicy where
  maxRetries : UInt32
  baseDelayMs : UInt64
  maxDelayMs : UInt64

/-- A policy with a delay. -/
def RetryPolicy.new (maxRetries : UInt32) (baseDelayMs maxDelayMs : UInt64) : Option RetryPolicy :=
  if 0 < baseDelayMs ∧ baseDelayMs ≤ maxDelayMs then some ⟨maxRetries, baseDelayMs, maxDelayMs⟩
  else none

/-- What becomes of a failure. -/
inductive RetryDecision where
  | retryAt (atMs : Int64)
  | deadLetter
  deriving DecidableEq

/-- The retries of the current series of failures. -/
structure RetryState where
  retries : UInt32
  nextRetryMs : Option Int64
  deriving DecidableEq

/-- The delay of a retry, doubled with each one before it; none for a failure that is permanent. -/
def RetryPolicy.delay (policy : RetryPolicy) (retries : ℕ) : RetryClass → Option ℕ
  | .permanent => none
  | .rateLimited retryAfterMs => some (min retryAfterMs.toNat policy.maxDelayMs.toNat)
  | .transient => some
    (min (min (policy.baseDelayMs.toNat * 2 ^ min retries 63) u64Max) policy.maxDelayMs.toNat)

namespace RetryState

/-- No failure. -/
def clear : RetryState := ⟨0, none⟩

/-- A failure is retried later or given up. -/
def onFailure (nowMs : Int64) (retryClass : RetryClass) (policy : RetryPolicy) (s : RetryState) :
    RetryDecision × RetryState :=
  match policy.delay s.retries.toNat retryClass with
  | none => (.deadLetter, s)
  | some delay =>
    if policy.maxRetries ≤ s.retries then (.deadLetter, s)
    else
      let retryAt := saturatingAdd nowMs (.ofIntClamp delay)
      (.retryAt retryAt, ⟨.ofNat (min (s.retries.toNat + 1) (2 ^ 32 - 1)), some retryAt⟩)

/-- No retry is due later. -/
def ready (nowMs : Int64) (s : RetryState) : Bool := s.nextRetryMs.all (· ≤ nowMs)

end RetryState

-- Limits

/-- A limit of requests in a window. -/
structure RequestLimiter where
  maxRequests : UInt32
  windowMs : Int64
  windowStartMs : Option Int64
  requests : UInt32
  deriving DecidableEq

namespace RequestLimiter

/-- A limiter of one request at least in a window that lasts. -/
def new (maxRequests : UInt32) (windowMs : Int64) : Option RequestLimiter :=
  if 0 < maxRequests ∧ 0 < windowMs then some ⟨maxRequests, windowMs, none, 0⟩ else none

/-- Use one request slot, or fail with a time. -/
def allow (nowMs : Int64) : Fallible RequestLimiter Int64 Unit := do
  Fallible.modify fun l => { l with windowStartMs := some (l.windowStartMs.getD nowMs) }
  let l ← Fallible.reads id
  let start := l.windowStartMs.getD nowMs
  Fallible.require (start ≤ nowMs) start
  Fallible.when (l.windowMs ≤ saturatingSub nowMs start)
    (Fallible.modify ({ · with windowStartMs := some nowMs, requests := 0 }))
  let l ← Fallible.reads id
  Fallible.require (l.requests < l.maxRequests)
    (saturatingAdd (l.windowStartMs.getD nowMs) l.windowMs)
  Fallible.modify fun l =>
    { l with requests := .ofNat (min (l.requests.toNat + 1) (2 ^ 32 - 1)) }

end RequestLimiter

-- One poll

/-- A provider of pages over an outside world `σ`, which answers and may change with each request. -/
structure CursorProvider (σ : Type) where
  providerId : String
  manifest : Option ProviderManifest
  fetchPage : Option String → Int64 → Fallible σ String ProviderBatch

/-- Where pages are committed: under a provider and a generation, with the next cursor. -/
structure CursorCommitter (σ : Type) where
  commitPage : String → UInt64 → Option String → List NewsItem → Fallible σ String Unit

/-- The position of a provider. -/
structure CursorState where
  cursor : Option String
  generation : UInt64
  deriving DecidableEq

/-- The cursor before the first page. -/
def CursorState.start : CursorState := ⟨none, 0⟩

/-- The outcome of a poll. -/
inductive PollOutcome where
  | ingested (report : IngestReport)
  | deferred (atMs : Int64)
  | deadLettered
  deriving DecidableEq

/-- A request that was made, with its failure, and what became of it. -/
structure Attempt where
  providerId : String
  cursor : Option String
  atMs : Int64
  failure : Option (RetryClass × String)
  outcome : PollOutcome
  deriving DecidableEq

/-- What the polls work on: the articles and the outside world. The requests are recorded for what
is said about runs; nothing reads them. -/
structure Newsroom (σ : Type) where
  store : NewsStore
  world : σ
  attempts : List Attempt

/-- The newsroom after a request. -/
def Newsroom.attempted {σ : Type} (attempt : Attempt) (room : Newsroom σ) : Newsroom σ :=
  { room with attempts := room.attempts ++ [attempt] }

variable {σ : Type}

/-- Run a request on the outside world. -/
def outside {ε δ α : Type} (wrap : ε → δ) (p : Fallible σ ε α) : Fallible (Newsroom σ) δ α :=
  Fallible.zoom (·.world) ({ · with world := · }) wrap p

/-- Fetch one page, store its articles and commit them; the next cursor and the counts. -/
def storePage (upper : String → String) (provider : CursorProvider σ)
    (committer : CursorCommitter σ) (nowMs : Int64) (maxItems : ℕ) (state : CursorState) :
    Fallible (Newsroom σ) IngestError (Option String × IngestReport) := do
  let batch ← outside IngestError.provider (provider.fetchPage state.cursor nowMs)
  Fallible.require (batch.items.length ≤ maxItems) (.pageTooLarge batch.items.length maxItems)
  Fallible.require (¬(batch.items.isEmpty = false ∧ batch.nextCursor = state.cursor))
    .cursorStalled
  let room ← Fallible.reads id
  let done := batch.items.foldl (ingestItem upper provider.providerId)
    ⟨⟨0, 0, 0⟩, [], room.store⟩
  Fallible.modify ({ · with store := done.store })
  outside IngestError.cursorCommit (committer.commitPage provider.providerId state.generation
    batch.nextCursor done.normalized)
  pure (batch.nextCursor, done.report)

/-- Ingest one page; the cursor moves after the page was committed. -/
def ingestCursorWithCommit (upper : String → String) (provider : CursorProvider σ)
    (committer : CursorCommitter σ) (nowMs : Int64) (maxItems : ℕ) (state : CursorState)
    (room : Newsroom σ) : Except IngestError IngestReport × CursorState × Newsroom σ :=
  if maxItems = 0 then (.ok ⟨0, 0, 0⟩, state, room)
  else
    match storePage upper provider committer nowMs maxItems state room with
    | (.ok (nextCursor, report), room) =>
      (.ok report, ⟨nextCursor, .ofNat (min (state.generation.toNat + 1) u64Max)⟩, room)
    | (.error error, room) => (.error error, state, room)

/-- The text of a failed poll. -/
def failureMessage : IngestError → String
  | .provider message => message
  | .cursorCommit message => message
  | .pageTooLarge received maximum =>
    "provider page " ++ toString received ++ " exceeds maximum " ++ toString maximum
  | .cursorStalled => "provider cursor stalled"

/-- A registered provider. -/
structure ProviderSlot (σ : Type) where
  provider : CursorProvider σ
  state : CursorState
  retry : RetryState
  limiter : RequestLimiter
  retryPolicy : RetryPolicy
  maxItems : ℕ
  deadLetterCapacity : ℕ
  deadLetters : List DeadLetter
  health : ProviderHealth
  lastSuccessMs : Option Int64
  lastFailureMs : Option Int64
  consecutiveFailures : UInt32

/-- The queue of pages that were given up, with one more; the oldest is dropped when it is full. -/
def pushDeadLetter (capacity : ℕ) (letters : List DeadLetter) (letter : DeadLetter) :
    List DeadLetter :=
  if capacity = 0 then letters
  else (if capacity ≤ letters.length then letters.drop 1 else letters) ++ [letter]

/-- The slot after a failed request. -/
def ProviderSlot.failed (nowMs : Int64) (retryClass : RetryClass) (message : String)
    (slot : ProviderSlot σ) : PollOutcome × ProviderSlot σ :=
  match slot.retry.onFailure nowMs retryClass slot.retryPolicy with
  | (.retryAt atMs, retry) => (.deferred atMs, { slot with retry := retry })
  | (.deadLetter, _) => (.deadLettered, { slot with
      deadLetters := pushDeadLetter slot.deadLetterCapacity slot.deadLetters
        ⟨slot.provider.providerId, slot.state.cursor, nowMs, retryClass,
          String.ofList (message.toList.take 512)⟩
      retry := .clear })

/-- A request of a slot. -/
def ProviderSlot.request (upper : String → String) (committer : CursorCommitter σ) (nowMs : Int64)
    (classify : String → RetryClass) (slot : ProviderSlot σ) (room : Newsroom σ) :
    PollOutcome × ProviderSlot σ × Newsroom σ :=
  let attempt (failure : Option (RetryClass × String)) (outcome : PollOutcome) : Attempt :=
    ⟨slot.provider.providerId, slot.state.cursor, nowMs, failure, outcome⟩
  match ingestCursorWithCommit upper slot.provider committer nowMs slot.maxItems slot.state room with
  | (.ok report, state, room) =>
    (.ingested report, { slot with state := state, retry := .clear },
      room.attempted (attempt none (.ingested report)))
  | (.error error, state, room) =>
    let message := failureMessage error
    let retryClass := classify message
    let (outcome, slot) := { slot with state := state }.failed nowMs retryClass message
    (outcome, slot, room.attempted (attempt (some (retryClass, message)) outcome))

/-- A poll makes a request once the retry time has come and the limiter has a slot. -/
def pollCursorProvider (upper : String → String) (committer : CursorCommitter σ) (nowMs : Int64)
    (classify : String → RetryClass) (slot : ProviderSlot σ) (room : Newsroom σ) :
    PollOutcome × ProviderSlot σ × Newsroom σ :=
  if slot.retry.ready nowMs = false then
    (.deferred (slot.retry.nextRetryMs.getD nowMs), slot, room)
  else
    match RequestLimiter.allow nowMs slot.limiter with
    | (.error atMs, limiter) => (.deferred atMs, { slot with limiter := limiter }, room)
    | (.ok (), limiter) =>
      { slot with limiter := limiter }.request upper committer nowMs classify room

-- The registry

/-- The registered providers, by identity. -/
abbrev ProviderRegistry (σ : Type) : Type := Std.TreeMap String (ProviderSlot σ)

/-- What the operations of a registry work on. -/
structure Workers (σ : Type) where
  providers : ProviderRegistry σ
  room : Newsroom σ

namespace ProviderRegistry

/-- A manifest that fits the provider it is of. -/
def manifestFits (provider : CursorProvider σ) : Bool :=
  provider.manifest.all fun manifest => manifest.validate.isOk ∧
    manifest.providerId = Text.trim provider.providerId ∧ manifest.kind = .news

/-- A slot without a poll. -/
def freshSlot (provider : CursorProvider σ) (limiter : RequestLimiter) (retryPolicy : RetryPolicy)
    (maxItems deadLetterCapacity : ℕ) : ProviderSlot σ where
  provider := provider
  state := .start
  retry := .clear
  limiter := limiter
  retryPolicy := retryPolicy
  maxItems := maxItems
  deadLetterCapacity := deadLetterCapacity
  deadLetters := []
  health := .unknown
  lastSuccessMs := none
  lastFailureMs := none
  consecutiveFailures := 0

/-- Register a provider under its identity. -/
def register (provider : CursorProvider σ) (retryPolicy : RetryPolicy) (maxRequests : UInt32)
    (windowMs : Int64) (maxItems deadLetterCapacity : ℕ) :
    Fallible (ProviderRegistry σ) NewsProviders.RegistryError Unit := do
  let providerId := Text.trim provider.providerId
  Fallible.require (manifestFits provider) .invalidConfiguration
  let limiter ← Fallible.orFail (RequestLimiter.new maxRequests windowMs) .invalidConfiguration
  Fallible.require (providerId ≠ "") .emptyProviderId
  Fallible.require (maxItems ≠ 0) .invalidConfiguration
  let providers ← Fallible.reads id
  Fallible.require (providers[providerId]? = none) .duplicateProvider
  Fallible.modify fun providers => providers.insert providerId
    (freshSlot provider limiter retryPolicy maxItems deadLetterCapacity)

/-- The state of a slot that outlives the process. -/
def snapshotOf (providerId : String) (slot : ProviderSlot σ) : ProviderStateSnapshot where
  providerId := providerId
  cursor := slot.state.cursor
  generation := slot.state.generation
  nextRetryMs := slot.retry.nextRetryMs
  retries := slot.retry.retries
  deadLetters := slot.deadLetters
  health := slot.health
  lastSuccessMs := slot.lastSuccessMs
  lastFailureMs := slot.lastFailureMs
  consecutiveFailures := slot.consecutiveFailures

/-- The states of all providers, by identity. -/
def snapshots (providers : ProviderRegistry σ) : List ProviderStateSnapshot :=
  providers.toList.map fun entry => snapshotOf entry.1 entry.2

/-- A slot with a state that was kept; a state has no limiter. -/
def restoredSlot (snapshot : ProviderStateSnapshot) (slot : ProviderSlot σ) : ProviderSlot σ :=
  { slot with
    state := ⟨snapshot.cursor, snapshot.generation⟩
    retry := ⟨snapshot.retries, snapshot.nextRetryMs⟩
    deadLetters := snapshot.deadLetters
    health := snapshot.health
    lastSuccessMs := snapshot.lastSuccessMs
    lastFailureMs := snapshot.lastFailureMs
    consecutiveFailures := snapshot.consecutiveFailures }

/-- Restore the state of a registered provider. -/
def restoreSnapshot (snapshot : ProviderStateSnapshot) :
    Fallible (ProviderRegistry σ) NewsProviders.RegistryError Unit := do
  let providers ← Fallible.reads id
  let slot ← Fallible.orFail providers[snapshot.providerId]? .unknownProvider
  Fallible.require (snapshot.deadLetters.length ≤ slot.deadLetterCapacity) .invalidConfiguration
  Fallible.modify fun providers =>
    providers.insert snapshot.providerId (restoredSlot snapshot slot)

end ProviderRegistry

/-- The history of a slot after a poll. -/
def ProviderSlot.observed (nowMs : Int64) (slot : ProviderSlot σ) : PollOutcome → ProviderSlot σ
  | .ingested _ => { slot with
      health := .healthy
      lastSuccessMs := some nowMs
      consecutiveFailures := 0 }
  | .deferred _ =>
    if slot.retry.nextRetryMs.isSome then { slot with
      health := .coolingDown
      lastFailureMs := some nowMs
      consecutiveFailures := .ofNat (min (slot.consecutiveFailures.toNat + 1) (2 ^ 32 - 1)) }
    else { slot with health := .degraded }
  | .deadLettered => { slot with
      health := .failed
      lastFailureMs := some nowMs
      consecutiveFailures := .ofNat (min (slot.consecutiveFailures.toNat + 1) (2 ^ 32 - 1)) }

namespace ProviderRegistry

/-- Poll one provider. -/
def poll (upper : String → String) (committer : CursorCommitter σ) (nowMs : Int64)
    (classify : String → RetryClass) (providerId : String) :
    Fallible (Workers σ) NewsProviders.RegistryError PollOutcome := do
  let w ← Fallible.reads id
  let slot ← Fallible.orFail w.providers[providerId]? .unknownProvider
  let (outcome, slot, room) := pollCursorProvider upper committer nowMs classify slot w.room
  Fallible.modify fun w => ⟨w.providers.insert providerId (slot.observed nowMs outcome), room⟩
  pure outcome

/-- New articles were stored. -/
def ingestedNewItems : PollOutcome → Bool
  | .ingested report => 0 < report.accepted
  | _ => false

/-- Poll providers in turn until one has new articles. -/
def pollFallback (upper : String → String) (committer : CursorCommitter σ) (nowMs : Int64)
    (classify : String → RetryClass) :
    List String → Fallible (Workers σ) NewsProviders.RegistryError (List (String × PollOutcome))
  | [] => pure []
  | providerId :: priority => do
    let outcome ← poll upper committer nowMs classify providerId
    if ingestedNewItems outcome then pure [(providerId, outcome)]
    else
      let outcomes ← pollFallback upper committer nowMs classify priority
      pure ((providerId, outcome) :: outcomes)

end ProviderRegistry

/-- An operation of a registry. -/
inductive RegistryOp (σ : Type) where
  | register (provider : CursorProvider σ) (retryPolicy : RetryPolicy) (maxRequests : UInt32)
    (windowMs : Int64) (maxItems deadLetterCapacity : ℕ)
  | restoreSnapshot (snapshot : ProviderStateSnapshot)
  | poll (nowMs : Int64) (classify : String → RetryClass) (providerId : String)
  | pollFallback (nowMs : Int64) (classify : String → RetryClass) (priority : List String)

/-- The workers after an operation. -/
def RegistryOp.apply (upper : String → String) (committer : CursorCommitter σ) :
    RegistryOp σ → Workers σ → Workers σ
  | register provider retryPolicy maxRequests windowMs maxItems deadLetterCapacity, w =>
    { w with providers := (ProviderRegistry.register provider retryPolicy maxRequests windowMs
        maxItems deadLetterCapacity w.providers).2 }
  | restoreSnapshot snapshot, w =>
    { w with providers := (ProviderRegistry.restoreSnapshot snapshot w.providers).2 }
  | poll nowMs classify providerId, w =>
    (ProviderRegistry.poll upper committer nowMs classify providerId w).2
  | pollFallback nowMs classify priority, w =>
    (ProviderRegistry.pollFallback upper committer nowMs classify priority w).2

/-- No provider is registered, and no request was made. -/
def Workers.start (store : NewsStore) (world : σ) : Workers σ := ⟨∅, ⟨store, world, []⟩⟩

/-- The requests of a provider. -/
def Workers.attemptsOf (w : Workers σ) (providerId : String) : List Attempt :=
  w.room.attempts.filter fun attempt => Text.trim attempt.providerId = providerId

end NewsWorkers

end InsiderTrader
