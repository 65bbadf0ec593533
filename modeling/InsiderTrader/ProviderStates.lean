import InsiderTrader.Library.Text
import InsiderTrader.Library.WireRecord
import InsiderTrader.WireFields

/-!
# The state of a news worker on disk

The worker of a provider keeps its cursor, its retry time, its health and the
pages it gave up across a restart. A text stands after its length. An optional
time is written as a time and a flag, an optional cursor as a text that is empty
when there is none.

## Main definitions

- `NewsProviders.encodeProviderState`, `NewsProviders.decodeProviderState` — written and read
- `NewsProviders.StateRecord` — the fields as they stand in the bytes
- `NewsProviders.StateRecord.Valid` — the bounds that a reader checks

## Main results

- `NewsProviders.codes_string` — a text is read from its bytes, and from no others
- `NewsProviders.views_stateFields` — what is read of which bytes
-/

namespace InsiderTrader

open Terminal Wire

namespace NewsProviders

/-- Retry vocabulary of the workers. -/
inductive RetryClass where
  | rateLimited (retryAfterMs : UInt64)
  | transient
  | permanent
  deriving DecidableEq

/-- Why a provider is not registered. -/
inductive RegistryError where
  | emptyProviderId
  | duplicateProvider
  | invalidConfiguration
  | unknownProvider
  deriving DecidableEq

/-- Health of a worker. -/
inductive ProviderHealth where
  | unknown
  | healthy
  | coolingDown
  | degraded
  | failed
  deriving DecidableEq

/-- A page that cannot be retried. -/
structure DeadLetter where
  providerId : String
  cursor : Option String
  failedAtMs : Int64
  retryClass : RetryClass
  message : String
  deriving DecidableEq

/-- The state of a worker. -/
structure ProviderStateSnapshot where
  providerId : String
  cursor : Option String
  generation : UInt64
  nextRetryMs : Option Int64
  retries : UInt32
  deadLetters : List DeadLetter
  health : ProviderHealth
  lastSuccessMs : Option Int64
  lastFailureMs : Option Int64
  consecutiveFailures : UInt32
  deriving DecidableEq

/-- The mark of the second version, `IT_NEWS_PROVIDER_STATE_V2` and a zero byte. -/
def providerStateMagic : List UInt8 :=
  [73, 84, 95, 78, 69, 87, 83, 95, 80, 82, 79, 86, 73, 68, 69, 82, 95, 83, 84, 65, 84, 69, 95, 86,
    50, 0]

/-- The mark of the first version. -/
def providerStateMagicV1 : List UInt8 :=
  [73, 84, 95, 78, 69, 87, 83, 95, 80, 82, 79, 86, 73, 68, 69, 82, 95, 83, 84, 65, 84, 69, 95, 86,
    49, 0]

-- Writing

/-- A text after its length. -/
def boundedBytes (value : String) : List UInt8 :=
  LittleEndian.bytes 2 (utf8 value).length ++ utf8 value

/-- A text after its length, when that has sixteen bits. -/
def pushBoundedString (value : String) : Except RegistryError (List UInt8) :=
  if (utf8 value).length < 2 ^ 16 then .ok (boundedBytes value) else .error .invalidConfiguration

/-- An optional time and its flag. -/
def timestampBytes (timestamp : Option Int64) : List UInt8 :=
  leI64 (timestamp.getD 0) ++ flag timestamp.isSome

def ProviderHealth.code : ProviderHealth → UInt8
  | unknown => 0
  | healthy => 1
  | coolingDown => 2
  | degraded => 3
  | failed => 4

def RetryClass.code : RetryClass → UInt8
  | rateLimited _ => 1
  | transient => 2
  | permanent => 3

/-- The delay that is written with a class. -/
def RetryClass.delay : RetryClass → UInt64
  | rateLimited retryAfterMs => retryAfterMs
  | _ => 0

def encodeDeadLetter (deadLetter : DeadLetter) : Except RegistryError (List UInt8) := do
  let providerId ← pushBoundedString deadLetter.providerId
  let cursor ← pushBoundedString (deadLetter.cursor.getD "")
  let message ← pushBoundedString deadLetter.message
  .ok [providerId, cursor, leI64 deadLetter.failedAtMs, [deadLetter.retryClass.code],
    le64 deadLetter.retryClass.delay, message].flatten

/-- The bytes of a state, within the bounds of its fields. -/
def encodeProviderState (snapshot : ProviderStateSnapshot) : Except RegistryError (List UInt8) :=
  if Text.isBlank snapshot.providerId ∨ 2 ^ 16 - 1 < (utf8 snapshot.providerId).length ∨
      1024 < snapshot.deadLetters.length then .error .invalidConfiguration
  else do
    let providerId ← pushBoundedString snapshot.providerId
    let cursor ← pushBoundedString (snapshot.cursor.getD "")
    let deadLetters ← snapshot.deadLetters.mapM encodeDeadLetter
    .ok (providerStateMagic ++ [providerId, cursor, le64 snapshot.generation,
      timestampBytes snapshot.nextRetryMs, le32 snapshot.retries, [snapshot.health.code],
      timestampBytes snapshot.lastSuccessMs, timestampBytes snapshot.lastFailureMs,
      le32 snapshot.consecutiveFailures, LittleEndian.bytes 2 snapshot.deadLetters.length,
      deadLetters.flatten].flatten)

-- Reading

/-- The fields of a state, read from its bytes. -/
abbrev StateReader (α : Type) : Type := Wire.Reader RegistryError α

/-- A number of a width in bytes. -/
def readNumber (width : ℕ) : StateReader ℕ := Wire.number .invalidConfiguration width

def readU8Bounded : StateReader UInt8 := do
  let v ← readNumber 1
  pure (UInt8.ofNat v)

def readU32Bounded : StateReader UInt32 := do
  let v ← readNumber 4
  pure (UInt32.ofNat v)

def readU64Bounded : StateReader UInt64 := do
  let v ← readNumber 8
  pure (UInt64.ofNat v)

def readI64Bounded : StateReader Int64 := do
  let v ← readNumber 8
  pure (UInt64.ofNat v).toInt64

def readBoundedString : StateReader String := do
  let length ← readNumber 2
  let bytes ← Reader.take .invalidConfiguration length
  match fromUtf8 bytes with
  | some value => pure value
  | none => Reader.fail .invalidConfiguration

/-- The outcome of a code; an unknown one is an error. -/
def known {α : Type} : Option α → StateReader α
  | some a => pure a
  | none => Reader.fail .invalidConfiguration

def ProviderHealth.ofCode (code : UInt8) : Option ProviderHealth :=
  [unknown, healthy, coolingDown, degraded, failed][code.toNat]?

def RetryClass.ofCode (code : UInt8) (retryAfterMs : UInt64) : Option RetryClass :=
  if code = 1 then some (rateLimited retryAfterMs)
  else if code = 2 then some transient
  else if code = 3 then some permanent
  else none

/-- A text, unless it is empty. -/
def nonempty (value : String) : Option String := if value = "" then none else some value

/-- A value, when its flag is one. -/
def present {α : Type} (flag : UInt8) (value : α) : Option α := if flag = 1 then some value else none

def readTimestamp : StateReader (Option Int64) := do
  let value ← readI64Bounded
  let flag ← readU8Bounded
  Reader.require (flag ≤ 1) .invalidConfiguration
  pure (present flag value)

/-- The health of a worker and its history. -/
structure HealthHistory where
  health : ProviderHealth
  lastSuccessMs : Option Int64
  lastFailureMs : Option Int64
  consecutiveFailures : UInt32

def readHealthHistory : StateReader HealthHistory := do
  let code ← readU8Bounded
  let health ← known (ProviderHealth.ofCode code)
  let lastSuccessMs ← readTimestamp
  let lastFailureMs ← readTimestamp
  let consecutiveFailures ← readU32Bounded
  pure ⟨health, lastSuccessMs, lastFailureMs, consecutiveFailures⟩

def readDeadLetter : StateReader DeadLetter := do
  let deadProvider ← readBoundedString
  let deadCursor ← readBoundedString
  let failedAtMs ← readI64Bounded
  let classCode ← readU8Bounded
  let retryAfterMs ← readU64Bounded
  let message ← readBoundedString
  let retryClass ← known (RetryClass.ofCode classCode retryAfterMs)
  pure ⟨deadProvider, nonempty deadCursor, failedAtMs, retryClass, message⟩

/-- The state after its mark. The first version has no health: it follows from the flag of the retry
time. -/
def readState (isV2 : Bool) : StateReader ProviderStateSnapshot := do
  let providerId ← readBoundedString
  let cursorValue ← readBoundedString
  let generation ← readU64Bounded
  let retryAt ← readI64Bounded
  let hasRetry ← readU8Bounded
  let retries ← readU32Bounded
  let history ← if isV2 then readHealthHistory
    else pure ⟨if hasRetry = 1 then .coolingDown else .unknown, none, none, 0⟩
  let count ← readNumber 2
  Reader.require (¬(Text.isBlank providerId ∨ 1 < hasRetry ∨ 1024 < count)) .invalidConfiguration
  let deadLetters ← times readDeadLetter count
  pure {
    providerId
    cursor := nonempty cursorValue
    generation
    nextRetryMs := present hasRetry retryAt
    retries
    deadLetters
    health := history.health
    lastSuccessMs := history.lastSuccessMs
    lastFailureMs := history.lastFailureMs
    consecutiveFailures := history.consecutiveFailures }

def decodeProviderState (payload : List UInt8) : Except RegistryError ProviderStateSnapshot :=
  if providerStateMagic.isPrefixOf payload then
    Reader.complete providerStateMagic .invalidConfiguration .invalidConfiguration (readState true)
      payload
  else
    Reader.complete providerStateMagicV1 .invalidConfiguration .invalidConfiguration
      (readState false) payload

-- The fields in the bytes

theorem codes_u8 : Codes readU8Bounded (fun x => [x]) fun _ => True := by
  have hcodes : Codes readU8Bounded (fun x => LittleEndian.bytes 1 x.toNat) fun _ => True :=
    codes_machine _ UInt8.toNat_lt (fun _ => UInt8.ofNat_toNat)
      fun _ hv => UInt8.toNat_ofNat_of_lt' hv
  have hbytes : (fun x : UInt8 => LittleEndian.bytes 1 x.toNat) = fun x => [x] := by
    funext x
    rw [LittleEndian.bytes, LittleEndian.bytes, Nat.mod_eq_of_lt x.toNat_lt, UInt8.ofNat_toNat]
  rwa [hbytes] at hcodes

theorem codes_u32 : Codes readU32Bounded le32 fun _ => True :=
  codes_machine _ UInt32.toNat_lt (fun _ => UInt32.ofNat_toNat)
    fun _ hv => UInt32.toNat_ofNat_of_lt' hv

theorem codes_u64 : Codes readU64Bounded le64 fun _ => True :=
  codes_machine _ UInt64.toNat_lt (fun _ => UInt64.ofNat_toNat)
    fun _ hv => UInt64.toNat_ofNat_of_lt' hv

theorem codes_i64 : Codes readI64Bounded leI64 fun _ => True :=
  codes_machine _ (fun x => x.toUInt64.toNat_lt)
    (fun x => by rw [UInt64.ofNat_toNat, Int64.toInt64_toUInt64])
    fun v hv => by rw [UInt64.toUInt64_toInt64, UInt64.toNat_ofNat_of_lt' hv]

/-- A text whose length has sixteen bits. -/
def Fits (value : String) : Prop := (utf8 value).length < 2 ^ 16

theorem codes_string : Codes readBoundedString boundedBytes Fits where
  reads := by
    intro value h
    refine (reads_number _ 2 h).ok_bind ?_
    have hread : Reads (Reader.take RegistryError.invalidConfiguration (utf8 value).length >>=
        fun bytes => match fromUtf8 bytes with
          | some value => pure value
          | none => Reader.fail .invalidConfiguration) (utf8 value ++ []) (.ok value) :=
      (reads_take _ _).ok_bind (by
        rw [fromUtf8_utf8]
        exact reads_pure value)
    rwa [List.append_nil] at hread
  takes := by
    intro bytes value rest h
    obtain ⟨length, afterLength, hlength, htail⟩ := Reader.bind_eq_ok.mp h
    obtain ⟨raw, mid, hraw, htext⟩ := Reader.bind_eq_ok.mp htail
    obtain ⟨rfl, hlt⟩ := (codes_number _ 2).takes _ _ _ hlength
    obtain ⟨rfl, rfl⟩ := takes_take _ _ _ _ _ hraw
    cases hvalue : fromUtf8 raw with
    | none =>
      rw [hvalue] at htext
      cases htext
    | some text =>
      rw [hvalue] at htext
      cases htext
      obtain rfl := utf8_of_fromUtf8 hvalue
      exact ⟨(List.append_assoc _ _ _).symm, hlt⟩

/-- A time and its flag. -/
structure TimeRecord where
  value : Int64
  flag : UInt8

namespace TimeRecord

def bytes (t : TimeRecord) : List UInt8 := leI64 t.value ++ [t.flag]

/-- The time, when there is one. -/
def time (t : TimeRecord) : Option Int64 := present t.flag t.value

def ofTime (time : Option Int64) : TimeRecord := ⟨time.getD 0, if time.isSome then 1 else 0⟩

/-- A time that is absent is written as zero. -/
def AbsentZero (t : TimeRecord) : Prop := t.flag = 0 → t.value = 0

end TimeRecord

/-- A page that was given up, as it stands in the bytes. -/
structure LetterRecord where
  providerId : String
  cursor : String
  failedAtMs : Int64
  classCode : UInt8
  retryAfterMs : UInt64
  message : String

namespace LetterRecord

def bytes (l : LetterRecord) : List UInt8 :=
  [boundedBytes l.providerId, boundedBytes l.cursor, leI64 l.failedAtMs, [l.classCode],
    le64 l.retryAfterMs, boundedBytes l.message].flatten

/-- The texts have a length, and the class is known. -/
structure Valid (l : LetterRecord) : Prop where
  providerId : Fits l.providerId
  cursor : Fits l.cursor
  message : Fits l.message
  classCode : (RetryClass.ofCode l.classCode l.retryAfterMs).isSome

/-- The page that was given up. -/
def deadLetter (l : LetterRecord) : DeadLetter :=
  ⟨l.providerId, nonempty l.cursor, l.failedAtMs,
    (RetryClass.ofCode l.classCode l.retryAfterMs).getD .permanent, l.message⟩

def ofDeadLetter (d : DeadLetter) : LetterRecord :=
  ⟨d.providerId, d.cursor.getD "", d.failedAtMs, d.retryClass.code, d.retryClass.delay, d.message⟩

/-- A class without a delay is written with the delay zero. -/
def AbsentZero (l : LetterRecord) : Prop := l.classCode ≠ 1 → l.retryAfterMs = 0

end LetterRecord

/-- A state as it stands in the bytes. -/
structure StateRecord where
  providerId : String
  cursor : String
  generation : UInt64
  nextRetry : TimeRecord
  retries : UInt32
  healthCode : UInt8
  lastSuccess : TimeRecord
  lastFailure : TimeRecord
  consecutiveFailures : UInt32
  letters : List LetterRecord

namespace StateRecord

def bytes (r : StateRecord) : List UInt8 :=
  [boundedBytes r.providerId, boundedBytes r.cursor, le64 r.generation, r.nextRetry.bytes,
    le32 r.retries, [r.healthCode], r.lastSuccess.bytes, r.lastFailure.bytes,
    le32 r.consecutiveFailures, LittleEndian.bytes 2 r.letters.length,
    r.letters.flatMap LetterRecord.bytes].flatten

/-- The bounds that a reader checks. -/
structure Valid (r : StateRecord) : Prop where
  providerId : Fits r.providerId
  named : Text.isBlank r.providerId = false
  cursor : Fits r.cursor
  nextRetry : r.nextRetry.flag ≤ 1
  healthCode : (ProviderHealth.ofCode r.healthCode).isSome
  lastSuccess : r.lastSuccess.flag ≤ 1
  lastFailure : r.lastFailure.flag ≤ 1
  few : r.letters.length ≤ 1024
  letters : ∀ l ∈ r.letters, l.Valid

/-- The state that is read. -/
def snapshot (r : StateRecord) : ProviderStateSnapshot where
  providerId := r.providerId
  cursor := nonempty r.cursor
  generation := r.generation
  nextRetryMs := r.nextRetry.time
  retries := r.retries
  deadLetters := r.letters.map LetterRecord.deadLetter
  health := (ProviderHealth.ofCode r.healthCode).getD .unknown
  lastSuccessMs := r.lastSuccess.time
  lastFailureMs := r.lastFailure.time
  consecutiveFailures := r.consecutiveFailures

/-- The fields that are written. -/
def ofSnapshot (s : ProviderStateSnapshot) : StateRecord where
  providerId := s.providerId
  cursor := s.cursor.getD ""
  generation := s.generation
  nextRetry := .ofTime s.nextRetryMs
  retries := s.retries
  healthCode := s.health.code
  lastSuccess := .ofTime s.lastSuccessMs
  lastFailure := .ofTime s.lastFailureMs
  consecutiveFailures := s.consecutiveFailures
  letters := s.deadLetters.map .ofDeadLetter

/-- **What is absent is written as zero.** -/
structure AbsentZero (r : StateRecord) : Prop where
  nextRetry : r.nextRetry.AbsentZero
  lastSuccess : r.lastSuccess.AbsentZero
  lastFailure : r.lastFailure.AbsentZero
  letters : ∀ l ∈ r.letters, l.AbsentZero

end StateRecord

/-- A cursor that is not the empty text. -/
def NamesCursor (cursor : Option String) : Prop := cursor ≠ some ""

/-- **No cursor is the empty text.** -/
structure ProviderStateSnapshot.NamesCursors (s : ProviderStateSnapshot) : Prop where
  own : NamesCursor s.cursor
  deadLetters : ∀ d ∈ s.deadLetters, NamesCursor d.cursor

-- What is read

theorem views_timestamp : Views readTimestamp TimeRecord.bytes TimeRecord.time (·.flag ≤ 1) where
  reads := by
    intro t h
    have hread : Reads readTimestamp [leI64 t.value, [t.flag]].flatten (.ok t.time) :=
      (codes_i64.reads trivial).value ((codes_u8.reads trivial).value
        (Reads.checked h (reads_pure t.time)))
    simpa only [TimeRecord.bytes, List.flatten_cons, List.flatten_nil, List.append_nil] using hread
  stands := by
    intro bytes time rest h
    obtain ⟨value, rest₁, h₁, t₁⟩ := Reader.bind_eq_ok.mp h
    obtain ⟨flag, rest₂, h₂, t₂⟩ := Reader.bind_eq_ok.mp t₁
    obtain ⟨_, rest₃, h₃, t₃⟩ := Reader.bind_eq_ok.mp t₂
    obtain ⟨rfl, -⟩ := codes_i64.takes _ _ _ h₁
    obtain ⟨rfl, -⟩ := codes_u8.takes _ _ _ h₂
    obtain ⟨hflag, rfl⟩ := Reader.require_eq_ok h₃
    cases t₃
    exact ⟨⟨value, flag⟩, hflag, (List.append_assoc _ _ _).symm, rfl⟩

theorem known_eq_ok {α : Type} {o : Option α} {a : α} {bytes rest : List UInt8}
    (h : known o bytes = .ok (a, rest)) : o = some a ∧ rest = bytes := by
  cases o with
  | none => cases h
  | some x =>
    cases h
    exact ⟨rfl, rfl⟩

theorem views_deadLetter :
    Views readDeadLetter LetterRecord.bytes LetterRecord.deadLetter LetterRecord.Valid where
  reads := by
    intro l h
    obtain ⟨retryClass, hclass⟩ := Option.isSome_iff_exists.mp h.classCode
    unfold readDeadLetter LetterRecord.bytes LetterRecord.deadLetter
    refine (codes_string.reads h.providerId).value ?_
    refine (codes_string.reads h.cursor).value ?_
    refine (codes_i64.reads trivial).value ?_
    refine (codes_u8.reads trivial).value ?_
    refine (codes_u64.reads trivial).value ?_
    refine (codes_string.reads h.message).value ?_
    rw [hclass]
    exact reads_pure _
  stands := by
    intro bytes letter rest h
    obtain ⟨providerId, rest₁, h₁, t₁⟩ := Reader.bind_eq_ok.mp h
    obtain ⟨cursor, rest₂, h₂, t₂⟩ := Reader.bind_eq_ok.mp t₁
    obtain ⟨failedAtMs, rest₃, h₃, t₃⟩ := Reader.bind_eq_ok.mp t₂
    obtain ⟨classCode, rest₄, h₄, t₄⟩ := Reader.bind_eq_ok.mp t₃
    obtain ⟨retryAfterMs, rest₅, h₅, t₅⟩ := Reader.bind_eq_ok.mp t₄
    obtain ⟨message, rest₆, h₆, t₆⟩ := Reader.bind_eq_ok.mp t₅
    obtain ⟨retryClass, rest₇, h₇, t₇⟩ := Reader.bind_eq_ok.mp t₆
    obtain ⟨rfl, hprovider⟩ := codes_string.takes _ _ _ h₁
    obtain ⟨rfl, hcursor⟩ := codes_string.takes _ _ _ h₂
    obtain ⟨rfl, -⟩ := codes_i64.takes _ _ _ h₃
    obtain ⟨rfl, -⟩ := codes_u8.takes _ _ _ h₄
    obtain ⟨rfl, -⟩ := codes_u64.takes _ _ _ h₅
    obtain ⟨rfl, hmessage⟩ := codes_string.takes _ _ _ h₆
    obtain ⟨hclass, rfl⟩ := known_eq_ok h₇
    cases t₇
    refine ⟨⟨providerId, cursor, failedAtMs, classCode, retryAfterMs, message⟩,
      ⟨hprovider, hcursor, hmessage, Option.isSome_iff_exists.mpr ⟨_, hclass⟩⟩, ?_, ?_⟩
    · simp only [LetterRecord.bytes, List.flatten_cons, List.flatten_nil, List.append_nil,
        List.append_assoc]
    · rw [LetterRecord.deadLetter, hclass, Option.getD_some]

/-- The health as it stands in the bytes, between the retries and the count of the pages. -/
theorem reads_healthHistory {r : StateRecord} (h : r.Valid) :
    Reads readHealthHistory [[r.healthCode], r.lastSuccess.bytes, r.lastFailure.bytes,
        le32 r.consecutiveFailures].flatten
      (.ok ⟨r.snapshot.health, r.snapshot.lastSuccessMs, r.snapshot.lastFailureMs,
        r.snapshot.consecutiveFailures⟩) := by
  obtain ⟨health, hhealth⟩ := Option.isSome_iff_exists.mp h.healthCode
  unfold readHealthHistory StateRecord.snapshot
  refine (codes_u8.reads trivial).value ?_
  rw [hhealth]
  refine (views_timestamp.reads h.lastSuccess).value ?_
  refine (views_timestamp.reads h.lastFailure).value ?_
  refine (codes_u32.reads trivial).value ?_
  exact reads_pure _

/-- **The state that is read** of the bytes of a record, and of no others. -/
theorem views_stateFields :
    Views (readState true) StateRecord.bytes StateRecord.snapshot StateRecord.Valid where
  reads := by
    intro r h
    have hcount : r.letters.length < 256 ^ 2 := h.few.trans_lt (by decide)
    have hread : Reads (readState true) [boundedBytes r.providerId, boundedBytes r.cursor,
        le64 r.generation, leI64 r.nextRetry.value, [r.nextRetry.flag], le32 r.retries,
        [[r.healthCode], r.lastSuccess.bytes, r.lastFailure.bytes,
          le32 r.consecutiveFailures].flatten, LittleEndian.bytes 2 r.letters.length,
        r.letters.flatMap LetterRecord.bytes].flatten (.ok r.snapshot) := by
      refine (codes_string.reads h.providerId).value ?_
      refine (codes_string.reads h.cursor).value ?_
      refine (codes_u64.reads trivial).value ?_
      refine (codes_i64.reads trivial).value ?_
      refine (codes_u8.reads trivial).value ?_
      refine (codes_u32.reads trivial).value ?_
      refine (reads_healthHistory h).value ?_
      refine ((codes_number _ 2).reads hcount).value ?_
      refine Reads.checked ?_ ((views_deadLetter.times _).reads ⟨rfl, h.letters⟩ |>.value
        (reads_pure _))
      have hnamed : ¬(Text.isBlank r.providerId = true) := by
        rw [h.named]
        exact Bool.false_ne_true
      have hflag := h.nextRetry
      have hfew := h.few
      rintro (hblank | hflags | hmany)
      · exact hnamed hblank
      · exact absurd hflags (UInt8.not_lt.mpr hflag)
      · omega
    simpa only [StateRecord.bytes, TimeRecord.bytes, List.flatten_cons, List.flatten_nil,
      List.append_nil, List.append_assoc] using hread
  stands := by
    intro bytes snapshot rest h
    obtain ⟨providerId, rest₁, h₁, t₁⟩ := Reader.bind_eq_ok.mp h
    obtain ⟨cursor, rest₂, h₂, t₂⟩ := Reader.bind_eq_ok.mp t₁
    obtain ⟨generation, rest₃, h₃, t₃⟩ := Reader.bind_eq_ok.mp t₂
    obtain ⟨retryAt, rest₄, h₄, t₄⟩ := Reader.bind_eq_ok.mp t₃
    obtain ⟨hasRetry, rest₅, h₅, t₅⟩ := Reader.bind_eq_ok.mp t₄
    obtain ⟨retries, rest₆, h₆, t₆⟩ := Reader.bind_eq_ok.mp t₅
    obtain ⟨history, rest₇, h₇, t₇⟩ := Reader.bind_eq_ok.mp t₆
    obtain ⟨count, rest₈, h₈, t₈⟩ := Reader.bind_eq_ok.mp t₇
    obtain ⟨_, rest₉, h₉, t₉⟩ := Reader.bind_eq_ok.mp t₈
    obtain ⟨deadLetters, rest₁₀, h₁₀, t₁₀⟩ := Reader.bind_eq_ok.mp t₉
    obtain ⟨code, mid₁, k₁, s₁⟩ := Reader.bind_eq_ok.mp h₇
    obtain ⟨health, mid₂, k₂, s₂⟩ := Reader.bind_eq_ok.mp s₁
    obtain ⟨lastSuccess, mid₃, k₃, s₃⟩ := Reader.bind_eq_ok.mp s₂
    obtain ⟨lastFailure, mid₄, k₄, s₄⟩ := Reader.bind_eq_ok.mp s₃
    obtain ⟨consecutiveFailures, mid₅, k₅, s₅⟩ := Reader.bind_eq_ok.mp s₄
    cases s₅
    cases t₁₀
    obtain ⟨rfl, hprovider⟩ := codes_string.takes _ _ _ h₁
    obtain ⟨rfl, hcursor⟩ := codes_string.takes _ _ _ h₂
    obtain ⟨rfl, -⟩ := codes_u64.takes _ _ _ h₃
    obtain ⟨rfl, -⟩ := codes_i64.takes _ _ _ h₄
    obtain ⟨rfl, -⟩ := codes_u8.takes _ _ _ h₅
    obtain ⟨rfl, -⟩ := codes_u32.takes _ _ _ h₆
    obtain ⟨rfl, -⟩ := codes_u8.takes _ _ _ k₁
    obtain ⟨hhealth, rfl⟩ := known_eq_ok k₂
    obtain ⟨success, hsuccess, rfl, rfl⟩ := views_timestamp.stands k₃
    obtain ⟨failure, hfailure, rfl, rfl⟩ := views_timestamp.stands k₄
    obtain ⟨rfl, -⟩ := codes_u32.takes _ _ _ k₅
    obtain ⟨rfl, -⟩ := (codes_number _ 2).takes _ _ _ h₈
    obtain ⟨hchecked, rfl⟩ := Reader.require_eq_ok h₉
    obtain ⟨letters, ⟨rfl, hletters⟩, rfl, rfl⟩ := (views_deadLetter.times _).stands h₁₀
    obtain ⟨hnamed, hbounds⟩ := not_or.mp hchecked
    obtain ⟨hretry, hfew⟩ := not_or.mp hbounds
    refine ⟨⟨providerId, cursor, generation, ⟨retryAt, hasRetry⟩, retries, code, success, failure,
      consecutiveFailures, letters⟩, ⟨hprovider, Bool.eq_false_iff.mpr hnamed, hcursor,
      UInt8.not_lt.mp hretry, Option.isSome_iff_exists.mpr ⟨_, hhealth⟩, hsuccess, hfailure,
      Nat.not_lt.mp hfew, hletters⟩, ?_, ?_⟩
    · simp only [StateRecord.bytes, TimeRecord.bytes, List.flatten_cons, List.flatten_nil,
        List.append_nil, List.append_assoc]
    · rw [StateRecord.snapshot, hhealth, Option.getD_some]
      rfl

end NewsProviders

end InsiderTrader
