import InsiderTrader.NewsWorkers

/-!
# The pace of the news workers

A limiter grants its requests as a fixed-window counter does, whatever the clock shows; so a
provider is asked fewer than twice the limit in any interval of a window.

## Main definitions

- `RequestLimiter.Tracks` — a limiter at a window of a counter
- `Polled` — what a poll does to a slot, and the request that it makes
- `Each` — what holds of each slot and its own requests

## Main results

- `RequestLimiter.Tracks.follows` — a limiter does what a counter does
- `RegistryOp.moves` — every operation is a sequence of moves of one provider each
- `each_afterOps` — one provider at a time, along a run
- `attempts_within_limit` — the requests of a provider in an interval
-/

namespace InsiderTrader

open Fallible NewsProviders

namespace NewsWorkers

-- Times

theorem toInt_ofIntClamp (x : ℤ) :
    (Int64.ofIntClamp x).toInt = max (-2 ^ 63) (min x (2 ^ 63 - 1)) := by
  have hmin : Int64.minValue.toInt = -2 ^ 63 := rfl
  have hmax : Int64.maxValue.toInt = 2 ^ 63 - 1 := rfl
  unfold Int64.ofIntClamp
  split
  · split
    · rw [Int64.toInt_ofIntLE]
      omega
    · rw [hmax]
      omega
  · rw [hmin]
    omega

theorem toInt_bounds (t : Int64) : -2 ^ 63 ≤ t.toInt ∧ t.toInt ≤ 2 ^ 63 - 1 := by
  have hle := t.le_toInt
  have hlt := t.toInt_lt
  omega

/-- A difference that does not fit is longer than any width. -/
theorem le_saturatingSub_iff {start now width : Int64} (h : start ≤ now) (hw : 0 < width.toInt) :
    width ≤ saturatingSub now start ↔ start.toInt + width.toInt ≤ now.toInt := by
  have hwidth := toInt_bounds width
  rw [Int64.le_iff_toInt_le] at h ⊢
  rw [saturatingSub, toInt_ofIntClamp]
  omega

namespace RequestLimiter

open FixedWindow

variable {p : Policy ℤ} {l : RequestLimiter} {nowMs : Int64}

-- One request slot

/-- A clock before the window changes nothing. -/
theorem allow_before {start : Int64} (hstart : l.windowStartMs = some start)
    (hnow : ¬start ≤ nowMs) : allow nowMs l = (.error start, l) := by
  have hsame : { l with windowStartMs := some (l.windowStartMs.getD nowMs) } = l := by
    rw [hstart, Option.getD_some, ← hstart]
  rw [allow, modify_bind, hsame, reads_bind, require_bind, id, hstart, Option.getD_some,
    if_neg hnow]

/-- The limiter in whose window a time falls. -/
def at' (nowMs : Int64) (l : RequestLimiter) : RequestLimiter :=
  if l.windowMs ≤ saturatingSub nowMs (l.windowStartMs.getD nowMs) then
    { l with windowStartMs := some nowMs, requests := 0 }
  else { l with windowStartMs := some (l.windowStartMs.getD nowMs) }

/-- A clock from the start of the window on takes a slot of the window it falls in. -/
theorem allow_from (hnow : l.windowStartMs.getD nowMs ≤ nowMs) :
    allow nowMs l =
      if (l.at' nowMs).requests < (l.at' nowMs).maxRequests then
        (.ok (), { l.at' nowMs with
          requests := .ofNat (min ((l.at' nowMs).requests.toNat + 1) (2 ^ 32 - 1)) })
      else (.error (saturatingAdd ((l.at' nowMs).windowStartMs.getD nowMs)
        (l.at' nowMs).windowMs), l.at' nowMs) := by
  have hwhen : (Fallible.when (l.windowMs ≤ saturatingSub nowMs (l.windowStartMs.getD nowMs))
      (Fallible.modify ({ · with windowStartMs := some nowMs, requests := 0 }) :
        Fallible RequestLimiter Int64 Unit)
      { l with windowStartMs := some (l.windowStartMs.getD nowMs) }) = (.ok (), l.at' nowMs) := by
    unfold Fallible.when at'
    split <;> rfl
  rw [allow, modify_bind, reads_bind, require_bind, id, Option.getD_some, if_pos hnow,
    bind_of_ok hwhen, reads_bind, require_bind, id]
  rfl

-- Counters

/-- A limiter of the policy at a window of a counter. -/
structure Tracks (p : Policy ℤ) (c : Option (Window p)) (l : RequestLimiter) : Prop where
  limit : l.maxRequests.toNat = p.limit
  width : l.windowMs.toInt = p.width
  start : l.windowStartMs.map Int64.toInt = c.map (·.start)
  count : l.requests.toNat = c.elim 0 (·.count)

/-- A new limiter is at no window yet. -/
theorem tracks_new {maxRequests : UInt32} {windowMs : Int64}
    (h : new maxRequests windowMs = some l) : ∃ p : Policy ℤ, Tracks p none l := by
  unfold new at h
  split at h
  · next hpos =>
    obtain rfl := Option.some.inj h
    refine ⟨⟨maxRequests.toNat, windowMs.toInt, hpos.1, Int64.lt_iff_toInt_lt.mp hpos.2⟩,
      rfl, rfl, rfl, rfl⟩
  · cases h

/-- The next slot of a limiter with room. -/
theorem toNat_next {n m : UInt32} (h : n < m) :
    (UInt32.ofNat (min (n.toNat + 1) (2 ^ 32 - 1))).toNat = n.toNat + 1 := by
  have hlt := UInt32.lt_iff_toNat_lt.mp h
  have hbound := m.toNat_lt
  rw [UInt32.toNat_ofNat_of_lt' (show _ < 2 ^ 32 by omega)]
  omega

/-- A slot is taken from a limiter with room. -/
theorem allow_of_room {l' : RequestLimiter} (hnow : l.windowStartMs.getD nowMs ≤ nowMs)
    (hat : l.at' nowMs = l') (hroom : l'.requests < l'.maxRequests) :
    allow nowMs l = (.ok (), { l' with
      requests := .ofNat (min (l'.requests.toNat + 1) (2 ^ 32 - 1)) }) := by
  rw [allow_from hnow, hat, if_pos hroom]

/-- What a limiter does at a window of a counter: it has a slot when the counter grants the call,
and is then at the window of the counter; else it stays as it is and names a time before which none
is granted. -/
structure Follows (p : Policy ℤ) (c : Option (Window p)) (l : RequestLimiter) (nowMs : Int64) :
    Prop where
  granted : ∀ v, grant c nowMs.toInt = some v →
    ∃ l', allow nowMs l = (.ok (), l') ∧ Tracks p (some v) l'
  refused : grant c nowMs.toInt = none →
    ∃ atMs, allow nowMs l = (.error atMs, l) ∧ ∃ v, c = some v ∧ atMs.toInt ≤ v.opens

variable {c : Option (Window p)} {v : Window p}

theorem follows_of_granted (hv : grant c nowMs.toInt = some v)
    (h : ∃ l', allow nowMs l = (.ok (), l') ∧ Tracks p (some v) l') : Follows p c l nowMs where
  granted _ hv' := by
    obtain rfl := Option.some.inj (hv.symm.trans hv')
    exact h
  refused hnone := nomatch hv.symm.trans hnone

theorem follows_of_refused {atMs : Int64} (hopens : nowMs.toInt < v.opens)
    (h : allow nowMs l = (.error atMs, l)) (hat : atMs.toInt ≤ v.opens) :
    Follows p (some v) l nowMs where
  granted _ hv' := nomatch (grant_eq_none_iff.mpr hopens).symm.trans hv'
  refused _ := ⟨atMs, h, v, rfl, hat⟩

/-- A window is opened. -/
theorem Tracks.opened (h : Tracks p c l) (hnow : l.windowStartMs.getD nowMs ≤ nowMs)
    (hat : l.at' nowMs = { l with windowStartMs := some nowMs, requests := 0 })
    (hgrant : grant c nowMs.toInt = some (.opened p nowMs.toInt)) : Follows p c l nowMs := by
  have hroom : (0 : UInt32) < l.maxRequests :=
    UInt32.lt_iff_toNat_lt.mpr (by rw [h.limit]; exact p.limit_pos)
  exact follows_of_granted hgrant
    ⟨_, allow_of_room hnow hat hroom, h.limit, h.width, rfl, toNat_next hroom⟩

/-- Before the window is over it has a slot until it is full. -/
theorem Tracks.open {start : Int64} (h : Tracks p (some v) l) (hstart : l.windowStartMs = some start)
    (hfrom : v.start ≤ nowMs.toInt) (hclose : nowMs.toInt < v.close)
    (hnow : l.windowStartMs.getD nowMs ≤ nowMs) (hat : l.at' nowMs = l) :
    Follows p (some v) l nowMs := by
  have hv : start.toInt = v.start := by simpa [hstart] using h.start
  have hcount : l.requests < l.maxRequests ↔ v.count < p.limit := by
    rw [UInt32.lt_iff_toNat_lt, h.limit, h.count, Option.elim_some]
  by_cases hroom : v.count < p.limit
  · refine follows_of_granted (grant_of_room hclose hfrom hroom)
      ⟨_, allow_of_room hnow hat (hcount.mpr hroom), h.limit, h.width, h.start, ?_⟩
    rw [toNat_next (hcount.mpr hroom), h.count, Option.elim_some, Option.elim_some,
      Window.use_count]
  · have hopens : v.opens = v.close := if_neg hroom
    refine follows_of_refused (hopens ▸ hclose)
      (by rw [allow_from hnow, hat, if_neg (hcount.not.mpr hroom)]) ?_
    have hlower := toInt_bounds start
    have hwidth := p.width_pos
    rw [hstart, Option.getD_some, saturatingAdd, toInt_ofIntClamp, h.width, hopens, Window.close,
      ← hv]
    omega

/-- **A limiter does what a counter does.** -/
theorem Tracks.follows (h : Tracks p c l) (nowMs : Int64) : Follows p c l nowMs := by
  cases c with
  | none =>
    have hstart : l.windowStartMs = none := Option.map_eq_none_iff.mp h.start
    have hzero : l.requests = 0 := UInt32.toNat_inj.mp h.count
    refine h.opened (by rw [hstart]; exact Int64.le_refl nowMs) ?_ rfl
    unfold at'
    rw [hstart, hzero, Option.getD_none, ite_self]
  | some v =>
    obtain ⟨start, hstart, hv⟩ := Option.map_eq_some_iff.mp h.start
    dsimp only at hv
    by_cases hnow : start ≤ nowMs
    · have hfrom : v.start ≤ nowMs.toInt := by
        rw [← hv]
        exact Int64.le_iff_toInt_le.mp hnow
      have hgetD : l.windowStartMs.getD nowMs ≤ nowMs := by rwa [hstart]
      have hover : l.windowMs ≤ saturatingSub nowMs (l.windowStartMs.getD nowMs) ↔
          v.close ≤ nowMs.toInt := by
        rw [hstart, Option.getD_some,
          le_saturatingSub_iff hnow (by rw [h.width]; exact p.width_pos), hv, h.width, Window.close]
      by_cases hclose : v.close ≤ nowMs.toInt
      · exact h.opened hgetD (if_pos (hover.mpr hclose)) (grant_of_close hclose)
      · refine h.open hstart hfrom (not_le.mp hclose) hgetD ?_
        unfold at'
        rw [if_neg (hover.not.mpr hclose), hstart, Option.getD_some, ← hstart]
    · have hbefore : nowMs.toInt < v.start := by
        rw [← hv, ← not_le]
        exact Int64.le_iff_toInt_le.not.mp hnow
      exact follows_of_refused (hbefore.trans_le v.start_le_opens) (allow_before hstart hnow)
        (hv ▸ v.start_le_opens)

end RequestLimiter

-- One poll

variable {σ : Type} {upper : String → String} {committer : CursorCommitter σ} {nowMs : Int64}
  {classify : String → RetryClass}

theorem outside_attempts {ε δ α : Type} {wrap : ε → δ} {p : Fallible σ ε α} :
    Along (Same (·.attempts)) (outside wrap p) :=
  fun _ => rfl

/-- Ingestion records nothing. -/
theorem storePage_attempts {provider : CursorProvider σ} {maxItems : ℕ} {state : CursorState} :
    Along (Same (·.attempts)) (storePage upper provider committer nowMs maxItems state) := by
  refine Along.bind outside_attempts fun _ => (Along.require _ _).bind fun _ =>
    (Along.require _ _).bind fun _ => (Along.reads _).bind fun _ =>
    Along.bind (Along.modify fun _ => rfl) fun _ => Along.bind outside_attempts fun _ =>
    Along.ret _

/-- A page is ingested, or the cursor stays. -/
theorem ingestCursorWithCommit_cases (upper : String → String) (provider : CursorProvider σ)
    (committer : CursorCommitter σ) (nowMs : Int64) (maxItems : ℕ) (state : CursorState)
    (room : Newsroom σ) :
    ∃ room', room'.attempts = room.attempts ∧
      ((∃ report state', ingestCursorWithCommit upper provider committer nowMs maxItems state room =
          (.ok report, state', room')) ∨
        ∃ error, ingestCursorWithCommit upper provider committer nowMs maxItems state room =
          (.error error, state, room')) := by
  unfold ingestCursorWithCommit
  split
  · exact ⟨room, rfl, .inl ⟨_, _, rfl⟩⟩
  · have hattempts : ((storePage upper provider committer nowMs maxItems state) room).2.attempts =
        room.attempts := storePage_attempts room
    rcases hpage : storePage upper provider committer nowMs maxItems state room with
      ⟨error | ⟨next, report⟩, room'⟩ <;> rw [hpage] at hattempts
    · exact ⟨room', hattempts, .inr ⟨error, rfl⟩⟩
    · exact ⟨room', hattempts, .inl ⟨report, _, rfl⟩⟩

/-- What becomes of a request: a page is stored, or its failure is retried later or given up. -/
inductive Settles (nowMs : Int64) (slot slot' : ProviderSlot σ) (attempt : Attempt) : Prop where
  | ingested (report : IngestReport) (hfailure : attempt.failure = none)
    (houtcome : attempt.outcome = .ingested report) (hretry : slot'.retry = .clear)
    (hletters : slot'.deadLetters = slot.deadLetters)
  | retried (retryClass : RetryClass) (message : String) (atMs : Int64)
    (hfailure : attempt.failure = some (retryClass, message))
    (houtcome : attempt.outcome = .deferred atMs) (hstate : slot'.state = slot.state)
    (hretry : slot.retry.onFailure nowMs retryClass slot.retryPolicy = (.retryAt atMs, slot'.retry))
    (hletters : slot'.deadLetters = slot.deadLetters)
  | givenUp (retryClass : RetryClass) (message : String)
    (hfailure : attempt.failure = some (retryClass, message))
    (houtcome : attempt.outcome = .deadLettered) (hstate : slot'.state = slot.state)
    (hretry : (slot.retry.onFailure nowMs retryClass slot.retryPolicy).1 = .deadLetter)
    (hclear : slot'.retry = .clear)
    (hletters : slot'.deadLetters = pushDeadLetter slot.deadLetterCapacity slot.deadLetters
      ⟨attempt.providerId, attempt.cursor, nowMs, retryClass,
        String.ofList (message.toList.take 512)⟩)

/-- What a request leaves of a slot, and what is recorded of it. -/
structure Requested (nowMs : Int64) (slot slot' : ProviderSlot σ) (attempt : Attempt) : Prop where
  provider : slot'.provider = slot.provider
  limiter : slot'.limiter = slot.limiter
  retryPolicy : slot'.retryPolicy = slot.retryPolicy
  maxItems : slot'.maxItems = slot.maxItems
  deadLetterCapacity : slot'.deadLetterCapacity = slot.deadLetterCapacity
  providerId : attempt.providerId = slot.provider.providerId
  cursor : attempt.cursor = slot.state.cursor
  atMs : attempt.atMs = nowMs
  settles : Settles nowMs slot slot' attempt

theorem RetryState.onFailure_cases (nowMs : Int64) (retryClass : RetryClass) (policy : RetryPolicy)
    (s : RetryState) :
    (∃ atMs retry, s.onFailure nowMs retryClass policy = (.retryAt atMs, retry)) ∨
      s.onFailure nowMs retryClass policy = (.deadLetter, s) := by
  unfold onFailure
  split
  · exact .inr rfl
  · split
    · exact .inr rfl
    · exact .inl ⟨_, _, rfl⟩

/-- **A request** is recorded, and it settles what becomes of its slot. -/
theorem ProviderSlot.request_spec (upper : String → String) (committer : CursorCommitter σ)
    (nowMs : Int64) (classify : String → RetryClass) (slot : ProviderSlot σ) (room : Newsroom σ) :
    ∃ attempt slot' room', slot.request upper committer nowMs classify room =
        (attempt.outcome, slot', room') ∧
      room'.attempts = room.attempts ++ [attempt] ∧ Requested nowMs slot slot' attempt := by
  obtain ⟨room', hattempts, hingest⟩ :=
    ingestCursorWithCommit_cases upper slot.provider committer nowMs slot.maxItems slot.state room
  let attempt (failure : Option (RetryClass × String)) (outcome : PollOutcome) : Attempt :=
    ⟨slot.provider.providerId, slot.state.cursor, nowMs, failure, outcome⟩
  -- What is left to show once the slot after the request is known.
  have record (a : Attempt) (slot' : ProviderSlot σ)
      (hrun : slot.request upper committer nowMs classify room =
        (a.outcome, slot', room'.attempted a)) (hspec : Requested nowMs slot slot' a) :
      ∃ a slot' room', slot.request upper committer nowMs classify room =
        (a.outcome, slot', room') ∧ room'.attempts = room.attempts ++ [a] ∧
          Requested nowMs slot slot' a :=
    ⟨a, slot', _, hrun, by rw [Newsroom.attempted, hattempts], hspec⟩
  obtain ⟨report, state', hingest⟩ | ⟨error, hingest⟩ := hingest
  · refine record (attempt none (.ingested report)) { slot with state := state', retry := .clear }
      ?_ ⟨rfl, rfl, rfl, rfl, rfl, rfl, rfl, rfl, .ingested report rfl rfl rfl rfl⟩
    rw [request, hingest]
  · obtain ⟨atMs, retry, hretry⟩ | hletter := slot.retry.onFailure_cases nowMs
      (classify (failureMessage error)) slot.retryPolicy
    · refine record (attempt (some (classify (failureMessage error), failureMessage error))
        (.deferred atMs)) { slot with retry := retry } ?_
        ⟨rfl, rfl, rfl, rfl, rfl, rfl, rfl, rfl, .retried _ _ atMs rfl rfl rfl hretry rfl⟩
      simp only [request, hingest, failed, hretry, attempt]
    · refine record
        (attempt (some (classify (failureMessage error), failureMessage error)) .deadLettered)
        { slot with
          deadLetters := pushDeadLetter slot.deadLetterCapacity slot.deadLetters
            ⟨slot.provider.providerId, slot.state.cursor, nowMs, classify (failureMessage error),
              String.ofList ((failureMessage error).toList.take 512)⟩
          retry := .clear } ?_
        ⟨rfl, rfl, rfl, rfl, rfl, rfl, rfl, rfl, .givenUp _ _ rfl rfl rfl
          (congrArg Prod.fst hletter) rfl rfl⟩
      simp only [request, hingest, failed, hletter, attempt]

/-- What a poll does to a slot, and the request that it makes: it waits, it is refused a request,
or it makes one. -/
inductive Polled (nowMs : Int64) (slot : ProviderSlot σ) : List Attempt → ProviderSlot σ → Prop where
  | waits (outcome : PollOutcome) (hready : slot.retry.ready nowMs = false) :
    Polled nowMs slot [] (slot.observed nowMs outcome)
  | refused (atMs : Int64) (limiter : RequestLimiter) (hready : slot.retry.ready nowMs = true)
    (hallow : RequestLimiter.allow nowMs slot.limiter = (.error atMs, limiter)) :
    Polled nowMs slot [] (({ slot with limiter := limiter }).observed nowMs (.deferred atMs))
  | requested (limiter : RequestLimiter) (attempt : Attempt) (slot' : ProviderSlot σ)
    (hready : slot.retry.ready nowMs = true)
    (hallow : RequestLimiter.allow nowMs slot.limiter = (.ok (), limiter))
    (hrequest : Requested nowMs { slot with limiter := limiter } slot' attempt) :
    Polled nowMs slot [attempt] (slot'.observed nowMs attempt.outcome)

/-- **One poll.** -/
theorem pollCursorProvider_polled (upper : String → String) (committer : CursorCommitter σ)
    (nowMs : Int64) (classify : String → RetryClass) (slot : ProviderSlot σ) (room : Newsroom σ) :
    ∃ new, (pollCursorProvider upper committer nowMs classify slot room).2.2.attempts =
        room.attempts ++ new ∧
      Polled nowMs slot new
        ((pollCursorProvider upper committer nowMs classify slot room).2.1.observed nowMs
          (pollCursorProvider upper committer nowMs classify slot room).1) := by
  unfold pollCursorProvider
  by_cases hready : slot.retry.ready nowMs = false
  · rw [if_pos hready]
    exact ⟨[], (List.append_nil _).symm, .waits _ hready⟩
  · rw [if_neg hready]
    rw [Bool.not_eq_false] at hready
    rcases hallow : RequestLimiter.allow nowMs slot.limiter with ⟨atMs | _, limiter⟩
    · exact ⟨[], (List.append_nil _).symm, .refused atMs limiter hready hallow⟩
    · obtain ⟨attempt, slot', room', hrequest, hattempts, hspec⟩ :=
        ({ slot with limiter := limiter }).request_spec upper committer nowMs classify room
      dsimp only
      rw [hrequest]
      exact ⟨[attempt], hattempts, .requested limiter attempt slot' hready hallow hspec⟩

/-- The slots differ in the history of their polls at most. -/
structure ProviderSlot.Alike (slot slot' : ProviderSlot σ) : Prop where
  provider : slot'.provider = slot.provider
  state : slot'.state = slot.state
  retry : slot'.retry = slot.retry
  limiter : slot'.limiter = slot.limiter
  retryPolicy : slot'.retryPolicy = slot.retryPolicy
  maxItems : slot'.maxItems = slot.maxItems
  deadLetterCapacity : slot'.deadLetterCapacity = slot.deadLetterCapacity
  deadLetters : slot'.deadLetters = slot.deadLetters

theorem ProviderSlot.alike_observed (slot : ProviderSlot σ) (outcome : PollOutcome) :
    slot.Alike (slot.observed nowMs outcome) := by
  cases outcome with
  | ingested report => exact ⟨rfl, rfl, rfl, rfl, rfl, rfl, rfl, rfl⟩
  | deferred atMs =>
    rw [observed]
    split
    · exact ⟨rfl, rfl, rfl, rfl, rfl, rfl, rfl, rfl⟩
    · exact ⟨rfl, rfl, rfl, rfl, rfl, rfl, rfl, rfl⟩
  | deadLettered => exact ⟨rfl, rfl, rfl, rfl, rfl, rfl, rfl, rfl⟩

/-- A poll stays with its provider, and records requests of no other one. -/
theorem Polled.provider {slot slot' : ProviderSlot σ} {new : List Attempt}
    (h : Polled nowMs slot new slot') :
    slot'.provider = slot.provider ∧ ∀ a ∈ new, a.providerId = slot.provider.providerId := by
  cases h with
  | waits outcome => exact ⟨(slot.alike_observed outcome).provider, fun _ ha => nomatch ha⟩
  | refused atMs limiter =>
    exact ⟨(({ slot with limiter := limiter }).alike_observed _).provider, fun _ ha => nomatch ha⟩
  | requested limiter attempt slot' hready hallow hrequest =>
    refine ⟨(slot'.alike_observed _).provider.trans hrequest.provider, fun a ha => ?_⟩
    rw [List.mem_singleton.mp ha, hrequest.providerId]

-- Operations

/-- A slot without a poll, of a provider that may be registered. -/
structure ProviderSlot.Fresh (slot : ProviderSlot σ) : Prop where
  manifest : ProviderRegistry.manifestFits slot.provider = true
  named : Text.trim slot.provider.providerId ≠ ""
  maxItems : slot.maxItems ≠ 0
  limiter : ∃ maxRequests windowMs, RequestLimiter.new maxRequests windowMs = some slot.limiter
  retry : slot.retry = .clear
  deadLetters : slot.deadLetters = []

/-- What an operation does, one provider at a time; `R` are the providers that are restored. -/
inductive Move (R : String → Prop) (w : Workers σ) : Workers σ → Prop where
  | registered (slot : ProviderSlot σ) (hfresh : slot.Fresh)
    (hfree : w.providers[Text.trim slot.provider.providerId]? = none) :
    Move R w { w with
      providers := w.providers.insert (Text.trim slot.provider.providerId) slot }
  | restored (snapshot : ProviderStateSnapshot) (slot : ProviderSlot σ) (hr : R snapshot.providerId)
    (hslot : w.providers[snapshot.providerId]? = some slot)
    (hletters : snapshot.deadLetters.length ≤ slot.deadLetterCapacity) :
    Move R w { w with providers :=
      w.providers.insert snapshot.providerId (ProviderRegistry.restoredSlot snapshot slot) }
  | polled (nowMs : Int64) (providerId : String) (slot slot' : ProviderSlot σ) (room' : Newsroom σ)
    (new : List Attempt) (hslot : w.providers[providerId]? = some slot)
    (hattempts : room'.attempts = w.room.attempts ++ new) (hpoll : Polled nowMs slot new slot') :
    Move R w ⟨w.providers.insert providerId slot', room'⟩

/-- The providers that an operation restores. -/
def RegistryOp.Restores : RegistryOp σ → String → Prop
  | restoreSnapshot snapshot, providerId => snapshot.providerId = providerId
  | _, _ => False

open Relation ProviderRegistry

variable {R : String → Prop} {w w' : Workers σ}

theorem poll_moves (providerId : String) :
    Along (ReflTransGen (Move R)) (poll upper committer nowMs classify providerId) := by
  intro w
  unfold ProviderRegistry.poll
  rw [reads_bind, id]
  cases hslot : w.providers[providerId]? with
  | none => exact .refl
  | some slot =>
    obtain ⟨new, hattempts, hpoll⟩ :=
      pollCursorProvider_polled upper committer nowMs classify slot w.room
    exact .single (.polled nowMs providerId slot _ _ new hslot hattempts hpoll)

theorem pollFallback_moves (priority : List String) :
    Along (ReflTransGen (Move R)) (pollFallback upper committer nowMs classify priority) := by
  induction priority with
  | nil => exact Along.ret _
  | cons providerId priority ih =>
    exact (poll_moves providerId).bind fun _ => Along.ite (fun _ => Along.ret _) fun _ =>
      ih.bind fun _ => Along.ret _

/-- **Every operation** is a sequence of moves. -/
theorem RegistryOp.moves (upper : String → String) (committer : CursorCommitter σ)
    (op : RegistryOp σ) (w : Workers σ) :
    ReflTransGen (Move op.Restores) w (op.apply upper committer w) := by
  cases op with
  | register provider retryPolicy maxRequests windowMs maxItems deadLetterCapacity =>
    rw [apply, ProviderRegistry.register, require_bind]
    split
    · next hmanifest =>
      cases hlimiter : RequestLimiter.new maxRequests windowMs with
      | none => exact .refl
      | some limiter =>
        rw [orFail_bind_some rfl, require_bind]
        split
        · next hnamed =>
          rw [require_bind]
          split
          · next hitems =>
            rw [reads_bind, require_bind, id]
            split
            · next hfree =>
              exact .single (.registered (freshSlot provider limiter retryPolicy maxItems
                deadLetterCapacity) ⟨hmanifest, hnamed, hitems, ⟨_, _, hlimiter⟩, rfl, rfl⟩ hfree)
            · exact .refl
          · exact .refl
        · exact .refl
    · exact .refl
  | restoreSnapshot snapshot =>
    rw [apply, ProviderRegistry.restoreSnapshot, reads_bind, id]
    cases hslot : w.providers[snapshot.providerId]? with
    | none => exact .refl
    | some slot =>
      rw [orFail_bind_some rfl, require_bind]
      split
      · next hletters => exact .single (.restored snapshot slot rfl hslot hletters)
      · exact .refl
  | poll nowMs classify providerId => exact poll_moves providerId w
  | pollFallback nowMs classify priority => exact pollFallback_moves priority w

-- One provider at a time

/-- Slots are under the identities of their providers, and requests are of registered providers. -/
structure Registered (w : Workers σ) : Prop where
  keys : ∀ providerId slot, w.providers[providerId]? = some slot →
    Text.trim slot.provider.providerId = providerId
  known : ∀ a ∈ w.room.attempts, ∃ slot, w.providers[Text.trim a.providerId]? = some slot

/-- Each slot and its own requests are in `I`. -/
def Each (I : String → ProviderSlot σ → List Attempt → Prop) (w : Workers σ) : Prop :=
  ∀ providerId slot, w.providers[providerId]? = some slot →
    I providerId slot (w.attemptsOf providerId)

/-- What holds of a new slot and of the slots before holds of all of them. -/
theorem forall_insert {P : String → ProviderSlot σ → Prop} {providers : ProviderRegistry σ}
    {key : String} {slot : ProviderSlot σ} (hnew : P key slot)
    (hold : ∀ key' slot', key ≠ key' → providers[key']? = some slot' → P key' slot') :
    ∀ key' slot', (providers.insert key slot)[key']? = some slot' → P key' slot' := by
  intro key' slot' h
  rw [Std.TreeMap.getElem?_insert] at h
  split at h
  · next hkey =>
    cases Std.LawfulEqCmp.compare_eq_iff_eq.mp hkey
    exact Option.some.inj h ▸ hnew
  · next hkey => exact hold key' slot' (fun heq => hkey (heq ▸ Std.ReflCmp.compare_self)) h

/-- A registered provider stays registered. -/
theorem exists_insert {providers : ProviderRegistry σ} {key key' : String} {slot : ProviderSlot σ}
    (h : key ≠ key' → ∃ slot', providers[key']? = some slot') :
    ∃ slot', (providers.insert key slot)[key']? = some slot' := by
  rw [Std.TreeMap.getElem?_insert]
  split
  · exact ⟨slot, rfl⟩
  · next hkey => exact h fun heq => hkey (heq ▸ Std.ReflCmp.compare_self)

/-- Requests of one provider are recorded for that provider only. -/
theorem attemptsOf_append {room : Newsroom σ} {new : List Attempt} {key : String}
    (hattempts : room.attempts = w.room.attempts ++ new)
    (hnew : ∀ a ∈ new, Text.trim a.providerId = key) (providers : ProviderRegistry σ)
    (key' : String) :
    (Workers.mk providers room).attemptsOf key' =
      w.attemptsOf key' ++ if key = key' then new else [] := by
  rw [Workers.attemptsOf, hattempts, List.filter_append, Workers.attemptsOf]
  congr 1
  split
  · next hkey => exact List.filter_eq_self.mpr fun a ha => decide_eq_true ((hnew a ha).trans hkey)
  · next hkey =>
    refine List.filter_eq_nil_iff.mpr fun a ha => ?_
    rw [decide_eq_true_eq, hnew a ha]
    exact hkey

/-- **One provider at a time**: what holds of a slot without a poll and is kept by the polls of the
slot, and by its restores, holds of each slot and its own requests. -/
theorem Move.each {I : String → ProviderSlot σ → List Attempt → Prop}
    (hfresh : ∀ key slot, slot.Fresh → I key slot [])
    (hpolled : ∀ nowMs key slot new slot' l, Polled nowMs slot new slot' → I key slot l →
      I key slot' (l ++ new))
    (hrestored : ∀ snapshot slot l, R snapshot.providerId →
      snapshot.deadLetters.length ≤ slot.deadLetterCapacity → I snapshot.providerId slot l →
        I snapshot.providerId (restoredSlot snapshot slot) l)
    (m : Move R w w') (hreg : Registered w) (h : Each I w) : Registered w' ∧ Each I w' := by
  cases m with
  | registered slot hslot hfree =>
    -- The provider has made no request, as it was not registered.
    have hnone : w.attemptsOf (Text.trim slot.provider.providerId) = [] := by
      refine List.filter_eq_nil_iff.mpr fun a ha => ?_
      rw [decide_eq_true_eq]
      intro hid
      obtain ⟨known, hknown⟩ := hreg.known a ha
      rw [hid, hfree] at hknown
      cases hknown
    refine ⟨⟨forall_insert rfl fun key slot' _ => hreg.keys key slot',
      fun a ha => exists_insert fun _ => hreg.known a ha⟩,
      forall_insert ?_ fun key slot' _ => h key slot'⟩
    exact (congrArg (I _ slot) hnone).mpr (hfresh _ slot hslot)
  | restored snapshot slot hr hslot hletters =>
    exact ⟨⟨forall_insert (hreg.keys snapshot.providerId slot hslot)
        fun key slot' _ => hreg.keys key slot',
      fun a ha => exists_insert fun _ => hreg.known a ha⟩,
      forall_insert (hrestored snapshot slot _ hr hletters (h snapshot.providerId slot hslot))
        fun key slot' _ => h key slot'⟩
  | polled nowMs providerId slot slot' room' new hslot hattempts hpoll =>
    have hkey := hreg.keys providerId slot hslot
    obtain ⟨hprovider, hids⟩ := hpoll.provider
    have hnew : ∀ a ∈ new, Text.trim a.providerId = providerId := fun a ha => by
      rw [hids a ha, hkey]
    refine ⟨⟨forall_insert (by rw [hprovider, hkey]) fun key other _ => hreg.keys key other,
      fun a ha => exists_insert fun hne => ?_⟩, forall_insert ?_ fun key other hne hother => ?_⟩
    · rw [hattempts] at ha
      rcases List.mem_append.mp ha with ha | ha
      · exact hreg.known a ha
      · exact absurd (hnew a ha).symm hne
    · rw [attemptsOf_append hattempts hnew, if_pos rfl]
      exact hpolled nowMs providerId slot new slot' _ hpoll (h providerId slot hslot)
    · rw [attemptsOf_append hattempts hnew, if_neg hne, List.append_nil]
      exact h key other hother

/-- The workers after a run. -/
abbrev afterOps (upper : String → String) (committer : CursorCommitter σ) (w : Workers σ)
    (ops : List (RegistryOp σ)) : Workers σ :=
  Runs.final (RegistryOp.apply upper committer) w ops

/-- The same along a run. -/
theorem each_afterOps {I : String → ProviderSlot σ → List Attempt → Prop}
    (hfresh : ∀ key slot, slot.Fresh → I key slot [])
    (hpolled : ∀ nowMs key slot new slot' l, Polled nowMs slot new slot' → I key slot l →
      I key slot' (l ++ new))
    {ops : List (RegistryOp σ)}
    (hrestored : ∀ op ∈ ops, ∀ snapshot slot l, op.Restores snapshot.providerId →
      snapshot.deadLetters.length ≤ slot.deadLetterCapacity → I snapshot.providerId slot l →
        I snapshot.providerId (restoredSlot snapshot slot) l)
    (store : NewsStore) (world : σ) :
    Registered (afterOps upper committer (.start store world) ops) ∧
      Each I (afterOps upper committer (.start store world) ops) := by
  have hstart : Registered (.start store world) ∧ Each I (.start store world) := by
    refine ⟨⟨fun key slot h => ?_, fun a ha => nomatch ha⟩, fun key slot h => ?_⟩
    · simp [Workers.start] at h
    · simp [Workers.start] at h
  refine Runs.final_of_step (A := (· ∈ ops)) (I := fun w => Registered w ∧ Each I w)
    (fun op w hop h => ?_) hstart fun op hop => hop
  refine (op.moves upper committer w).rec (motive := fun w' _ => Registered w' ∧ Each I w') h ?_
  exact fun _ m ih => m.each hfresh hpolled (hrestored op hop) ih.1 ih.2

-- The rate

open FixedWindow in
/-- The limiter and the requests of a slot are a counter and its granted calls. -/
def Counted (slot : ProviderSlot σ) (attempts : List Attempt) : Prop :=
  ∃ (p : Policy ℤ) (times : List ℤ), RequestLimiter.Tracks p (after none times) slot.limiter ∧
    attempts.map (·.atMs.toInt) = granted (none : Option (Window p)) times

open FixedWindow in
theorem Polled.counted {slot slot' : ProviderSlot σ} {new attempts : List Attempt}
    (h : Polled nowMs slot new slot') (hcounted : Counted slot attempts) :
    Counted slot' (attempts ++ new) := by
  obtain ⟨p, times, htracks, htimes⟩ := hcounted
  have hfollows := htracks.follows nowMs
  have hafter := after_concat (none : Option (Window p)) times nowMs.toInt
  have hgranted := granted_concat (none : Option (Window p)) times nowMs.toInt
  cases h with
  | waits outcome =>
    refine ⟨p, times, ?_, by rwa [List.append_nil]⟩
    rwa [(slot.alike_observed outcome).limiter]
  | refused atMs limiter _ hallow =>
    cases hgrant : grant (after none times) nowMs.toInt with
    | none =>
      obtain ⟨_, hsame, -⟩ := hfollows.refused hgrant
      obtain ⟨-, rfl⟩ := Prod.mk.inj (hsame.symm.trans hallow)
      refine ⟨p, times, ?_, by rwa [List.append_nil]⟩
      rwa [(ProviderSlot.alike_observed _ _).limiter]
    | some v =>
      obtain ⟨_, hok, -⟩ := hfollows.granted v hgrant
      cases hok.symm.trans hallow
  | requested limiter attempt slot' _ hallow hrequest =>
    cases hgrant : grant (after none times) nowMs.toInt with
    | none =>
      obtain ⟨_, herror, -⟩ := hfollows.refused hgrant
      cases herror.symm.trans hallow
    | some v =>
      obtain ⟨limiter', hok, hnext⟩ := hfollows.granted v hgrant
      obtain ⟨-, rfl⟩ := Prod.mk.inj (hok.symm.trans hallow)
      refine ⟨p, times ++ [nowMs.toInt], ?_, ?_⟩
      · rw [(slot'.alike_observed _).limiter, hrequest.limiter, hafter, FixedWindow.step, hgrant]
        exact hnext
      · rw [List.map_append, htimes, hgranted, hgrant, List.map_singleton, hrequest.atMs]
        rfl

theorem ProviderSlot.Fresh.counted {slot : ProviderSlot σ} (h : slot.Fresh) : Counted slot [] := by
  obtain ⟨maxRequests, windowMs, hnew⟩ := h.limiter
  obtain ⟨p, htracks⟩ := RequestLimiter.tracks_new hnew
  exact ⟨p, [], htracks, rfl⟩

/-- **The rate of requests**: in any interval of a window, a provider is asked fewer than twice the
limit of its limiter, whatever the operations, the restores and the clock were. -/
theorem attempts_within_limit (upper : String → String) (committer : CursorCommitter σ)
    (store : NewsStore) (world : σ) (ops : List (RegistryOp σ)) {providerId : String}
    {slot : ProviderSlot σ}
    (hslot : (afterOps upper committer (.start store world) ops).providers[providerId]? = some slot)
    (a : ℤ) :
    ((afterOps upper committer (.start store world) ops).attemptsOf providerId).countP
        (fun x => a ≤ x.atMs.toInt ∧ x.atMs.toInt < a + slot.limiter.windowMs.toInt) <
      2 * slot.limiter.maxRequests.toNat := by
  have heach : Each (fun _ => Counted) (afterOps upper committer (.start store world) ops) :=
    (each_afterOps (fun _ _ => ProviderSlot.Fresh.counted) (fun _ _ _ _ _ _ => Polled.counted)
      (fun _ _ _ _ _ _ _ h => h) store world).2
  obtain ⟨p, times, htracks, htimes⟩ := heach providerId slot hslot
  have hcount := FixedWindow.countP_granted_lt a (none : Option (FixedWindow.Window p)) times
  rw [← htimes, List.countP_map, ← htracks.limit] at hcount
  rwa [htracks.width]

namespace Sample

/-- A provider whose pages are empty. -/
def rss : CursorProvider Unit where
  providerId := "rss"
  manifest := none
  fetchPage _ _ := pure { items := [], nextCursor := none }

/-- Every page is committed. -/
def sink : CursorCommitter Unit where
  commitPage _ _ _ _ := pure ()

/-- Two requests in a second, asked for at the end of a window and at the start of the next one. -/
def polls : List (RegistryOp Unit) :=
  .register rss ⟨3, 100, 1000⟩ 2 1000 10 4 ::
    [0, 999, 1000, 1001, 1002].map fun nowMs => .poll nowMs (fun _ => .permanent) "rss"

/-- The workers after the polls. -/
def polled : Workers Unit := afterOps id sink (.start (.withCapacity 8) ()) polls

end Sample

/-- A second has three requests in it. -/
theorem attempts_within_limit_across :
    ∃ slot, Sample.polled.providers["rss"]? = some slot ∧
      (Sample.polled.attemptsOf "rss").countP
        (fun x => 999 ≤ x.atMs.toInt ∧ x.atMs.toInt < 999 + slot.limiter.windowMs.toInt) = 3 ∧
      (Sample.polled.attemptsOf "rss").countP
        (fun x => 999 ≤ x.atMs.toInt ∧ x.atMs.toInt < 999 + slot.limiter.windowMs.toInt) <
          2 * slot.limiter.maxRequests.toNat :=
  ⟨_, rfl, by decide +kernel, attempts_within_limit id Sample.sink (.withCapacity 8) ()
    Sample.polls rfl 999⟩

end NewsWorkers

end InsiderTrader
