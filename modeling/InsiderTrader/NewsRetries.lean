import InsiderTrader.NewsPacing

/-!
# The retries of the news workers

What becomes of a request is decided by the requests before it: a page that fails is asked for
again, no earlier than the time its retry was put off to, until it is stored or given up. The
queue of a provider has the last pages that were given up.

## Main definitions

- `dueMs` — the time before which no request is made
- `retriesOf` — the retries since a page was last stored or given up
- `RetryPolicy.decision` — what becomes of a failed request
- `Lawful` — a request that agrees with the requests before it

## Main results

- `attempts_lawful` — every request of a run agrees with those before it
-/

namespace InsiderTrader

open NewsProviders

namespace NewsWorkers

-- Series of failures

/-- The time that a request was put off to. -/
def Attempt.dueMs (a : Attempt) : Option Int64 :=
  match a.outcome with
  | .deferred atMs => some atMs
  | _ => none

/-- The time before which no request is made. -/
def dueMs (past : List Attempt) : Option Int64 := past.getLast?.bind Attempt.dueMs

/-- The retries since a page was last stored or given up. -/
def retriesOf (past : List Attempt) : ℕ := (past.reverse.takeWhile (·.dueMs.isSome)).length

/-- The page that a request gave up. -/
def Attempt.letter (a : Attempt) : Option DeadLetter :=
  match a.outcome, a.failure with
  | .deadLettered, some (retryClass, message) => some
    ⟨a.providerId, a.cursor, a.atMs, retryClass, String.ofList (message.toList.take 512)⟩
  | _, _ => none

@[simp] theorem dueMs_concat (past : List Attempt) (a : Attempt) :
    dueMs (past ++ [a]) = a.dueMs := by
  simp [dueMs]

theorem retriesOf_concat (past : List Attempt) (a : Attempt) :
    retriesOf (past ++ [a]) = if a.dueMs.isSome then retriesOf past + 1 else 0 := by
  rw [retriesOf, List.reverse_append, List.reverse_singleton, List.singleton_append,
    List.takeWhile_cons]
  split <;> rfl

/-- What becomes of a failed request after retries. -/
def RetryPolicy.decision (policy : RetryPolicy) (nowMs : Int64) (retries : ℕ) (c : RetryClass) :
    PollOutcome :=
  match policy.delay retries c with
  | none => .deadLettered
  | some delay =>
    if retries < policy.maxRetries.toNat then .deferred (saturatingAdd nowMs (.ofIntClamp delay))
    else .deadLettered

/-- A request that agrees with the requests before it: it is made no earlier than its page is due,
it asks for the page that failed last, and a failure is retried later or given up. -/
structure Lawful (policy : RetryPolicy) (past : List Attempt) (a : Attempt) : Prop where
  due : ∀ atMs, dueMs past = some atMs → atMs ≤ a.atMs
  page : ∀ b, past.getLast? = some b → b.failure.isSome → a.cursor = b.cursor
  stored : a.failure = none → ∃ report, a.outcome = .ingested report
  failed : ∀ c message, a.failure = some (c, message) →
    a.outcome = policy.decision a.atMs (retriesOf past) c

theorem Lawful.of_failure {policy : RetryPolicy} {past : List Attempt} {a : Attempt}
    {c : RetryClass} {message : String} (hdue : ∀ atMs, NewsWorkers.dueMs past = some atMs → atMs ≤ a.atMs)
    (hpage : ∀ b, past.getLast? = some b → b.failure.isSome → a.cursor = b.cursor)
    (hfailure : a.failure = some (c, message))
    (h : a.outcome = policy.decision a.atMs (retriesOf past) c) : Lawful policy past a where
  due := hdue
  page := hpage
  stored hnone := nomatch hnone.symm.trans hfailure
  failed c' message' h' := by
    obtain ⟨rfl, -⟩ := Prod.mk.inj (Option.some.inj (hfailure.symm.trans h'))
    exact h

/-- Every request agrees with those before it. -/
def LawfulAll (policy : RetryPolicy) (attempts : List Attempt) : Prop :=
  ∀ past a later, attempts = past ++ a :: later → Lawful policy past a

theorem LawfulAll.concat {policy : RetryPolicy} {attempts : List Attempt} {a : Attempt}
    (h : LawfulAll policy attempts) (ha : Lawful policy attempts a) :
    LawfulAll policy (attempts ++ [a]) := by
  intro past b later heq
  cases later using List.reverseRecOn with
  | nil =>
    obtain ⟨rfl, hb⟩ := List.append_inj' heq rfl
    obtain rfl := List.singleton_inj.mp hb
    exact ha
  | append_singleton later c =>
    rw [← List.cons_append, ← List.append_assoc] at heq
    exact h past b later (List.append_inj' heq rfl).1

-- One provider

variable {σ : Type} {nowMs : Int64} {slot slot' : ProviderSlot σ} {attempts : List Attempt}

/-- A slot is where its requests have left it. -/
structure Retried (slot : ProviderSlot σ) (attempts : List Attempt) : Prop where
  lawful : LawfulAll slot.retryPolicy attempts
  next : slot.retry.nextRetryMs = dueMs attempts
  retries : slot.retry.retries.toNat = retriesOf attempts
  bounded : retriesOf attempts ≤ slot.retryPolicy.maxRetries.toNat
  page : ∀ b, attempts.getLast? = some b → b.failure.isSome → slot.state.cursor = b.cursor
  letters : slot.deadLetters =
    Samples.lastN slot.deadLetterCapacity (attempts.filterMap Attempt.letter)

/-- What becomes of a failed request is decided by the retries before it. -/
theorem RetryState.onFailure_decision (nowMs : Int64) (retryClass : RetryClass)
    (policy : RetryPolicy) (s : RetryState) :
    (∃ atMs, policy.decision nowMs s.retries.toNat retryClass = .deferred atMs ∧
      s.retries.toNat < policy.maxRetries.toNat ∧
      s.onFailure nowMs retryClass policy =
        (.retryAt atMs, ⟨.ofNat (s.retries.toNat + 1), some atMs⟩)) ∨
    policy.decision nowMs s.retries.toNat retryClass = .deadLettered ∧
      s.onFailure nowMs retryClass policy = (.deadLetter, s) := by
  unfold onFailure RetryPolicy.decision
  cases policy.delay s.retries.toNat retryClass with
  | none => exact .inr ⟨rfl, rfl⟩
  | some delay =>
    by_cases hroom : s.retries.toNat < policy.maxRetries.toNat
    · have hmax : min (s.retries.toNat + 1) (2 ^ 32 - 1) = s.retries.toNat + 1 := by
        have := policy.maxRetries.toNat_lt
        omega
      refine .inl ⟨_, if_pos hroom, hroom, ?_⟩
      dsimp only
      rw [if_neg (UInt32.le_iff_toNat_le.not.mpr hroom.not_ge), hmax]
    · exact .inr ⟨if_neg hroom, if_pos (UInt32.le_iff_toNat_le.mpr (not_lt.mp hroom))⟩

/-- The queue keeps the last pages that were given up. -/
theorem pushDeadLetter_lastN (capacity : ℕ) (letters : List DeadLetter) (letter : DeadLetter) :
    pushDeadLetter capacity (Samples.lastN capacity letters) letter =
      Samples.lastN capacity (letters ++ [letter]) := by
  unfold pushDeadLetter
  by_cases hzero : capacity = 0
  · rw [if_pos hzero, hzero, Samples.lastN, Samples.lastN, Nat.sub_zero, Nat.sub_zero,
      List.drop_length, List.drop_length]
  · have hpos : 0 < capacity := Nat.pos_of_ne_zero hzero
    have hlength := Samples.length_lastN capacity letters
    rw [if_neg hzero, Samples.lastN_concat hpos]
    congr 1
    split
    · next hfull =>
      have hone : letters.length - capacity + 1 = letters.length - (capacity - 1) := by omega
      rw [Samples.lastN, Samples.lastN, List.drop_drop, hone]
    · next hroom =>
      have hall : letters.length - capacity = letters.length - (capacity - 1) := by omega
      rw [Samples.lastN, Samples.lastN, hall]

namespace Retried

theorem fresh (h : slot.Fresh) : Retried slot [] where
  lawful past a later heq := by cases past <;> cases heq
  next := by rw [h.retry]; rfl
  retries := by rw [h.retry]; rfl
  bounded := Nat.zero_le _
  page _ hlast := nomatch hlast
  letters := by
    rw [h.deadLetters, Samples.lastN, List.filterMap_nil, List.drop_nil]

theorem alike (h : Retried slot attempts) (halike : slot.Alike slot') : Retried slot' attempts where
  lawful := halike.retryPolicy ▸ h.lawful
  next := halike.retry ▸ h.next
  retries := halike.retry ▸ h.retries
  bounded := halike.retryPolicy ▸ h.bounded
  page := halike.state ▸ h.page
  letters := by rw [halike.deadLetters, halike.deadLetterCapacity, h.letters]

/-- **A request** agrees with those before it, and leaves its slot where it should be. -/
theorem requested {attempt : Attempt} (h : Retried slot attempts)
    (hready : slot.retry.ready nowMs = true) (hrequest : Requested nowMs slot slot' attempt) :
    Retried slot' (attempts ++ [attempt]) := by
  obtain ⟨-, -, hpolicy, -, hcapacity, hid, hcursor, hat, hsettles⟩ := hrequest
  have hdue : ∀ atMs, dueMs attempts = some atMs → atMs ≤ attempt.atMs := by
    intro atMs hatMs
    rw [← h.next] at hatMs
    rw [RetryState.ready, hatMs] at hready
    rw [hat]
    exact of_decide_eq_true hready
  have hpage : ∀ b, attempts.getLast? = some b → b.failure.isSome → attempt.cursor = b.cursor :=
    fun b hb hfailure => hcursor.trans (h.page b hb hfailure)
  cases hsettles with
  | ingested report hfailure houtcome hretry hletters =>
    have hno : attempt.dueMs = none := by rw [Attempt.dueMs, houtcome]
    have hletter : attempt.letter = none := by rw [Attempt.letter, houtcome]
    exact {
      lawful := hpolicy ▸ h.lawful.concat ⟨hdue, hpage, fun _ => ⟨report, houtcome⟩,
        fun c message hc => nomatch hfailure.symm.trans hc⟩
      next := by rw [hretry, dueMs_concat, hno]; rfl
      retries := by rw [hretry, retriesOf_concat, hno]; rfl
      bounded := by rw [retriesOf_concat, hno]; exact Nat.zero_le _
      page := fun b hb hb' => by
        rw [List.getLast?_concat, Option.some_inj] at hb
        rw [← hb, hfailure] at hb'
        cases hb'
      letters := by
        rw [hletters, hcapacity, h.letters, List.filterMap_append, List.filterMap_cons_none hletter,
          List.filterMap_nil, List.append_nil] }
  | retried retryClass message atMs hfailure houtcome hstate hretry hletters =>
    obtain ⟨atMs', hdecision, hroom, honFailure⟩ | ⟨-, honFailure⟩ :=
      slot.retry.onFailure_decision nowMs retryClass slot.retryPolicy
    · obtain ⟨hatMs, hslot⟩ := Prod.mk.inj (honFailure.symm.trans hretry)
      obtain rfl := RetryDecision.retryAt.inj hatMs
      have hdueMs : attempt.dueMs = some atMs' := by rw [Attempt.dueMs, houtcome]
      have hletter : attempt.letter = none := by rw [Attempt.letter, houtcome]
      rw [h.retries] at hdecision hslot hroom
      exact {
        lawful := hpolicy ▸ h.lawful.concat (.of_failure hdue hpage hfailure (by
          rw [houtcome, hat, hdecision]))
        next := by rw [← hslot, dueMs_concat, hdueMs]
        retries := by
          have hlt := slot.retryPolicy.maxRetries.toNat_lt
          rw [← hslot, retriesOf_concat, hdueMs, Option.isSome_some, if_pos rfl,
            UInt32.toNat_ofNat_of_lt' (show _ < 2 ^ 32 by omega)]
        bounded := by
          rw [retriesOf_concat, hdueMs, hpolicy]
          exact hroom
        page := fun b hb _ => by
          rw [List.getLast?_concat, Option.some_inj] at hb
          rw [← hb, hstate, hcursor]
        letters := by
          rw [hletters, hcapacity, h.letters, List.filterMap_append,
            List.filterMap_cons_none hletter, List.filterMap_nil, List.append_nil] }
    · cases honFailure.symm.trans hretry
  | givenUp retryClass message hfailure houtcome hstate hretry hclear hletters =>
    obtain ⟨atMs, -, -, honFailure⟩ | ⟨hdecision, -⟩ :=
      slot.retry.onFailure_decision nowMs retryClass slot.retryPolicy
    · cases (congrArg Prod.fst honFailure).symm.trans hretry
    · have hno : attempt.dueMs = none := by rw [Attempt.dueMs, houtcome]
      have hletter : attempt.letter = some ⟨attempt.providerId, attempt.cursor, nowMs, retryClass,
          String.ofList (message.toList.take 512)⟩ := by
        rw [Attempt.letter, houtcome, hfailure, ← hat]
      rw [h.retries] at hdecision
      exact {
        lawful := hpolicy ▸ h.lawful.concat (.of_failure hdue hpage hfailure (by
          rw [houtcome, hat, hdecision]))
        next := by rw [hclear, dueMs_concat, hno]; rfl
        retries := by rw [hclear, retriesOf_concat, hno]; rfl
        bounded := by rw [retriesOf_concat, hno]; exact Nat.zero_le _
        page := fun b hb _ => by
          rw [List.getLast?_concat, Option.some_inj] at hb
          rw [← hb, hstate, hcursor]
        letters := by
          rw [hletters, hcapacity, h.letters, pushDeadLetter_lastN, List.filterMap_append,
            List.filterMap_cons_some hletter, List.filterMap_nil] }

/-- **A poll** keeps a slot where its requests have left it. -/
theorem polled {new : List Attempt} (h : Retried slot attempts) (hpoll : Polled nowMs slot new slot') :
    Retried slot' (attempts ++ new) := by
  cases hpoll with
  | waits outcome =>
    rw [List.append_nil]
    exact h.alike (slot.alike_observed outcome)
  | refused atMs limiter =>
    rw [List.append_nil]
    have hsame : Retried { slot with limiter := limiter } attempts :=
      ⟨h.lawful, h.next, h.retries, h.bounded, h.page, h.letters⟩
    exact hsame.alike (ProviderSlot.alike_observed _ _)
  | requested limiter attempt slot' hready hallow hrequest =>
    have hsame : Retried { slot with limiter := limiter } attempts :=
      ⟨h.lawful, h.next, h.retries, h.bounded, h.page, h.letters⟩
    exact (hsame.requested hready hrequest).alike (slot'.alike_observed _)

end Retried

/-- **The requests of a run**: each one agrees with those before it, a page is retried at most as
often as the policy says, and the queue has the last pages that were given up. -/
theorem attempts_lawful (upper : String → String) (committer : CursorCommitter σ)
    (store : NewsStore) (world : σ) (ops : List (RegistryOp σ)) {providerId : String}
    (hops : ∀ op ∈ ops, ¬op.Restores providerId) {slot : ProviderSlot σ}
    (hslot : (afterOps upper committer (.start store world) ops).providers[providerId]? =
      some slot) :
    let attempts := (afterOps upper committer (.start store world) ops).attemptsOf providerId
    LawfulAll slot.retryPolicy attempts ∧
      retriesOf attempts ≤ slot.retryPolicy.maxRetries.toNat ∧
      slot.deadLetters =
        Samples.lastN slot.deadLetterCapacity (attempts.filterMap Attempt.letter) := by
  have heach : Each (fun key slot attempts =>
      (∀ op ∈ ops, ¬op.Restores key) → Retried slot attempts)
      (afterOps upper committer (.start store world) ops) :=
    (each_afterOps (fun _ _ hfresh _ => .fresh hfresh)
      (fun _ _ _ _ _ _ hpoll h hkey => (h hkey).polled hpoll)
      (fun op hop _ _ _ hrestores _ _ hkey => (hkey op hop hrestores).elim) store world).2
  have h := heach providerId slot hslot hops
  exact ⟨h.lawful, h.bounded, h.letters⟩

namespace Sample

/-- A provider that does not answer. -/
def silent : CursorProvider Unit where
  providerId := "wire"
  manifest := none
  fetchPage _ _ := Fallible.fail "timeout"

/-- One retry, which is asked for before it is due and then on time. -/
def retries : List (RegistryOp Unit) :=
  .register silent ⟨1, 100, 1000⟩ 9 1000 10 4 ::
    [0, 99, 100, 101].map fun nowMs => .poll nowMs (fun _ => .transient) "wire"

/-- The workers after the retries. -/
def retried : Workers Unit := afterOps id sink (.start (.withCapacity 8) ()) retries

end Sample

/-- A page is given up after one retry, and asked for again. -/
theorem attempts_lawful_silent :
    (Sample.retried.attemptsOf "wire").map (fun a => (a.atMs, a.outcome)) =
        [(0, .deferred 100), (100, .deadLettered), (101, .deferred 201)] ∧
      ∃ slot, Sample.retried.providers["wire"]? = some slot ∧
        LawfulAll slot.retryPolicy (Sample.retried.attemptsOf "wire") ∧
        slot.deadLetters = Samples.lastN slot.deadLetterCapacity
          ((Sample.retried.attemptsOf "wire").filterMap Attempt.letter) := by
  have hops : ∀ op ∈ Sample.retries, ¬op.Restores "wire" := by
    simp [Sample.retries, RegistryOp.Restores]
  obtain ⟨hlawful, -, hletters⟩ :=
    attempts_lawful id Sample.sink (.withCapacity 8) () Sample.retries hops rfl
  exact ⟨by decide +kernel, _, rfl, hlawful, hletters⟩

end NewsWorkers

end InsiderTrader
