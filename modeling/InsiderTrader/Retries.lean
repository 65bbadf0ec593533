import InsiderTrader.Dispatch
import InsiderTrader.Library.Runs
import Mathlib.Data.List.Induction

/-!
# Retries of a command

An executed command is answered from the cache when it is dispatched again, for
as long as its entry stays there. A full cache gives up the entry with the least
key, however old it is, and two pairs of actor and idempotency key may have one
key.

## Main definitions

- `DispatchCall` — a call of the dispatcher
- `DispatchCall.Accepts`, `DispatchCall.Executes` — the handler carries the command out
- `DispatchCall.Evicts` — a call gives up the entry of a key
- `DispatchCall.Answered` — the command is answered without its handler
- `DispatchCall.Independent` — the call does not see the entry of another command

## Main results

- `DispatchCall.run_cases` — what one call can do
- `DispatchCall.kept_apply` — what one call does to an entry
- `retry_answered_iff` — when an executed command is answered again
-/

namespace InsiderTrader

/-- The part of a command that a retry shares with it. -/
def CommandEnvelope.identity {π : Type} (c : CommandEnvelope π) : String × String :=
  (c.actor, c.idempotencyKey)

/-- The text before the first occurrence of a character that both sides have there. -/
theorem append_separator_inj {a b c d : List Char} {x : Char} (ha : x ∉ a) (hc : x ∉ c)
    (h : a ++ x :: b = c ++ x :: d) : a = c ∧ b = d := by
  have hprefix : a = c := by
    have htake : ∀ {l m : List Char}, x ∉ l → (l ++ x :: m).takeWhile (· != x) = l := by
      intro l m hl
      have hne : ∀ y ∈ l, (y != x) = true := fun y hy => bne_iff_ne.mpr (ne_of_mem_of_not_mem hy hl)
      rw [List.takeWhile_append_of_pos hne]
      simp
    rw [← htake ha, h, htake hc]
  subst hprefix
  exact ⟨rfl, (List.cons.inj (List.append_cancel_left h)).2⟩

/-- **Two identities share a key** only when an actor's name contains the separator. -/
theorem identity_eq_of_cacheKey_eq {π : Type} {a b : CommandEnvelope π}
    (ha : '\u001f' ∉ a.actor.toList) (hb : '\u001f' ∉ b.actor.toList)
    (h : a.cacheKey = b.cacheKey) : a.identity = b.identity := by
  have hlist : a.actor.toList ++ '\u001f' :: a.idempotencyKey.toList =
      b.actor.toList ++ '\u001f' :: b.idempotencyKey.toList := by
    simpa [CommandEnvelope.cacheKey] using congrArg String.toList h
  obtain ⟨hactor, hkey⟩ := append_separator_inj ha hb hlist
  rw [CommandEnvelope.identity, CommandEnvelope.identity, String.toList_injective hactor,
    String.toList_injective hkey]

namespace CommandDispatcher

variable {π ρ : Type}

/-- An empty dispatcher; its cache holds at least one entry. -/
def new (policy : CapabilityPolicy) (cacheCapacity : ℕ) : Option (CommandDispatcher π ρ) :=
  if 0 < cacheCapacity then some ⟨policy, cacheCapacity, ∅⟩ else none

/-- The dispatcher without the entry of a command. -/
def without (command : CommandEnvelope π) (d : CommandDispatcher π ρ) : CommandDispatcher π ρ :=
  { d with cache := d.cache.erase command.cacheKey }

instance (d : CommandDispatcher π ρ) (command : CommandEnvelope π) (capability : String) :
    Decidable (d.Admits command capability) :=
  inferInstanceAs (Decidable (_ ∧ _))

/-- The cache is full and gives up the entry of a key next. -/
def GivesUp (d : CommandDispatcher π ρ) (key : String) : Prop :=
  d.cacheCapacity ≤ d.cache.size ∧ d.cache.minKey? = some key

instance (d : CommandDispatcher π ρ) (key : String) : Decidable (d.GivesUp key) :=
  inferInstanceAs (Decidable (_ ∧ _))

variable {d : CommandDispatcher π ρ} {command other : CommandEnvelope π}
  {response : CommandResponse ρ}

@[simp] theorem remember_policy : (d.remember command response).policy = d.policy := rfl

@[simp] theorem remember_cacheCapacity :
    (d.remember command response).cacheCapacity = d.cacheCapacity := rfl

/-- The cache after room was made for one entry. -/
def room (d : CommandDispatcher π ρ) : Std.TreeMap String (CachedCommand π ρ) :=
  if d.cacheCapacity ≤ d.cache.size then (d.cache.minKey?).elim d.cache d.cache.erase else d.cache

theorem cache_remember :
    (d.remember command response).cache = d.room.insert command.cacheKey ⟨command, response⟩ := rfl

/-- Making room takes exactly the entry the cache gives up. -/
theorem room_get (d : CommandDispatcher π ρ) (key : String) :
    d.room[key]? = if d.GivesUp key then none else d.cache[key]? := by
  by_cases hfull : d.cacheCapacity ≤ d.cache.size
  · rw [room, if_pos hfull]
    cases hmin : d.cache.minKey? with
    | none => rw [if_neg (fun h => Option.some_ne_none key (h.2.symm.trans hmin)), Option.elim_none]
    | some k =>
      rw [Option.elim_some, Std.TreeMap.getElem?_erase]
      by_cases hk : k = key
      · subst hk
        rw [if_pos Std.ReflCmp.compare_self, if_pos ⟨hfull, hmin⟩]
      · rw [if_neg (fun h => hk (Std.LawfulEqOrd.eq_of_compare h)),
          if_neg (fun h => hk (Option.some.inj (hmin.symm.trans h.2)))]
  · rw [room, if_neg hfull, if_neg (fun h => hfull h.1)]

theorem cached_remember_self :
    (d.remember command response).cached command = some ⟨command, response⟩ := by
  rw [cached, cache_remember, Std.TreeMap.getElem?_insert_self]

/-- Another entry is kept unless the cache gives it up. -/
theorem cached_remember_of_ne (h : command.cacheKey ≠ other.cacheKey) :
    (d.remember command response).cached other =
      if d.GivesUp other.cacheKey then none else d.cached other := by
  rw [cached, cache_remember, Std.TreeMap.getElem?_insert,
    if_neg (fun he => h (Std.LawfulEqOrd.eq_of_compare he)), room_get, cached]

theorem cached_without_self : (d.without command).cached command = none := by
  rw [cached, without, Std.TreeMap.getElem?_erase_self]

theorem cached_without_of_ne (h : command.cacheKey ≠ other.cacheKey) :
    (d.without command).cached other = d.cached other := by
  rw [cached, without, Std.TreeMap.getElem?_erase,
    if_neg (fun he => h (Std.LawfulEqOrd.eq_of_compare he)), cached]

end CommandDispatcher

/-- A call of the dispatcher. -/
structure DispatchCall (π ρ σ ε : Type) where
  command : CommandEnvelope π
  capability : String
  currentVersion : ℕ
  handler : CommandEnvelope π → Fallible σ ε (CommandResponse ρ)

namespace DispatchCall

open CommandDispatcher

variable {π ρ σ ε : Type} [DecidableEq π]

/-- The answer of a call, and the dispatcher and the application after it. -/
def run (call : DispatchCall π ρ σ ε) :
    Fallible (CommandDispatcher π ρ × σ) (DispatchError ε) (CommandResponse ρ) :=
  dispatch call.command call.capability call.currentVersion call.handler

/-- The dispatcher and the application after a call. -/
def apply (call : DispatchCall π ρ σ ε) (s : CommandDispatcher π ρ × σ) :
    CommandDispatcher π ρ × σ :=
  (call.run s).2

/-- The call passes the checks before the cache is looked at. -/
def Admitted (call : DispatchCall π ρ σ ε) (d : CommandDispatcher π ρ) : Prop :=
  d.Admits call.command call.capability

instance (call : DispatchCall π ρ σ ε) (d : CommandDispatcher π ρ) :
    Decidable (call.Admitted d) :=
  inferInstanceAs (Decidable (d.Admits call.command call.capability))

/-- The call executes its command with this response. -/
def Executes (call : DispatchCall π ρ σ ε) (response : CommandResponse ρ)
    (s : CommandDispatcher π ρ × σ) : Prop :=
  s.1.cached call.command = none ∧ (call.run s).1 = .ok response

/-- The command is at the current version, and its handler succeeds without falling behind it. -/
def Handles (call : DispatchCall π ρ σ ε) (state : σ) : Prop :=
  call.command.expectedStateVersion = call.currentVersion ∧
    (call.handler call.command state).1.toOption.any (call.currentVersion ≤ ·.stateVersion)

instance (call : DispatchCall π ρ σ ε) (state : σ) : Decidable (call.Handles state) :=
  inferInstanceAs (Decidable (_ ∧ _))

/-- The command of the call is new and is executed. -/
def Accepts (call : DispatchCall π ρ σ ε) (s : CommandDispatcher π ρ × σ) : Prop :=
  call.Admitted s.1 ∧ (s.1.cached call.command).isNone ∧ call.Handles s.2

instance (call : DispatchCall π ρ σ ε) (s : CommandDispatcher π ρ × σ) :
    Decidable (call.Accepts s) :=
  inferInstanceAs (Decidable (_ ∧ _))

/-- The call is accepted and the entry of a key is given up for it. -/
def Evicts (call : DispatchCall π ρ σ ε) (key : String) (s : CommandDispatcher π ρ × σ) : Prop :=
  call.Accepts s ∧ s.1.GivesUp key

/-- The command, dispatched at any version with any handler, gets this response and nothing
changes. -/
def Answered (call : DispatchCall π ρ σ ε) (response : CommandResponse ρ)
    (s : CommandDispatcher π ρ × σ) : Prop :=
  ∀ currentVersion handler,
    dispatch (ε := ε) call.command call.capability currentVersion handler s = (.ok response, s)

/-- The call has the answer and the effect it has without the entry of a command. -/
def Independent (call : DispatchCall π ρ σ ε) (command : CommandEnvelope π)
    (s : CommandDispatcher π ρ × σ) : Prop :=
  (call.run s).1 = (call.run (s.1.without command, s.2)).1 ∧
    (call.run s).2.2 = (call.run (s.1.without command, s.2)).2.2

/-- How many commands other than the given one a run executes. -/
def othersAccepted (command : CommandEnvelope π) :
    List (DispatchCall π ρ σ ε) → CommandDispatcher π ρ × σ → ℕ
  | [], _ => 0
  | call :: run, s =>
    (if call.Accepts s ∧ call.command ≠ command then 1 else 0) +
      othersAccepted command run (call.apply s)

/-- After its execution, and until as many other commands are accepted as the cache holds, the
command of `first` gets its response again and the call `other` does not see its entry. -/
def Protected (first other : DispatchCall π ρ σ ε) (response : CommandResponse ρ) (capacity : ℕ)
    (s : CommandDispatcher π ρ × σ) (between : List (DispatchCall π ρ σ ε)) : Prop :=
  ∀ run, run <+: between → othersAccepted first.command run s < capacity →
    first.Answered response (Runs.final apply s run) ∧
      other.Independent first.command (Runs.final apply s run)

/-- In this time an accepted call takes the entry of the command. -/
def Displaced (first : DispatchCall π ρ σ ε) (capacity : ℕ) (s : CommandDispatcher π ρ × σ)
    (between : List (DispatchCall π ρ σ ε)) : Prop :=
  ∃ run call, run ++ [call] <+: between ∧
    othersAccepted first.command (run ++ [call]) s < capacity ∧
    call.Evicts first.command.cacheKey (Runs.final apply s run)

theorem othersAccepted_le_append (command : CommandEnvelope π)
    (run run' : List (DispatchCall π ρ σ ε)) (s : CommandDispatcher π ρ × σ) :
    othersAccepted command run s ≤ othersAccepted command (run ++ run') s := by
  induction run generalizing s with
  | nil => exact Nat.zero_le _
  | cons call run ih => exact Nat.add_le_add_left (ih (call.apply s)) _

variable {call first other : DispatchCall π ρ σ ε} {s : CommandDispatcher π ρ × σ}
  {response : CommandResponse ρ}

-- One call

/-- A new command is executed, or it fails without a conflict and the cache stays; what the cache
holds for other commands has no part in it. -/
theorem run_of_new (call : DispatchCall π ρ σ ε) (state : σ) :
    (¬call.Handles state ∧ ∃ error state', error ≠ .idempotencyConflict ∧
        ∀ d, call.Admitted d → d.cached call.command = none →
          call.run (d, state) = (.error error, d, state')) ∨
      (call.Handles state ∧ ∃ response state',
        ∀ d, call.Admitted d → d.cached call.command = none →
          call.run (d, state) = (.ok response, d.remember call.command response, state')) := by
  by_cases hversion : call.command.expectedStateVersion = call.currentVersion
  · cases hhandler : call.handler call.command state with
    | mk outcome state' =>
      cases outcome with
      | error e =>
        refine .inl ⟨fun h => ?_, .handler e, state', by simp, fun d hadmitted hnew =>
          dispatch_of_error hadmitted hnew hversion hhandler⟩
        simpa [hhandler, Except.toOption] using h.2
      | ok response =>
        by_cases hregressed : call.currentVersion ≤ response.stateVersion
        · refine .inr ⟨⟨hversion, ?_⟩, response, state', fun d hadmitted hnew =>
            dispatch_of_ok hadmitted hnew hversion hhandler hregressed⟩
          simpa [hhandler, Except.toOption] using hregressed
        · refine .inl ⟨fun h => hregressed ?_, .regressedVersion, state', by simp,
            fun d hadmitted hnew =>
              dispatch_of_regressed hadmitted hnew hversion hhandler hregressed⟩
          simpa [hhandler, Except.toOption] using h.2
  · exact .inl ⟨fun h => hversion h.1, _, state, by simp, fun d hadmitted hnew =>
      dispatch_of_stale hadmitted hnew hversion⟩

/-- **One call**: it executes its command, or the dispatcher stays as it was. -/
theorem run_cases (call : DispatchCall π ρ σ ε) (s : CommandDispatcher π ρ × σ) :
    (¬call.Accepts s ∧ (call.run s).2.1 = s.1) ∨
      (call.Accepts s ∧ ∃ response, call.Executes response s ∧
        (call.run s).2.1 = s.1.remember call.command response) := by
  by_cases hadmitted : call.Admitted s.1
  · cases hcached : s.1.cached call.command with
    | some cached =>
      refine .inl ⟨fun ha => by simpa [hcached] using ha.2.1, ?_⟩
      rw [run, dispatch_of_cached hadmitted hcached]
    | none =>
      obtain ⟨hnot, error, state, -, h⟩ | ⟨hhandles, response, state, h⟩ := run_of_new call s.2
      all_goals have h := h s.1 hadmitted hcached
      · exact .inl ⟨fun ha => hnot ha.2.2, by rw [h]⟩
      · exact .inr ⟨⟨hadmitted, by rw [hcached]; rfl, hhandles⟩, response,
          ⟨hcached, by rw [h]⟩, by rw [h]⟩
  · obtain ⟨error, h⟩ : ∃ error, call.run s = (.error error, s) := dispatch_of_refused hadmitted
    exact .inl ⟨fun ha => hadmitted ha.1, congrArg (·.2.1) h⟩

omit [DecidableEq π] in
theorem Accepts.cached (h : call.Accepts s) : s.1.cached call.command = none :=
  Option.isNone_iff_eq_none.mp h.2.1

@[simp] theorem apply_policy (call : DispatchCall π ρ σ ε) (s : CommandDispatcher π ρ × σ) :
    (call.apply s).1.policy = s.1.policy := by
  obtain ⟨-, h⟩ | ⟨-, response, -, h⟩ := run_cases call s
  · rw [apply, h]
  · rw [apply, h, remember_policy]

@[simp] theorem apply_cacheCapacity (call : DispatchCall π ρ σ ε)
    (s : CommandDispatcher π ρ × σ) : (call.apply s).1.cacheCapacity = s.1.cacheCapacity := by
  obtain ⟨-, h⟩ | ⟨-, response, -, h⟩ := run_cases call s
  · rw [apply, h]
  · rw [apply, h, remember_cacheCapacity]

omit [DecidableEq π] in
theorem Admitted.congr {d d' : CommandDispatcher π ρ} (hpolicy : d'.policy = d.policy) :
    call.Admitted d' ↔ call.Admitted d := by
  rw [Admitted, Admitted, Admits, Admits, hpolicy]

theorem Executes.admitted (h : call.Executes response s) : call.Admitted s.1 := by
  by_contra hadmitted
  obtain ⟨error, he⟩ : ∃ error, call.run s = (.error error, s) := dispatch_of_refused hadmitted
  have := h.2
  rw [he] at this
  cases this

theorem Executes.accepts (h : call.Executes response s) : call.Accepts s := by
  refine ⟨h.admitted, by rw [h.1]; rfl, ?_⟩
  obtain ⟨-, error, state, -, he⟩ | ⟨hhandles, -⟩ := run_of_new call s.2
  · have := h.2
    rw [he s.1 h.admitted h.1] at this
    cases this
  · exact hhandles

/-- An executed command is cached with its response. -/
theorem Executes.cached_apply (h : call.Executes response s) :
    (call.apply s).1.cached call.command = some ⟨call.command, response⟩ := by
  obtain ⟨hnot, -⟩ | ⟨-, r, hr, hremember⟩ := run_cases call s
  · exact absurd h.accepts hnot
  · have hresponse : r = response := Except.ok.inj (hr.2.symm.trans h.2)
    rw [apply, hremember, cached_remember_self, hresponse]

/-- **What one call does to an entry**: it is kept unless the call is accepted and the cache gives
the entry up for it. -/
theorem kept_apply {command : CommandEnvelope π} {entry : CachedCommand π ρ}
    (hkept : s.1.cached command = some entry) (call : DispatchCall π ρ σ ε) :
    (call.apply s).1.cached command = some entry ↔ ¬call.Evicts command.cacheKey s := by
  obtain ⟨hnot, hsame⟩ | ⟨haccepts, r, -, hremember⟩ := run_cases call s
  · rw [apply, hsame]
    exact iff_of_true hkept (fun h => hnot h.1)
  · have hkey : call.command.cacheKey ≠ command.cacheKey := by
      intro he
      have hnew := haccepts.cached
      rw [CommandDispatcher.cached, he] at hnew
      exact absurd (hnew.symm.trans hkept) (Option.some_ne_none entry).symm
    rw [apply, hremember, cached_remember_of_ne hkey, hkept]
    by_cases hgives : s.1.GivesUp command.cacheKey
    · rw [if_pos hgives]
      exact iff_of_false (Option.some_ne_none entry).symm (fun h => h ⟨haccepts, hgives⟩)
    · rw [if_neg hgives]
      exact iff_of_true rfl (fun h => hgives h.2)

/-- **A retry is answered** exactly from the entry of the command. -/
theorem answered_iff (hadmitted : call.Admitted s.1) :
    call.Answered response s ↔ s.1.cached call.command = some ⟨call.command, response⟩ := by
  constructor
  · intro h
    -- A version the command does not expect, so that only the cache can answer it.
    have hstale := h (call.command.expectedStateVersion + 1) call.handler
    cases hcached : s.1.cached call.command with
    | none =>
      have := (dispatch_of_stale hadmitted hcached (Nat.succ_ne_self _).symm).symm.trans hstale
      cases congrArg Prod.fst this
    | some entry =>
      have := (dispatch_of_cached hadmitted hcached).symm.trans hstale
      obtain ⟨command, answer⟩ := entry
      by_cases hcommand : command = call.command
      · rw [if_pos hcommand] at this
        have hanswer : answer = response := Except.ok.inj (congrArg Prod.fst this)
        rw [hcommand, hanswer]
      · rw [if_neg hcommand] at this
        cases congrArg Prod.fst this
  · intro hcached currentVersion handler
    rw [dispatch_of_cached hadmitted hcached, if_pos rfl]

/-- Of a dispatcher, a call sees the policy and, when it is admitted, the entry of its own key. -/
theorem run_congr (call : DispatchCall π ρ σ ε) {d d' : CommandDispatcher π ρ} (state : σ)
    (hpolicy : d'.policy = d.policy)
    (hcached : call.Admitted d → d'.cached call.command = d.cached call.command) :
    (call.run (d, state)).1 = (call.run (d', state)).1 ∧
      (call.run (d, state)).2.2 = (call.run (d', state)).2.2 := by
  by_cases hadmitted : call.Admitted d
  · have hadmitted' : call.Admitted d' := (Admitted.congr hpolicy).mpr hadmitted
    replace hcached := hcached hadmitted
    cases hfound : d.cached call.command with
    | some found =>
      rw [run, dispatch_of_cached hadmitted hfound,
        dispatch_of_cached hadmitted' (hcached.trans hfound)]
      exact ⟨rfl, rfl⟩
    | none =>
      obtain ⟨-, error, state', -, h⟩ | ⟨-, response, state', h⟩ := run_of_new call state
      all_goals
        rw [h d hadmitted hfound, h d' hadmitted' (hcached.trans hfound)]
        exact ⟨rfl, rfl⟩
  · rw [run, dispatch, Fallible.reads_bind, Fallible.reads_bind, hpolicy]
    cases hvalid : call.command.validate maxCommandBytes with
    | error e => exact ⟨rfl, rfl⟩
    | ok _ =>
      cases hauthorized : d.policy.authorize call.command.actor call.capability with
      | error e => exact ⟨rfl, rfl⟩
      | ok _ => exact absurd ⟨hvalid, hauthorized⟩ hadmitted

/-- **Whose entry a call sees**: a call conflicts with the entry of another command exactly when it
is admitted and has the key of that command. -/
theorem independent_iff {command : CommandEnvelope π} {entry : CachedCommand π ρ}
    (hkept : s.1.cached command = some entry) (hentry : entry.command ≠ call.command) :
    call.Independent command s ↔
      ¬(call.Admitted s.1 ∧ command.cacheKey = call.command.cacheKey) := by
  constructor
  · rintro ⟨hanswer, -⟩ ⟨hadmitted, hkey⟩
    have hcached : s.1.cached call.command = some entry := by rwa [cached, ← hkey]
    have hconflict : (call.run s).1 = .error .idempotencyConflict := by
      rw [run, dispatch_of_cached hadmitted hcached, if_neg hentry]
    have hnew : (s.1.without command).cached call.command = none := by
      rw [cached, ← hkey]
      exact cached_without_self
    rw [hconflict] at hanswer
    obtain ⟨-, error, state, hne, h⟩ | ⟨-, response, state, h⟩ := run_of_new call s.2
    · rw [h (s.1.without command) hadmitted hnew] at hanswer
      exact hne (Except.error.inj hanswer).symm
    · rw [h (s.1.without command) hadmitted hnew] at hanswer
      cases hanswer
  · intro h
    exact run_congr call s.2 rfl fun hadmitted =>
      cached_without_of_ne fun hkey => h ⟨hadmitted, hkey⟩

-- Runs of calls

theorem policy_along (s : CommandDispatcher π ρ × σ) (run : List (DispatchCall π ρ σ ε)) :
    (Runs.final apply s run).1.policy = s.1.policy := by
  induction run generalizing s with
  | nil => rfl
  | cons call run ih => rw [Runs.final_cons, ih, apply_policy]

/-- **The entry along a run**: it is there after every short run of the calls exactly when none of
them takes it. -/
theorem kept_along (hkept : s.1.cached first.command = some ⟨first.command, response⟩)
    (capacity : ℕ) (between : List (DispatchCall π ρ σ ε)) :
    (∀ run, run <+: between → othersAccepted first.command run s < capacity →
        (Runs.final apply s run).1.cached first.command = some ⟨first.command, response⟩) ↔
      ¬first.Displaced capacity s between := by
  constructor
  · rintro h ⟨run, call, hrun, hfew, hevicts⟩
    have hstart := h run ((List.prefix_append run [call]).trans hrun)
      ((othersAccepted_le_append first.command run [call] s).trans_lt hfew)
    have hend := h (run ++ [call]) hrun hfew
    rw [Runs.final_append] at hend
    exact (kept_apply hstart call).mp hend hevicts
  · intro h run
    induction run using List.reverseRecOn with
    | nil => exact fun _ _ => hkept
    | append_singleton run call ih =>
      intro hrun hfew
      have hstart := ih ((List.prefix_append run [call]).trans hrun)
        ((othersAccepted_le_append first.command run [call] s).trans_lt hfew)
      rw [Runs.final_append]
      exact (kept_apply hstart call).mpr fun hevicts => h ⟨run, call, hrun, hfew, hevicts⟩

omit [DecidableEq π] in
theorem not_admitted_congr {d d' : CommandDispatcher π ρ} (hpolicy : d'.policy = d.policy)
    (p : Prop) : ¬(call.Admitted d' ∧ p) ↔ ¬(call.Admitted d ∧ p) :=
  not_congr (and_congr_left' (Admitted.congr hpolicy))

theorem protected_iff (hadmitted : first.Admitted s.1)
    (hkept : s.1.cached first.command = some ⟨first.command, response⟩)
    (hother : first.command ≠ other.command) {capacity : ℕ} (hcapacity : 0 < capacity)
    (between : List (DispatchCall π ρ σ ε)) :
    first.Protected other response capacity s between ↔
      ¬first.Displaced capacity s between ∧
        ¬(other.Admitted s.1 ∧ first.command.cacheKey = other.command.cacheKey) := by
  have hadmittedAlong : ∀ run : List (DispatchCall π ρ σ ε),
      first.Admitted (Runs.final apply s run).1 :=
    fun run => (Admitted.congr (policy_along s run)).mpr hadmitted
  constructor
  · intro h
    refine ⟨(kept_along hkept capacity between).mp fun run hrun hfew => ?_, ?_⟩
    · exact (answered_iff (hadmittedAlong run)).mp (h run hrun hfew).1
    · exact (independent_iff hkept hother).mp (h [] List.nil_prefix hcapacity).2
  · rintro ⟨hstays, hkeys⟩ run hrun hfew
    have hkeptRun := (kept_along hkept capacity between).mpr hstays run hrun hfew
    refine ⟨(answered_iff (hadmittedAlong run)).mpr hkeptRun, ?_⟩
    exact (independent_iff hkeptRun hother).mpr
      ((not_admitted_congr (policy_along s run) _).mpr hkeys)

end DispatchCall

open CommandDispatcher DispatchCall

section Retry

variable {π ρ σ ε : Type} [DecidableEq π]

/-- **At most once per actor and idempotency key**: while fewer other commands than the capacity are
accepted, an executed command is answered without its handler and a call of another identity does
not see its entry, exactly when no accepted call found the cache full with the command's key the
least, and the other call does not have that key. -/
theorem retry_answered_iff {policy : CapabilityPolicy} {capacity : ℕ}
    {d : CommandDispatcher π ρ} (hnew : CommandDispatcher.new policy capacity = some d) {state : σ}
    {before : List (DispatchCall π ρ σ ε)} {first : DispatchCall π ρ σ ε}
    {response : CommandResponse ρ}
    (hexecutes : first.Executes response (Runs.final apply (d, state) before))
    {other : DispatchCall π ρ σ ε} (hother : other.command.identity ≠ first.command.identity)
    (between : List (DispatchCall π ρ σ ε)) :
    first.Protected other response capacity (Runs.final apply (d, state) (before ++ [first]))
        between ↔
      ¬first.Displaced capacity (Runs.final apply (d, state) (before ++ [first])) between ∧
        ¬(other.Admitted d ∧ first.command.cacheKey = other.command.cacheKey) := by
  have hcapacity : 0 < capacity := by
    by_contra hzero
    rw [CommandDispatcher.new, if_neg hzero] at hnew
    cases hnew
  have hpolicy := policy_along (d, state) (before ++ [first])
  rw [Runs.final_append, Runs.final_cons, Runs.final_nil] at hpolicy ⊢
  rw [protected_iff ((Admitted.congr (apply_policy _ _)).mpr hexecutes.admitted)
    hexecutes.cached_apply (fun h => hother (by rw [h])) hcapacity between]
  exact and_congr_right' (not_admitted_congr (d := d) hpolicy _)

end Retry

/-- The capability that `trader` and the actor with the separator in its name have. -/
def tradePolicy : CapabilityPolicy :=
  ⟨Std.TreeMap.ofList [("trader", {"trade"}), ("trader\u001fdesk", {"trade"})]⟩

/-- A command whose handler counts its runs and answers with the count. -/
def countedCall (actor key : String) : DispatchCall Unit ℕ ℕ Unit where
  command := ⟨"order", "trace", actor, 1, 0, key, (), 0⟩
  capability := "trade"
  currentVersion := 0
  handler _ := do
    Fallible.modify (· + 1)
    let runs ← Fallible.reads id
    pure ⟨0, runs⟩

/-- A dispatcher that keeps two commands. -/
def pairDispatcher : CommandDispatcher Unit ℕ := ⟨tradePolicy, 2, ∅⟩

/-- Two actors whose commands have one key. -/
example : (countedCall "trader" "desk\u001fa").command.cacheKey =
      (countedCall "trader\u001fdesk" "a").command.cacheKey ∧
    (countedCall "trader\u001fdesk" "a").Admitted pairDispatcher := by
  decide

/-- The dispatcher and the handler's count after two commands. -/
def fullPair : CommandDispatcher Unit ℕ × ℕ :=
  Runs.final apply (pairDispatcher, 0) [countedCall "trader" "z", countedCall "trader" "a"]

theorem fullPair_givesUp : fullPair.1.GivesUp (countedCall "trader" "a").command.cacheKey := by
  refine ⟨by decide, ?_⟩
  rw [Std.TreeMap.minKey?_eq_head?_keys]
  decide

/-- The handler runs twice for one key: one other command is accepted, for which the full cache
gives up the entry with the least key, and the retry is executed. -/
theorem retry_runs_again :
    (countedCall "trader" "a").Executes ⟨0, 2⟩
        (Runs.final apply (pairDispatcher, 0) [countedCall "trader" "z"]) ∧
      othersAccepted (countedCall "trader" "a").command [countedCall "trader" "b"] fullPair < 2 ∧
      (countedCall "trader" "a").Executes ⟨0, 4⟩ ((countedCall "trader" "b").apply fullPair) := by
  have hother : (countedCall "trader" "b").run fullPair =
      (.ok ⟨0, 3⟩, fullPair.1.remember (countedCall "trader" "b").command ⟨0, 3⟩, 3) :=
    dispatch_of_ok (d := fullPair.1) (s := fullPair.2) (by decide) (by decide)
      rfl rfl (Nat.le_refl 0)
  have hgone : ((countedCall "trader" "b").apply fullPair).1.cached
      (countedCall "trader" "a").command = none := by
    rw [apply, hother, cached_remember_of_ne (by decide), if_pos fullPair_givesUp]
  refine ⟨⟨by decide, by decide⟩, by decide +kernel, hgone, ?_⟩
  have hadmitted : (countedCall "trader" "a").Admitted
      ((countedCall "trader" "b").apply fullPair).1 := by
    rw [apply, hother]
    decide
  have hagain : (countedCall "trader" "a").run ((countedCall "trader" "b").apply fullPair) = _ :=
    dispatch_of_ok (s := ((countedCall "trader" "b").apply fullPair).2) hadmitted hgone rfl rfl
      (Nat.le_refl 0)
  rw [hagain]
  decide +kernel

/-- With keys in the order of their age the first command is still answered. -/
theorem retry_answered_iff_ascending :
    (countedCall "trader" "z").Protected (countedCall "trader" "y") ⟨0, 2⟩ 2
        (Runs.final apply (pairDispatcher, 0)
          ([countedCall "trader" "a"] ++ [countedCall "trader" "z"]))
        [countedCall "trader" "b"] ↔
      ¬(countedCall "trader" "z").Displaced 2
          (Runs.final apply (pairDispatcher, 0)
            ([countedCall "trader" "a"] ++ [countedCall "trader" "z"]))
          [countedCall "trader" "b"] ∧
        ¬((countedCall "trader" "y").Admitted pairDispatcher ∧
          (countedCall "trader" "z").command.cacheKey =
            (countedCall "trader" "y").command.cacheKey) :=
  retry_answered_iff (show CommandDispatcher.new tradePolicy 2 = some pairDispatcher from rfl)
    ⟨by decide, by decide⟩ (by decide) [countedCall "trader" "b"]

end InsiderTrader
