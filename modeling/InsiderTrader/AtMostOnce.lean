import InsiderTrader.IbkrGateway
import InsiderTrader.Library.Runs
import Mathlib.Logic.Function.Basic

/-!
# Placing an order at most once

Any number of threads send orders through the adapter while its session is
connected, lost and connected again. An error of the transport leaves open
whether the order was placed. The adapter stops then; but what connects the
session again does not ask whether the order has been reconciled.

## Main definitions

- `Gateway`, `Gateway.step` — the adapter with the sends in progress
- `Gateway.PlacedOnce` — an order is placed again only after it was reconciled
- `Gateway.reconciles` — the session is connected with no open error

## Main results

- `Gateway.Sound.step` — what every step keeps
- `placed_once_along` — runs that connect with no open error
-/

namespace InsiderTrader

/-- What the transport has been asked, and what it has answered. -/
inductive Exchange where
  | placed (clientOrderId : String)
  | failed (clientOrderId : String)
  | absent (clientOrderId : String)
  deriving DecidableEq

namespace Exchange

/-- What came after the last error for an order, the latest first. -/
def sinceFailed (id : String) (log : List Exchange) : List Exchange :=
  log.reverse.takeWhile (· ≠ .failed id)

/-- After its last error, the transport was asked for the order and knew none. -/
def Reconciled (id : String) (log : List Exchange) : Prop :=
  .failed id ∈ log ∧ .absent id ∈ sinceFailed id log

/-- After its last error, the transport has not answered that it knows no such order. -/
def Open (id : String) (log : List Exchange) : Prop :=
  .failed id ∈ log ∧ .absent id ∉ sinceFailed id log

instance (id : String) (log : List Exchange) : Decidable (Open id log) :=
  inferInstanceAs (Decidable (_ ∧ _))

/-- The exchange is not an error that is open, once its send has ended. -/
def closed (log : List Exchange) (pending : Finset String) : Exchange → Bool
  | .failed id => id ∈ pending ∨ ¬Open id log
  | _ => true

end Exchange

namespace Exchange

variable {id id' : String} {log : List Exchange} {e : Exchange}

theorem sinceFailed_append (id : String) (log : List Exchange) (e : Exchange) :
    sinceFailed id (log ++ [e]) = if e = .failed id then [] else e :: sinceFailed id log := by
  rw [sinceFailed, List.reverse_append, List.reverse_singleton, List.singleton_append,
    List.takeWhile_cons]
  by_cases he : e = .failed id <;> simp [he, sinceFailed]

/-- An open error of a longer log is its last exchange, or was open and not answered. -/
theorem open_append : Open id (log ++ [e]) ↔ e = .failed id ∨ e ≠ .absent id ∧ Open id log := by
  rw [Open, Open, sinceFailed_append]
  by_cases he : e = .failed id
  · simp [he]
  · simp [he, Ne.symm he]
    tauto

theorem open_or_reconciled (h : .failed id ∈ log) : Open id log ∨ Reconciled id log := by
  by_cases habsent : .absent id ∈ sinceFailed id log
  · exact .inr ⟨h, habsent⟩
  · exact .inl ⟨h, habsent⟩

end Exchange

/-- How far the send of a thread has come. -/
inductive Send where
  | idle
  | admitted (intent : OrderIntent)
  | placing (intent : OrderIntent)
  | answered (intent : OrderIntent) (answer : Except String Unit)

namespace Send

/-- The order of a send in progress. -/
def intent? : Send → Option OrderIntent
  | .idle => none
  | .admitted intent | .placing intent | .answered intent _ => some intent

/-- The order of a send that the transport has not answered with an error. -/
def live? : Send → Option OrderIntent
  | .admitted intent | .placing intent | .answered intent (.ok _) => some intent
  | .idle | .answered _ (.error _) => none

/-- The order that the transport was asked to place, unless it answered with an error. -/
def asked? : Send → Option OrderIntent
  | .placing intent | .answered intent (.ok _) => some intent
  | .idle | .admitted _ | .answered _ (.error _) => none

end Send

/-- The adapter, the sends of its threads, and what the transport was asked. -/
structure Gateway (θ : Type) where
  state : AdapterState
  sends : θ → Send
  log : List Exchange

/-- A section of a call. A send is entered by a thread; then the transport is asked to place the
order, and answers; then the send is settled. -/
inductive Turn (θ : Type) where
  | enter (thread : θ) (intent : OrderIntent)
  | place (thread : θ)
  | answer (thread : θ) (answer : Except String Unit)
  | settle (thread : θ)
  | beginConnect
  | connectReady
  | markDegraded
  | disconnect
  | reconcile (clientOrderId : String) (answer : Except String (Option BrokerEvent))

namespace Gateway

open Exchange

variable {θ : Type} [DecidableEq θ]

def new : Gateway θ := ⟨.new, fun _ => .idle, []⟩

/-- The section, where the thread has come to it. -/
def step (capabilities : Capabilities) : Turn θ → Gateway θ → Gateway θ
  | .enter t intent, g =>
    match g.sends t with
    | .idle =>
      match AdapterState.admission capabilities intent g.state with
      | (.ok true, s) => { g with state := s, sends := Function.update g.sends t (.admitted intent) }
      | (_, s) => { g with state := s }
    | _ => g
  | .place t, g =>
    match g.sends t with
    | .admitted intent =>
      { g with
        sends := Function.update g.sends t (.placing intent)
        log := g.log ++ [.placed intent.clientOrderId] }
    | _ => g
  | .answer t answer, g =>
    match g.sends t with
    | .placing intent =>
      { g with
        sends := Function.update g.sends t (.answered intent answer)
        log := g.log ++ if answer.isOk then [] else [.failed intent.clientOrderId] }
    | _ => g
  | .settle t, g =>
    match g.sends t with
    | .answered intent answer =>
      { g with
        state := (AdapterState.settle intent answer g.state).2
        sends := Function.update g.sends t .idle }
    | _ => g
  | .beginConnect, g => { g with state := (AdapterState.beginConnect g.state).2 }
  | .connectReady, g => { g with state := (AdapterState.connectReady g.state).2 }
  | .markDegraded, g => { g with state := (AdapterState.markDegraded g.state).2 }
  | .disconnect, g => { g with state := (AdapterState.disconnect g.state).2 }
  | .reconcile id answer, g =>
    match AdapterState.reconcile id answer g.state with
    | (.ok none, s) => { g with state := s, log := g.log ++ [.absent id] }
    | (_, s) => { g with state := s }

/-- The transport is asked again to place an order only after the order was reconciled. -/
def PlacedOnce (log : List Exchange) : Prop :=
  ∀ n id, log[n]? = some (.placed id) → .placed id ∈ log.take n → Reconciled id (log.take n)

/-- The session is connected only when no error is open, apart from those of sends that have not
ended. -/
def reconciles : Turn θ → Gateway θ → Bool
  | .connectReady, g => g.log.all (closed g.log g.state.pending)
  | _, _ => true

-- What the steps keep

variable {capabilities : Capabilities} {g : Gateway θ} {log : List Exchange}

theorem placedOnce_append {e : Exchange} (h : PlacedOnce log)
    (he : ∀ id, e = .placed id → .placed id ∈ log → Reconciled id log) :
    PlacedOnce (log ++ [e]) := by
  intro n id hn hbefore
  obtain hlt | rfl | hgt := Nat.lt_trichotomy n log.length
  · rw [List.getElem?_append_left hlt] at hn
    rw [List.take_append_of_le_length (Nat.le_of_lt hlt)] at hbefore ⊢
    exact h n id hn hbefore
  · rw [List.take_left] at hbefore ⊢
    rw [List.getElem?_concat_length] at hn
    exact he id (Option.some.inj hn) hbefore
  · rw [List.getElem?_eq_none (by rw [List.length_append]; exact hgt)] at hn
    cases hn

/-- What holds between the sections of the calls. -/
structure Sound (g : Gateway θ) : Prop where
  pending : ∀ t intent, (g.sends t).intent? = some intent → intent.clientOrderId ∈ g.state.pending
  single : ∀ t t' intent intent', (g.sends t).intent? = some intent →
    (g.sends t').intent? = some intent' → intent.clientOrderId = intent'.clientOrderId → t = t'
  fresh : ∀ t intent, g.sends t = .admitted intent →
    g.state.accepted[intent.clientOrderId]? = none
  live : ∀ t intent, (g.sends t).live? = some intent → ¬Open intent.clientOrderId g.log
  placed : ∀ id, .placed id ∈ g.log → g.state.accepted[id]? ≠ none ∨ .failed id ∈ g.log ∨
    ∃ t intent, (g.sends t).asked? = some intent ∧ intent.clientOrderId = id
  ready : g.state.session = .ready → ∀ id, Open id g.log → id ∈ g.state.pending
  once : PlacedOnce g.log

omit [DecidableEq θ] in
theorem sound_new : Sound (new : Gateway θ) where
  pending _ _ h := by cases h
  single _ _ _ _ h := by cases h
  fresh _ _ h := by cases h
  live _ _ h := by cases h
  placed _ h := by cases h
  ready h := by cases h
  once _ _ h := by cases h

omit [DecidableEq θ] in
/-- A change of the session alone. -/
theorem Sound.of_session {s : AdapterState} (h : Sound g) (haccepted : s.accepted = g.state.accepted)
    (hpending : s.pending = g.state.pending)
    (hready : s.session = .ready → ∀ id, Open id g.log → id ∈ g.state.pending) :
    Sound { g with state := s } where
  pending t intent ht := hpending ▸ h.pending t intent ht
  single := h.single
  fresh t intent ht := haccepted ▸ h.fresh t intent ht
  live := h.live
  placed id hid := haccepted ▸ h.placed id hid
  ready hs := hpending ▸ hready hs
  once := h.once

theorem admit_cases (capabilities : Capabilities) (intent : OrderIntent) (s : AdapterState) :
    (∃ r, AdapterState.admission capabilities intent s = (r, s) ∧ r ≠ .ok true) ∨
      s.session = .ready ∧ s.accepted[intent.clientOrderId]? = none ∧
        intent.clientOrderId ∉ s.pending ∧
        AdapterState.admission capabilities intent s =
          (.ok true, { s with pending := insert intent.clientOrderId s.pending }) := by
  unfold AdapterState.admission
  cases AdapterState.validateIntent capabilities intent with
  | error e => exact .inl ⟨_, rfl, nofun⟩
  | ok u =>
    rw [Fallible.ofExcept_bind_ok rfl, Fallible.reads_bind, Fallible.require_bind]
    by_cases hsession : s.session = .ready
    swap
    · rw [if_neg hsession]
      exact .inl ⟨_, rfl, nofun⟩
    rw [if_pos hsession, Fallible.reads_bind]
    cases haccepted : s.accepted[intent.clientOrderId]? with
    | some existing =>
      dsimp only
      rw [Fallible.require_bind]
      split
      · exact .inl ⟨_, rfl, nofun⟩
      · exact .inl ⟨_, rfl, nofun⟩
    | none =>
      dsimp only
      rw [Fallible.reads_bind, Fallible.require_bind]
      by_cases hpending : intent.clientOrderId ∉ s.pending
      · rw [if_pos hpending]
        exact .inr ⟨hsession, rfl, hpending, rfl⟩
      · rw [if_neg hpending]
        exact .inl ⟨_, rfl, nofun⟩

/-- A send that is admitted has no open error, as the session is ready. -/
theorem Sound.enter {t : θ} {intent : OrderIntent} (h : Sound g) (hidle : g.sends t = .idle)
    (hready : g.state.session = .ready)
    (hfresh : g.state.accepted[intent.clientOrderId]? = none)
    (hpending : intent.clientOrderId ∉ g.state.pending) :
    Sound { g with
      state := { g.state with pending := insert intent.clientOrderId g.state.pending }
      sends := Function.update g.sends t (.admitted intent) } where
  pending t' intent' ht' := by
    dsimp only at ht'
    obtain rfl | hne := eq_or_ne t' t
    · rw [Function.update_self] at ht'
      obtain rfl := Option.some.inj ht'
      exact Finset.mem_insert_self _ _
    · rw [Function.update_of_ne hne] at ht'
      exact Finset.mem_insert_of_mem (h.pending t' intent' ht')
  single t₁ t₂ intent₁ intent₂ h₁ h₂ hid := by
    dsimp only at h₁ h₂
    obtain rfl | hne₁ := eq_or_ne t₁ t
    · rw [Function.update_self] at h₁
      obtain rfl := Option.some.inj h₁
      by_contra hne
      rw [Function.update_of_ne (Ne.symm hne)] at h₂
      exact hpending (hid ▸ h.pending t₂ intent₂ h₂)
    · rw [Function.update_of_ne hne₁] at h₁
      obtain rfl | hne₂ := eq_or_ne t₂ t
      · rw [Function.update_self] at h₂
        obtain rfl := Option.some.inj h₂
        exact absurd (hid ▸ h.pending t₁ intent₁ h₁) hpending
      · rw [Function.update_of_ne hne₂] at h₂
        exact h.single t₁ t₂ intent₁ intent₂ h₁ h₂ hid
  fresh t' intent' ht' := by
    dsimp only at ht'
    obtain rfl | hne := eq_or_ne t' t
    · rw [Function.update_self] at ht'
      obtain rfl := Send.admitted.inj ht'
      exact hfresh
    · rw [Function.update_of_ne hne] at ht'
      exact h.fresh t' intent' ht'
  live t' intent' ht' := by
    dsimp only at ht'
    obtain rfl | hne := eq_or_ne t' t
    · rw [Function.update_self] at ht'
      obtain rfl := Option.some.inj ht'
      exact fun hopen => hpending (h.ready hready _ hopen)
    · rw [Function.update_of_ne hne] at ht'
      exact h.live t' intent' ht'
  placed id hid := by
    obtain haccepted | hfailed | ⟨t', intent', ht', hsame⟩ := h.placed id hid
    · exact .inl haccepted
    · exact .inr (.inl hfailed)
    · refine .inr (.inr ⟨t', intent', ?_, hsame⟩)
      dsimp only
      rw [Function.update_of_ne, ht']
      rintro rfl
      rw [hidle] at ht'
      cases ht'
  ready _ id hopen := Finset.mem_insert_of_mem (h.ready hready id hopen)
  once := h.once

/-- **The transport is asked** for an order that it was asked for before only when the error has
been reconciled. -/
theorem Sound.place {t : θ} {intent : OrderIntent} (h : Sound g)
    (hadmitted : g.sends t = .admitted intent) :
    Sound { g with
      sends := Function.update g.sends t (.placing intent)
      log := g.log ++ [.placed intent.clientOrderId] } := by
  have hintent : ∀ t' intent', (Function.update g.sends t (.placing intent) t').intent? =
      some intent' → (g.sends t').intent? = some intent' := by
    intro t' intent' ht'
    obtain rfl | hne := eq_or_ne t' t
    · rw [Function.update_self] at ht'
      rw [hadmitted]
      exact ht'
    · rwa [Function.update_of_ne hne] at ht'
  have hopen : ∀ id, Open id (g.log ++ [.placed intent.clientOrderId]) ↔ Open id g.log :=
    fun id => by simp [open_append]
  have hlive : ¬Open intent.clientOrderId g.log := h.live t intent (by rw [hadmitted]; rfl)
  constructor
  · exact fun t' intent' ht' => h.pending t' intent' (hintent t' intent' ht')
  · exact fun t₁ t₂ intent₁ intent₂ h₁ h₂ hid =>
      h.single t₁ t₂ intent₁ intent₂ (hintent t₁ intent₁ h₁) (hintent t₂ intent₂ h₂) hid
  · intro t' intent' ht'
    dsimp only at ht'
    obtain rfl | hne := eq_or_ne t' t
    · rw [Function.update_self] at ht'
      cases ht'
    · rw [Function.update_of_ne hne] at ht'
      exact h.fresh t' intent' ht'
  · intro t' intent' ht'
    dsimp only at ht' ⊢
    rw [hopen]
    obtain rfl | hne := eq_or_ne t' t
    · rw [Function.update_self] at ht'
      obtain rfl := Option.some.inj ht'
      exact hlive
    · rw [Function.update_of_ne hne] at ht'
      exact h.live t' intent' ht'
  · intro id hid
    obtain hid | hid := List.mem_append.mp hid
    · obtain haccepted | hfailed | ⟨t', intent', ht', hsame⟩ := h.placed id hid
      · exact .inl haccepted
      · exact .inr (.inl (List.mem_append_left _ hfailed))
      · refine .inr (.inr ⟨t', intent', ?_, hsame⟩)
        dsimp only
        rw [Function.update_of_ne, ht']
        rintro rfl
        rw [hadmitted] at ht'
        cases ht'
    · rw [List.mem_singleton] at hid
      cases hid
      exact .inr (.inr ⟨t, intent, by dsimp only; rw [Function.update_self]; rfl, rfl⟩)
  · exact fun hready id hid => h.ready hready id ((hopen id).mp hid)
  · refine placedOnce_append h.once fun id hid hbefore => ?_
    cases hid
    obtain haccepted | hfailed | ⟨t', intent', ht', hsame⟩ := h.placed _ hbefore
    · exact absurd (h.fresh t intent hadmitted) haccepted
    · exact (open_or_reconciled hfailed).resolve_left hlive
    · have hsingle : t' = t := by
        refine h.single t' t intent' intent ?_ (by rw [hadmitted]; rfl) hsame
        cases hsend : g.sends t' with
        | placing intent₁ => exact (hsend ▸ ht' : (Send.placing intent₁).asked? = some intent')
        | answered intent₁ answer =>
          rw [hsend] at ht'
          cases answer with
          | ok u => exact ht'
          | error e => cases ht'
        | idle =>
          rw [hsend] at ht'
          cases ht'
        | admitted intent₁ =>
          rw [hsend] at ht'
          cases ht'
      rw [hsingle, hadmitted] at ht'
      cases ht'

omit [DecidableEq θ] in
/-- Sends that are about the same orders and stand for the same requests. -/
theorem Sound.of_sends {sends : θ → Send} (h : Sound g)
    (hintent : ∀ t, (sends t).intent? = (g.sends t).intent?)
    (hlive : ∀ t, (sends t).live? = (g.sends t).live?)
    (hasked : ∀ t, (sends t).asked? = (g.sends t).asked?)
    (hadmitted : ∀ t intent, sends t = .admitted intent → g.sends t = .admitted intent) :
    Sound { g with sends := sends } where
  pending t intent ht := h.pending t intent (hintent t ▸ ht)
  single t t' intent intent' ht ht' :=
    h.single t t' intent intent' (hintent t ▸ ht) (hintent t' ▸ ht')
  fresh t intent ht := h.fresh t intent (hadmitted t intent ht)
  live t intent ht := h.live t intent (hlive t ▸ ht)
  placed id hid := by
    obtain haccepted | hfailed | ⟨t, intent, ht, hsame⟩ := h.placed id hid
    · exact .inl haccepted
    · exact .inr (.inl hfailed)
    · exact .inr (.inr ⟨t, intent, (hasked t).trans ht, hsame⟩)
  ready := h.ready
  once := h.once

theorem Sound.answer_ok {t : θ} {intent : OrderIntent} {u : Unit} (h : Sound g)
    (hplacing : g.sends t = .placing intent) :
    Sound { g with sends := Function.update g.sends t (.answered intent (.ok u)) } := by
  refine h.of_sends (fun t' => ?_) (fun t' => ?_) (fun t' => ?_) fun t' intent' ht' => ?_
  all_goals obtain rfl | hne := eq_or_ne t' t
  any_goals rw [Function.update_of_ne hne]
  any_goals rw [Function.update_self, hplacing]; rfl
  · rw [Function.update_self] at ht'
    cases ht'
  · rwa [Function.update_of_ne hne] at ht'

/-- An error is open from then on, and its send has not ended. -/
theorem Sound.answer_error {t : θ} {intent : OrderIntent} {e : String} (h : Sound g)
    (hplacing : g.sends t = .placing intent) :
    Sound { g with
      sends := Function.update g.sends t (.answered intent (.error e))
      log := g.log ++ [.failed intent.clientOrderId] } := by
  have hsend : (g.sends t).intent? = some intent := by rw [hplacing]; rfl
  have hintent : ∀ t' intent', (Function.update g.sends t (.answered intent (.error e)) t').intent? =
      some intent' → (g.sends t').intent? = some intent' := by
    intro t' intent' ht'
    obtain rfl | hne := eq_or_ne t' t
    · rw [Function.update_self] at ht'
      exact hsend.trans ht'
    · rwa [Function.update_of_ne hne] at ht'
  constructor
  · exact fun t' intent' ht' => h.pending t' intent' (hintent t' intent' ht')
  · exact fun t₁ t₂ intent₁ intent₂ h₁ h₂ hid =>
      h.single t₁ t₂ intent₁ intent₂ (hintent t₁ intent₁ h₁) (hintent t₂ intent₂ h₂) hid
  · intro t' intent' ht'
    dsimp only at ht'
    obtain rfl | hne := eq_or_ne t' t
    · rw [Function.update_self] at ht'
      cases ht'
    · rw [Function.update_of_ne hne] at ht'
      exact h.fresh t' intent' ht'
  · intro t' intent' ht' hopen
    dsimp only at ht' hopen
    obtain rfl | hne := eq_or_ne t' t
    · rw [Function.update_self] at ht'
      cases ht'
    rw [Function.update_of_ne hne] at ht'
    obtain hid | ⟨-, hopen⟩ := open_append.mp hopen
    · refine hne (h.single t' t intent' intent ?_ hsend (Exchange.failed.inj hid).symm)
      cases hother : g.sends t' with
      | idle =>
        rw [hother] at ht'
        cases ht'
      | admitted intent₁ => exact (hother ▸ ht' : (Send.admitted intent₁).live? = some intent')
      | placing intent₁ => exact (hother ▸ ht' : (Send.placing intent₁).live? = some intent')
      | answered intent₁ answer =>
        rw [hother] at ht'
        cases answer with
        | ok u => exact ht'
        | error e => cases ht'
    · exact h.live t' intent' ht' hopen
  · intro id hid
    have hplaced : .placed id ∈ g.log := by
      obtain hid | hid := List.mem_append.mp hid
      · exact hid
      · rw [List.mem_singleton] at hid
        cases hid
    obtain haccepted | hfailed | ⟨t', intent', ht', hsame⟩ := h.placed id hplaced
    · exact .inl haccepted
    · exact .inr (.inl (List.mem_append_left _ hfailed))
    · obtain rfl | hne := eq_or_ne t' t
      · rw [hplacing] at ht'
        obtain rfl := Option.some.inj ht'
        exact .inr (.inl (by simp [hsame]))
      · refine .inr (.inr ⟨t', intent', ?_, hsame⟩)
        dsimp only
        rw [Function.update_of_ne hne, ht']
  · intro hready id hopen
    obtain hid | ⟨-, hopen⟩ := open_append.mp hopen
    · rw [← Exchange.failed.inj hid]
      exact h.pending t intent hsend
    · exact h.ready hready id hopen
  · exact placedOnce_append h.once fun id hid => by cases hid

/-- The sends that are left when one has ended. -/
theorem update_idle {α : Type} {f : Send → Option α} {sends : θ → Send} {t t' : θ} {a : α}
    (hidle : f .idle = none) (ht' : f (Function.update sends t .idle t') = some a) :
    t' ≠ t ∧ f (sends t') = some a := by
  obtain rfl | hne := eq_or_ne t' t
  · rw [Function.update_self, hidle] at ht'
    cases ht'
  · rw [Function.update_of_ne hne] at ht'
    exact ⟨hne, ht'⟩

theorem Sound.settle_ok {t : θ} {intent : OrderIntent} {u : Unit} (h : Sound g)
    (hanswered : g.sends t = .answered intent (.ok u)) :
    Sound { g with
      state := { g.state with
        pending := g.state.pending.erase intent.clientOrderId
        accepted := g.state.accepted.insert intent.clientOrderId intent }
      sends := Function.update g.sends t .idle } := by
  have hsend : (g.sends t).intent? = some intent := by rw [hanswered]; rfl
  constructor
  · intro t' intent' ht'
    obtain ⟨hne, ht'⟩ := update_idle (f := Send.intent?) rfl ht'
    exact Finset.mem_erase.mpr ⟨fun hid => hne (h.single t' t intent' intent ht' hsend hid),
      h.pending t' intent' ht'⟩
  · intro t₁ t₂ intent₁ intent₂ h₁ h₂ hid
    exact h.single t₁ t₂ intent₁ intent₂ (update_idle (f := Send.intent?) rfl h₁).2
      (update_idle (f := Send.intent?) rfl h₂).2 hid
  · intro t' intent' ht'
    dsimp only at ht' ⊢
    obtain rfl | hne := eq_or_ne t' t
    · rw [Function.update_self] at ht'
      cases ht'
    rw [Function.update_of_ne hne] at ht'
    rw [Std.TreeMap.getElem?_insert, if_neg]
    · exact h.fresh t' intent' ht'
    · rw [Std.LawfulEqCmp.compare_eq_iff_eq]
      exact fun hid => hne (h.single t' t intent' intent (by rw [ht']; rfl) hsend hid.symm)
  · intro t' intent' ht'
    exact h.live t' intent' (update_idle (f := Send.live?) rfl ht').2
  · intro id hid
    by_cases hsame : intent.clientOrderId = id
    · refine .inl ?_
      dsimp only
      rw [← hsame, Std.TreeMap.getElem?_insert_self]
      exact Option.some_ne_none _
    · obtain haccepted | hfailed | ⟨t', intent', ht', hid'⟩ := h.placed id hid
      · refine .inl ?_
        dsimp only
        rwa [Std.TreeMap.getElem?_insert, if_neg]
        rwa [Std.LawfulEqCmp.compare_eq_iff_eq]
      · exact .inr (.inl hfailed)
      · refine .inr (.inr ⟨t', intent', ?_, hid'⟩)
        dsimp only
        rw [Function.update_of_ne, ht']
        rintro rfl
        rw [hanswered] at ht'
        exact hsame (Option.some.inj ht' ▸ hid')
  · intro hready id hopen
    refine Finset.mem_erase.mpr ⟨?_, h.ready hready id hopen⟩
    rintro rfl
    exact h.live t intent (by rw [hanswered]; rfl) hopen
  · exact h.once

/-- **After an error** the session is degraded. -/
theorem Sound.settle_error {t : θ} {intent : OrderIntent} {e : String} (h : Sound g)
    (hanswered : g.sends t = .answered intent (.error e)) :
    Sound { g with
      state := { g.state with
        session := .degraded
        pending := g.state.pending.erase intent.clientOrderId }
      sends := Function.update g.sends t .idle } := by
  have hsend : (g.sends t).intent? = some intent := by rw [hanswered]; rfl
  constructor
  · intro t' intent' ht'
    obtain ⟨hne, ht'⟩ := update_idle (f := Send.intent?) rfl ht'
    exact Finset.mem_erase.mpr ⟨fun hid => hne (h.single t' t intent' intent ht' hsend hid),
      h.pending t' intent' ht'⟩
  · intro t₁ t₂ intent₁ intent₂ h₁ h₂ hid
    exact h.single t₁ t₂ intent₁ intent₂ (update_idle (f := Send.intent?) rfl h₁).2
      (update_idle (f := Send.intent?) rfl h₂).2 hid
  · intro t' intent' ht'
    dsimp only at ht'
    obtain rfl | hne := eq_or_ne t' t
    · rw [Function.update_self] at ht'
      cases ht'
    · rw [Function.update_of_ne hne] at ht'
      exact h.fresh t' intent' ht'
  · intro t' intent' ht'
    exact h.live t' intent' (update_idle (f := Send.live?) rfl ht').2
  · intro id hid
    obtain haccepted | hfailed | ⟨t', intent', ht', hid'⟩ := h.placed id hid
    · exact .inl haccepted
    · exact .inr (.inl hfailed)
    · refine .inr (.inr ⟨t', intent', ?_, hid'⟩)
      dsimp only
      rw [Function.update_of_ne, ht']
      rintro rfl
      rw [hanswered] at ht'
      cases ht'
  · exact fun hready => by cases hready
  · exact h.once

/-- The queue of callbacks apart, a reconciliation leaves the adapter as it is. -/
theorem reconcile_same (id : String) (answer : Except String (Option BrokerEvent)) :
    Fallible.Along (Fallible.Same fun s : AdapterState => (s.session, s.accepted, s.pending))
      (AdapterState.reconcile id answer) := by
  have hcallback : ∀ event, Fallible.Along
      (Fallible.Same fun s : AdapterState => (s.session, s.accepted, s.pending))
      (AdapterState.onCallback event) := by
    intro event
    refine (Fallible.Along.require _ _).bind fun _ => (Fallible.Along.reads _).bind fun callbacks => ?_
    have hqueue : Fallible.Along (ε := String)
        (Fallible.Same fun s : AdapterState => (s.session, s.accepted, s.pending))
        (Fallible.modify fun s => { s with callbacks := s.callbacks ++ [event] }) :=
      Fallible.Along.modify fun _ => rfl
    refine Fallible.Along.ite (fun _ => Fallible.Along.ret _) fun _ => ?_
    exact (Fallible.Along.require _ _).bind fun _ => hqueue.bind fun _ => Fallible.Along.ret _
  refine (Fallible.Along.require _ _).bind fun _ => (Fallible.Along.ofExcept _).bind fun event => ?_
  cases event with
  | none => exact fun _ => rfl
  | some event => exact (hcallback event).discard.bind fun _ => Fallible.Along.ret _

omit [DecidableEq θ] in
/-- The transport knows no such order. -/
theorem Sound.absent (h : Sound g) (id : String) :
    Sound { g with log := g.log ++ [.absent id] } := by
  have hopen : ∀ id', Open id' (g.log ++ [.absent id]) → Open id' g.log := fun id' hopen =>
    ((open_append.mp hopen).resolve_left (fun heq => by cases heq)).2
  have hplaced : ∀ id', .placed id' ∈ g.log ++ [Exchange.absent id] → .placed id' ∈ g.log := by
    intro id' hid'
    obtain hid' | hid' := List.mem_append.mp hid'
    · exact hid'
    · rw [List.mem_singleton] at hid'
      cases hid'
  refine ⟨h.pending, h.single, h.fresh, fun t intent ht hid => h.live t intent ht (hopen _ hid),
    fun id' hid' => ?_, fun hready id' hid' => h.ready hready id' (hopen id' hid'),
    placedOnce_append h.once fun id' hid' => by cases hid'⟩
  obtain haccepted | hfailed | hasked := h.placed id' (hplaced id' hid')
  · exact .inl haccepted
  · exact .inr (.inl (List.mem_append_left _ hfailed))
  · exact .inr (.inr hasked)

/-- **Every step** keeps the gateway sound, when the session is connected with no open error. -/
theorem Sound.step (capabilities : Capabilities) (turn : Turn θ) (h : Sound g)
    (hreconciles : reconciles turn g = true) : Sound (step capabilities turn g) := by
  cases turn with
  | enter t intent =>
    rw [Gateway.step]
    split
    · next hidle =>
      obtain ⟨r, hrun, hrefused⟩ | ⟨hready, hfresh, hpending, hrun⟩ :=
        admit_cases capabilities intent g.state
      · rw [hrun]
        split
        · next heq => exact absurd (congrArg Prod.fst heq) hrefused
        · next heq =>
          obtain rfl := congrArg Prod.snd heq
          exact h
      · rw [hrun]
        exact h.enter hidle hready hfresh hpending
    · exact h
  | place t =>
    rw [Gateway.step]
    split
    · next hadmitted => exact h.place hadmitted
    · exact h
  | answer t answer =>
    rw [Gateway.step]
    split
    · next hplacing =>
      cases answer with
      | ok u =>
        have hsound := h.answer_ok (u := u) hplacing
        rw [← List.append_nil g.log] at hsound
        exact hsound
      | error e => exact h.answer_error hplacing
    · exact h
  | settle t =>
    rw [Gateway.step]
    split
    · next intent answer hanswered =>
      cases answer with
      | ok u => exact h.settle_ok hanswered
      | error e => exact h.settle_error hanswered
    · exact h
  | beginConnect =>
    rw [Gateway.step, AdapterState.beginConnect, Fallible.reads_bind, Fallible.require_bind]
    split
    · exact h.of_session rfl rfl fun hready => by cases hready
    · exact h
  | connectReady =>
    refine h.of_session rfl rfl fun _ id hopen => ?_
    have hclosed := List.all_eq_true.mp hreconciles _ hopen.1
    exact (of_decide_eq_true hclosed).resolve_right (not_not.mpr hopen)
  | markDegraded => exact h.of_session rfl rfl fun hready => by cases hready
  | disconnect => exact h.of_session rfl rfl fun hready => by cases hready
  | reconcile id answer =>
    have hsame := reconcile_same id answer g.state
    rw [Gateway.step]
    rcases hrun : AdapterState.reconcile id answer g.state with ⟨r, s⟩
    rw [hrun] at hsame
    obtain ⟨hsession, haccepted, hpending⟩ := Prod.ext_iff.mp hsame |>.imp_right Prod.ext_iff.mp
    have hsound : Sound { g with state := s } :=
      h.of_session haccepted hpending fun hready => h.ready (hsession.symm.trans hready)
    split
    · next heq =>
      obtain rfl := congrArg Prod.snd heq
      exact hsound.absent id
    · next heq =>
      obtain rfl := congrArg Prod.snd heq
      exact hsound

end Gateway

/-- **Along every run that connects the session with no open error**, the transport is asked again
to place an order only after the order was reconciled. -/
theorem placed_once_along {θ : Type} [DecidableEq θ] (capabilities : Capabilities)
    (run : List (Turn θ))
    (h : ∀ c ∈ Runs.calls (Gateway.step capabilities) Gateway.new run,
      Gateway.reconciles c.2 c.1 = true) :
    ∀ g ∈ Runs.states (Gateway.step capabilities) Gateway.new run, Gateway.PlacedOnce g.log := by
  have hsound : ∀ g ∈ Runs.states (Gateway.step capabilities) Gateway.new run, g.Sound :=
    Runs.states_of_step (A := fun _ => True) (I := Gateway.Sound)
      (G := fun turn g => Gateway.reconciles turn g = true)
      (fun turn g _ hg hturn => hg.step capabilities turn hturn) Gateway.sound_new
      (fun _ _ => trivial) h
  exact fun g hg => (hsound g hg).once

namespace Sample

/-- The adapter of the sample trades market orders. -/
def marketOnly : Capabilities := ⟨true, false, false, false⟩

def marketOrder : OrderIntent where
  intentId := "i"
  accountId := 1
  instrumentId := 1
  clientOrderId := "c"
  side := .buy
  quantityTicks := 1
  orderType := .market
  limitPriceTicks := none
  timeInForce := .day
  state := .created
  traceId := 1

/-- The order is sent and the transport answers with an error. -/
def failedSend : List (Turn Unit) :=
  [.connectReady, .enter () marketOrder, .place (), .answer () (.error "timeout"), .settle ()]

/-- The session is connected and the order is sent again. -/
def sendAgain : List (Turn Unit) := [.connectReady, .enter () marketOrder, .place ()]

end Sample

/-- An order that the transport does not know is placed again. -/
theorem placed_once_along_reconciled :
    Gateway.PlacedOnce (Runs.final (Gateway.step Sample.marketOnly) Gateway.new
      (Sample.failedSend ++ .reconcile "c" (.ok none) :: Sample.sendAgain)).log :=
  placed_once_along Sample.marketOnly _ (by decide +kernel) _ (Runs.final_mem_states _ _)

/-- Without the question, the order is placed again as well. -/
theorem placed_once_along_reconnected : ¬∀ (capabilities : Capabilities) (run : List (Turn Unit)),
    ∀ g ∈ Runs.states (Gateway.step capabilities) Gateway.new run, Gateway.PlacedOnce g.log := by
  intro hall
  have hlog : (Runs.final (Gateway.step Sample.marketOnly) Gateway.new
      (Sample.failedSend ++ Sample.sendAgain)).log = [.placed "c", .failed "c", .placed "c"] := by
    decide +kernel
  have honce := hall Sample.marketOnly _ _
    (Runs.final_mem_states _ (Sample.failedSend ++ Sample.sendAgain)) 2 "c"
  rw [hlog] at honce
  have hreconciled := honce rfl (by decide)
  exact absurd hreconciled.2 (by decide)

end InsiderTrader
