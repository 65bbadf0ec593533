import InsiderTrader.Autonomy
import InsiderTrader.Library.Runs
import Mathlib.Data.List.Induction

/-!
# The live gate over runs

Live orders pass only after the two steps of one account: the challenge is armed
and then confirmed with its token before it expires, with no call in between or
afterwards that ends live trading.

## Main definitions

- `LiveGuardOp` — the calls of the guard
- `LiveGuard.Pending`, `LiveGuard.Enabled` — the first and both steps in a run

## Main results

- `LiveGuard.tracked_after` — a challenge and the live environment come from steps of the run
- `live_after_two_steps` — what the pre-send check lets pass
-/

namespace InsiderTrader

/-- A call of the live guard. -/
inductive LiveGuardOp where
  | armLive (account : String) (now : MonoTime) (phrase : String)
  | confirmLive (account token : String) (now : MonoTime) (phrase : String)
  | killSwitch
  | disableLive
  deriving DecidableEq

namespace LiveGuardOp

/-- The guard after a call. -/
def apply : LiveGuardOp → LiveGuard → LiveGuard
  | armLive account now phrase, g => (LiveGuard.armLive account now phrase g).2
  | confirmLive account token now phrase, g => (LiveGuard.confirmLive account token now phrase g).2
  | killSwitch, g => g.killSwitch
  | disableLive, g => g.disableLive

/-- The call ends live trading. -/
def ends : LiveGuardOp → Bool
  | killSwitch | disableLive => true
  | _ => false

end LiveGuardOp

namespace LiveGuard

/-- The guard after a run. -/
abbrev after (g : LiveGuard) (ops : List LiveGuardOp) : LiveGuard :=
  Runs.final LiveGuardOp.apply g ops

variable {g : LiveGuard} {account token : String} {ops : List LiveGuardOp}

-- The steps

/-- The guard with a challenge for an account. -/
def armed (g : LiveGuard) (account token : String) (now : MonoTime) : LiveGuard :=
  { g with
    nextChallenge := min (g.nextChallenge + 1) u64Max
    challenge := some ⟨token, account, min (now + liveEnableTtlNs) u64Max⟩ }

/-- **First step**: it fails, or it leaves a challenge for an allowed account. -/
theorem armLive_cases (g : LiveGuard) (account : String) (now : MonoTime) (phrase : String) :
    (∃ e, armLive account now phrase g = (.error e, g)) ∨
      ∃ token, account ∈ g.limits.allowedAccounts ∧
        armLive account now phrase g = (.ok token, g.armed account token now) := by
  by_cases hallowed : account ∈ g.limits.allowedAccounts
  · by_cases hphrase : phrase = "ARM LIVE"
    · refine .inr ⟨"LIVE-" ++ account ++ "-" ++ toString g.nextChallenge, hallowed, ?_⟩
      simp [armLive, hallowed, hphrase, Fallible.modify_bind, armed]
    · exact .inl ⟨.confirmationRequired, by simp [armLive, hallowed, hphrase]⟩
  · exact .inl ⟨.accountNotAllowed, by simp [armLive, hallowed]⟩

/-- **Second step**: it changes nothing, it uses up the challenge, or it turns a matching challenge
that has not expired into the live environment. -/
theorem confirmLive_cases (g : LiveGuard) (account token : String) (now : MonoTime)
    (phrase : String) :
    (confirmLive account token now phrase g).2 = g ∨
      (confirmLive account token now phrase g).2 = { g with challenge := none } ∨
      ∃ expiresAt, g.challenge = some ⟨token, account, expiresAt⟩ ∧ now < expiresAt ∧
        confirmLive account token now phrase g =
          (.ok (), { g with challenge := none, environment := .live }) := by
  rw [confirmLive, Fallible.reads_bind]
  dsimp only [id]
  split
  · exact .inl rfl
  · rw [Fallible.modify_bind]
    rcases hc : g.challenge with _ | ⟨token', account', expiresAt⟩
    · exact .inr (.inl rfl)
    · dsimp only
      split
      · exact .inr (.inl rfl)
      · next hmatch =>
        simp only [not_or, not_le, not_not] at hmatch
        obtain ⟨hlive, rfl, rfl, -⟩ := hmatch
        exact .inr (.inr ⟨expiresAt, rfl, hlive, rfl⟩)

-- Steps in a run

/-- The first step of a challenge in a run, with nothing after it that ends live trading. -/
def Pending (g : LiveGuard) (ops : List LiveGuardOp) (c : LiveChallenge) : Prop :=
  ∃ before now phrase rest, ops = before ++ .armLive c.account now phrase :: rest ∧
    c.account ∈ g.limits.allowedAccounts ∧
    (armLive c.account now phrase (g.after before)).1 = .ok c.token ∧
    c.expiresAt = min (now + liveEnableTtlNs) u64Max ∧ ∀ op ∈ rest, op.ends = false

/-- Both steps of an account in a run: the token of the first one is confirmed within its lifetime,
and nothing after the first one ends live trading. -/
def Enabled (g : LiveGuard) (ops : List LiveGuardOp) (account : String) : Prop :=
  ∃ before now phrase token between now' phrase' rest,
    ops = before ++ .armLive account now phrase :: between ++
      .confirmLive account token now' phrase' :: rest ∧
    (armLive account now phrase (g.after before)).1 = .ok token ∧
    (confirmLive account token now' phrase'
      (g.after (before ++ .armLive account now phrase :: between))).1 = .ok () ∧
    now' < now + liveEnableTtlNs ∧ ∀ op ∈ between ++ rest, op.ends = false

/-- Challenges and the live environment come from steps of the run. -/
structure Tracked (g : LiveGuard) (ops : List LiveGuardOp) : Prop where
  limits : (g.after ops).limits = g.limits
  challenge : ∀ c, (g.after ops).challenge = some c → g.Pending ops c
  live : (g.after ops).environment = .live →
    ∃ account ∈ g.limits.allowedAccounts, g.Enabled ops account

theorem Pending.snoc {c : LiveChallenge} (h : g.Pending ops c) {op : LiveGuardOp}
    (hop : op.ends = false) : g.Pending (ops ++ [op]) c := by
  obtain ⟨before, now, phrase, rest, rfl, hallowed, harm, hexpires, hrest⟩ := h
  refine ⟨before, now, phrase, rest ++ [op], by simp, hallowed, harm, hexpires, ?_⟩
  intro op' hop'
  rcases List.mem_append.mp hop' with hmem | hmem
  · exact hrest op' hmem
  · rw [List.mem_singleton.mp hmem]
    exact hop

theorem Enabled.snoc (h : g.Enabled ops account) {op : LiveGuardOp} (hop : op.ends = false) :
    g.Enabled (ops ++ [op]) account := by
  obtain ⟨before, now, phrase, token, between, now', phrase', rest, rfl, harm, hconfirm, htime,
    hrest⟩ := h
  refine ⟨before, now, phrase, token, between, now', phrase', rest ++ [op], by simp, harm,
    hconfirm, htime, ?_⟩
  intro op' hop'
  rw [← List.append_assoc] at hop'
  rcases List.mem_append.mp hop' with hmem | hmem
  · exact hrest op' hmem
  · rw [List.mem_singleton.mp hmem]
    exact hop

/-- A confirmed challenge makes both steps of its account. -/
theorem Pending.enabled {c : LiveChallenge} (h : g.Pending ops c) {now : MonoTime}
    {phrase : String} (hnow : now < c.expiresAt)
    (hconfirm : (confirmLive c.account c.token now phrase (g.after ops)).1 = .ok ()) :
    g.Enabled (ops ++ [.confirmLive c.account c.token now phrase]) c.account := by
  obtain ⟨before, armedAt, phrase', rest, rfl, -, harm, hexpires, hrest⟩ := h
  have htime : now < armedAt + liveEnableTtlNs := lt_of_lt_of_le hnow (hexpires ▸ min_le_left _ _)
  exact ⟨before, armedAt, phrase', c.token, rest, now, phrase, [], by simp, harm, hconfirm, htime,
    by simpa using hrest⟩

/-- **One step** keeps track. -/
theorem Tracked.snoc (h : g.Tracked ops) (op : LiveGuardOp) : g.Tracked (ops ++ [op]) := by
  have hafter : g.after (ops ++ [op]) = op.apply (g.after ops) := Runs.final_append _ _ _
  have hlive (hop : op.ends = false) (henv : (g.after ops).environment = .live) :
      ∃ account ∈ g.limits.allowedAccounts, g.Enabled (ops ++ [op]) account := by
    obtain ⟨account, hallowed, henabled⟩ := h.live henv
    exact ⟨account, hallowed, henabled.snoc hop⟩
  cases op with
  | killSwitch =>
    refine ⟨?_, fun c hc => ?_, fun henv => ?_⟩
    · rw [hafter]
      exact h.limits
    · rw [hafter] at hc
      cases hc
    · rw [hafter] at henv
      cases henv
  | disableLive =>
    refine ⟨?_, fun c hc => ?_, fun henv => ?_⟩
    · rw [hafter]
      exact h.limits
    · rw [hafter] at hc
      cases hc
    · rw [hafter] at henv
      cases henv
  | armLive account now phrase =>
    rw [LiveGuardOp.apply] at hafter
    rcases armLive_cases (g.after ops) account now phrase with ⟨e, harm⟩ | ⟨token, hallowed, harm⟩
    · rw [harm] at hafter
      refine ⟨?_, fun c hc => ?_, fun henv => ?_⟩
      · rw [hafter, h.limits]
      · rw [hafter] at hc
        exact (h.challenge c hc).snoc rfl
      · rw [hafter] at henv
        exact hlive rfl henv
    · rw [h.limits] at hallowed
      rw [harm] at hafter
      refine ⟨?_, fun c hc => ?_, fun henv => ?_⟩
      · rw [hafter]
        exact h.limits
      · rw [hafter] at hc
        cases hc
        exact ⟨ops, now, phrase, [], rfl, hallowed, congrArg Prod.fst harm, rfl, by simp⟩
      · rw [hafter] at henv
        exact hlive rfl henv
  | confirmLive account token now phrase =>
    rw [LiveGuardOp.apply] at hafter
    rcases confirmLive_cases (g.after ops) account token now phrase with
      hsame | hused | ⟨expiresAt, hc, hnow, hconfirm⟩
    · rw [hsame] at hafter
      refine ⟨?_, fun c hc => ?_, fun henv => ?_⟩
      · rw [hafter, h.limits]
      · rw [hafter] at hc
        exact (h.challenge c hc).snoc rfl
      · rw [hafter] at henv
        exact hlive rfl henv
    · rw [hused] at hafter
      refine ⟨?_, fun c hc => ?_, fun henv => ?_⟩
      · rw [hafter]
        exact h.limits
      · rw [hafter] at hc
        cases hc
      · rw [hafter] at henv
        exact hlive rfl henv
    · have hpending := h.challenge _ hc
      have henabled := hpending.enabled hnow (congrArg Prod.fst hconfirm)
      have hallowed : account ∈ g.limits.allowedAccounts := by
        obtain ⟨_, _, _, _, _, hallowed, -⟩ := hpending
        exact hallowed
      rw [hconfirm] at hafter
      refine ⟨?_, fun c hc => ?_, fun _ => ⟨account, hallowed, henabled⟩⟩
      · rw [hafter]
        exact h.limits
      · rw [hafter] at hc
        cases hc

/-- **Every run** from a guard that is not live and has no challenge keeps track. -/
theorem tracked_after (hc : g.challenge = none) (henv : g.environment ≠ .live)
    (ops : List LiveGuardOp) : g.Tracked ops := by
  induction ops using List.reverseRecOn with
  | nil =>
    refine ⟨rfl, fun c hchallenge => ?_, fun hlive => absurd hlive henv⟩
    cases hc.symm.trans hchallenge
  | append_singleton ops op ih => exact ih.snoc op

/-- Only a return to paper mode or the two steps end a kill. -/
theorem killed_after {g : LiveGuard} (henv : g.environment = .killed) {ops : List LiveGuardOp}
    (hpaper : .disableLive ∉ ops) :
    (g.after ops).environment = .killed ∨ (g.after ops).environment = .live := by
  induction ops using List.reverseRecOn with
  | nil => exact .inl henv
  | append_singleton ops op ih =>
    rw [List.mem_append, not_or] at hpaper
    have hprior := ih hpaper.1
    rw [show g.after (ops ++ [op]) = op.apply (g.after ops) from Runs.final_append _ _ _]
    cases op with
    | killSwitch => exact .inl rfl
    | disableLive => exact absurd (List.mem_singleton_self _) hpaper.2
    | armLive account now phrase =>
      rcases armLive_cases (g.after ops) account now phrase with ⟨e, harm⟩ | ⟨token, -, harm⟩
      · rw [LiveGuardOp.apply, harm]
        exact hprior
      · rw [LiveGuardOp.apply, harm]
        exact hprior
    | confirmLive account token now phrase =>
      rcases confirmLive_cases (g.after ops) account token now phrase with
        hsame | hused | ⟨expiresAt, -, -, hconfirm⟩
      · rw [LiveGuardOp.apply, hsame]
        exact hprior
      · rw [LiveGuardOp.apply, hused]
        exact hprior
      · rw [LiveGuardOp.apply, hconfirm]
        exact .inr rfl

end LiveGuard

open LiveGuard

/-- **The live gate**: in the live environment only allowed accounts pass, and only after both steps
of an allowed account, after the last call that ends live trading. After a kill that no return to
paper mode follows, no account passes before such steps. -/
theorem live_after_two_steps (limits : LiveLimits) (ops : List LiveGuardOp) :
    (∀ account notional, ((LiveGuard.paper limits).after ops).environment = .live →
      ((LiveGuard.paper limits).after ops).authorize account notional = .ok () →
      account ∈ limits.allowedAccounts ∧
        ∃ enabled ∈ limits.allowedAccounts, (LiveGuard.paper limits).Enabled ops enabled) ∧
    ∀ before rest, ops = before ++ .killSwitch :: rest → .disableLive ∉ rest →
      (∃ enabled ∈ limits.allowedAccounts,
        ((LiveGuard.paper limits).after (before ++ [.killSwitch])).Enabled rest enabled) ∨
      ∀ account notional,
        ((LiveGuard.paper limits).after ops).authorize account notional = .error .notLive := by
  constructor
  · intro account notional hlive hpass
    have htracked := tracked_after (g := .paper limits) rfl (fun h => nomatch h) ops
    refine ⟨?_, htracked.live hlive⟩
    by_contra hmissing
    unfold authorize at hpass
    rw [hlive, htracked.limits] at hpass
    dsimp only at hpass
    rw [if_pos (show account ∉ (paper limits).limits.allowedAccounts from hmissing)] at hpass
    cases hpass
  · rintro before rest rfl hpaper
    have hkilled : (LiveGuard.paper limits).after (before ++ [.killSwitch]) =
        ((LiveGuard.paper limits).after before).killSwitch := Runs.final_append _ _ _
    have hrest : (LiveGuard.paper limits).after (before ++ .killSwitch :: rest) =
        ((LiveGuard.paper limits).after (before ++ [.killSwitch])).after rest := by
      rw [after, after, after, ← Runs.final_append, List.append_assoc]
      rfl
    have hlimits : ((LiveGuard.paper limits).after (before ++ [.killSwitch])).limits = limits :=
      (tracked_after (g := .paper limits) rfl (fun h => nomatch h) _).limits
    rw [hrest]
    have hstart : ((LiveGuard.paper limits).after (before ++ [.killSwitch])).environment =
        .killed := congrArg environment hkilled
    rcases killed_after hstart hpaper with henv | henv
    · refine .inr fun account notional => ?_
      unfold authorize
      rw [henv]
    · have htracked := tracked_after (congrArg challenge hkilled)
        (by rw [hstart]; exact fun h => nomatch h) rest
      obtain ⟨enabled, hallowed, henabled⟩ := htracked.live henv
      exact .inl ⟨enabled, hlimits ▸ hallowed, henabled⟩

namespace Sample

/-- Two accounts may trade live. -/
def twoAccounts : LiveLimits := ⟨["a", "b"], 1000⟩

/-- Both steps of the first account. -/
def bothSteps : List LiveGuardOp :=
  [.armLive "a" 10 "ARM LIVE", .confirmLive "a" "LIVE-a-1" 20 "ENABLE LIVE"]

end Sample

/-- Both steps let the account pass. -/
theorem live_after_two_steps_both :
    "a" ∈ Sample.twoAccounts.allowedAccounts ∧
      ∃ enabled ∈ Sample.twoAccounts.allowedAccounts,
        (LiveGuard.paper Sample.twoAccounts).Enabled Sample.bothSteps enabled :=
  (live_after_two_steps Sample.twoAccounts Sample.bothSteps).1 "a" (some 5) (by decide) (by decide)

/-- **The gate is not tied to the account of the steps**, and a return to paper mode ends a kill:
the second account passes after the steps of the first one, and any account passes after a kill and
a return. -/
theorem live_after_steps_of_another :
    (((LiveGuard.paper Sample.twoAccounts).after Sample.bothSteps).environment = .live ∧
      ((LiveGuard.paper Sample.twoAccounts).after Sample.bothSteps).authorize "b" (some 5) = .ok () ∧
      ¬(LiveGuard.paper Sample.twoAccounts).Enabled Sample.bothSteps "b") ∧
    ((LiveGuard.paper Sample.twoAccounts).after [.killSwitch, .disableLive]).authorize "b" none =
        .ok () ∧
      ∀ account, ¬((LiveGuard.paper Sample.twoAccounts).after [.killSwitch]).Enabled
        [.disableLive] account := by
  have hmissing {g : LiveGuard} {ops : List LiveGuardOp} {account : String}
      (hops : ∀ now phrase, .armLive account now phrase ∉ ops) : ¬g.Enabled ops account := by
    rintro ⟨before, now, phrase, token, between, now', phrase', rest, rfl, -⟩
    exact hops now phrase (by simp)
  refine ⟨⟨by decide, by decide, hmissing ?_⟩, by decide, fun account => hmissing ?_⟩
  · intro now phrase hmem
    simp [Sample.bothSteps] at hmem
  · intro now phrase hmem
    simp at hmem

end InsiderTrader
