import InsiderTrader.JournalReopen

/-!
# Lifetimes of a journal

A process opens the journal, appends to it, and ends in a crash that stops its
last write after any of its bytes. The next process opens what is left. However
many processes there were, the file holds one numbered list of payloads, with
everything that was acknowledged in it.

## Main definitions

- `JournalFile.Lifetime` — the appends of a process and the one its crash stops
- `JournalFile.Lifetime.after` — the file a process leaves
- `JournalFile.recorded` — what the processes acknowledged

## Main results

- `JournalFile.Kept.lifetime` — one lifetime adds what it acknowledges, and at most one payload more
- `JournalFile.lifetimes_recovered` — the same for any number of lifetimes
-/

namespace InsiderTrader

namespace JournalFile

/-- A lifetime of a process: the payloads it appends, and the append that the crash stops. -/
structure Lifetime where
  payloads : List (List UInt8)
  last : AppendCall

namespace Lifetime

/-- The appends of a lifetime. All but the last are synchronized, unless they are refused. -/
def calls (life : Lifetime) : List AppendCall :=
  life.payloads.map (⟨·, .synced⟩) ++ [life.last]

/-- The file a lifetime leaves. -/
def after (life : Lifetime) (file : List UInt8) : List UInt8 :=
  match openJournal file with
  | .ok j => (Runs.final AppendCall.after j life.calls).file
  | .error _ => file

/-- The records a lifetime acknowledges. -/
def acknowledges (life : Lifetime) (file : List UInt8) : List Record :=
  match openJournal file with
  | .ok j => acknowledged j life.calls
  | .error _ => []

end Lifetime

/-- The records that the lifetimes acknowledge, in turn. -/
def recorded (file : List UInt8) (lives : List Lifetime) : List Record :=
  (Runs.calls Lifetime.after file lives).flatMap fun c => c.2.acknowledges c.1

-- Numbered payloads

theorem numbered_append (first : ℕ) (payloads more : List (List UInt8)) :
    numbered first (payloads ++ more) =
      numbered first payloads ++ numbered (first + payloads.length) more := by
  induction payloads generalizing first with
  | nil => rfl
  | cons payload payloads ih =>
    rw [List.cons_append, numbered, ih, numbered, List.cons_append, List.length_cons]
    congr 3
    omega

/-- The journal that holds the numbered payloads and nothing else. -/
def holding (payloads : List (List UInt8)) : Journal :=
  ⟨FrameLog.log frame (numbered 0 payloads), payloads.length⟩

theorem holding_append (payloads : List (List UInt8)) (payload : List UInt8) :
    (holding (payloads ++ [payload])).file =
      (holding payloads).file ++ frame ⟨payloads.length, payload⟩ := by
  show FrameLog.log frame (numbered 0 (payloads ++ [payload])) = _
  rw [numbered_append, FrameLog.log_append, Nat.zero_add]
  exact congrArg _ (FrameLog.log_singleton _ _)

/-- A journal within its bound holds few payloads. -/
theorem holding_few {payloads : List (List UInt8)}
    (h : (holding payloads).file.length ≤ maxJournalBytes) : payloads.length < maxSequence := by
  have hcount := numbered_length_le 0 payloads
  have hmany : maxJournalBytes < maxSequence := by decide
  have hfile : (FrameLog.log frame (numbered 0 payloads)).length ≤ maxJournalBytes := h
  omega

theorem holding_fits {payloads : List (List UInt8)}
    (h : (holding payloads).file.length ≤ maxJournalBytes) :
    ∀ record ∈ numbered 0 payloads, record.Fits :=
  numbered_fits (by have := holding_few h; omega) h

/-- One synchronized append adds its payload, or is refused. -/
theorem synced_after {payloads : List (List UInt8)}
    (h : (holding payloads).file.length ≤ maxJournalBytes) (payload : List UInt8) :
    ∃ new, AppendCall.after ⟨payload, .synced⟩ (holding payloads) = holding (payloads ++ new) ∧
      (holding (payloads ++ new)).file.length ≤ maxJournalBytes ∧
      (AppendCall.acknowledges ⟨payload, .synced⟩ (holding payloads)).toList =
        numbered payloads.length new := by
  by_cases hpasses : AppendCall.Passes ⟨payload, .synced⟩ (holding payloads)
  · have happend := append_synced (holding_few h) hpasses.2
    have hlength : (payloads ++ [payload]).length = payloads.length + 1 := List.length_append
    refine ⟨[payload], ?_, ?_, ?_⟩
    · rw [AppendCall.after, happend]
      show Journal.mk ((holding payloads).file ++ frame ⟨payloads.length, payload⟩)
        (payloads.length + 1) = _
      rw [← holding_append, ← hlength]
      rfl
    · rw [holding_append, List.length_append]
      exact hpasses.2
    · rw [AppendCall.acknowledges, happend]
      rfl
  · obtain ⟨e, hrefused⟩ := AppendCall.append_of_not_passes hpasses
    refine ⟨[], ?_, ?_, ?_⟩
    · rw [AppendCall.after, hrefused, List.append_nil]
    · rwa [List.append_nil]
    · rw [AppendCall.acknowledges, hrefused]
      rfl

/-- The synchronized appends of a lifetime. -/
theorem synced_run {payloads : List (List UInt8)}
    (h : (holding payloads).file.length ≤ maxJournalBytes) (appends : List (List UInt8)) :
    ∃ new, Runs.final AppendCall.after (holding payloads) (appends.map (⟨·, .synced⟩)) =
        holding (payloads ++ new) ∧
      (holding (payloads ++ new)).file.length ≤ maxJournalBytes ∧
      acknowledged (holding payloads) (appends.map (⟨·, .synced⟩)) =
        numbered payloads.length new := by
  induction appends generalizing payloads with
  | nil => exact ⟨[], by rw [List.append_nil]; rfl, by rwa [List.append_nil], rfl⟩
  | cons payload appends ih =>
    obtain ⟨new, hafter, hbound, hack⟩ := synced_after h payload
    obtain ⟨more, hfinal, hbound', hacks⟩ := ih hbound
    rw [List.append_assoc] at hfinal hbound'
    refine ⟨new ++ more, ?_, hbound', ?_⟩
    · rw [List.map_cons, Runs.final_cons, hafter, hfinal]
    · rw [numbered_append, ← hack]
      rw [List.length_append] at hacks
      rw [← hacks, acknowledged, List.map_cons, Runs.calls, hafter, List.filterMap_cons]
      cases AppendCall.acknowledges ⟨payload, .synced⟩ (holding payloads) <;> rfl

/-- A file that holds numbered payloads and possibly a part of one more. -/
def Kept (file : List UInt8) (payloads : List (List UInt8)) : Prop :=
  ∃ tail, Holds file (numbered 0 payloads) tail

theorem Kept.opened {file : List UInt8} {payloads : List (List UInt8)} (h : Kept file payloads) :
    openJournal file = .ok (holding payloads) ∧
      (holding payloads).file.length ≤ maxJournalBytes := by
  obtain ⟨tail, hholds⟩ := h
  have hbound : (holding payloads).file.length ≤ maxJournalBytes := by
    have hlength := hholds.bounded
    rw [hholds.bytes, List.length_append] at hlength
    exact (Nat.le_add_right _ _).trans hlength
  refine ⟨?_, hbound⟩
  rw [hholds.openJournal_eq, numbered_next (Nat.le_of_lt (holding_few hbound))]
  rfl

/-- **The crash** leaves the payload of the stopped append in the file, or none of it that a scan
reads. It is acknowledged only if it is in the file. -/
theorem crash_kept {payloads : List (List UInt8)}
    (h : (holding payloads).file.length ≤ maxJournalBytes) (call : AppendCall) :
    ∃ new, Kept (call.after (holding payloads)).file (payloads ++ new) ∧ new.length ≤ 1 ∧
      List.Sublist (call.acknowledges (holding payloads)).toList (numbered payloads.length new) := by
  obtain ⟨payload, outcome⟩ := call
  by_cases hpasses : AppendCall.Passes ⟨payload, outcome⟩ (holding payloads)
  · have hafter := AppendCall.append_of_passes hpasses
    have hfits : Record.Fits ⟨payloads.length, payload⟩ :=
      ⟨Nat.lt_trans (holding_few h) (by decide), hpasses.1⟩
    have hfile : (AppendCall.after ⟨payload, outcome⟩ (holding payloads)).file =
        (holding payloads).file ++ AppendCall.reached ⟨payload, outcome⟩ (holding payloads) := by
      rw [AppendCall.after, hafter]
      split <;> rfl
    rcases AppendCall.reached_cases ⟨payload, outcome⟩ (holding payloads) hfits with
      hwhole | ⟨hfailed, -, htorn⟩
    · have hbound : (holding (payloads ++ [payload])).file.length ≤ maxJournalBytes := by
        rw [holding_append, List.length_append]
        exact hpasses.2
      refine ⟨[payload], ⟨[], holding_fits hbound, ?_, .inl rfl, ?_⟩, Nat.le_refl 1, ?_⟩
      · rw [List.append_nil]
        exact (hfile.trans (congrArg _ hwhole)).trans (holding_append payloads payload).symm
      · exact (congrArg List.length (hfile.trans (congrArg _ hwhole))).trans_le
          (by rw [List.length_append]; exact hpasses.2)
      · rw [AppendCall.acknowledges, hafter]
        split
        · next sequence hok =>
          split at hok
          · cases hok
            exact List.Sublist.refl _
          · cases hok
        · exact List.nil_sublist _
    · refine ⟨[], ⟨_, ?_, ?_, htorn, ?_⟩, Nat.zero_le 1, ?_⟩
      · rw [List.append_nil]
        exact holding_fits h
      · rw [List.append_nil]
        exact hfile
      · have hshort : (AppendCall.reached ⟨payload, outcome⟩ (holding payloads)).length ≤
            (frame ⟨payloads.length, payload⟩).length := by
          cases outcome with
          | synced => exact Nat.le_refl _
          | unsynced => exact Nat.le_refl _
          | torn written => exact List.length_take_le' _ _
        have hsize : (holding payloads).file.length +
            (frame ⟨payloads.length, payload⟩).length ≤ maxJournalBytes := hpasses.2
        rw [hfile, List.length_append]
        omega
      · rw [AppendCall.acknowledges, hafter, if_neg hfailed]
        exact List.nil_sublist _
  · obtain ⟨e, hrefused⟩ := AppendCall.append_of_not_passes hpasses
    refine ⟨[], ⟨[], ?_, ?_, .inl rfl, ?_⟩, Nat.zero_le 1, ?_⟩
    · rw [List.append_nil]
      exact holding_fits h
    · rw [AppendCall.after, hrefused, List.append_nil, List.append_nil]
      exact Eq.refl (holding payloads).file
    · rw [AppendCall.after, hrefused]
      exact h
    · rw [AppendCall.acknowledges, hrefused]
      exact List.nil_sublist _

/-- **One lifetime** adds the payloads it acknowledges, and at most one more. -/
theorem Kept.lifetime {file : List UInt8} {payloads : List (List UInt8)} (h : Kept file payloads)
    (life : Lifetime) :
    ∃ new, Kept (life.after file) (payloads ++ new) ∧
      (life.acknowledges file).Sublist (numbered payloads.length new) ∧
      new.length ≤ (life.acknowledges file).length + 1 := by
  obtain ⟨hopen, hbound⟩ := h.opened
  obtain ⟨new, hfinal, hbound', hacks⟩ := synced_run hbound life.payloads
  obtain ⟨last, hkept, hone, hlast⟩ := crash_kept hbound' life.last
  have hafter : life.after file = (life.last.after (holding (payloads ++ new))).file := by
    rw [Lifetime.after, hopen, Lifetime.calls]
    dsimp only
    rw [Runs.final_append, hfinal]
    rfl
  have hack : life.acknowledges file = numbered payloads.length new ++
      (life.last.acknowledges (holding (payloads ++ new))).toList := by
    rw [Lifetime.acknowledges, hopen, Lifetime.calls]
    dsimp only
    rw [← hacks, acknowledged, acknowledged, Runs.calls_append, List.filterMap_append, hfinal]
    congr 1
  rw [List.append_assoc] at hkept
  rw [List.length_append] at hlast
  refine ⟨new ++ last, ?_, ?_, ?_⟩
  · rwa [hafter]
  · rw [hack, numbered_append]
    exact (List.Sublist.refl _).append hlast
  · rw [hack, List.length_append, List.length_append, numbered_length]
    omega

/-- **Recovery over all lifetimes**: however many processes append to the journal, whatever is
refused and wherever their crashes stop a write, the next scan returns payloads that are numbered
from zero without a gap, every acknowledged record among them in its order, and at most one payload
of each lifetime that was not acknowledged. -/
theorem lifetimes_recovered (lives : List Lifetime) :
    ∃ payloads, (∃ scan, scanPath (Runs.final Lifetime.after [] lives) = .ok scan ∧
        scan.records = numbered 0 payloads) ∧
      (recorded [] lives).Sublist (numbered 0 payloads) ∧
      payloads.length ≤ (recorded [] lives).length + lives.length := by
  have hrun (file : List UInt8) (payloads : List (List UInt8)) (h : Kept file payloads) :
      ∃ new, Kept (Runs.final Lifetime.after file lives) (payloads ++ new) ∧
        (recorded file lives).Sublist (numbered payloads.length new) ∧
        new.length ≤ (recorded file lives).length + lives.length := by
    induction lives generalizing file payloads with
    | nil => exact ⟨[], by rwa [List.append_nil], List.Sublist.refl _, Nat.le_refl _⟩
    | cons life lives ih =>
      obtain ⟨new, hkept, hsub, hfew⟩ := h.lifetime life
      obtain ⟨more, hfinal, hsubs, hmany⟩ := ih _ _ hkept
      have hsplit : recorded file (life :: lives) =
          life.acknowledges file ++ recorded (life.after file) lives := by
        rw [recorded, Runs.calls, List.flatMap_cons]
        rfl
      rw [List.append_assoc] at hfinal
      rw [List.length_append] at hsubs
      refine ⟨new ++ more, hfinal, ?_, ?_⟩
      · rw [hsplit, numbered_append]
        exact hsub.append hsubs
      · rw [hsplit, List.length_append, List.length_append, List.length_cons]
        omega
  obtain ⟨payloads, ⟨tail, hholds⟩, hsub, hmany⟩ :=
    hrun [] [] ⟨[], ⟨by simp [numbered], rfl, .inl rfl, Nat.zero_le _⟩⟩
  exact ⟨payloads, ⟨_, hholds.scanPath_eq, rfl⟩, hsub, hmany⟩

end JournalFile

end InsiderTrader
