import Mathlib.Data.List.Nodup
import InsiderTrader.Library.Runs
import InsiderTrader.JournalScan

/-!
# Appending to the journal file

An append that fails may leave a part of its frame in the file, or all of it
with the sequence not yet advanced. Appends that follow are behind the torn
frame, or repeat the sequence; along appends that do neither, every record that
was acknowledged is scanned again.

## Main definitions

- `JournalFile.Holds` — the frames of records and possibly a part of one more
- `JournalFile.AppendCall.Sound` — the appends that do not write behind a failed one
- `JournalFile.acknowledged` — the records of the appends that succeeded

## Main results

- `JournalFile.acknowledged_scanned` — along sound appends every acknowledged record is scanned
-/

namespace InsiderTrader

namespace JournalFile

open Fallible

-- Files of frames

/-- A file that holds the frames of records and possibly a part of one more. -/
structure Holds (file : List UInt8) (records : List Record) (tail : List UInt8) : Prop where
  fits : ∀ record ∈ records, record.Fits
  bytes : file = FrameLog.log frame records ++ tail
  torn : FrameLog.Torn frame Record.Fits tail
  bounded : file.length ≤ maxJournalBytes

/-- **The scan** of a file returns the records it holds. -/
theorem Holds.scanPath_eq {file : List UInt8} {records : List Record} {tail : List UInt8}
    (h : Holds file records tail) :
    scanPath file = .ok ⟨records, (FrameLog.log frame records).length, decide (tail ≠ [])⟩ := by
  rw [scanPath, if_neg (Nat.not_lt.mpr h.bounded), h.bytes, scanFrom_log h.fits, Nat.zero_add,
    List.nil_append]
  rcases h.torn with rfl | ⟨record, n, hrecord, hpos, hcut, rfl⟩
  · rw [scanFrom_nil]
    simp
  · have hne : (frame record).take n ≠ [] := by
      intro hnil
      have hlength := congrArg List.length hnil
      rw [List.length_take, List.length_nil] at hlength
      omega
    rw [scanFrom_torn hrecord hpos hcut, decide_eq_true hne]

/-- A scanned file is whole frames up to the valid bytes. -/
theorem scanPath_eq_ok {file : List UInt8} {scan : Scan} (h : scanPath file = .ok scan) :
    file.length ≤ maxJournalBytes ∧ ∃ tail, scan.Reads 0 [] scan.records file tail := by
  unfold scanPath at h
  split at h
  · cases h
  · next hbound =>
    obtain ⟨new, tail, hreads⟩ := scanFrom_eq_ok h
    obtain rfl : scan.records = new := hreads.records
    exact ⟨Nat.le_of_not_lt hbound, tail, hreads⟩

/-- **An opened journal** holds whole frames, those of the records scanned, and continues behind
the last one. -/
theorem openJournal_eq_ok {file : List UInt8} {j : Journal} (h : openJournal file = .ok j) :
    ∃ scan, scanPath file = .ok scan ∧ Holds j.file scan.records [] ∧
      j.nextSequence = scan.records.getLast?.elim 0 (nextSequenceAfter ·.sequence) := by
  unfold openJournal at h
  cases hscan : scanPath file with
  | error e => rw [hscan] at h; cases h
  | ok scan =>
    rw [hscan] at h
    cases h
    obtain ⟨hbound, tail, hreads⟩ := scanPath_eq_ok hscan
    refine ⟨scan, rfl, ⟨hreads.fits, ?_, .inl rfl, ?_⟩, rfl⟩
    · dsimp only
      rw [List.append_nil]
      by_cases htail : scan.hasInvalidTail = true
      · rw [if_pos htail, hreads.bytes, hreads.validBytes, Nat.zero_add]
        exact List.take_left' rfl
      · rw [if_neg htail, hreads.bytes]
        have hnil : tail = [] := by_contra fun hne => htail (hreads.tail.mpr hne)
        rw [hnil, List.append_nil]
    · dsimp only
      split
      · rw [List.length_take]
        omega
      · exact hbound

-- One append

/-- An append, with the way its write ends. -/
structure AppendCall where
  payload : List UInt8
  outcome : Outcome

namespace AppendCall

/-- The record an append writes. -/
def record (call : AppendCall) (j : Journal) : Record := ⟨j.nextSequence, call.payload⟩

/-- The bytes of its frame that reach the file. -/
def reached (call : AppendCall) (j : Journal) : List UInt8 :=
  call.outcome.reached (frame (call.record j))

/-- The checks before the write. -/
def Passes (call : AppendCall) (j : Journal) : Prop :=
  call.payload.length < 2 ^ 32 ∧ j.file.length + (frame (call.record j)).length ≤ maxJournalBytes

/-- The journal an append leaves, failed or not. -/
def after (call : AppendCall) (j : Journal) : Journal := (append call.payload call.outcome j).2

variable {call : AppendCall} {j : Journal}

theorem append_of_passes (h : call.Passes j) :
    append call.payload call.outcome j =
      if call.outcome = .synced then
        (.ok j.nextSequence, ⟨j.file ++ call.reached j, nextSequenceAfter j.nextSequence⟩)
      else (.error .io, ⟨j.file ++ call.reached j, j.nextSequence⟩) := by
  have hsize : j.file.length + (frame ⟨j.nextSequence, call.payload⟩).length ≤ maxJournalBytes := h.2
  rw [append, require_bind, if_pos h.1, reads_bind]
  dsimp only [id]
  rw [require_bind, if_pos hsize, modify_bind, require_bind]
  rfl

/-- An append that fails a check writes nothing. -/
theorem append_of_not_passes (h : ¬call.Passes j) :
    ∃ e, append call.payload call.outcome j = (.error e, j) := by
  rw [append, require_bind]
  by_cases hpayload : call.payload.length < 2 ^ 32
  · have hsize : ¬j.file.length + (frame ⟨j.nextSequence, call.payload⟩).length ≤
        maxJournalBytes := fun hsize => h ⟨hpayload, hsize⟩
    rw [if_pos hpayload, reads_bind]
    dsimp only [id]
    rw [require_bind, if_neg hsize]
    exact ⟨_, rfl⟩
  · rw [if_neg hpayload]
    exact ⟨_, rfl⟩

/-- What reaches the file is all of the frame, nothing, or a torn part. -/
theorem reached_cases (call : AppendCall) (j : Journal) (hfits : (call.record j).Fits) :
    call.reached j = frame (call.record j) ∨
      call.outcome ≠ .synced ∧ call.reached j ≠ frame (call.record j) ∧
        FrameLog.Torn frame Record.Fits (call.reached j) := by
  unfold reached
  cases houtcome : call.outcome with
  | synced => exact .inl rfl
  | unsynced => exact .inl rfl
  | torn written =>
    show (frame (call.record j)).take written = _ ∨ _
    by_cases hwhole : (frame (call.record j)).length ≤ written
    · exact .inl (List.take_of_length_le hwhole)
    · refine .inr ⟨by simp, fun hall => ?_, ?_⟩
      · have hlength := congrArg List.length hall
        change ((frame (call.record j)).take written).length = _ at hlength
        rw [List.length_take] at hlength
        omega
      · by_cases hzero : written = 0
        · exact .inl (by rw [hzero]; rfl)
        · exact .inr ⟨_, written, hfits, by omega, by omega, rfl⟩

/-- An append that does not write behind a failed one: it leaves bytes only in a file without an
invalid tail, and a whole frame only with a sequence above those in the file. -/
def Sound (j : Journal) (call : AppendCall) : Prop :=
  call.Passes j → ∀ scan, scanPath j.file = .ok scan →
    (call.reached j ≠ [] → scan.hasInvalidTail = false) ∧
      (call.reached j = frame (call.record j) →
        ∀ record ∈ scan.records, record.sequence < j.nextSequence)

/-- The record an append acknowledges. -/
def acknowledges (call : AppendCall) (j : Journal) : Option Record :=
  match (append call.payload call.outcome j).1 with
  | .ok sequence => some ⟨sequence, call.payload⟩
  | .error _ => none

end AppendCall

-- Runs of appends

/-- The sequences of the records increase. -/
def Increasing (records : List Record) : Prop :=
  records.Pairwise fun record record' => record.sequence < record'.sequence

/-- A journal whose file holds records with increasing sequences. -/
structure Intact (j : Journal) (records : List Record) (tail : List UInt8) : Prop where
  holds : Holds j.file records tail
  increasing : Increasing records
  sequence : j.nextSequence ≤ maxSequence

theorem nextSequenceAfter_le (sequence : ℕ) : nextSequenceAfter sequence ≤ maxSequence :=
  Nat.min_le_right _ _

/-- **One sound append** adds nothing but its own record, and adds it when it acknowledges it. -/
theorem Intact.after {j : Journal} {records : List Record} {tail : List UInt8}
    (h : Intact j records tail) {call : AppendCall} (hcall : call.Sound j) :
    ∃ new tail', Intact (call.after j) (records ++ new) tail' ∧
      ∀ record ∈ call.acknowledges j, record ∈ new := by
  by_cases hpasses : call.Passes j
  · have hafter := AppendCall.append_of_passes hpasses
    have hfits : (call.record j).Fits :=
      ⟨Nat.lt_of_le_of_lt h.sequence (by decide), hpasses.1⟩
    obtain ⟨hclean, hahead⟩ := hcall hpasses _ h.holds.scanPath_eq
    have hsequence : (call.after j).nextSequence ≤ maxSequence := by
      unfold AppendCall.after
      rw [hafter]
      split
      · exact nextSequenceAfter_le _
      · exact h.sequence
    have hfile : (call.after j).file = j.file ++ call.reached j := by
      unfold AppendCall.after
      rw [hafter]
      split <;> rfl
    have hclean' : call.reached j ≠ [] → tail = [] := fun hreached =>
      by_contra fun htail => absurd (hclean hreached) (by simp [htail])
    rcases AppendCall.reached_cases call j hfits with hwhole | ⟨hfailed, hpart, htorn⟩
    · -- the whole frame is in the file, acknowledged or not
      have hnil : tail = [] := hclean' (by
        rw [hwhole]
        intro hempty
        have hlength := congrArg List.length hempty
        rw [frame_length, List.length_nil] at hlength
        exact absurd hlength (by show 18 + _ + 4 ≠ 0; omega))
      refine ⟨[call.record j], [], ⟨⟨?_, ?_, .inl rfl, ?_⟩, ?_, hsequence⟩, ?_⟩
      · intro record hrecord
        rcases List.mem_append.mp hrecord with hold | hnew
        · exact h.holds.fits record hold
        · rw [List.mem_singleton.mp hnew]
          exact hfits
      · rw [hfile, hwhole, h.holds.bytes, hnil, List.append_nil, List.append_nil,
          FrameLog.log_append, FrameLog.log_singleton]
      · rw [hfile, hwhole, List.length_append]
        exact hpasses.2
      · refine List.pairwise_append.mpr ⟨h.increasing, List.pairwise_singleton _ _, ?_⟩
        intro record hrecord record' hrecord'
        rw [List.mem_singleton.mp hrecord']
        exact hahead hwhole record hrecord
      · intro record hrecord
        unfold AppendCall.acknowledges at hrecord
        rw [hafter] at hrecord
        split at hrecord
        · next sequence hok =>
          split at hok
          · cases hok
            rw [← Option.some.inj hrecord]
            exact List.mem_singleton_self _
          · cases hok
        · cases hrecord
    · -- a part of the frame is in the file, or nothing
      have htail : FrameLog.Torn frame Record.Fits (tail ++ call.reached j) ∧
          (call.after j).file = FrameLog.log frame records ++ (tail ++ call.reached j) := by
        refine ⟨?_, by rw [hfile, h.holds.bytes, List.append_assoc]⟩
        by_cases hempty : call.reached j = []
        · rw [hempty, List.append_nil]
          exact h.holds.torn
        · rw [hclean' hempty]
          exact htorn
      have hshort : (call.reached j).length ≤ (frame (call.record j)).length := by
        unfold AppendCall.reached
        cases call.outcome with
        | synced => exact Nat.le_refl _
        | unsynced => exact Nat.le_refl _
        | torn written => exact List.length_take_le' _ _
      refine ⟨[], tail ++ call.reached j, ⟨⟨?_, ?_, htail.1, ?_⟩, ?_, hsequence⟩, ?_⟩
      · rw [List.append_nil]
        exact h.holds.fits
      · rw [List.append_nil]
        exact htail.2
      · have hsize := hpasses.2
        rw [hfile, List.length_append]
        omega
      · rw [List.append_nil]
        exact h.increasing
      · intro record hrecord
        unfold AppendCall.acknowledges at hrecord
        rw [hafter, if_neg hfailed] at hrecord
        cases hrecord
  · obtain ⟨e, hrefused⟩ := AppendCall.append_of_not_passes hpasses
    refine ⟨[], tail, ?_, ?_⟩
    · rw [List.append_nil, AppendCall.after, hrefused]
      exact h
    · intro record hrecord
      unfold AppendCall.acknowledges at hrecord
      rw [hrefused] at hrecord
      cases hrecord

/-- The records of the appends of a run that succeeded. -/
def acknowledged (j : Journal) (run : List AppendCall) : List Record :=
  (Runs.calls AppendCall.after j run).filterMap fun c => c.2.acknowledges c.1

/-- **A run of sound appends** adds records in front of a torn tail, all acknowledged ones among
them. -/
theorem Intact.run {j : Journal} {records : List Record} {tail : List UInt8}
    (h : Intact j records tail) {run : List AppendCall}
    (hrun : ∀ c ∈ Runs.calls AppendCall.after j run, c.2.Sound c.1) :
    ∃ new tail', Intact (Runs.final AppendCall.after j run) (records ++ new) tail' ∧
      ∀ record ∈ acknowledged j run, record ∈ new := by
  induction run generalizing j records tail with
  | nil => exact ⟨[], tail, by rwa [List.append_nil], fun record hrecord => nomatch hrecord⟩
  | cons call run ih =>
    obtain ⟨hcall, hrest⟩ := List.forall_mem_cons.mp hrun
    obtain ⟨new, tail', hafter, hacknowledged⟩ := h.after hcall
    obtain ⟨more, tail'', hfinal, hmore⟩ := ih hafter hrest
    refine ⟨new ++ more, tail'', by rwa [← List.append_assoc], fun record hrecord => ?_⟩
    rw [acknowledged, Runs.calls, List.mem_filterMap] at hrecord
    obtain ⟨c, hc, hrecord⟩ := hrecord
    rcases List.mem_cons.mp hc with rfl | hc
    · exact List.mem_append.mpr (.inl (hacknowledged record hrecord))
    · exact List.mem_append.mpr (.inr (hmore record (List.mem_filterMap.mpr ⟨c, hc, hrecord⟩)))

/-- **Acknowledged records survive**: along sound appends to an opened journal with increasing
sequences, the next scan returns every acknowledged record once, and its sequences increase. -/
theorem acknowledged_scanned {file : List UInt8} {j : Journal} {run : List AppendCall}
    (hopen : openJournal file = .ok j)
    (hfile : ∀ scan, scanPath file = .ok scan → Increasing scan.records)
    (hrun : ∀ c ∈ Runs.calls AppendCall.after j run, c.2.Sound c.1) :
    ∃ scan, scanPath (Runs.final AppendCall.after j run).file = .ok scan ∧
      Increasing scan.records ∧ ∀ record ∈ acknowledged j run, scan.records.count record = 1 := by
  obtain ⟨scan, hscan, hholds, hnext⟩ := openJournal_eq_ok hopen
  have hsequence : j.nextSequence ≤ maxSequence := by
    rw [hnext]
    cases scan.records.getLast? with
    | none => exact Nat.zero_le _
    | some record => exact nextSequenceAfter_le _
  have hintact : Intact j scan.records [] := ⟨hholds, hfile scan hscan, hsequence⟩
  obtain ⟨new, tail, hfinal, hacknowledged⟩ := hintact.run hrun
  refine ⟨_, hfinal.holds.scanPath_eq, hfinal.increasing, fun record hrecord => ?_⟩
  have hnodup : (scan.records ++ new).Nodup :=
    hfinal.increasing.imp fun hlt heq => absurd hlt (by rw [heq]; exact Nat.lt_irrefl _)
  exact List.count_eq_one_of_mem hnodup (List.mem_append.mpr (.inr (hacknowledged record hrecord)))

theorem openJournal_nil : openJournal [] = .ok ⟨[], 0⟩ := by
  rw [openJournal, scanPath, if_neg (by decide), scanFrom_nil]
  rfl

/-- A record that is synchronized, then a write that fails at once: the record is scanned. -/
theorem acknowledged_scanned_one :
    ∃ scan, scanPath (Runs.final AppendCall.after ⟨[], 0⟩ [⟨[1], .synced⟩, ⟨[2], .torn 0⟩]).file =
        .ok scan ∧ Increasing scan.records ∧ scan.records.count ⟨0, [1]⟩ = 1 := by
  have hfile : ∀ scan, scanPath [] = .ok scan → scan = ⟨[], 0, false⟩ := by
    intro scan hscan
    rw [scanPath, if_neg (by decide), scanFrom_nil] at hscan
    exact (Except.ok.inj hscan).symm
  have hrun : ∀ c ∈ Runs.calls AppendCall.after ⟨[], 0⟩ [⟨[1], .synced⟩, ⟨[2], .torn 0⟩],
      c.2.Sound c.1 := by
    intro c hc
    rcases List.mem_cons.mp hc with rfl | hc
    · intro _ scan hscan
      rw [hfile scan hscan]
      exact ⟨fun _ => rfl, fun _ record hrecord => nomatch hrecord⟩
    · rw [List.mem_singleton.mp hc]
      exact fun _ scan _ => ⟨fun hreached => absurd rfl hreached, fun hwhole => nomatch hwhole⟩
  obtain ⟨scan, hscan, hincreasing, hacknowledged⟩ := acknowledged_scanned openJournal_nil
    (fun scan hscan => by rw [hfile scan hscan]; exact List.Pairwise.nil) hrun
  exact ⟨scan, hscan, hincreasing, hacknowledged ⟨0, [1]⟩ (by decide)⟩

/-- **Behind a torn frame**: a write that stops after one byte, then an append that succeeds; its
record is not scanned. -/
theorem acknowledged_lost :
    openJournal [] = .ok ⟨[], 0⟩ ∧
      acknowledged ⟨[], 0⟩ [⟨[1], .torn 1⟩, ⟨[2], .synced⟩] = [⟨0, [2]⟩] ∧
      scanPath (Runs.final AppendCall.after ⟨[], 0⟩ [⟨[1], .torn 1⟩, ⟨[2], .synced⟩]).file =
        .ok ⟨[], 0, true⟩ := by
  refine ⟨openJournal_nil, by decide, ?_⟩
  rw [scanPath, if_neg (by decide), scanFrom, if_neg (by decide), if_neg (by decide),
    if_pos (by decide)]

end JournalFile

end InsiderTrader
