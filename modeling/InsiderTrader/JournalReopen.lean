import InsiderTrader.JournalAppend

/-!
# Reopening a journal that was cut

Payloads that are appended to an empty journal are numbered from zero. However
the file is cut, the scan returns the records whose frames are whole, and the
journal that is opened again goes on with the next number.

## Main definitions

- `JournalFile.numbered` — the records of payloads appended in turn
- `JournalFile.appendAll` — append payloads in turn

## Main results

- `JournalFile.appendAll_eq` — the file of the appended payloads
- `JournalFile.prefix_recovered` — scan, reopening and the next append, for a cut at any byte
-/

namespace InsiderTrader

namespace JournalFile

open Fallible

/-- The records of payloads that are appended in turn, from a sequence on. -/
def numbered (first : ℕ) : List (List UInt8) → List Record
  | [] => []
  | payload :: payloads => ⟨first, payload⟩ :: numbered (first + 1) payloads

/-- Append payloads in turn, each synchronized. -/
def appendAll : List (List UInt8) → Fallible Journal Failure Unit :=
  Fallible.forEach fun payload => Fallible.discard (append payload .synced)

@[simp] theorem numbered_length (first : ℕ) (payloads : List (List UInt8)) :
    (numbered first payloads).length = payloads.length := by
  induction payloads generalizing first with
  | nil => rfl
  | cons payload payloads ih => rw [numbered, List.length_cons, List.length_cons, ih]

/-- The first records are those of the first payloads. -/
theorem numbered_take (first : ℕ) (payloads : List (List UInt8)) (k : ℕ) :
    (numbered first payloads).take k = numbered first (payloads.take k) := by
  induction payloads generalizing first k with
  | nil => rw [List.take_nil, numbered, List.take_nil]
  | cons payload payloads ih =>
    cases k with
    | zero => rfl
    | succ k => rw [numbered, List.take_succ_cons, List.take_succ_cons, numbered, ih]

/-- The last of the records has the last number. -/
theorem numbered_getLast? (first : ℕ) (payloads : List (List UInt8)) :
    ((numbered first payloads).getLast?.elim first fun record => record.sequence + 1) =
      first + payloads.length := by
  induction payloads generalizing first with
  | nil => rfl
  | cons payload payloads ih =>
    have hrest := ih (first + 1)
    rw [numbered, List.getLast?_cons, List.length_cons]
    cases hlast : (numbered (first + 1) payloads).getLast? with
    | none =>
      rw [hlast] at hrest
      simp only [Option.elim_none] at hrest
      simp only [Option.getD_none, Option.elim_some]
      omega
    | some record =>
      rw [hlast] at hrest
      simp only [Option.elim_some] at hrest
      simp only [Option.getD_some, Option.elim_some]
      omega

/-- Every frame takes room, so that there are few records in a file. -/
theorem numbered_length_le (first : ℕ) (payloads : List (List UInt8)) :
    22 * payloads.length ≤ (FrameLog.log frame (numbered first payloads)).length := by
  induction payloads generalizing first with
  | nil => exact Nat.zero_le _
  | cons payload payloads ih =>
    have hrest := ih (first + 1)
    rw [numbered, FrameLog.log_cons, List.length_append, frame_length, List.length_cons]
    show 22 * (payloads.length + 1) ≤ 18 + payload.length + 4 + _
    omega

/-- Records of a file that is within its bound fit their fields. -/
theorem numbered_fits {first : ℕ} {payloads : List (List UInt8)}
    (hfirst : first + payloads.length ≤ maxSequence)
    (htotal : (FrameLog.log frame (numbered first payloads)).length ≤ maxJournalBytes) :
    ∀ record ∈ numbered first payloads, record.Fits := by
  induction payloads generalizing first with
  | nil => exact fun record hrecord => nomatch hrecord
  | cons payload payloads ih =>
    rw [numbered, FrameLog.log_cons, List.length_append, frame_length] at htotal
    rw [List.length_cons] at hfirst
    have hbound : maxJournalBytes < 2 ^ 32 := by decide
    refine List.forall_mem_cons.mpr ⟨⟨?_, ?_⟩, ih (by omega) (by omega)⟩
    · exact Nat.lt_of_le_of_lt (show first ≤ maxSequence by omega) (by decide)
    · dsimp only at htotal ⊢
      omega

/-- **One synchronized append** within the bounds. -/
theorem append_synced {j : Journal} {payload : List UInt8} (hsequence : j.nextSequence < maxSequence)
    (hsize : j.file.length + (frame ⟨j.nextSequence, payload⟩).length ≤ maxJournalBytes) :
    append payload .synced j =
      (.ok j.nextSequence, ⟨j.file ++ frame ⟨j.nextSequence, payload⟩, j.nextSequence + 1⟩) := by
  have hbound : maxJournalBytes < 2 ^ 32 := by decide
  have hframe : (frame ⟨j.nextSequence, payload⟩).length = headerLen + payload.length + trailerLen :=
    frame_length _
  have hpasses : AppendCall.Passes ⟨payload, .synced⟩ j :=
    ⟨show payload.length < 2 ^ 32 by omega, hsize⟩
  have hnext : nextSequenceAfter j.nextSequence = j.nextSequence + 1 := Nat.min_eq_left hsequence
  refine (AppendCall.append_of_passes hpasses).trans ?_
  rw [if_pos rfl, hnext]
  rfl

/-- **The appended file** holds the frames of the numbered payloads. -/
theorem appendAll_eq (payloads : List (List UInt8)) {j : Journal}
    (hsequence : j.nextSequence + payloads.length ≤ maxSequence)
    (htotal : j.file.length + (FrameLog.log frame (numbered j.nextSequence payloads)).length ≤
      maxJournalBytes) :
    appendAll payloads j = (.ok (), ⟨j.file ++ FrameLog.log frame (numbered j.nextSequence payloads),
      j.nextSequence + payloads.length⟩) := by
  induction payloads generalizing j with
  | nil =>
    rw [numbered, FrameLog.log_nil, List.append_nil]
    rfl
  | cons payload payloads ih =>
    rw [numbered, FrameLog.log_cons, List.length_append] at htotal
    rw [List.length_cons] at hsequence
    have happend := append_synced (show j.nextSequence < maxSequence by omega)
      (show j.file.length + (frame ⟨j.nextSequence, payload⟩).length ≤ maxJournalBytes by omega)
    have hdiscard : Fallible.discard (append payload .synced) j =
        (.ok (), ⟨j.file ++ frame ⟨j.nextSequence, payload⟩, j.nextSequence + 1⟩) := by
      rw [Fallible.discard, bind_of_ok happend]
      rfl
    have hrest := ih (j := ⟨j.file ++ frame ⟨j.nextSequence, payload⟩, j.nextSequence + 1⟩)
      (by dsimp only; omega) (by dsimp only; rw [List.length_append]; omega)
    refine (bind_of_ok hdiscard).trans (hrest.trans ?_)
    rw [numbered, FrameLog.log_cons, List.length_cons]
    dsimp only
    rw [List.append_assoc, Nat.add_assoc, Nat.add_comm 1]

/-- **Reopening** keeps the whole frames. -/
theorem Holds.openJournal_eq {file : List UInt8} {records : List Record} {tail : List UInt8}
    (h : Holds file records tail) :
    openJournal file = .ok ⟨FrameLog.log frame records,
      records.getLast?.elim 0 (nextSequenceAfter ·.sequence)⟩ := by
  have hfile : (if decide (tail ≠ []) = true then file.take (FrameLog.log frame records).length
      else file) = FrameLog.log frame records := by
    rw [h.bytes]
    by_cases hnil : tail = []
    · rw [if_neg (by simp [hnil]), hnil, List.append_nil]
    · rw [if_pos (by simp [hnil])]
      exact List.take_left' rfl
  rw [openJournal, h.scanPath_eq]
  show Except.ok (Journal.mk _ _) = _
  rw [hfile]

/-- A journal that is opened on the first payloads goes on with their number. -/
theorem numbered_next {payloads : List (List UInt8)} (h : payloads.length ≤ maxSequence) :
    (numbered 0 payloads).getLast?.elim 0 (nextSequenceAfter ·.sequence) = payloads.length := by
  have hlast := numbered_getLast? 0 payloads
  rw [Nat.zero_add] at hlast
  cases hrecord : (numbered 0 payloads).getLast? with
  | none =>
    rw [hrecord] at hlast
    exact hlast
  | some record =>
    rw [hrecord] at hlast
    simp only [Option.elim_some] at hlast ⊢
    rw [nextSequenceAfter, hlast, Nat.min_eq_left h]

/-- **The next append** to a reopened journal adds its record. -/
theorem append_reopened {payloads : List (List UInt8)} {payload : List UInt8}
    (hcount : payloads.length < maxSequence)
    (hfits : ∀ record ∈ numbered 0 payloads, record.Fits)
    (hsize : (FrameLog.log frame (numbered 0 payloads)).length +
      (frame ⟨payloads.length, payload⟩).length ≤ maxJournalBytes) :
    ∃ j', append payload .synced ⟨FrameLog.log frame (numbered 0 payloads), payloads.length⟩ =
        (.ok payloads.length, j') ∧
      scanPath j'.file =
        .ok ⟨numbered 0 payloads ++ [⟨payloads.length, payload⟩], j'.file.length, false⟩ := by
  refine ⟨_, append_synced hcount hsize, ?_⟩
  have hbound : maxJournalBytes < 2 ^ 32 := by decide
  have hframe : (frame ⟨payloads.length, payload⟩).length = headerLen + payload.length + trailerLen :=
    frame_length _
  have hrecord : Record.Fits ⟨payloads.length, payload⟩ :=
    ⟨Nat.lt_trans hcount (by decide), show payload.length < 2 ^ 32 by omega⟩
  have hlog : FrameLog.log frame (numbered 0 payloads ++ [⟨payloads.length, payload⟩]) =
      FrameLog.log frame (numbered 0 payloads) ++ frame ⟨payloads.length, payload⟩ := by
    rw [FrameLog.log_append, FrameLog.log_singleton]
  have hholds : Holds (FrameLog.log frame (numbered 0 payloads) ++ frame ⟨payloads.length, payload⟩)
      (numbered 0 payloads ++ [⟨payloads.length, payload⟩]) [] := by
    refine ⟨fun record h => ?_, by rw [hlog, List.append_nil], .inl rfl, ?_⟩
    · rcases List.mem_append.mp h with hold | hnew
      · exact hfits record hold
      · rw [List.mem_singleton.mp hnew]
        exact hrecord
    · rw [List.length_append]
      exact hsize
  rw [hholds.scanPath_eq, hlog]
  rfl

/-- **Recovery of a prefix**: of payloads appended to an empty journal, a scan of any prefix of the
file returns the records whose frames lie in it, and the journal that is opened on the prefix goes
on with the next sequence. -/
theorem prefix_recovered {payloads : List (List UInt8)}
    (htotal : (FrameLog.log frame (numbered 0 payloads)).length ≤ maxJournalBytes) :
    ∃ j, appendAll payloads ⟨[], 0⟩ = (.ok (), j) ∧ ∀ n ≤ j.file.length, ∃ k ≤ payloads.length,
      let records := (numbered 0 payloads).take k
      let validBytes := (FrameLog.log frame records).length
      (∀ m ≤ payloads.length,
        m ≤ k ↔ (FrameLog.log frame ((numbered 0 payloads).take m)).length ≤ n) ∧
      scanPath (j.file.take n) = .ok ⟨records, validBytes, decide (validBytes < n)⟩ ∧
      ∃ reopened, openJournal (j.file.take n) = .ok reopened ∧
        ∀ payload, validBytes + (frame ⟨k, payload⟩).length ≤ maxJournalBytes →
          ∃ j', append payload .synced reopened = (.ok k, j') ∧
            scanPath j'.file = .ok ⟨records ++ [⟨k, payload⟩], j'.file.length, false⟩ := by
  have hcount := numbered_length_le 0 payloads
  have hmany : maxJournalBytes < maxSequence := by decide
  have hfits := numbered_fits (by omega) htotal
  refine ⟨⟨FrameLog.log frame (numbered 0 payloads), payloads.length⟩, ?_, fun n hn => ?_⟩
  · have happended := appendAll_eq payloads (j := ⟨[], 0⟩)
      (by dsimp only; omega) (by simpa using htotal)
    rw [happended, List.nil_append, Nat.zero_add]
  · dsimp only at hn ⊢
    obtain ⟨k, hk, tail, htorn, htake, hinside⟩ := FrameLog.take_log frame hfits n
    rw [numbered_length] at hk hinside
    have hfits' : ∀ record ∈ (numbered 0 payloads).take k, record.Fits :=
      fun record h => hfits record (List.mem_of_mem_take h)
    have hcut : ((FrameLog.log frame (numbered 0 payloads)).take n).length = n := by
      rw [List.length_take, Nat.min_eq_left hn]
    have hholds : Holds ((FrameLog.log frame (numbered 0 payloads)).take n)
        ((numbered 0 payloads).take k) tail :=
      ⟨hfits', htake, htorn, by rw [hcut]; omega⟩
    refine ⟨k, hk, hinside, ?_, ?_⟩
    · -- bytes are left behind the last whole frame exactly when the tail is not empty
      have hlength := congrArg List.length htake
      rw [hcut, List.length_append] at hlength
      rw [hholds.scanPath_eq]
      have htail : tail ≠ [] ↔
          (FrameLog.log frame ((numbered 0 payloads).take k)).length < n := by
        rw [← List.length_pos_iff]
        omega
      rw [decide_eq_decide.mpr htail]
    · have hkept : (payloads.take k).length = k := by
        rw [List.length_take, Nat.min_eq_left hk]
      refine ⟨_, hholds.openJournal_eq, fun payload hsize => ?_⟩
      rw [numbered_take] at hfits' hsize ⊢
      rw [numbered_next (by omega), hkept]
      have hsize' : (FrameLog.log frame (numbered 0 (payloads.take k))).length +
          (frame ⟨(payloads.take k).length, payload⟩).length ≤ maxJournalBytes := by
        rw [hkept]
        exact hsize
      have hreopened := append_reopened (by omega) hfits' hsize'
      rwa [hkept] at hreopened

/-- Two payloads, and a cut one byte before the end of the second frame. -/
theorem prefix_recovered_two :
    ∃ j, appendAll [[1], [2, 3]] ⟨[], 0⟩ = (.ok (), j) ∧
      scanPath (j.file.take 46) = .ok ⟨[⟨0, [1]⟩], 23, true⟩ := by
  obtain ⟨j, happend, hcut⟩ := prefix_recovered
    (show (FrameLog.log frame (numbered 0 [[1], [2, 3]])).length ≤ maxJournalBytes by decide)
  obtain rfl : j = (appendAll [[1], [2, 3]] ⟨[], 0⟩).2 := (congrArg Prod.snd happend).symm
  obtain ⟨k, hk, hinside, hscan, -⟩ := hcut 46 (by decide)
  refine ⟨_, happend, hscan.trans ?_⟩
  have hone : 1 ≤ k := (hinside 1 (by decide)).mpr (by decide)
  have htwo : ¬2 ≤ k := fun h => absurd ((hinside 2 (by decide)).mp h) (by decide)
  obtain rfl : k = 1 := by omega
  decide

end JournalFile

end InsiderTrader
