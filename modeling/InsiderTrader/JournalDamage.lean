import InsiderTrader.JournalAppend
import InsiderTrader.JournalBursts

/-!
# Damage inside the journal file

Opening a journal truncates the file in front of the first frame that does not
read. Where that frame is not the last one, the intact frames behind it go as
well, unless the damage is not noticed or announces another version.

## Main definitions

- `JournalFile.KeepsLater` — opening fails, or keeps the bytes behind the damage
- `JournalFile.Survives` — the damage is not noticed, or announces another version

## Main results

- `JournalFile.scanFrom_eq_error` — a scan fails at an unsupported version only
- `JournalFile.later_frames_kept_iff` — the damage that loses no later frame
- `JournalFile.burst_truncated` — a journal with a burst error is cut in front of it, or not opened
-/

namespace InsiderTrader

namespace JournalFile

/-- A file of frames, with some bytes in the place of one of them. -/
def damagedFile (before : List Record) (damaged : List UInt8) (after : List Record) : List UInt8 :=
  FrameLog.log frame before ++ (damaged ++ FrameLog.log frame after)

/-- Opening the damaged file fails, or the opened journal has the bytes of all frames behind the
damage in their place. -/
def KeepsLater (before : List Record) (damaged : List UInt8) (after : List Record) : Prop :=
  (∃ e, openJournal (damagedFile before damaged after) = .error e) ∨
    ∃ j, openJournal (damagedFile before damaged after) = .ok j ∧
      j.file.drop ((FrameLog.log frame before).length + damaged.length) = FrameLog.log frame after

/-- Bytes that begin with a header of another version. -/
structure Unsupported (rest : List UInt8) : Prop where
  length : headerLen ≤ rest.length
  magic : rest.take 4 = magic
  version : LittleEndian.value ((rest.drop 4).take 2) ≠ version

/-- The damaged bytes and the frames behind them still read as whole frames, all the way or up to
a header of another version. -/
def Survives (damaged : List UInt8) (after : List Record) : Prop :=
  ∃ new tail, (∀ record ∈ new, record.Fits) ∧
    damaged ++ FrameLog.log frame after = FrameLog.log frame new ++ tail ∧
    (tail = [] ∨ Unsupported tail)

section Scan

variable {offset : ℕ} {records : List Record} {rest : List UInt8}

theorem scanFrom_unsupported (h : Unsupported rest) :
    scanFrom offset records rest = .error (.corrupt offset "unsupported journal version") := by
  have hne : rest ≠ [] := by
    rintro rfl
    exact absurd h.length (by decide)
  rw [scanFrom, if_neg hne, if_neg (Nat.not_lt.mpr h.length), if_neg (not_not.mpr h.magic),
    if_pos h.version]

/-- **A scan that fails** has read whole frames up to a header of another version. -/
theorem scanFrom_eq_error {e : Failure} (h : scanFrom offset records rest = .error e) :
    ∃ new tail, (∀ record ∈ new, record.Fits) ∧ rest = FrameLog.log frame new ++ tail ∧
      Unsupported tail := by
  fun_induction scanFrom offset records rest with
  | case1 => cases h
  | case2 => cases h
  | case3 => cases h
  | case4 offset records rest hne hheader hmagic hversion =>
    exact ⟨[], rest, by simp, rfl, Nat.le_of_not_lt hheader, not_not.mp hmagic, hversion⟩
  | case5 => cases h
  | case6 => cases h
  | case7 offset records rest hne hheader hmagic hversion sequence length frameLen hlong expected
      hcrc ih =>
    obtain ⟨new, tail, hfits, hrest, htail⟩ := ih h
    have hlong' : headerLen + length + trailerLen ≤ rest.length := Nat.le_of_not_lt hlong
    have hframe := frame_recordAt rfl hlong' (not_not.mp hmagic) (not_not.mp hversion)
      (not_not.mp hcrc)
    refine ⟨recordAt rest :: new, tail, ?_, ?_, htail⟩
    · exact List.forall_mem_cons.mpr ⟨recordAt_fits rfl hlong', hfits⟩
    · rw [FrameLog.log_cons, List.append_assoc, ← hrest]
      exact hframe.symm

end Scan

section Open

variable {before after : List Record} {damaged : List UInt8}

theorem openJournal_of_error {file : List UInt8} {e : Failure} (h : scanPath file = .error e) :
    openJournal file = .error e := by
  rw [openJournal, h]
  rfl

theorem openJournal_of_ok {file : List UInt8} {scan : Scan} (h : scanPath file = .ok scan) :
    openJournal file = .ok ⟨if scan.hasInvalidTail then file.take scan.validBytes else file,
      scan.records.getLast?.elim 0 (nextSequenceAfter ·.sequence)⟩ := by
  rw [openJournal, h]
  rfl

/-- The frames in front of the damage are read. -/
theorem scanPath_damagedFile (hbefore : ∀ record ∈ before, record.Fits)
    (hsize : (damagedFile before damaged after).length ≤ maxJournalBytes) :
    scanPath (damagedFile before damaged after) =
      scanFrom (FrameLog.log frame before).length before (damaged ++ FrameLog.log frame after) := by
  rw [scanPath, if_neg (Nat.not_lt.mpr hsize), damagedFile, scanFrom_log hbefore, Nat.zero_add,
    List.nil_append]

theorem damagedFile_length :
    (damagedFile before damaged after).length = (FrameLog.log frame before).length +
      damaged.length + (FrameLog.log frame after).length := by
  rw [damagedFile, List.length_append, List.length_append, Nat.add_assoc]

theorem damagedFile_drop :
    (damagedFile before damaged after).drop ((FrameLog.log frame before).length + damaged.length) =
      FrameLog.log frame after := by
  rw [damagedFile, ← List.append_assoc]
  exact List.drop_left' List.length_append

theorem log_ne_nil (hafter : after ≠ []) : 0 < (FrameLog.log frame after).length := by
  obtain ⟨record, rest, rfl⟩ := List.exists_cons_of_ne_nil hafter
  rw [FrameLog.log_cons, List.length_append, frame_length]
  show 0 < 18 + _ + 4 + _
  omega

/-- **A scan that succeeds** loses a later frame exactly when it leaves a tail. -/
theorem keepsLater_of_ok {scan : Scan} (hafter : after ≠ [])
    (hscan : scanPath (damagedFile before damaged after) = .ok scan)
    (hvalid : scan.hasInvalidTail = true →
      scan.validBytes < (damagedFile before damaged after).length) :
    KeepsLater before damaged after ↔ scan.hasInvalidTail = false := by
  have hopen := openJournal_of_ok hscan
  constructor
  · rintro (⟨e, herror⟩ | ⟨j, hj, hkept⟩)
    · rw [hopen] at herror
      cases herror
    · rw [hopen] at hj
      cases hj
      by_contra htail
      rw [Bool.not_eq_false] at htail
      have hpos := log_ne_nil hafter
      have hlength := congrArg List.length hkept
      have hshort := hvalid htail
      dsimp only at hlength
      rw [damagedFile_length] at hshort
      rw [if_pos htail, List.length_drop, List.length_take, damagedFile_length] at hlength
      omega
  · intro htail
    refine .inr ⟨_, hopen, ?_⟩
    dsimp only
    rw [if_neg (by simp [htail]), damagedFile_drop]

end Open

/-- The damage in front of intact frames that opening the journal does not lose: the file is too
large to be opened, the damage reads as frames, or it reads up to a header of another version. -/
theorem later_frames_kept_iff {before after : List Record} {damaged : List UInt8}
    (hbefore : ∀ record ∈ before, record.Fits) (hafter : after ≠ []) :
    KeepsLater before damaged after ↔
      maxJournalBytes < (damagedFile before damaged after).length ∨ Survives damaged after := by
  by_cases hsize : maxJournalBytes < (damagedFile before damaged after).length
  · exact iff_of_true (.inl ⟨_, openJournal_of_error (if_pos hsize)⟩) (.inl hsize)
  have hscan := scanPath_damagedFile hbefore (Nat.le_of_not_lt hsize)
  rw [or_iff_right hsize]
  cases hresult : scanFrom (FrameLog.log frame before).length before
      (damaged ++ FrameLog.log frame after) with
  | error e =>
    rw [hresult] at hscan
    obtain ⟨new, tail, hfits, hrest, htail⟩ := scanFrom_eq_error hresult
    exact iff_of_true (.inl ⟨e, openJournal_of_error hscan⟩) ⟨new, tail, hfits, hrest, .inr htail⟩
  | ok scan =>
    rw [hresult] at hscan
    obtain ⟨new, tail, hreads⟩ := scanFrom_eq_ok hresult
    rw [keepsLater_of_ok hafter hscan]
    · constructor
      · intro hwhole
        have hnil : tail = [] := by
          by_contra hne
          rw [hreads.tail.mpr hne] at hwhole
          cases hwhole
        exact ⟨new, tail, hreads.fits, hreads.bytes, .inl hnil⟩
      · rintro ⟨new', tail', hfits', hrest', htail'⟩
        rw [hrest', scanFrom_log hfits'] at hresult
        rcases htail' with rfl | hunsupported
        · rw [scanFrom_nil] at hresult
          cases hresult
          rfl
        · rw [scanFrom_unsupported hunsupported] at hresult
          cases hresult
    · intro htail
      have hne := List.length_pos_iff.mpr (hreads.tail.mp htail)
      have hlength := congrArg List.length hreads.bytes
      rw [List.length_append, List.length_append] at hlength
      rw [hreads.validBytes, damagedFile_length]
      omega

/-- **Burst errors** in the body of a frame: a journal with whole frames in front of it and any bytes
behind it opens with exactly the frames in front, or not at all, whatever the error did to the
body, unless it changed the length the header gives. -/
theorem burst_truncated {before : List Record} {record : Record} {error more : List UInt8}
    (hbefore : ∀ record ∈ before, record.Fits) (h : Burst error)
    (hlength : error.length = (content record).length)
    (hheader : LittleEndian.value (((corrupt (content record) error).drop 14).take 4) =
      record.payload.length) :
    let file := FrameLog.log frame before ++ (corrupt (content record) error ++
      (LittleEndian.bytes 4 (crc32c (content record)).toNat ++ more))
    openJournal file = .ok ⟨FrameLog.log frame before,
        before.getLast?.elim 0 (nextSequenceAfter ·.sequence)⟩ ∨
      ∃ e, openJournal file = .error e := by
  intro file
  by_cases hsize : maxJournalBytes < file.length
  · exact .inr ⟨_, openJournal_of_error (if_pos hsize)⟩
  have hscan : scanPath file = scanFrom (FrameLog.log frame before).length before
      (corrupt (content record) error ++
        (LittleEndian.bytes 4 (crc32c (content record)).toNat ++ more)) := by
    rw [scanPath, if_neg hsize, scanFrom_log hbefore, Nat.zero_add, List.nil_append]
  rcases @scanFrom_burst record error more h hlength hheader
      (FrameLog.log frame before).length before with hstop | herror
  · refine .inl ((openJournal_of_ok (hscan.trans hstop)).trans ?_)
    dsimp only
    rw [if_pos rfl, List.take_left' rfl]
  · exact .inr ⟨_, openJournal_of_error (hscan.trans herror)⟩

/-- The lowest bit of the payload of a second frame is changed. -/
theorem burst_truncated_second :
    openJournal (frame ⟨0, [7]⟩ ++ (corrupt (content ⟨1, [2]⟩) (List.replicate 18 0 ++ [1]) ++
        (LittleEndian.bytes 4 (crc32c (content ⟨1, [2]⟩)).toNat ++ frame ⟨2, [3]⟩))) =
          .ok ⟨frame ⟨0, [7]⟩ ++ [], 1⟩ ∨
      ∃ e, openJournal (frame ⟨0, [7]⟩ ++ (corrupt (content ⟨1, [2]⟩) (List.replicate 18 0 ++ [1]) ++
        (LittleEndian.bytes 4 (crc32c (content ⟨1, [2]⟩)).toNat ++ frame ⟨2, [3]⟩))) = .error e := by
  refine @burst_truncated [⟨0, [7]⟩] ⟨1, [2]⟩ (List.replicate 18 0 ++ [1]) (frame ⟨2, [3]⟩) ?_
    ⟨⟨1, by simp, by decide⟩, 144, ?_⟩ rfl (by decide)
  · exact List.forall_mem_singleton.mpr ⟨by decide, by decide⟩
  · intro i hi
    have hlt : i < 152 := (List.getElem?_eq_some_iff.mp hi).1
    have hall : ∀ i < 152, (bits (List.replicate 18 0 ++ [1]))[i]? = some true →
        144 ≤ i ∧ i < 144 + 32 := by decide +kernel
    exact hall i hlt hi

namespace Sample

/-- The frame of the first of two records, with one of its bytes changed. -/
def damagedFrame (place : ℕ) (byte : UInt8) : List UInt8 := (frame ⟨0, [1]⟩).set place byte

end Sample

/-- A first frame that announces version 2 stops the opening. -/
theorem later_frame_kept_version : KeepsLater [] (Sample.damagedFrame 4 2) [⟨1, [2]⟩] := by
  refine (later_frames_kept_iff (by simp) (by simp)).mpr (.inr ?_)
  exact ⟨[], _, by simp, rfl, .inr ⟨by decide, by decide, by decide⟩⟩

/-- A changed byte of the first payload leaves nothing of the second frame. -/
theorem later_frame_lost_payload : ¬KeepsLater [] (Sample.damagedFrame 18 9) [⟨1, [2]⟩] := by
  have hopen : openJournal (damagedFile [] (Sample.damagedFrame 18 9) [⟨1, [2]⟩]) = .ok ⟨[], 0⟩ := by
    have hscan : scanPath (damagedFile [] (Sample.damagedFrame 18 9) [⟨1, [2]⟩]) =
        .ok ⟨[], 0, true⟩ := by
      rw [scanPath, if_neg (by decide), scanFrom, if_neg (by decide), if_neg (by decide),
        if_neg (by decide), if_neg (by decide)]
      dsimp only
      rw [if_neg (by decide), if_pos (by decide +kernel)]
    exact openJournal_of_ok hscan
  rintro (⟨e, herror⟩ | ⟨j, hj, hkept⟩)
  · rw [hopen] at herror
    cases herror
  · rw [hopen] at hj
    cases hj
    exact absurd hkept (by decide)

end JournalFile

end InsiderTrader
