import InsiderTrader.JournalScan
import InsiderTrader.Library.Fallible
import InsiderTrader.Library.Wire

/-!
# The projection file

The bytes of the read model: a header with the number of records, and a frame
with a checksum for each of them. A rebuild writes the file anew; an append adds
a frame and then writes the number. Reading takes slices of the bytes at lengths
that the bytes declare; a slice out of range stops the program.

## Main definitions

- `ProjectionFile.rebuild`, `ProjectionFile.appendRecord` — writing
- `ProjectionFile.readAll` — reading, with the slices that may be out of range
- `ProjectionFile.Within` — records that a projection may hold
- `ProjectionFile.Overruns` — the bytes declare a frame that passes their end

## Main results

- `ProjectionFile.framesFrom_log` — written frames are read
- `ProjectionFile.framesFrom_outOfRange_iff` — where a slice is out of range
- `projection_read_iff` — round trip, and the bytes that stop the program
-/

namespace InsiderTrader

namespace ProjectionFile

open JournalFile (Record crc32c field_append)

def magic : List UInt8 := [0x49, 0x54, 0x52, 0x4D]

def version : ℕ := 1

def headerLen : ℕ := 4 + 2 + 8 + 4

def trailerLen : ℕ := 4

def maxRecords : ℕ := 1000000

def maxPayload : ℕ := 16 * 1024 * 1024

def maxProjectionBytes : ℕ := 256 * 1024 * 1024

/-- Read-model failures. -/
inductive ReadModelError where
  | io
  | corrupt (reason : String)
  | bounds (limit : String)
  deriving DecidableEq

/-- A call fails, or a slice out of range stops the program. -/
inductive Stop where
  | failed (e : ReadModelError)
  | outOfRange
  deriving DecidableEq

/-- The bytes of a projection, where there is a file. -/
abbrev File := Option (List UInt8)

/-- The bytes from `start` to `stop`. -/
def slice (bytes : List UInt8) (start stop : ℕ) : Except Stop (List UInt8) :=
  if start ≤ stop ∧ stop ≤ bytes.length then .ok ((bytes.drop start).take (stop - start))
  else .error .outOfRange

-- Writing

/-- The header of a file, and of a frame: magic, version, a sequence, and a number. -/
def header (sequence number : ℕ) : List UInt8 :=
  magic ++ (LittleEndian.bytes 2 version ++ (LittleEndian.bytes 8 sequence ++
    LittleEndian.bytes 4 number))

/-- The bytes of a record before its checksum. -/
def content (record : Record) : List UInt8 :=
  header record.sequence record.payload.length ++ record.payload

/-- The bytes of a record. -/
def frame (record : Record) : List UInt8 :=
  content record ++ LittleEndian.bytes 4 (crc32c (content record)).toNat

/-- The frames of the records after `cursor`, when `outputBytes` are written before them. -/
def rebuildFrames (cursor outputBytes : ℕ) : List Record → Except ReadModelError (List UInt8)
  | [] => .ok []
  | record :: records =>
    if maxPayload < record.payload.length then .error (.bounds "projection payload")
    else if record.sequence ≤ cursor ∧ cursor ≠ 0 then
      .error (.corrupt "non-monotonic source cursor")
    else if maxProjectionBytes < outputBytes + (frame record).length then
      .error (.bounds "projection bytes")
    else do
      let frames ← rebuildFrames record.sequence (outputBytes + (frame record).length) records
      .ok (frame record ++ frames)

/-- Write a projection of the records; a failure leaves the file as it was. -/
def rebuild (records : List Record) : Fallible File Stop ℕ := do
  Fallible.require (records.length ≤ maxRecords) (.failed (.bounds "projection record count"))
  let frames ← Fallible.ofExcept ((rebuildFrames 0 headerLen records).mapError .failed)
  Fallible.modify fun _ => some (header 0 records.length ++ frames)
  pure (records.getLast?.elim 0 (·.sequence))

-- Reading

/-- The sequence that a frame declares. -/
def sequenceOf (bytes : List UInt8) : ℕ := LittleEndian.value ((bytes.drop 6).take 8)

/-- The payload length that a frame declares, or the number of records that a file does. -/
def lengthOf (bytes : List UInt8) : ℕ := LittleEndian.value ((bytes.drop 14).take 4)

/-- The record of the frame that `rest` begins with, after a record of sequence `previous`. -/
def readFrame (previous : Option ℕ) (rest : List UInt8) : Except Stop Record := do
  if rest.length < headerLen + trailerLen then
    .error (.failed (.corrupt "projection frame"))
  else
    let mark ← slice rest 0 4
    if mark ≠ magic then .error (.failed (.corrupt "projection frame"))
    else
      let sequenceBytes ← slice rest 6 14
      let lengthBytes ← slice rest 14 18
      let sequence := LittleEndian.value sequenceBytes
      let length := LittleEndian.value lengthBytes
      -- the end of the frame is far below 64 bits
      if maxPayload < length then .error (.failed (.bounds "projection frame"))
      else
        let stop := headerLen + length + trailerLen
        let trailer ← slice rest (stop - 4) stop
        let checked ← slice rest 0 (stop - 4)
        if (crc32c checked).toNat ≠ LittleEndian.value trailer ∨ previous.any (sequence ≤ ·) then
          .error (.failed (.corrupt "projection checksum/order"))
        else
          let payload ← slice rest headerLen (stop - 4)
          .ok ⟨sequence, payload⟩

/-- The records of the frames to the end of the file. -/
def framesFrom (previous : Option ℕ) (rest : List UInt8) : Except Stop (List Record) :=
  if rest = [] then .ok []
  else
    match readFrame previous rest with
    | .error e => .error e
    | .ok record =>
      match framesFrom (some record.sequence)
          (rest.drop (headerLen + record.payload.length + trailerLen)) with
      | .error e => .error e
      | .ok records => .ok (record :: records)
termination_by rest.length
decreasing_by
  rw [List.length_drop]
  have hlength := List.length_pos_of_ne_nil ‹_›
  have hheader : 0 < headerLen := by decide
  omega

/-- The records of a projection, all of them verified. -/
def readAll (file : File) : Except Stop (List Record) :=
  match file with
  | none => .error (.failed .io)
  | some bytes =>
    if maxProjectionBytes < bytes.length then .error (.failed (.bounds "projection bytes"))
    else if bytes.length < headerLen then .error (.failed (.corrupt "projection header"))
    else do
      let mark ← slice bytes 0 4
      if mark ≠ magic then .error (.failed (.corrupt "projection header"))
      else
        let versionBytes ← slice bytes 4 6
        if LittleEndian.value versionBytes ≠ version then
          .error (.failed (.corrupt "projection version"))
        else
          let countBytes ← slice bytes 14 18
          let count := LittleEndian.value countBytes
          if maxRecords < count then .error (.failed (.bounds "projection count"))
          else
            let records ← framesFrom none (bytes.drop headerLen)
            if records.length ≠ count then
              .error (.failed (.corrupt "projection count mismatch"))
            else .ok records

/-- Append one record: the frame first, then the number of records. -/
def appendRecord (record : Record) : Fallible File Stop Unit := do
  Fallible.require (record.payload.length ≤ maxPayload) (.failed (.bounds "projection payload"))
  let file ← Fallible.reads id
  let existing ← Fallible.ofExcept (readAll file)
  Fallible.require (¬existing.getLast?.any (record.sequence ≤ ·.sequence))
    (.failed (.corrupt "non-monotonic projection append"))
  Fallible.require (existing.length < maxRecords) (.failed (.bounds "projection record count"))
  let bytes ← Fallible.orFail file (.failed .io)
  Fallible.require (bytes.length + (frame record).length ≤ maxProjectionBytes)
    (.failed (.bounds "projection bytes"))
  Fallible.modify fun _ => some (bytes ++ frame record)
  Fallible.modify (·.map fun bytes =>
    bytes.take 14 ++ (LittleEndian.bytes 4 (existing.length + 1) ++ bytes.drop 18))

-- Bytes that a reader may meet

/-- The bytes are one frame that is read, whatever its version field says. -/
structure Whole (bytes : List UInt8) : Prop where
  size : bytes.length = headerLen + lengthOf bytes + trailerLen
  magic : bytes.take 4 = magic
  bounded : lengthOf bytes ≤ maxPayload
  checksum : (crc32c (bytes.take (headerLen + lengthOf bytes))).toNat =
    LittleEndian.value (bytes.drop (headerLen + lengthOf bytes))

/-- The bytes begin with a frame of a bounded length that passes their end. -/
structure CutOff (rest : List UInt8) : Prop where
  long : headerLen + trailerLen ≤ rest.length
  magic : rest.take 4 = magic
  bounded : lengthOf rest ≤ maxPayload
  passes : rest.length < headerLen + lengthOf rest + trailerLen

/-- The bytes begin with a valid header. -/
structure Opens (bytes : List UInt8) : Prop where
  bounded : bytes.length ≤ maxProjectionBytes
  long : headerLen ≤ bytes.length
  magic : bytes.take 4 = magic
  version : LittleEndian.value ((bytes.drop 4).take 2) = version
  count : lengthOf bytes ≤ maxRecords

/-- The bytes are a valid header, frames in order that are read, and a frame that is cut off. -/
structure Overruns (bytes : List UInt8) : Prop extends Opens bytes where
  frames : ∃ frames rest, bytes.drop headerLen = List.flatten frames ++ rest ∧
    (∀ f ∈ frames, Whole f) ∧ (frames.map sequenceOf).Pairwise (· < ·) ∧ CutOff rest

/-- Records that a projection may hold. -/
structure Within (records : List Record) : Prop where
  increasing : (records.map Record.sequence).Pairwise (· < ·)
  sequence : ∀ record ∈ records, record.sequence < 2 ^ 64
  payload : ∀ record ∈ records, record.payload.length ≤ maxPayload
  count : records.length ≤ maxRecords
  bytes : headerLen + (FrameLog.log frame records).length ≤ maxProjectionBytes

variable {bytes f more rest : List UInt8} {previous : Option ℕ} {record : Record}
  {records : List Record}

-- Slices and fields

theorem slice_of_le {start stop : ℕ} (h : start ≤ stop) (hstop : stop ≤ bytes.length) :
    slice bytes start stop = .ok ((bytes.drop start).take (stop - start)) :=
  if_pos ⟨h, hstop⟩

theorem slice_outOfRange {start stop : ℕ} (hstop : bytes.length < stop) :
    slice bytes start stop = .error .outOfRange :=
  if_neg fun h => absurd h.2 (Nat.not_le.mpr hstop)

/-- A field inside the first of two parts. -/
theorem field_left {m k : ℕ} (h : m + k ≤ f.length) :
    ((f ++ more).drop m).take k = (f.drop m).take k := by
  rw [List.drop_append_of_le_length (by omega), List.take_append_of_le_length]
  rw [List.length_drop]
  omega

-- Reading one frame

/-- The bytes begin with the header of a frame of a bounded length. -/
structure Headed (rest : List UInt8) : Prop where
  long : headerLen + trailerLen ≤ rest.length
  magic : rest.take 4 = magic
  bounded : lengthOf rest ≤ maxPayload

/-- **Under a header** the frame is cut off, fails its checks, or is read. -/
theorem readFrame_of_headed (h : Headed rest) (previous : Option ℕ) :
    readFrame previous rest =
      if rest.length < headerLen + lengthOf rest + trailerLen then .error .outOfRange
      else if (crc32c (rest.take (headerLen + lengthOf rest))).toNat ≠
          LittleEndian.value ((rest.drop (headerLen + lengthOf rest)).take 4) ∨
            previous.any (sequenceOf rest ≤ ·) then
        .error (.failed (.corrupt "projection checksum/order"))
      else .ok ⟨sequenceOf rest, (rest.drop headerLen).take (lengthOf rest)⟩ := by
  have hlong : 22 ≤ rest.length := h.long
  have hmark : slice rest 0 4 = .ok (rest.take 4) := slice_of_le (by omega) (by omega)
  have hsequence : slice rest 6 14 = .ok ((rest.drop 6).take 8) :=
    slice_of_le (by omega) (by omega)
  have hlength : slice rest 14 18 = .ok ((rest.drop 14).take 4) :=
    slice_of_le (by omega) (by omega)
  rw [readFrame, if_neg (Nat.not_lt.mpr h.long), hmark, Wire.ok_bind,
    if_neg (not_not.mpr h.magic), hsequence, Wire.ok_bind, hlength, Wire.ok_bind]
  dsimp only
  rw [← lengthOf, ← sequenceOf, if_neg (Nat.not_lt.mpr h.bounded)]
  have hstop : headerLen + lengthOf rest + trailerLen - 4 = headerLen + lengthOf rest := rfl
  rw [hstop]
  by_cases hshort : rest.length < headerLen + lengthOf rest + trailerLen
  · rw [if_pos hshort, slice_outOfRange hshort]
    rfl
  have hend : headerLen + lengthOf rest + trailerLen ≤ rest.length := Nat.not_lt.mp hshort
  have htrailer : slice rest (headerLen + lengthOf rest) (headerLen + lengthOf rest + trailerLen) =
      .ok ((rest.drop (headerLen + lengthOf rest)).take 4) := by
    rw [slice_of_le (Nat.le_add_right _ _) hend, Nat.add_sub_cancel_left]
    rfl
  have hchecked : slice rest 0 (headerLen + lengthOf rest) =
      .ok (rest.take (headerLen + lengthOf rest)) := slice_of_le (Nat.zero_le _) (by omega)
  have hpayload : slice rest headerLen (headerLen + lengthOf rest) =
      .ok ((rest.drop headerLen).take (lengthOf rest)) := by
    rw [slice_of_le (Nat.le_add_right _ _) (by omega), Nat.add_sub_cancel_left]
  rw [if_neg hshort, htrailer, Wire.ok_bind, hchecked, Wire.ok_bind, hpayload, Wire.ok_bind]

/-- Without such a header, reading fails. -/
theorem readFrame_of_not_headed (h : ¬Headed rest) (previous : Option ℕ) :
    ∃ e, readFrame previous rest = .error (.failed e) := by
  by_cases hlong : rest.length < headerLen + trailerLen
  · exact ⟨_, by rw [readFrame, if_pos hlong]⟩
  have hlen : 22 ≤ rest.length := Nat.not_lt.mp hlong
  have hmark : slice rest 0 4 = .ok (rest.take 4) := slice_of_le (by omega) (by omega)
  have hsequence : slice rest 6 14 = .ok ((rest.drop 6).take 8) :=
    slice_of_le (by omega) (by omega)
  have hlength : slice rest 14 18 = .ok ((rest.drop 14).take 4) :=
    slice_of_le (by omega) (by omega)
  by_cases hmagic : rest.take 4 = magic
  swap
  · exact ⟨_, by rw [readFrame, if_neg hlong, hmark, Wire.ok_bind, if_pos hmagic]⟩
  by_cases hbounded : lengthOf rest ≤ maxPayload
  · exact absurd ⟨hlen, hmagic, hbounded⟩ h
  · refine ⟨.bounds "projection frame", ?_⟩
    rw [readFrame, if_neg hlong, hmark, Wire.ok_bind, if_neg (not_not.mpr hmagic), hsequence,
      Wire.ok_bind, hlength, Wire.ok_bind]
    dsimp only
    rw [← lengthOf, if_pos (Nat.lt_of_not_le hbounded)]

theorem CutOff.headed (h : CutOff rest) : Headed rest := ⟨h.long, h.magic, h.bounded⟩

theorem readFrame_cutOff (h : CutOff rest) : readFrame previous rest = .error .outOfRange := by
  rw [readFrame_of_headed h.headed, if_pos h.passes]

/-- The record of a frame. -/
def recordOf (f : List UInt8) : Record := ⟨sequenceOf f, (f.drop headerLen).take (lengthOf f)⟩

namespace Whole

theorem length_le (h : Whole f) : 22 ≤ f.length := by
  rw [h.size]
  show 22 ≤ 18 + lengthOf f + 4
  omega

theorem lengthOf_append (h : Whole f) : lengthOf (f ++ more) = lengthOf f := by
  have hlength := h.length_le
  rw [lengthOf, field_left (by omega), lengthOf]

theorem sequenceOf_append (h : Whole f) : sequenceOf (f ++ more) = sequenceOf f := by
  have hlength := h.length_le
  rw [sequenceOf, field_left (by omega), sequenceOf]

theorem headed_append (h : Whole f) : Headed (f ++ more) where
  long := by
    have hlength := h.length_le
    rw [List.length_append]
    exact Nat.le_add_right_of_le hlength
  magic := by
    have hlength := h.length_le
    rw [List.take_append_of_le_length (by omega)]
    exact h.magic
  bounded := h.lengthOf_append ▸ h.bounded

theorem payload_length (h : Whole f) : (recordOf f).payload.length = lengthOf f := by
  have hsize : f.length = 18 + lengthOf f + 4 := h.size
  rw [recordOf, List.length_take, List.length_drop]
  show min (lengthOf f) (f.length - 18) = lengthOf f
  omega

/-- **A frame in order** is read. -/
theorem readFrame_append (h : Whole f) (horder : ∀ last ∈ previous, last < sequenceOf f) :
    readFrame previous (f ++ more) = .ok (recordOf f) := by
  have hsize : f.length = headerLen + lengthOf f + 4 := h.size
  have hshort : ¬(f ++ more).length < headerLen + lengthOf (f ++ more) + trailerLen := by
    rw [h.lengthOf_append, List.length_append]
    show ¬f.length + more.length < headerLen + lengthOf f + 4
    omega
  rw [readFrame_of_headed h.headed_append, if_neg hshort, h.lengthOf_append, h.sequenceOf_append,
    List.take_append_of_le_length (by omega), field_left (by omega), if_neg]
  · rw [field_left (by omega)]
    rfl
  · rintro (hchecksum | hlate)
    · refine hchecksum (h.checksum.trans ?_)
      rw [List.take_of_length_le]
      rw [List.length_drop]
      omega
    · cases previous with
      | none => cases hlate
      | some last => exact absurd (horder last rfl) (Nat.not_lt.mpr (of_decide_eq_true hlate))

end Whole

/-- What is read is a frame in order. -/
theorem readFrame_eq_ok (h : readFrame previous rest = .ok record) :
    ∃ f more, rest = f ++ more ∧ Whole f ∧ (∀ last ∈ previous, last < sequenceOf f) ∧
      record = recordOf f := by
  by_cases hheaded : Headed rest
  swap
  · obtain ⟨e, he⟩ := readFrame_of_not_headed hheaded previous
    rw [he] at h
    cases h
  rw [readFrame_of_headed hheaded] at h
  split at h
  · cases h
  next hshort =>
  split at h
  · cases h
  next hchecks =>
  obtain ⟨hchecksum, horder⟩ := not_or.mp hchecks
  have hlength : 18 + lengthOf rest + 4 ≤ rest.length := Nat.not_lt.mp hshort
  have hlengthOf : lengthOf (rest.take (headerLen + lengthOf rest + trailerLen)) =
      lengthOf rest := by
    rw [lengthOf, JournalFile.field_take]
    · rfl
    · show 14 + 4 ≤ 18 + lengthOf rest + 4
      omega
  have hsequenceOf : sequenceOf (rest.take (headerLen + lengthOf rest + trailerLen)) =
      sequenceOf rest := by
    rw [sequenceOf, JournalFile.field_take]
    · rfl
    · show 6 + 8 ≤ 18 + lengthOf rest + 4
      omega
  refine ⟨rest.take (headerLen + lengthOf rest + trailerLen), _, (List.take_append_drop ..).symm,
    ⟨?_, ?_, ?_, ?_⟩, ?_, ?_⟩
  · rw [hlengthOf, List.length_take]
    exact Nat.min_eq_left hlength
  · rw [List.take_take, Nat.min_eq_left]
    · exact hheaded.magic
    · show 4 ≤ 18 + lengthOf rest + 4
      omega
  · rw [hlengthOf]
    exact hheaded.bounded
  · rw [hlengthOf, List.take_take, Nat.min_eq_left (Nat.le_add_right _ _), not_not.mp hchecksum,
      List.drop_take, Nat.add_sub_cancel_left]
    rfl
  · intro last hlast
    rw [hsequenceOf]
    refine Nat.lt_of_not_le fun hle => horder ?_
    rw [Option.mem_def.mp hlast]
    exact decide_eq_true hle
  · obtain rfl := Except.ok.inj h
    rw [recordOf, hsequenceOf, hlengthOf, JournalFile.field_take (Nat.le_add_right _ _)]

-- Reading to the end

theorem framesFrom_nil (previous : Option ℕ) : framesFrom previous [] = .ok [] := by
  rw [framesFrom, if_pos rfl]

theorem framesFrom_of_error {e : Stop} (hne : rest ≠ [])
    (h : readFrame previous rest = .error e) : framesFrom previous rest = .error e := by
  rw [framesFrom, if_neg hne, h]

/-- **After a frame in order** come the frames behind it. -/
theorem framesFrom_append (h : Whole f) (horder : ∀ last ∈ previous, last < sequenceOf f) :
    framesFrom previous (f ++ more) =
      (framesFrom (some (sequenceOf f)) more).map (recordOf f :: ·) := by
  have hlength := h.length_le
  have hne : f ++ more ≠ [] := by
    intro hnil
    rw [(List.append_eq_nil_iff.mp hnil).1] at hlength
    exact absurd hlength (by decide)
  rw [framesFrom, if_neg hne, h.readFrame_append horder]
  dsimp only
  rw [h.payload_length, ← h.size, List.drop_left]
  show (match framesFrom (some (sequenceOf f)) more with
    | .error e => Except.error e
    | .ok records => .ok (recordOf f :: records)) = _
  cases framesFrom (some (sequenceOf f)) more <;> rfl

/-- **A slice is out of range** exactly behind frames in order, where a frame is cut off. -/
theorem framesFrom_outOfRange_iff : framesFrom previous rest = .error .outOfRange ↔
    ∃ frames tail, rest = List.flatten frames ++ tail ∧ (∀ f ∈ frames, Whole f) ∧
      (previous.toList ++ frames.map sequenceOf).Pairwise (· < ·) ∧ CutOff tail := by
  constructor
  · intro h
    induction hn : rest.length using Nat.strong_induction_on generalizing previous rest with
    | _ n ih =>
    have hne : rest ≠ [] := by
      rintro rfl
      rw [framesFrom_nil] at h
      cases h
    rcases hread : readFrame previous rest with e | record
    · rw [framesFrom_of_error hne hread] at h
      obtain rfl := Except.error.inj h
      have hheaded : Headed rest := by
        by_contra hnot
        obtain ⟨e, he⟩ := readFrame_of_not_headed hnot previous
        rw [he] at hread
        cases hread
      rw [readFrame_of_headed hheaded] at hread
      split at hread
      · refine ⟨[], rest, rfl, by simp, ?_, hheaded.long, hheaded.magic, hheaded.bounded, ‹_›⟩
        cases previous <;> simp
      · split at hread <;> cases hread
    · obtain ⟨f, more, rfl, hwhole, horder, rfl⟩ := readFrame_eq_ok hread
      have hlength := hwhole.length_le
      rw [framesFrom_append hwhole horder] at h
      have hmore : framesFrom (some (sequenceOf f)) more = .error .outOfRange := by
        cases hrest : framesFrom (some (sequenceOf f)) more with
        | ok records =>
          rw [hrest] at h
          cases h
        | error e =>
          rw [hrest] at h
          exact h
      rw [List.length_append] at hn
      obtain ⟨frames, tail, rfl, hall, hsorted, hcut⟩ := ih more.length (by omega) hmore rfl
      refine ⟨f :: frames, tail, by simp, List.forall_mem_cons.mpr ⟨hwhole, hall⟩, ?_, hcut⟩
      cases previous with
      | none => exact hsorted
      | some last =>
        have hlast : last < sequenceOf f := horder last rfl
        refine List.pairwise_cons.mpr ⟨fun s hs => ?_, hsorted⟩
        obtain rfl | hs := List.mem_cons.mp hs
        · exact hlast
        · exact hlast.trans ((List.pairwise_cons.mp hsorted).1 s hs)
  · rintro ⟨frames, tail, rfl, hall, hsorted, hcut⟩
    induction frames generalizing previous with
    | nil =>
      have hlong : 22 ≤ tail.length := hcut.long
      refine framesFrom_of_error ?_ (readFrame_cutOff hcut)
      rintro rfl
      exact absurd hlong (by decide)
    | cons f frames ih =>
      obtain ⟨hwhole, hall⟩ := List.forall_mem_cons.mp hall
      obtain ⟨-, hframes, hcross⟩ := List.pairwise_append.mp hsorted
      have horder : ∀ last ∈ previous, last < sequenceOf f := fun last hlast =>
        hcross last (Option.mem_toList.mpr hlast) _ (by simp)
      have hrest : framesFrom (some (sequenceOf f)) (frames.flatten ++ tail) = .error .outOfRange :=
        ih hall hframes
      rw [List.flatten_cons, List.append_assoc, framesFrom_append hwhole horder, hrest]
      rfl

-- Reading a file

/-- Under a valid header the frames are read, and counted. -/
theorem readAll_of_opens (h : Opens bytes) :
    readAll (some bytes) = framesFrom none (bytes.drop headerLen) >>= fun records =>
      if records.length ≠ lengthOf bytes then
        .error (.failed (.corrupt "projection count mismatch"))
      else .ok records := by
  have hlong : 18 ≤ bytes.length := h.long
  have hmark : slice bytes 0 4 = .ok (bytes.take 4) := slice_of_le (by omega) (by omega)
  have hversion : slice bytes 4 6 = .ok ((bytes.drop 4).take 2) :=
    slice_of_le (by omega) (by omega)
  have hcount : slice bytes 14 18 = .ok ((bytes.drop 14).take 4) :=
    slice_of_le (by omega) (by omega)
  rw [readAll]
  dsimp only
  rw [if_neg (Nat.not_lt.mpr h.bounded), if_neg (Nat.not_lt.mpr h.long), hmark, Wire.ok_bind,
    if_neg (not_not.mpr h.magic), hversion, Wire.ok_bind, if_neg (not_not.mpr h.version), hcount,
    Wire.ok_bind, ← lengthOf, if_neg (Nat.not_lt.mpr h.count)]

/-- Without a valid header, reading fails. -/
theorem readAll_of_not_opens (h : ¬Opens bytes) :
    ∃ e, readAll (some bytes) = .error (.failed e) := by
  rw [readAll]
  dsimp only
  by_cases hbounded : maxProjectionBytes < bytes.length
  · exact ⟨_, if_pos hbounded⟩
  rw [if_neg hbounded]
  by_cases hshort : bytes.length < headerLen
  · exact ⟨_, if_pos hshort⟩
  have hlong : 18 ≤ bytes.length := Nat.not_lt.mp hshort
  have hmark : slice bytes 0 4 = .ok (bytes.take 4) := slice_of_le (by omega) (by omega)
  have hversion : slice bytes 4 6 = .ok ((bytes.drop 4).take 2) :=
    slice_of_le (by omega) (by omega)
  have hcount : slice bytes 14 18 = .ok ((bytes.drop 14).take 4) :=
    slice_of_le (by omega) (by omega)
  rw [if_neg hshort, hmark, Wire.ok_bind]
  by_cases hmagic : bytes.take 4 = magic
  swap
  · exact ⟨_, if_pos hmagic⟩
  rw [if_neg (not_not.mpr hmagic), hversion, Wire.ok_bind]
  by_cases hsame : LittleEndian.value ((bytes.drop 4).take 2) = version
  swap
  · exact ⟨_, if_pos hsame⟩
  rw [if_neg (not_not.mpr hsame), hcount, Wire.ok_bind, ← lengthOf]
  by_cases hmany : maxRecords < lengthOf bytes
  · exact ⟨_, if_pos hmany⟩
  · exact absurd ⟨Nat.not_lt.mp hbounded, hlong, hmagic, hsame, Nat.not_lt.mp hmany⟩ h

/-- **The bytes that stop the reader**. -/
theorem readAll_outOfRange_iff : readAll (some bytes) = .error .outOfRange ↔ Overruns bytes := by
  by_cases hopens : Opens bytes
  swap
  · obtain ⟨e, he⟩ := readAll_of_not_opens hopens
    refine iff_of_false (fun h => ?_) fun h => hopens h.toOpens
    rw [he] at h
    cases h
  rw [readAll_of_opens hopens]
  have hframes : Overruns bytes ↔ framesFrom none (bytes.drop headerLen) = .error .outOfRange := by
    rw [framesFrom_outOfRange_iff]
    exact ⟨fun h => h.frames, fun h => ⟨hopens, h⟩⟩
  rw [hframes]
  cases framesFrom none (bytes.drop headerLen) with
  | error e => exact Iff.rfl
  | ok records =>
    refine iff_of_false (fun h => ?_) fun h => ?_
    · rw [Wire.ok_bind] at h
      split at h <;> cases h
    · cases h

-- Reading what was written

theorem header_length (sequence number : ℕ) : (header sequence number).length = headerLen := by
  simp only [header, List.length_append, LittleEndian.bytes_length]
  rfl

theorem content_length (record : Record) :
    (content record).length = headerLen + record.payload.length := by
  rw [content, List.length_append, header_length]

/-- The fields of a header. -/
theorem header_append (sequence number : ℕ) (more : List UInt8) :
    (header sequence number ++ more).take 4 = magic ∧
      ((header sequence number ++ more).drop 4).take 2 = LittleEndian.bytes 2 version ∧
      ((header sequence number ++ more).drop 6).take 8 = LittleEndian.bytes 8 sequence ∧
      ((header sequence number ++ more).drop 14).take 4 = LittleEndian.bytes 4 number ∧
      (header sequence number ++ more).drop 18 = more := by
  have hfields : header sequence number ++ more = magic ++ (LittleEndian.bytes 2 version ++
      (LittleEndian.bytes 8 sequence ++ (LittleEndian.bytes 4 number ++ more))) := by
    simp only [header, List.append_assoc]
  rw [hfields]
  refine ⟨List.take_left' rfl, field_append rfl (LittleEndian.bytes_length 2 _), ?_, ?_, ?_⟩
  · rw [← List.append_assoc magic]
    exact field_append rfl (LittleEndian.bytes_length 8 _)
  · rw [← List.append_assoc magic, ← List.append_assoc (magic ++ _)]
    refine field_append ?_ (LittleEndian.bytes_length 4 _)
    simp only [List.length_append, LittleEndian.bytes_length]
    rfl
  · rw [← hfields]
    exact List.drop_left' (header_length sequence number)

/-- **A written frame** is read as its record. -/
theorem whole_frame (hsequence : record.sequence < 2 ^ 64)
    (hpayload : record.payload.length ≤ maxPayload) :
    Whole (frame record) ∧ recordOf (frame record) = record := by
  have hfits : record.payload.length < 256 ^ 4 := lt_of_le_of_lt hpayload (by decide)
  have hframe : frame record = header record.sequence record.payload.length ++
      (record.payload ++ LittleEndian.bytes 4 (crc32c (content record)).toNat) := by
    rw [frame, content, List.append_assoc]
  obtain ⟨hmagic, -, hseq, hlen, hdrop⟩ := header_append record.sequence record.payload.length
    (record.payload ++ LittleEndian.bytes 4 (crc32c (content record)).toNat)
  rw [← hframe] at hmagic hseq hlen hdrop
  have hlengthOf : lengthOf (frame record) = record.payload.length := by
    rw [lengthOf, hlen, LittleEndian.value_bytes hfits]
  have hsequenceOf : sequenceOf (frame record) = record.sequence := by
    rw [sequenceOf, hseq, LittleEndian.value_bytes hsequence]
  refine ⟨⟨?_, hmagic, hlengthOf ▸ hpayload, ?_⟩, ?_⟩
  · rw [hlengthOf, frame, List.length_append, content_length, LittleEndian.bytes_length]
    rfl
  · rw [hlengthOf, frame, List.take_left' (content_length record),
      List.drop_left' (content_length record), LittleEndian.value_bytes]
    exact (crc32c (content record)).toNat_lt
  · rw [recordOf, hsequenceOf, hlengthOf, show headerLen = 18 from rfl, hdrop, List.take_left]

/-- **Written frames are read**, in their order. -/
theorem framesFrom_log (hsequence : ∀ record ∈ records, record.sequence < 2 ^ 64)
    (hpayload : ∀ record ∈ records, record.payload.length ≤ maxPayload)
    (hincreasing : (previous.toList ++ records.map Record.sequence).Pairwise (· < ·)) :
    framesFrom previous (FrameLog.log frame records) = .ok records := by
  induction records generalizing previous with
  | nil => exact framesFrom_nil previous
  | cons record records ih =>
    obtain ⟨hrecord, hsequence⟩ := List.forall_mem_cons.mp hsequence
    obtain ⟨hsize, hpayload⟩ := List.forall_mem_cons.mp hpayload
    obtain ⟨hwhole, hsame⟩ := whole_frame hrecord hsize
    have hnumber : (recordOf (frame record)).sequence = record.sequence := by rw [hsame]
    change sequenceOf (frame record) = record.sequence at hnumber
    obtain ⟨-, hrest, hcross⟩ := List.pairwise_append.mp hincreasing
    have horder : ∀ last ∈ previous, last < sequenceOf (frame record) := fun last hlast => by
      rw [hnumber]
      exact hcross last (Option.mem_toList.mpr hlast) record.sequence (by simp)
    have hread : framesFrom (some record.sequence) (FrameLog.log frame records) = .ok records :=
      ih hsequence hpayload hrest
    rw [FrameLog.log_cons, framesFrom_append hwhole horder, hnumber, hread, hsame]
    rfl

/-- A file of frames and their number. -/
def fileOf (records : List Record) : List UInt8 :=
  header 0 records.length ++ FrameLog.log frame records

theorem readAll_fileOf (h : Within records) : readAll (some (fileOf records)) = .ok records := by
  have hnumber : records.length < 256 ^ 4 := lt_of_le_of_lt h.count (by decide)
  obtain ⟨hmagic, hversion, -, hcount, hframes⟩ :=
    header_append 0 records.length (FrameLog.log frame records)
  have hlengthOf : lengthOf (fileOf records) = records.length := by
    rw [lengthOf, fileOf, hcount, LittleEndian.value_bytes hnumber]
  have hopens : Opens (fileOf records) := by
    refine ⟨?_, ?_, hmagic, ?_, hlengthOf ▸ h.count⟩
    · rw [fileOf, List.length_append, header_length]
      exact h.bytes
    · rw [fileOf, List.length_append, header_length]
      exact Nat.le_add_right _ _
    · rw [fileOf, hversion, LittleEndian.value_bytes (by decide)]
  have hread : framesFrom none (FrameLog.log frame records) = .ok records :=
    framesFrom_log h.sequence h.payload h.increasing
  rw [readAll_of_opens hopens, hlengthOf, show headerLen = 18 from rfl, fileOf, hframes, hread,
    Wire.ok_bind, if_neg (not_not.mpr rfl)]

/-- The records before a split fit where all of them do. -/
theorem Within.of_append {later : List Record} (h : Within (records ++ later)) :
    Within records where
  increasing := (List.pairwise_append.mp (List.map_append ▸ h.increasing)).1
  sequence record hrecord := h.sequence record (List.mem_append_left later hrecord)
  payload record hrecord := h.payload record (List.mem_append_left later hrecord)
  count := by
    have hcount := h.count
    rw [List.length_append] at hcount
    omega
  bytes := by
    have hbytes := h.bytes
    rw [FrameLog.log_append, List.length_append] at hbytes
    omega

/-- The checks of a rebuild pass for increasing records that fit. -/
theorem rebuildFrames_eq {cursor outputBytes : ℕ}
    (hpayload : ∀ record ∈ records, record.payload.length ≤ maxPayload)
    (hincreasing : (cursor :: records.map Record.sequence).Pairwise (· < ·) ∨
      cursor = 0 ∧ (records.map Record.sequence).Pairwise (· < ·))
    (hbytes : outputBytes + (FrameLog.log frame records).length ≤ maxProjectionBytes) :
    rebuildFrames cursor outputBytes records = .ok (FrameLog.log frame records) := by
  induction records generalizing cursor outputBytes with
  | nil => rfl
  | cons record records ih =>
    obtain ⟨hsize, hpayload⟩ := List.forall_mem_cons.mp hpayload
    rw [FrameLog.log_cons, List.length_append] at hbytes
    have hrest : (record.sequence :: records.map Record.sequence).Pairwise (· < ·) := by
      obtain h | ⟨-, h⟩ := hincreasing
      · exact (List.pairwise_cons.mp h).2
      · exact h
    have horder : ¬(record.sequence ≤ cursor ∧ cursor ≠ 0) := by
      rintro ⟨hle, hne⟩
      obtain h | ⟨hzero, -⟩ := hincreasing
      · exact absurd ((List.pairwise_cons.mp h).1 record.sequence (by simp)) (Nat.not_lt.mpr hle)
      · exact hne hzero
    rw [rebuildFrames, if_neg (Nat.not_lt.mpr hsize), if_neg horder, if_neg (by omega),
      ih hpayload (.inl hrest) (by omega), FrameLog.log_cons]
    rfl

theorem rebuild_eq (h : Within records) (old : File) :
    ∃ newest, rebuild records old = (.ok newest, some (fileOf records)) := by
  refine ⟨records.getLast?.elim 0 (·.sequence), ?_⟩
  unfold rebuild
  have hframes : (rebuildFrames 0 headerLen records).mapError Stop.failed =
      .ok (FrameLog.log frame records) := by
    rw [rebuildFrames_eq h.payload (.inr ⟨rfl, h.increasing⟩) h.bytes]
    rfl
  rw [Fallible.require_bind, if_pos h.count, Fallible.ofExcept_bind_ok hframes,
    Fallible.modify_bind]
  rfl

/-- **An append** leaves the file of one more record. -/
theorem appendRecord_eq (h : Within (records ++ [record])) :
    appendRecord record (some (fileOf records)) =
      (.ok (), some (fileOf (records ++ [record]))) := by
  have hlater : ¬records.getLast?.any (record.sequence ≤ ·.sequence) = true := by
    cases hlast : records.getLast? with
    | none => exact Bool.false_ne_true
    | some last =>
      have hlt := (List.pairwise_append.mp (List.map_append ▸ h.increasing)).2.2 last.sequence
        (List.mem_map_of_mem (List.mem_of_getLast? hlast)) record.sequence (by simp)
      exact fun hle => absurd (of_decide_eq_true hle) (Nat.not_le.mpr hlt)
  have hcount := h.count
  rw [List.length_append, List.length_singleton] at hcount
  have hbytes := h.bytes
  rw [FrameLog.log_append, List.length_append, FrameLog.log_singleton] at hbytes
  have hsize : (fileOf records).length + (frame record).length ≤ maxProjectionBytes := by
    rw [fileOf, List.length_append, header_length]
    omega
  unfold appendRecord
  rw [Fallible.require_bind, if_pos (h.payload record (by simp)), Fallible.reads_bind, id,
    readAll_fileOf h.of_append, Fallible.ofExcept_bind_ok rfl, Fallible.require_bind,
    if_pos hlater, Fallible.require_bind, if_pos (by omega), Fallible.orFail_bind_some rfl,
    Fallible.require_bind, if_pos hsize, Fallible.modify_bind]
  refine Prod.ext rfl (congrArg some ?_)
  show (fileOf records ++ frame record).take 14 ++ (LittleEndian.bytes 4 (records.length + 1) ++
    (fileOf records ++ frame record).drop 18) = fileOf (records ++ [record])
  rw [fileOf, fileOf, List.length_append, List.length_singleton, FrameLog.log_append,
    FrameLog.log_singleton, List.append_assoc]
  -- the number stands in the last four bytes of the header
  obtain ⟨before, hbefore, hhead⟩ : ∃ before : List UInt8, before.length = 14 ∧
      ∀ number, header 0 number = before ++ LittleEndian.bytes 4 number :=
    ⟨magic ++ (LittleEndian.bytes 2 version ++ LittleEndian.bytes 8 0), rfl, fun number => by
      simp only [header, List.append_assoc]⟩
  rw [(header_append 0 records.length _).2.2.2.2, hhead (records.length + 1), hhead records.length,
    List.append_assoc, List.take_left' hbefore, List.append_assoc]

/-- Appends go on where a rebuild, or an earlier append, has stopped. -/
theorem appendAll_eq {later : List Record} (h : Within (records ++ later)) :
    Fallible.forEach appendRecord later (some (fileOf records)) =
      (.ok (), some (fileOf (records ++ later))) := by
  induction later generalizing records with
  | nil =>
    rw [List.append_nil]
    rfl
  | cons record later ih =>
    have hwhole : records ++ record :: later = records ++ [record] ++ later := by simp
    rw [hwhole] at h ⊢
    exact (Fallible.bind_of_ok (appendRecord_eq h.of_append)).trans (ih h)

end ProjectionFile

open ProjectionFile

/-- **What was written is read**, and exactly the bytes that declare a frame past their end stop
the reader. -/
theorem projection_read_iff (first later : List JournalFile.Record) (old : Option (List UInt8))
    (bytes : List UInt8) :
    (Within (first ++ later) → ∃ file, (do
        let _ ← rebuild first
        Fallible.forEach appendRecord later) old = (.ok (), file) ∧
      readAll file = .ok (first ++ later)) ∧
      (readAll (some bytes) ≠ .error .outOfRange ↔ ¬Overruns bytes) := by
  refine ⟨fun h => ?_, not_congr readAll_outOfRange_iff⟩
  obtain ⟨newest, hrebuild⟩ := rebuild_eq h.of_append old
  exact ⟨_, (Fallible.bind_of_ok hrebuild).trans (appendAll_eq h), readAll_fileOf h⟩

/-- A rebuild with one record and an append of another. -/
theorem projection_read_two : ∃ file, (do
    let _ ← rebuild [⟨4, [1]⟩]
    Fallible.forEach appendRecord [⟨9, [2]⟩]) none = (.ok (), file) ∧
      readAll file = .ok [⟨4, [1]⟩, ⟨9, [2]⟩] :=
  (projection_read_iff [⟨4, [1]⟩] [⟨9, [2]⟩] none []).1
    ⟨by decide, by decide, by decide, by decide, by decide⟩

namespace Sample

/-- A header, and a frame that declares 100 bytes of payload and has none. -/
def overrun : List UInt8 := header 0 1 ++ (header 4 100 ++ [0, 0, 0, 0])

end Sample

/-- A file of a header and a frame that is cut off stops the reader. -/
theorem projection_read_overrun : ¬((∀ first later old, Within (first ++ later) →
      ∃ file, (do
          let _ ← rebuild first
          Fallible.forEach appendRecord later) old = (.ok (), file) ∧
        readAll file = .ok (first ++ later)) ∧
      ∀ bytes, readAll (some bytes) ≠ .error .outOfRange) := by
  rintro ⟨-, hrange⟩
  refine hrange Sample.overrun (readAll_outOfRange_iff.mpr ⟨?_, [], _, rfl, ?_, ?_, ?_⟩)
  · exact ⟨by decide, by decide, by decide, by decide, by decide⟩
  · exact fun f hf => absurd hf (List.not_mem_nil)
  · exact .nil
  · exact ⟨by decide, by decide, by decide, by decide⟩

end InsiderTrader
