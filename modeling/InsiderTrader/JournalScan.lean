import InsiderTrader.Library.FrameLog
import InsiderTrader.JournalFile

/-!
# Scanning the journal file

A scan of whole frames returns their records, and stops in front of a frame that
is cut off. Conversely the bytes it accepts are the frames of the records it
returns.

## Main definitions

- `JournalFile.Record.Fits` — sequence and length are representable
- `JournalFile.Headed` — bytes that begin with the header of a record

## Main results

- `JournalFile.scanFrom_log` — whole frames are read
- `JournalFile.scanFrom_torn` — a part of a frame is an invalid tail
- `JournalFile.scanFrom_eq_ok` — what is accepted is whole frames
-/

namespace InsiderTrader

namespace JournalFile

/-- Sequence and length of a record fit their fields. -/
structure Record.Fits (record : Record) : Prop where
  sequence : record.sequence < 2 ^ 64
  payload : record.payload.length < 2 ^ 32

theorem content_length (record : Record) :
    (content record).length = headerLen + record.payload.length := by
  simp only [content, List.length_append, LittleEndian.bytes_length]
  show 4 + (2 + (8 + (4 + record.payload.length))) = 18 + record.payload.length
  omega

theorem frame_length (record : Record) :
    (frame record).length = headerLen + record.payload.length + trailerLen := by
  rw [frame, List.length_append, content_length, LittleEndian.bytes_length]
  rfl

-- Headers

/-- Bytes that begin with the header of a record. -/
structure Headed (rest : List UInt8) (record : Record) : Prop where
  length : headerLen ≤ rest.length
  magic : rest.take 4 = magic
  version : LittleEndian.value ((rest.drop 4).take 2) = version
  sequence : LittleEndian.value ((rest.drop 6).take 8) = record.sequence
  size : LittleEndian.value ((rest.drop 14).take 4) = record.payload.length

/-- A field of a header. -/
theorem field_append {before field after : List UInt8} {m k : ℕ} (hm : before.length = m)
    (hk : field.length = k) : ((before ++ (field ++ after)).drop m).take k = field := by
  rw [List.drop_left' hm, List.take_left' hk]

theorem frame_append (record : Record) (more : List UInt8) :
    frame record ++ more = magic ++ (LittleEndian.bytes 2 version ++
      (LittleEndian.bytes 8 record.sequence ++ (LittleEndian.bytes 4 record.payload.length ++
      (record.payload ++ (LittleEndian.bytes 4 (crc32c (content record)).toNat ++ more))))) := by
  simp only [frame, content, List.append_assoc]

/-- **A frame** begins with its header. -/
theorem headed_frame {record : Record} (h : record.Fits) (more : List UInt8) :
    Headed (frame record ++ more) record where
  length := by
    rw [List.length_append, frame_length]
    omega
  magic := by
    rw [frame_append]
    exact List.take_left' rfl
  version := by
    rw [frame_append, field_append (show JournalFile.magic.length = 4 from rfl)
      (LittleEndian.bytes_length 2 _)]
    exact LittleEndian.value_bytes (by decide)
  sequence := by
    rw [frame_append, ← List.append_assoc magic, field_append _ (LittleEndian.bytes_length 8 _)]
    · exact LittleEndian.value_bytes h.sequence
    · rfl
  size := by
    rw [frame_append, ← List.append_assoc magic, ← List.append_assoc (magic ++ _),
      field_append _ (LittleEndian.bytes_length 4 _)]
    · exact LittleEndian.value_bytes h.payload
    · simp only [List.length_append, LittleEndian.bytes_length]
      rfl

/-- A field inside the bytes that are taken. -/
theorem field_take {bytes : List UInt8} {n m k : ℕ} (h : m + k ≤ n) :
    ((bytes.take n).drop m).take k = (bytes.drop m).take k := by
  rw [List.drop_take, List.take_take, Nat.min_eq_left (by omega)]

/-- A part of a frame that is long enough begins with its header. -/
theorem headed_take {record : Record} (h : record.Fits) {n : ℕ} (hn : headerLen ≤ n)
    (hcut : n ≤ (frame record).length) : Headed ((frame record).take n) record := by
  have hwhole := headed_frame h []
  rw [List.append_nil] at hwhole
  have hlen : 18 ≤ n := hn
  constructor
  · rw [List.length_take]
    omega
  · rw [List.take_take, Nat.min_eq_left (by omega)]
    exact hwhole.magic
  · rw [field_take (by omega)]
    exact hwhole.version
  · rw [field_take (by omega)]
    exact hwhole.sequence
  · rw [field_take (by omega)]
    exact hwhole.size

-- Reading frames

variable {offset : ℕ} {records : List Record}

theorem scanFrom_nil (offset : ℕ) (records : List Record) :
    scanFrom offset records [] = .ok ⟨records, offset, false⟩ := by
  rw [scanFrom, if_pos rfl]

/-- **Under a header** the scan compares the length and the checksum. -/
theorem scanFrom_of_headed {rest : List UInt8} {record : Record} (h : Headed rest record) :
    scanFrom offset records rest =
      if rest.length < headerLen + record.payload.length + trailerLen then
        .ok ⟨records, offset, true⟩
      else if (crc32c (rest.take (headerLen + record.payload.length))).toNat ≠
          LittleEndian.value
            ((rest.drop (headerLen + record.payload.length)).take trailerLen) then
        .ok ⟨records, offset, true⟩
      else
        scanFrom (offset + (headerLen + record.payload.length + trailerLen))
          (records ++ [⟨record.sequence, (rest.drop headerLen).take record.payload.length⟩])
          (rest.drop (headerLen + record.payload.length + trailerLen)) := by
  have hlength := h.length
  have hne : rest ≠ [] := by
    rintro rfl
    exact absurd hlength (by decide)
  rw [scanFrom, if_neg hne, if_neg (Nat.not_lt.mpr hlength), if_neg (not_not.mpr h.magic),
    if_neg (not_not.mpr h.version)]
  dsimp only
  rw [h.sequence, h.size]

/-- **A whole frame** is read, and the scan goes on behind it. -/
theorem scanFrom_frame {record : Record} (h : record.Fits) (more : List UInt8) :
    scanFrom offset records (frame record ++ more) =
      scanFrom (offset + (frame record).length) (records ++ [record]) more := by
  have hcontent : (frame record ++ more).take (headerLen + record.payload.length) =
      content record := by
    rw [frame, List.append_assoc]
    exact List.take_left' (content_length record)
  have htrailer : ((frame record ++ more).drop (headerLen + record.payload.length)).take trailerLen =
      LittleEndian.bytes 4 (crc32c (content record)).toNat := by
    rw [frame, List.append_assoc]
    exact field_append (content_length record) (LittleEndian.bytes_length 4 _)
  have hpayload : ((frame record ++ more).drop headerLen).take record.payload.length =
      record.payload := by
    rw [frame_append, ← List.append_assoc magic, ← List.append_assoc (magic ++ _),
      ← List.append_assoc (magic ++ _ ++ _)]
    refine field_append ?_ rfl
    simp only [List.length_append, LittleEndian.bytes_length]
    rfl
  have hmore : (frame record ++ more).drop (headerLen + record.payload.length + trailerLen) =
      more := List.drop_left' (frame_length record)
  have hlong : ¬(frame record ++ more).length <
      headerLen + record.payload.length + trailerLen := by
    rw [List.length_append, frame_length]
    omega
  rw [scanFrom_of_headed (headed_frame h more), if_neg hlong, hcontent, htrailer, hpayload, hmore,
    LittleEndian.value_bytes (crc32c (content record)).toNat_lt, if_neg (not_not.mpr rfl),
    frame_length]

/-- **Whole frames** are all read. -/
theorem scanFrom_log {new : List Record} (h : ∀ record ∈ new, record.Fits) (more : List UInt8) :
    scanFrom offset records (FrameLog.log frame new ++ more) =
      scanFrom (offset + (FrameLog.log frame new).length) (records ++ new) more := by
  induction new generalizing offset records with
  | nil => simp
  | cons record new ih =>
    obtain ⟨hrecord, hnew⟩ := List.forall_mem_cons.mp h
    rw [FrameLog.log_cons, List.append_assoc, scanFrom_frame hrecord, ih hnew, List.length_append,
      ← Nat.add_assoc, List.append_assoc, List.singleton_append]

/-- **A part of a frame** is an invalid tail, wherever the frame is cut. -/
theorem scanFrom_torn {record : Record} (h : record.Fits) {n : ℕ} (hpos : 0 < n)
    (hcut : n < (frame record).length) :
    scanFrom offset records ((frame record).take n) = .ok ⟨records, offset, true⟩ := by
  have hlength : ((frame record).take n).length = n := by
    rw [List.length_take]
    omega
  by_cases hheader : headerLen ≤ n
  · rw [scanFrom_of_headed (headed_take h hheader (Nat.le_of_lt hcut)), if_pos]
    rw [hlength, ← frame_length]
    exact hcut
  · have hne : (frame record).take n ≠ [] := by
      intro hnil
      rw [hnil, List.length_nil] at hlength
      omega
    rw [scanFrom, if_neg hne, if_pos]
    rw [hlength]
    exact Nat.lt_of_not_le hheader

-- What is accepted

/-- The record that the bytes of a frame stand for. -/
def recordAt (rest : List UInt8) : Record where
  sequence := LittleEndian.value ((rest.drop 6).take 8)
  payload := (rest.drop headerLen).take (LittleEndian.value ((rest.drop 14).take 4))

section Accepted

variable {rest : List UInt8} {size : ℕ} (hsize : size = LittleEndian.value ((rest.drop 14).take 4))
  (hlong : headerLen + size + trailerLen ≤ rest.length)

include hsize hlong

theorem field_length {m k : ℕ} (hmk : m + k ≤ headerLen + size + trailerLen) :
    ((rest.drop m).take k).length = k := by
  rw [List.length_take, List.length_drop]
  omega

/-- The fields of the bytes fit. -/
theorem recordAt_fits : (recordAt rest).Fits where
  sequence := by
    refine LittleEndian.value_lt_of_length (n := 8) (field_length hsize hlong ?_)
    show 6 + 8 ≤ 18 + size + 4
    omega
  payload := by
    rw [recordAt, ← hsize, field_length hsize hlong (by omega), hsize]
    refine LittleEndian.value_lt_of_length (n := 4) (field_length hsize hlong ?_)
    show 14 + 4 ≤ 18 + size + 4
    omega

/-- **The bytes in front of a checksum** are the content of the record they stand for. -/
theorem content_recordAt (hmagic : rest.take 4 = magic)
    (hversion : LittleEndian.value ((rest.drop 4).take 2) = version) :
    content (recordAt rest) = rest.take (headerLen + size) := by
  have hpayload : (recordAt rest).payload = (rest.drop headerLen).take size := by
    rw [recordAt, ← hsize]
  have hlength : (recordAt rest).payload.length = size := by
    rw [hpayload]
    exact field_length hsize hlong (by omega)
  have hversion' : LittleEndian.bytes 2 version = (rest.drop 4).take 2 := by
    rw [← hversion]
    refine LittleEndian.bytes_value_of_length (field_length hsize hlong ?_)
    show 4 + 2 ≤ 18 + size + 4
    omega
  have hsequence : LittleEndian.bytes 8 (recordAt rest).sequence = (rest.drop 6).take 8 := by
    refine LittleEndian.bytes_value_of_length (field_length hsize hlong ?_)
    show 6 + 8 ≤ 18 + size + 4
    omega
  have hsize' : LittleEndian.bytes 4 size = (rest.drop 14).take 4 := by
    rw [hsize]
    refine LittleEndian.bytes_value_of_length (field_length hsize hlong ?_)
    show 14 + 4 ≤ 18 + size + 4
    omega
  rw [content, hlength, hversion', hsequence, hsize', hpayload, ← hmagic]
  show _ = rest.take (4 + (2 + (8 + (4 + 0))) + size)
  calc rest.take 4 ++ ((rest.drop 4).take 2 ++ ((rest.drop 6).take 8 ++
        ((rest.drop 14).take 4 ++ (rest.drop 18).take size)))
      = rest.take 4 ++ ((rest.drop 4).take 2 ++ ((rest.drop 6).take 8 ++
        (rest.drop 14).take (4 + size))) := by
        rw [List.take_add (i := 4), List.drop_drop]
    _ = rest.take 4 ++ ((rest.drop 4).take 2 ++ (rest.drop 6).take (8 + (4 + size))) := by
        rw [List.take_add (i := 8), List.drop_drop]
    _ = rest.take 4 ++ (rest.drop 4).take (2 + (8 + (4 + size))) := by
        rw [List.take_add (i := 2), List.drop_drop]
    _ = rest.take (4 + (2 + (8 + (4 + size)))) := by rw [List.take_add (i := 4)]
    _ = rest.take (4 + (2 + (8 + (4 + 0))) + size) := by
        congr 1
        omega

/-- **Bytes that pass the checks** begin with the frame of the record they stand for. -/
theorem frame_recordAt (hmagic : rest.take 4 = magic)
    (hversion : LittleEndian.value ((rest.drop 4).take 2) = version)
    (hcrc : (crc32c (rest.take (headerLen + size))).toNat =
      LittleEndian.value ((rest.drop (headerLen + size)).take trailerLen)) :
    frame (recordAt rest) ++ rest.drop (headerLen + size + trailerLen) = rest := by
  have htrailer : LittleEndian.bytes 4 (crc32c (content (recordAt rest))).toNat =
      (rest.drop (headerLen + size)).take trailerLen := by
    rw [content_recordAt hsize hlong hmagic hversion, hcrc]
    exact LittleEndian.bytes_value_of_length (field_length hsize hlong (Nat.le_refl _))
  rw [frame, htrailer, content_recordAt hsize hlong hmagic hversion, ← List.take_add,
    List.take_append_drop]

end Accepted

/-- A scan that started behind `records` has read the frames of `new`, up to `tail`. -/
structure Scan.Reads (scan : Scan) (offset : ℕ) (records new : List Record)
    (rest tail : List UInt8) : Prop where
  fits : ∀ record ∈ new, record.Fits
  bytes : rest = FrameLog.log frame new ++ tail
  records : scan.records = records ++ new
  validBytes : scan.validBytes = offset + (FrameLog.log frame new).length
  tail : scan.hasInvalidTail = true ↔ tail ≠ []

/-- A scan that stops where it is has read nothing. -/
theorem Scan.reads_stop (offset : ℕ) (records : List Record) {rest : List UInt8} (h : rest ≠ []) :
    Scan.Reads ⟨records, offset, true⟩ offset records [] rest rest where
  fits := by simp
  bytes := rfl
  records := (List.append_nil records).symm
  validBytes := rfl
  tail := by simp [h]

/-- **Soundness of the scan**: the bytes it accepts are the frames of the records it adds, and
something follows them exactly when it reports an invalid tail. -/
theorem scanFrom_eq_ok {rest : List UInt8} {scan : Scan}
    (h : scanFrom offset records rest = .ok scan) :
    ∃ new tail, scan.Reads offset records new rest tail := by
  fun_induction scanFrom offset records rest with
  | case1 offset records =>
    cases h
    exact ⟨[], [], by simp, rfl, (List.append_nil records).symm, rfl, by simp⟩
  | case2 offset records rest hne =>
    cases h
    exact ⟨[], rest, Scan.reads_stop offset records hne⟩
  | case3 offset records rest hne =>
    cases h
    exact ⟨[], rest, Scan.reads_stop offset records hne⟩
  | case4 => cases h
  | case5 offset records rest hne =>
    cases h
    exact ⟨[], rest, Scan.reads_stop offset records hne⟩
  | case6 offset records rest hne =>
    cases h
    exact ⟨[], rest, Scan.reads_stop offset records hne⟩
  | case7 offset records rest hne hheader hmagic hversion sequence length frameLen hlong expected
      hcrc ih =>
    -- the frame at the head, then the frames the rest of the scan reads
    obtain ⟨new, tail, hreads⟩ := ih h
    have hlong' : headerLen + length + trailerLen ≤ rest.length := Nat.le_of_not_lt hlong
    have hframe := frame_recordAt rfl hlong' (not_not.mp hmagic) (not_not.mp hversion)
      (not_not.mp hcrc)
    have hlength : (frame (recordAt rest)).length = frameLen := by
      have htotal := congrArg List.length hframe
      rw [List.length_append, List.length_drop] at htotal
      omega
    refine ⟨recordAt rest :: new, tail, ?_, ?_, ?_, ?_, hreads.tail⟩
    · exact List.forall_mem_cons.mpr ⟨recordAt_fits rfl hlong', hreads.fits⟩
    · rw [FrameLog.log_cons, List.append_assoc, ← hreads.bytes]
      exact hframe.symm
    · rw [hreads.records, List.append_assoc, List.singleton_append]
      rfl
    · rw [hreads.validBytes, FrameLog.log_cons, List.length_append, hlength, Nat.add_assoc]

end JournalFile

end InsiderTrader
