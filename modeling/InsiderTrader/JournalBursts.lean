import InsiderTrader.JournalScan
import InsiderTrader.Library.Crc

/-!
# Burst errors in the journal

The checksum of a frame is a cyclic redundancy check over 32 bits. Whatever the
length of the frame, an error within 32 consecutive bits of what is summed up
changes it, and a scan stops in front of the frame. The bits of a byte are
counted from the least one, as the check meets them.

## Main definitions

- `JournalFile.Burst` — an error within 32 consecutive bits
- `JournalFile.corrupt` — bytes with an error added

## Main results

- `JournalFile.crc32c_corrupt` — the checksum of bytes with an error
- `JournalFile.crc32c_burst_ne_stored` — a burst is not met by the stored checksum
- `JournalFile.scanFrom_burst` — a scan reads no record from a frame with a burst
-/

namespace InsiderTrader

namespace JournalFile

/-- The Castagnoli polynomial. -/
def castagnoli : BitVec 32 := 0x82f63b78#32

/-- The bits of a byte, the least one first. -/
def byteBits (byte : UInt8) : List Bool := (List.range 8).map byte.toBitVec.getLsbD

/-- The bits of some bytes in the order the check meets them. -/
def bits (bytes : List UInt8) : List Bool := bytes.flatMap byteBits

/-- An error: some bit is set, and all set bits lie within 32 consecutive ones. -/
structure Burst (error : List UInt8) : Prop where
  nonzero : ∃ byte ∈ error, byte ≠ 0
  confined : ∃ offset, ∀ i, (bits error)[i]? = some true → offset ≤ i ∧ i < offset + 32

/-- Bytes with an error added. -/
def corrupt (bytes error : List UInt8) : List UInt8 := List.zipWith (· ^^^ ·) bytes error

theorem corrupt_length {bytes error : List UInt8} (h : error.length = bytes.length) :
    (corrupt bytes error).length = bytes.length := by
  rw [corrupt, List.length_zipWith, h, Nat.min_self]

/-! ## The checksum as a check over bits -/

/-- One shift of the source's register. -/
def crc32cShift (crc : UInt32) : UInt32 :=
  if crc &&& 1 = 1 then (crc >>> 1) ^^^ 0x82f63b78 else crc >>> 1

theorem crc32cShift_toBitVec (crc : UInt32) :
    (crc32cShift crc).toBitVec = Crc.step castagnoli crc.toBitVec := by
  have hlow : (crc &&& 1).toBitVec = Crc.bit (crc.toBitVec.getLsbD 0) := by
    rw [UInt32.toBitVec_and]
    refine BitVec.and_one_eq_setWidth_ofBool_getLsbD.trans ?_
    cases crc.toBitVec.getLsbD 0 <;> rfl
  have hone : crc &&& 1 = 1 ↔ crc.toBitVec.getLsbD 0 = true := by
    rw [← UInt32.toBitVec_inj, hlow]
    cases crc.toBitVec.getLsbD 0 <;> decide
  unfold crc32cShift Crc.step
  simp only [hone]
  split_ifs
  · rw [UInt32.toBitVec_xor, UInt32.toBitVec_shiftRight]
    rfl
  · rw [UInt32.toBitVec_shiftRight]
    rfl

theorem crc32cShift_iterate_toBitVec (n : ℕ) (crc : UInt32) :
    (crc32cShift^[n] crc).toBitVec = (Crc.step castagnoli)^[n] crc.toBitVec := by
  induction n generalizing crc with
  | zero => rfl
  | succ n ih => rw [Function.iterate_succ_apply, Function.iterate_succ_apply, ih,
      crc32cShift_toBitVec]

theorem crc32cByte_toBitVec (crc : UInt32) (byte : UInt8) :
    (crc32cByte crc byte).toBitVec = Crc.feed castagnoli crc.toBitVec (byteBits byte) := by
  have hshifts : crc32cByte crc byte = crc32cShift^[8] (crc ^^^ byte.toUInt32) := rfl
  have hwide : byte.toUInt32.toBitVec = byte.toBitVec.setWidth 32 := rfl
  have hhigh : byte.toBitVec.setWidth 32 >>> 8 = 0#32 := by
    apply BitVec.eq_of_getLsbD_eq
    intro i _
    rw [BitVec.getLsbD_ushiftRight, BitVec.getLsbD_setWidth, BitVec.getLsbD_of_ge _ _ (by omega),
      Bool.and_false, BitVec.getLsbD_zero]
  have hbits : (List.range 8).map (byte.toBitVec.setWidth 32).getLsbD = byteBits byte := by
    refine List.map_congr_left fun i hi => ?_
    have hlt : i < 32 := (List.mem_range.mp hi).trans (by decide)
    rw [BitVec.getLsbD_setWidth, decide_eq_true hlt, Bool.true_and]
  rw [hshifts, crc32cShift_iterate_toBitVec, UInt32.toBitVec_xor, hwide,
    Crc.step_iterate_xor castagnoli (by decide), hbits, hhigh, BitVec.xor_zero]

theorem foldl_crc32cByte_toBitVec (bytes : List UInt8) (crc : UInt32) :
    (bytes.foldl crc32cByte crc).toBitVec = Crc.feed castagnoli crc.toBitVec (bits bytes) := by
  induction bytes generalizing crc with
  | nil => rfl
  | cons byte bytes ih =>
    have hbits : bits (byte :: bytes) = byteBits byte ++ bits bytes := rfl
    rw [List.foldl_cons, ih, crc32cByte_toBitVec, hbits, Crc.feed_append]

/-! ## Errors -/

theorem byteBits_xor (byte error : UInt8) :
    byteBits (byte ^^^ error) = List.zipWith (· ^^ ·) (byteBits byte) (byteBits error) := by
  rw [byteBits, byteBits, byteBits, List.zipWith_map, List.zipWith_self]
  exact List.map_congr_left fun i _ => BitVec.getLsbD_xor

theorem bits_corrupt {bytes error : List UInt8} (h : error.length = bytes.length) :
    bits (corrupt bytes error) = List.zipWith (· ^^ ·) (bits bytes) (bits error) := by
  induction bytes generalizing error with
  | nil =>
    rw [List.length_eq_zero_iff.mp h]
    rfl
  | cons byte bytes ih =>
    obtain ⟨e, error, rfl⟩ := List.exists_cons_of_length_eq_add_one h
    have hlength : (byteBits byte).length = (byteBits e).length := rfl
    have htail := ih (Nat.succ_inj.mp h)
    simp only [corrupt, bits, List.zipWith_cons_cons, List.flatMap_cons] at htail ⊢
    rw [List.zipWith_append hlength, ← byteBits_xor, htail]

theorem bits_length {bytes error : List UInt8} (h : error.length = bytes.length) :
    (bits bytes).length = (bits error).length := by
  have hbits (l : List UInt8) : (bits l).length = l.length * 8 := by
    simp [bits, byteBits, List.length_flatMap]
  rw [hbits, hbits, h]

/-- **The checksum is linear**: an error changes it by what the check makes of the error alone. -/
theorem crc32c_corrupt {bytes error : List UInt8} (h : error.length = bytes.length) :
    (crc32c (corrupt bytes error)).toBitVec =
      (crc32c bytes).toBitVec ^^^ Crc.feed castagnoli 0#32 (bits error) := by
  have hfeed := Crc.feed_xor castagnoli (bits_length h) (~~~(0 : UInt32)).toBitVec 0#32
  rw [BitVec.xor_zero, ← bits_corrupt h] at hfeed
  rw [crc32c, crc32c, UInt32.toBitVec_not, UInt32.toBitVec_not, foldl_crc32cByte_toBitVec,
    foldl_crc32cByte_toBitVec, hfeed, BitVec.not_xor_left]

theorem Burst.true_mem {error : List UInt8} (h : Burst error) : true ∈ bits error := by
  obtain ⟨byte, hbyte, hne⟩ := h.nonzero
  by_contra hclear
  refine hne (UInt8.toBitVec_inj.mp (BitVec.eq_of_getLsbD_eq fun i hi => ?_))
  cases hbit : byte.toBitVec.getLsbD i
  · exact BitVec.getLsbD_zero.symm
  · refine absurd (List.mem_flatMap.mpr ⟨byte, hbyte, ?_⟩) hclear
    exact List.mem_map.mpr ⟨i, List.mem_range.mpr hi, hbit⟩

/-- A burst changes the checksum. -/
theorem Burst.crc32c_ne {bytes error : List UInt8} (h : Burst error)
    (hlength : error.length = bytes.length) :
    (crc32c (corrupt bytes error)).toNat ≠ (crc32c bytes).toNat := by
  obtain ⟨offset, hconfined⟩ := h.confined
  have hpoly : castagnoli.msb = true := by decide
  have htrace := Crc.feed_ne_zero_of_burst hpoly hconfined h.true_mem
  intro heq
  have hxor := crc32c_corrupt hlength
  rw [UInt32.toNat_inj.mp heq] at hxor
  refine htrace ?_
  have hcancel := congrArg ((crc32c bytes).toBitVec ^^^ ·) hxor
  rw [BitVec.xor_self, ← BitVec.xor_assoc, BitVec.xor_self, BitVec.zero_xor] at hcancel
  exact hcancel.symm

/-! ## Frames -/

theorem stored_checksum (record : Record) :
    LittleEndian.value ((frame record).drop (content record).length) =
      (crc32c (content record)).toNat := by
  rw [frame, List.drop_left]
  exact LittleEndian.value_bytes (crc32c (content record)).toNat_lt

/-- **Every burst is seen**: an error within 32 consecutive bits of a frame's body, whatever its
length, makes a checksum that is not the one stored behind the body. -/
theorem crc32c_burst_ne_stored (record : Record) {error : List UInt8} (h : Burst error)
    (hlength : error.length = (content record).length) :
    (crc32c (corrupt (content record) error)).toNat ≠
      LittleEndian.value ((frame record).drop (content record).length) := by
  rw [stored_checksum]
  exact h.crc32c_ne hlength

theorem crc32c_burst_first_byte :
    (crc32c (corrupt (content ⟨1, []⟩) (1 :: List.replicate 17 0))).toNat ≠
      LittleEndian.value ((frame ⟨1, []⟩).drop (content ⟨1, []⟩).length) := by
  refine crc32c_burst_ne_stored ⟨1, []⟩ ⟨⟨1, List.mem_cons_self, by decide⟩, 0, ?_⟩ rfl
  intro i hi
  have hlt : i < 144 := (List.getElem?_eq_some_iff.mp hi).1
  have hall : ∀ i < 144, (bits (1 :: List.replicate 17 0))[i]? = some true → i < 32 := by decide
  exact ⟨Nat.zero_le i, by simpa using hall i hlt hi⟩

/-- A scan reads no record from a frame whose body has a burst in it that leaves its length. -/
theorem scanFrom_burst (record : Record) {error more : List UInt8} (h : Burst error)
    (hlength : error.length = (content record).length)
    (hsize : LittleEndian.value (((corrupt (content record) error).drop 14).take 4) =
      record.payload.length) (offset : ℕ) (records : List Record) :
    let rest := corrupt (content record) error ++
      (LittleEndian.bytes 4 (crc32c (content record)).toNat ++ more)
    scanFrom offset records rest = .ok ⟨records, offset, true⟩ ∨
      scanFrom offset records rest = .error (.corrupt offset "unsupported journal version") := by
  intro rest
  have hbody : (corrupt (content record) error).length = headerLen + record.payload.length := by
    rw [corrupt_length hlength, content_length]
  have hrest : rest.length = headerLen + record.payload.length + (4 + more.length) := by
    rw [List.length_append, hbody, List.length_append, LittleEndian.bytes_length]
  have hhead : headerLen = 18 := rfl
  have htrail : trailerLen = 4 := rfl
  have hne : rest ≠ [] := List.ne_nil_of_length_pos (by omega)
  rw [scanFrom, if_neg hne, if_neg (by omega)]
  by_cases hmagic : rest.take 4 = magic
  case neg => exact .inl (if_pos hmagic)
  rw [if_neg (not_not.mpr hmagic)]
  by_cases hversion : LittleEndian.value ((rest.drop 4).take 2) = version
  case neg => exact .inr (if_pos hversion)
  rw [if_neg (not_not.mpr hversion)]
  -- the header is still that of a frame, and its length is the one that was written
  have hsame : LittleEndian.value ((rest.drop 14).take 4) = record.payload.length := by
    rw [List.drop_append_of_le_length (by omega),
      List.take_append_of_le_length (by rw [List.length_drop]; omega), hsize]
  have hchecked : rest.take (headerLen + record.payload.length) =
      corrupt (content record) error := List.take_left' hbody
  have hstored : (rest.drop (headerLen + record.payload.length)).take trailerLen =
      LittleEndian.bytes 4 (crc32c (content record)).toNat := by
    rw [List.drop_left' hbody]
    exact List.take_left' (LittleEndian.bytes_length 4 _)
  dsimp only
  rw [hsame, if_neg (by omega), hchecked, hstored,
    LittleEndian.value_bytes (crc32c (content record)).toNat_lt]
  exact .inl (if_pos (h.crc32c_ne hlength))

end JournalFile

end InsiderTrader
