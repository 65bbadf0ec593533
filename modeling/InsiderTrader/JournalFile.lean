import InsiderTrader.Library.Fallible
import InsiderTrader.Library.LittleEndian

/-!
# The journal file

The bytes of the journal: length-prefixed frames with a checksum, appended one
after the other. A scan reads frames up to the first that is cut off or fails
its checksum; opening the journal truncates the file there and continues after
the last sequence it read. Reading never fails here; a write may stop anywhere.

## Main definitions

- `JournalFile.frame` — the bytes of a record
- `JournalFile.scanPath` — the records of a file, up to the first invalid frame
- `JournalFile.openJournal` — truncate the invalid tail and continue
- `JournalFile.append` — write one frame, with the way the write may fail
-/

namespace InsiderTrader

namespace JournalFile

def magic : List UInt8 := [0x49, 0x54, 0x4A, 0x52]

def version : ℕ := 1

def headerLen : ℕ := 4 + 2 + 8 + 4

def trailerLen : ℕ := 4

def maxJournalBytes : ℕ := 512 * 1024 * 1024

/-- The greatest sequence, that of 64 bits. -/
def maxSequence : ℕ := 2 ^ 64 - 1

/-- A journal payload with its sequence. -/
structure Record where
  sequence : ℕ
  payload : List UInt8
  deriving DecidableEq

/-- What a scan of a journal file finds: the valid records, where they end, and whether bytes
follow them. -/
structure Scan where
  records : List Record
  validBytes : ℕ
  hasInvalidTail : Bool
  deriving DecidableEq

/-- Journal failures. -/
inductive Failure where
  | io
  | corrupt (offset : ℕ) (reason : String)
  | payloadTooLarge (size : ℕ)
  | boundsExceeded (size : ℕ)
  deriving DecidableEq

/-- One byte of the Castagnoli checksum. -/
def crc32cByte (crc : UInt32) (byte : UInt8) : UInt32 :=
  (List.range 8).foldl
    (fun crc _ => if crc &&& 1 = 1 then (crc >>> 1) ^^^ 0x82f63b78 else crc >>> 1)
    (crc ^^^ byte.toUInt32)

/-- The Castagnoli checksum. -/
def crc32c (bytes : List UInt8) : UInt32 := ~~~(bytes.foldl crc32cByte (~~~0))

/-- The bytes of a record before its checksum. -/
def content (record : Record) : List UInt8 :=
  magic ++ (LittleEndian.bytes 2 version ++ (LittleEndian.bytes 8 record.sequence ++
    (LittleEndian.bytes 4 record.payload.length ++ record.payload)))

/-- The bytes of a record. -/
def frame (record : Record) : List UInt8 :=
  content record ++ LittleEndian.bytes 4 (crc32c (content record)).toNat

/-- The frames of a file from an offset on, up to the first invalid one. `rest` is the file from
the offset on. -/
def scanFrom (offset : ℕ) (records : List Record) (rest : List UInt8) : Except Failure Scan :=
  if rest = [] then .ok ⟨records, offset, false⟩
  else if rest.length < headerLen then .ok ⟨records, offset, true⟩
  else if rest.take 4 ≠ magic then .ok ⟨records, offset, true⟩
  else if LittleEndian.value ((rest.drop 4).take 2) ≠ version then
    .error (.corrupt offset "unsupported journal version")
  else
    let sequence := LittleEndian.value ((rest.drop 6).take 8)
    let length := LittleEndian.value ((rest.drop 14).take 4)
    let frameLen := headerLen + length + trailerLen
    if rest.length < frameLen then .ok ⟨records, offset, true⟩
    else
      let expected := LittleEndian.value ((rest.drop (headerLen + length)).take trailerLen)
      if (crc32c (rest.take (headerLen + length))).toNat ≠ expected then
        .ok ⟨records, offset, true⟩
      else
        scanFrom (offset + frameLen)
          (records ++ [⟨sequence, (rest.drop headerLen).take length⟩]) (rest.drop frameLen)
termination_by rest.length
decreasing_by
  rw [List.length_drop]
  have hframe : 0 < headerLen := by decide
  omega

/-- The records of a journal file; a file that is not there has no bytes. -/
def scanPath (file : List UInt8) : Except Failure Scan :=
  if maxJournalBytes < file.length then .error (.boundsExceeded file.length)
  else scanFrom 0 [] file

/-- The next sequence, at most the greatest one. -/
def nextSequenceAfter (sequence : ℕ) : ℕ := min (sequence + 1) maxSequence

/-- An open journal: its file and the sequence of the next append. -/
structure Journal where
  file : List UInt8
  nextSequence : ℕ

/-- Open a journal: truncate an invalid tail and continue after the last record. -/
def openJournal (file : List UInt8) : Except Failure Journal := do
  let scan ← scanPath file
  .ok {
    file := if scan.hasInvalidTail then file.take scan.validBytes else file
    nextSequence := scan.records.getLast?.elim 0 (nextSequenceAfter ·.sequence) }

/-- How the write of a frame ends: synchronized; written but not synchronized; or stopped after
some of its bytes. -/
inductive Outcome where
  | synced
  | unsynced
  | torn (written : ℕ)
  deriving DecidableEq

/-- The bytes of a frame that reach the file. -/
def Outcome.reached (outcome : Outcome) (bytes : List UInt8) : List UInt8 :=
  match outcome with
  | .synced | .unsynced => bytes
  | .torn written => bytes.take written

/-- Append one record. The sequence advances only when the frame is synchronized; what a failed
write has put in the file stays there. -/
def append (payload : List UInt8) (outcome : Outcome) : Fallible Journal Failure ℕ := do
  Fallible.require (payload.length < 2 ^ 32) (.payloadTooLarge payload.length)
  let j ← Fallible.reads id
  let bytes := frame ⟨j.nextSequence, payload⟩
  -- both sizes are far below 64 bits, and so is their sum
  let projectedSize := j.file.length + bytes.length
  Fallible.require (projectedSize ≤ maxJournalBytes) (.boundsExceeded projectedSize)
  Fallible.modify fun j => { j with file := j.file ++ outcome.reached bytes }
  Fallible.require (outcome = .synced) .io
  Fallible.modify fun journal =>
    { journal with nextSequence := nextSequenceAfter j.nextSequence }
  pure j.nextSequence

end JournalFile

end InsiderTrader
