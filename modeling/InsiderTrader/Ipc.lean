import InsiderTrader.Dispatch
import InsiderTrader.Library.LittleEndian
import InsiderTrader.Library.Wire

/-!
# The codecs of the control plane

Commands, their responses and the diagnostics of a refused command go over the
local socket as bytes: texts after a length of 16 bits, payloads after one of 32
bits, and all of it in a frame with its length in front.

## Main definitions

- `WireCommand` — a command as it is sent
- `CommandCodec`, `ResponseCodec`, `FrameCodec` — the three codecs with their limits
- `encodeRemoteError`, `decodeRemoteError` — the diagnostic of a refused command

## Main results

- `Ipc.reads_prefixed`, `Ipc.takes_prefixed` — bounded bytes, in both directions
- `Ipc.reads_string`, `Ipc.takes_string` — a bounded text, in both directions
-/

namespace InsiderTrader

open Wire

/-- A command with its metadata and the bytes of its payload. -/
structure WireCommand where
  commandId : String
  traceId : String
  actor : String
  issuedWallNs : UInt64
  expectedStateVersion : UInt64
  idempotencyKey : String
  payload : List UInt8
  deriving DecidableEq

/-- The command as the dispatcher takes it. -/
def WireCommand.envelope (c : WireCommand) : CommandEnvelope (List UInt8) where
  commandId := c.commandId
  traceId := c.traceId
  actor := c.actor
  issuedWallNs := c.issuedWallNs.toNat
  expectedStateVersion := c.expectedStateVersion.toNat
  idempotencyKey := c.idempotencyKey
  payload := c.payload
  payloadLen := c.payload.length

/-- Check the identities and sizes of a command. -/
def WireCommand.validate (c : WireCommand) (maxPayloadBytes : ℕ) : Except FrameError Unit :=
  c.envelope.validate maxPayloadBytes

/-- The greatest number of 32 bits. -/
def u32Max : ℕ := 2 ^ 32 - 1

/-- A limit in bytes that a length of 32 bits can tell. -/
structure ByteLimit where
  bytes : ℕ
  positive : 0 < bytes
  fits : bytes ≤ u32Max

/-- A limit, unless it is zero or too great. -/
def ByteLimit.new (bytes : ℕ) : Option ByteLimit :=
  if h : 0 < bytes ∧ bytes ≤ u32Max then some ⟨bytes, h.1, h.2⟩ else none

-- Fields

namespace Ipc

/-- Take a number of bytes. -/
def takeSlice (length : ℕ) : Reader FrameError (List UInt8) := Reader.take .incomplete length

/-- A little-endian number of a width in bytes. -/
def takeNumber (width : ℕ) : Reader FrameError ℕ := do
  let value ← takeSlice width
  pure (LittleEndian.value value)

def takeU64 : Reader FrameError UInt64 := do
  let value ← takeNumber 8
  pure (UInt64.ofNat value)

def putU64 (value : UInt64) : List UInt8 := LittleEndian.bytes 8 value.toNat

/-- The bytes of a field after their length. -/
def prefixed (width : ℕ) (value : List UInt8) : List UInt8 :=
  LittleEndian.bytes width value.length ++ value

def putString (value : String) : Except FrameError (List UInt8) :=
  if (utf8 value).length < 2 ^ 16 then .ok (prefixed 2 (utf8 value))
  else .error (.tooLarge (utf8 value).length)

/-- Bytes after a length of a width, within a bound. -/
def takePrefixed (width maximum : ℕ) : Reader FrameError (List UInt8) := do
  let length ← takeNumber width
  Reader.require (length ≤ maximum) (.tooLarge length)
  takeSlice length

def takeBytes (maximum : ℕ) : Reader FrameError (List UInt8) := takePrefixed 4 maximum

def takeString (maximum : ℕ) : Reader FrameError String := do
  let value ← takePrefixed 2 maximum
  match fromUtf8 value with
  | some value => pure value
  | none => Reader.fail .incomplete

theorem reads_takeNumber (width : ℕ) {v : ℕ} (h : v < 256 ^ width) :
    Reads (takeNumber width) (LittleEndian.bytes width v) (.ok v) := by
  have hread := (reads_take_of_length FrameError.incomplete
    (LittleEndian.bytes_length width v)).bind_pure (g := LittleEndian.value)
  rwa [ok_bind, LittleEndian.value_bytes h] at hread

theorem takes_takeNumber (width : ℕ) :
    Takes (takeNumber width) (LittleEndian.bytes width) (· < 256 ^ width) :=
  (takes_take FrameError.incomplete width).map
    (fun _ h => LittleEndian.bytes_value_of_length h) fun _ h => LittleEndian.value_lt_of_length h

theorem reads_u64 (value : UInt64) : Reads takeU64 (putU64 value) (.ok value) := by
  have hread := (reads_takeNumber 8 value.toNat_lt).bind_pure (g := UInt64.ofNat)
  rwa [ok_bind, UInt64.ofNat_toNat] at hread

theorem takes_u64 : Takes takeU64 putU64 fun _ => True :=
  (takes_takeNumber 8).map (fun v h => by rw [putU64, UInt64.toNat_ofNat_of_lt' h])
    fun _ _ => trivial

/-- Bytes within the bound come back after their length. -/
theorem reads_prefixed {width maximum : ℕ} {value : List UInt8} (hwidth : value.length < 256 ^ width)
    (hmax : value.length ≤ maximum) :
    Reads (takePrefixed width maximum) (prefixed width value) (.ok value) := by
  refine (reads_takeNumber width hwidth).ok_bind ?_
  have hread : Reads (Reader.require (value.length ≤ maximum) (.tooLarge value.length) >>= fun _ =>
      takeSlice value.length) value _ :=
    Reads.require fun _ => reads_take FrameError.incomplete value
  rwa [if_pos hmax] at hread

/-- Bytes that were taken stood after their length, within the bound. -/
theorem takes_prefixed (width maximum : ℕ) :
    Takes (takePrefixed width maximum) (prefixed width) (·.length ≤ maximum) := by
  intro bytes value rest h
  obtain ⟨length, afterLength, hlength, htail⟩ := Reader.bind_eq_ok.mp h
  obtain ⟨_, mid, hcheck, hslice⟩ := Reader.bind_eq_ok.mp htail
  obtain ⟨hbound, rfl⟩ := Reader.require_eq_ok hcheck
  obtain ⟨hbytes, -⟩ := takes_takeNumber width bytes length mid hlength
  obtain ⟨hmid, rfl⟩ := takes_take FrameError.incomplete length mid value rest hslice
  refine ⟨?_, hbound⟩
  rw [hbytes, hmid, prefixed, List.append_assoc]
  rfl

theorem putString_of_short {value : String} {maximum : ℕ} (hmax : maximum < 2 ^ 16)
    (h : value.utf8ByteSize ≤ maximum) : putString value = .ok (prefixed 2 (utf8 value)) :=
  if_pos (show (utf8 value).length < 2 ^ 16 from h.trans_lt hmax)

/-- A text within the bound comes back. -/
theorem reads_string {value : String} {maximum : ℕ} (hmax : maximum < 2 ^ 16)
    (h : value.utf8ByteSize ≤ maximum) :
    Reads (takeString maximum) (prefixed 2 (utf8 value)) (.ok value) := by
  have hshort : (utf8 value).length < 256 ^ 2 := h.trans_lt hmax
  have hread : Reads (takeString maximum) (prefixed 2 (utf8 value) ++ []) (.ok value) :=
    (reads_prefixed hshort h).ok_bind (by
      rw [fromUtf8_utf8]
      exact reads_pure value)
  rwa [List.append_nil] at hread

/-- A text that was taken stood after its length, within the bound. -/
theorem takes_string (maximum : ℕ) :
    Takes (takeString maximum) (fun value => prefixed 2 (utf8 value))
      (·.utf8ByteSize ≤ maximum) := by
  intro bytes value rest h
  obtain ⟨raw, mid, hraw, h⟩ := Reader.bind_eq_ok.mp h
  obtain ⟨hbytes, hbound⟩ := takes_prefixed 2 maximum bytes raw mid hraw
  cases hvalue : fromUtf8 raw with
  | none =>
    rw [hvalue] at h
    cases h
  | some text =>
    rw [hvalue] at h
    cases h
    rw [← utf8_of_fromUtf8 hvalue] at hbytes hbound
    exact ⟨hbytes, hbound⟩

end Ipc

open Ipc

-- Commands

/-- A codec of commands. -/
structure CommandCodec where
  maxPayload : ByteLimit

namespace CommandCodec

def new (maxPayloadBytes : ℕ) : Option CommandCodec := (ByteLimit.new maxPayloadBytes).map (⟨·⟩)

/-- Encode a command that passes its checks. -/
def encode (codec : CommandCodec) (command : WireCommand) : Except FrameError (List UInt8) := do
  command.validate codec.maxPayload.bytes
  let commandId ← putString command.commandId
  let traceId ← putString command.traceId
  let actor ← putString command.actor
  let idempotencyKey ← putString command.idempotencyKey
  if command.payload.length < 2 ^ 32 then
    .ok [commandId, traceId, actor, putU64 command.issuedWallNs,
      putU64 command.expectedStateVersion, idempotencyKey, prefixed 4 command.payload].flatten
  else .error (.tooLarge command.payload.length)

/-- The fields of a command. -/
def fields (maxPayloadBytes : ℕ) : Reader FrameError WireCommand := do
  let commandId ← takeString maxCorrelationIdBytes
  let traceId ← takeString maxCorrelationIdBytes
  let actor ← takeString maxActorBytes
  let issuedWallNs ← takeU64
  let expectedStateVersion ← takeU64
  let idempotencyKey ← takeString maxCorrelationIdBytes
  let payload ← takeBytes maxPayloadBytes
  pure ⟨commandId, traceId, actor, issuedWallNs, expectedStateVersion, idempotencyKey, payload⟩

/-- Decode one command; nothing may follow it. -/
def decode (codec : CommandCodec) (bytes : List UInt8) : Except FrameError WireCommand := do
  let (command, rest) ← fields codec.maxPayload.bytes bytes
  if rest ≠ [] then .error (.lengthMismatch (bytes.length - rest.length) bytes.length)
  else do
    command.validate codec.maxPayload.bytes
    .ok command

end CommandCodec

-- Responses

/-- A codec of responses. -/
structure ResponseCodec where
  maxPayload : ByteLimit

namespace ResponseCodec

def new (maxPayloadBytes : ℕ) : Option ResponseCodec := (ByteLimit.new maxPayloadBytes).map (⟨·⟩)

/-- Encode the version and the payload of a response. -/
def encode (codec : ResponseCodec) (response : CommandResponse (List UInt8)) :
    Except FrameError (List UInt8) :=
  if codec.maxPayload.bytes < response.payload.length then
    .error (.tooLarge response.payload.length)
  else if response.payload.length < 2 ^ 32 then
    .ok (LittleEndian.bytes 8 response.stateVersion ++ prefixed 4 response.payload)
  else .error (.tooLarge response.payload.length)

/-- Decode exactly one response. -/
def decode (codec : ResponseCodec) (bytes : List UInt8) :
    Except FrameError (CommandResponse (List UInt8)) :=
  let declared := LittleEndian.value ((bytes.drop 8).take 4)
  let actual := bytes.length - 12
  if bytes.length < 12 then .error .incomplete
  else if codec.maxPayload.bytes < declared then .error (.tooLarge declared)
  else if declared ≠ actual then .error (.lengthMismatch declared actual)
  else .ok ⟨LittleEndian.value (bytes.take 8), bytes.drop 12⟩

end ResponseCodec

-- Frames

/-- A codec of frames. -/
structure FrameCodec where
  maxFrame : ByteLimit

namespace FrameCodec

def new (maxFrameBytes : ℕ) : Option FrameCodec := (ByteLimit.new maxFrameBytes).map (⟨·⟩)

/-- Put the length in front of a payload. -/
def encode (codec : FrameCodec) (payload : List UInt8) : Except FrameError (List UInt8) :=
  if codec.maxFrame.bytes < payload.length then .error (.tooLarge payload.length)
  else if payload.length < 2 ^ 32 then .ok (prefixed 4 payload)
  else .error (.tooLarge payload.length)

/-- The payload of exactly one frame. -/
def decode (codec : FrameCodec) (frame : List UInt8) : Except FrameError (List UInt8) :=
  let declared := LittleEndian.value (frame.take 4)
  let actual := frame.length - 4
  if frame.length < 4 then .error .incomplete
  else if codec.maxFrame.bytes < declared then .error (.tooLarge declared)
  else if declared ≠ actual then .error (.lengthMismatch declared actual)
  else .ok (frame.drop 4)

end FrameCodec

-- Refused commands

/-- What the diagnostic of a refused command starts with. -/
def remoteErrorMagic : List UInt8 := utf8 "IT_IPC_REMOTE_ERROR_V1\x00"

/-- Bound of a diagnostic in bytes. -/
def maxRemoteErrorBytes : ℕ := 4096

/-- What is sent for a diagnostic that is empty or too long. -/
def diagnosticUnavailable : String := "remote command rejected; diagnostic unavailable"

/-- Encode the diagnostic of a refused command. -/
def encodeRemoteError (value : String) : List UInt8 :=
  let diagnostic := utf8 (if value = "" ∨ maxRemoteErrorBytes < (utf8 value).length then
    diagnosticUnavailable else value)
  let length := min diagnostic.length (2 ^ 16 - 1)
  remoteErrorMagic ++ LittleEndian.bytes 2 length ++ diagnostic.take length

/-- The diagnostic, when the bytes start as one. -/
def decodeRemoteError (bytes : List UInt8) : Except FrameError (Option String) :=
  if ¬remoteErrorMagic.isPrefixOf bytes then .ok none
  else
    let payload := bytes.drop remoteErrorMagic.length
    let length := LittleEndian.value (payload.take 2)
    let diagnostic := payload.drop 2
    if payload.length < 2 then .error .incomplete
    else if length = 0 ∨ maxRemoteErrorBytes < length then .error (.tooLarge length)
    else if diagnostic.length ≠ length then .error (.lengthMismatch length diagnostic.length)
    else
      match fromUtf8 diagnostic with
      | some diagnostic => .ok (some diagnostic)
      | none => .error .incomplete

end InsiderTrader
