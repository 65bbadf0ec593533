import InsiderTrader.Ipc

/-!
# The codecs are inverse

What a codec writes it reads back, and what it reads it writes again, byte for
byte. A response and the diagnostic of a refused command are told apart by the
four bytes after the first eight: in the diagnostic they stand for a length
beyond every limit the transport is given.

## Main definitions

- `CodecsInverse` — what the codecs of a limit promise

## Main results

- `CommandCodec.decode_encode`, `CommandCodec.encode_decode` — commands
- `ResponseCodec.encode_decode`, `FrameCodec.decode_encode`, `FrameCodec.encode_decode`
- `response_not_error`, `error_not_response` — responses and diagnostics
- `codecs_inverse` — all of it, for every limit up to one gibibyte
-/

namespace InsiderTrader

open Wire Ipc

theorem ByteLimit.new_of_bounds {bytes : ℕ} (hlow : 1 ≤ bytes) (hhigh : bytes ≤ 2 ^ 30) :
    ∃ limit, ByteLimit.new bytes = some limit ∧ limit.bytes = bytes := by
  have hfits : bytes ≤ u32Max := hhigh.trans (by decide)
  exact ⟨⟨bytes, hlow, hfits⟩, dif_pos ⟨hlow, hfits⟩, rfl⟩

theorem ByteLimit.lt_width {limit : ByteLimit} {n : ℕ} (h : n ≤ limit.bytes) : n < 2 ^ 32 := by
  have hfits := limit.fits
  rw [u32Max] at hfits
  omega

/-- A check that was passed, and what came after it. -/
theorem check_eq_ok {ε α : Type} {c : Prop} [Decidable c] {e : ε} {x : Except ε α} {a : α}
    (h : (if c then .error e else x) = .ok a) : ¬c ∧ x = .ok a := by
  by_cases hc : c
  · rw [if_pos hc] at h
    cases h
  · rw [if_neg hc] at h
    exact ⟨hc, h⟩

-- Commands

namespace CommandCodec

variable {codec : CommandCodec} {command : WireCommand} {bytes : List UInt8} {maximum : ℕ}

/-- The bytes of a command. -/
def commandBytes (command : WireCommand) : List UInt8 :=
  [prefixed 2 (utf8 command.commandId), prefixed 2 (utf8 command.traceId),
    prefixed 2 (utf8 command.actor), putU64 command.issuedWallNs,
    putU64 command.expectedStateVersion, prefixed 2 (utf8 command.idempotencyKey),
    prefixed 4 command.payload].flatten

/-- The fields of a command are within their bounds. -/
structure Bounded (command : WireCommand) (maximum : ℕ) : Prop where
  commandId : command.commandId.utf8ByteSize ≤ maxCorrelationIdBytes
  traceId : command.traceId.utf8ByteSize ≤ maxCorrelationIdBytes
  actor : command.actor.utf8ByteSize ≤ maxActorBytes
  idempotencyKey : command.idempotencyKey.utf8ByteSize ≤ maxCorrelationIdBytes
  payload : command.payload.length ≤ maximum

theorem Bounded.of_validate (h : command.validate maximum = .ok ()) : Bounded command maximum := by
  obtain ⟨-, h⟩ := check_eq_ok h
  obtain ⟨hsizes, h⟩ := check_eq_ok h
  obtain ⟨hpayload, -⟩ := check_eq_ok h
  obtain ⟨hids, hactor⟩ := not_or.mp hsizes
  simp only [List.map_cons, List.map_nil, List.any_cons, List.any_nil, Bool.or_false,
    Bool.or_eq_true, decide_eq_true_eq, not_or, Nat.not_lt] at hids
  obtain ⟨hcommand, htrace, hkey⟩ := hids
  exact ⟨hcommand, htrace, Nat.not_lt.mp hactor, hkey, Nat.not_lt.mp hpayload⟩

/-- The fields are read from the bytes of a command, whatever follows. -/
theorem reads_fields (h : Bounded command maximum) (hwidth : command.payload.length < 2 ^ 32) :
    Reads (fields maximum) (commandBytes command) (.ok command) := by
  have hids : maxCorrelationIdBytes < 2 ^ 16 := by decide
  have hactors : maxActorBytes < 2 ^ 16 := by decide
  unfold fields commandBytes
  refine (reads_string hids h.commandId).value ?_
  refine (reads_string hids h.traceId).value ?_
  refine (reads_string hactors h.actor).value ?_
  refine (reads_u64 command.issuedWallNs).value ?_
  refine (reads_u64 command.expectedStateVersion).value ?_
  refine (reads_string hids h.idempotencyKey).value ?_
  refine (reads_prefixed hwidth h.payload).value ?_
  exact reads_pure command

/-- The fields that were read stood there, byte for byte. -/
theorem takes_fields (maximum : ℕ) :
    Takes (fields maximum) commandBytes (·.payload.length ≤ maximum) := by
  intro bytes command rest h
  obtain ⟨commandId, rest₁, h₁, t₁⟩ := Reader.bind_eq_ok.mp h
  obtain ⟨traceId, rest₂, h₂, t₂⟩ := Reader.bind_eq_ok.mp t₁
  obtain ⟨actor, rest₃, h₃, t₃⟩ := Reader.bind_eq_ok.mp t₂
  obtain ⟨issuedWallNs, rest₄, h₄, t₄⟩ := Reader.bind_eq_ok.mp t₃
  obtain ⟨expectedStateVersion, rest₅, h₅, t₅⟩ := Reader.bind_eq_ok.mp t₄
  obtain ⟨idempotencyKey, rest₆, h₆, t₆⟩ := Reader.bind_eq_ok.mp t₅
  obtain ⟨payload, rest₇, h₇, t₇⟩ := Reader.bind_eq_ok.mp t₆
  obtain ⟨rfl, -⟩ := takes_string _ _ _ _ h₁
  obtain ⟨rfl, -⟩ := takes_string _ _ _ _ h₂
  obtain ⟨rfl, -⟩ := takes_string _ _ _ _ h₃
  obtain ⟨rfl, -⟩ := takes_u64 _ _ _ h₄
  obtain ⟨rfl, -⟩ := takes_u64 _ _ _ h₅
  obtain ⟨rfl, -⟩ := takes_string _ _ _ _ h₆
  obtain ⟨rfl, hpayload⟩ := takes_prefixed _ _ _ _ _ h₇
  cases t₇
  refine ⟨?_, hpayload⟩
  simp only [commandBytes, List.flatten_cons, List.flatten_nil, List.append_nil, List.append_assoc]

theorem encode_of_valid (h : command.validate codec.maxPayload.bytes = .ok ()) :
    codec.encode command = .ok (commandBytes command) := by
  obtain ⟨hcommand, htrace, hactor, hkey, hpayload⟩ := Bounded.of_validate h
  have hids : maxCorrelationIdBytes < 2 ^ 16 := by decide
  have hactors : maxActorBytes < 2 ^ 16 := by decide
  rw [encode, h, ok_bind, putString_of_short hids hcommand, ok_bind, putString_of_short hids htrace,
    ok_bind, putString_of_short hactors hactor, ok_bind, putString_of_short hids hkey, ok_bind,
    if_pos (ByteLimit.lt_width hpayload)]
  rfl

/-- **A command comes back** from its bytes. -/
theorem decode_encode (h : command.validate codec.maxPayload.bytes = .ok ()) :
    ∃ bytes, codec.encode command = .ok bytes ∧ codec.decode bytes = .ok command := by
  refine ⟨commandBytes command, encode_of_valid h, ?_⟩
  have hbounded := Bounded.of_validate h
  have hread := reads_fields hbounded (ByteLimit.lt_width hbounded.payload) []
  rw [List.append_nil] at hread
  simp only [decode, hread, Except.map, ok_bind]
  rw [if_neg (not_not.mpr rfl), h]
  rfl

/-- **The bytes come back** from the command they were read as. -/
theorem encode_decode (h : codec.decode bytes = .ok command) : codec.encode command = .ok bytes := by
  obtain ⟨⟨read, rest⟩, hread, h⟩ := bind_eq_ok.mp h
  dsimp only at h
  split at h
  · cases h
  · next hrest =>
    obtain ⟨_, hvalid, h⟩ := bind_eq_ok.mp h
    cases h
    obtain ⟨hbytes, -⟩ := takes_fields _ _ _ _ hread
    rw [encode_of_valid hvalid, hbytes, not_not.mp hrest, List.append_nil]

end CommandCodec

-- Frames and responses

/-- Bytes of a width in front are the number they stand for. -/
theorem bytes_value_take {width : ℕ} {bytes : List UInt8} (h : width ≤ bytes.length) :
    LittleEndian.bytes width (LittleEndian.value (bytes.take width)) = bytes.take width :=
  LittleEndian.bytes_value_of_length (List.length_take_of_le h)

theorem value_take_bytes {width v : ℕ} (h : v < 256 ^ width) (rest : List UInt8) :
    LittleEndian.value ((LittleEndian.bytes width v ++ rest).take width) = v := by
  rw [List.take_left' (LittleEndian.bytes_length width v), LittleEndian.value_bytes h]

/-- A body and the four bytes of its length in front. -/
theorem prefixed_drop {bytes : List UInt8} (hlength : 4 ≤ bytes.length)
    (hdeclared : LittleEndian.value (bytes.take 4) = bytes.length - 4) :
    prefixed 4 (bytes.drop 4) = bytes := by
  rw [prefixed, List.length_drop, ← hdeclared, bytes_value_take hlength, List.take_append_drop]

namespace FrameCodec

variable {codec : FrameCodec} {payload frame : List UInt8}

theorem encode_eq (h : payload.length ≤ codec.maxFrame.bytes) :
    codec.encode payload = .ok (prefixed 4 payload) := by
  rw [encode, if_neg (Nat.not_lt.mpr h), if_pos (ByteLimit.lt_width h)]

/-- **A payload within the limit comes back** from its frame. -/
theorem decode_encode (h : payload.length ≤ codec.maxFrame.bytes) :
    ∃ frame, codec.encode payload = .ok frame ∧ codec.decode frame = .ok payload := by
  refine ⟨prefixed 4 payload, encode_eq h, ?_⟩
  have hlength : (prefixed 4 payload).length = 4 + payload.length := by
    rw [prefixed, List.length_append, LittleEndian.bytes_length]
  have hdeclared : LittleEndian.value ((prefixed 4 payload).take 4) = payload.length :=
    value_take_bytes (ByteLimit.lt_width h) payload
  rw [decode, if_neg (by omega), hdeclared, if_neg (Nat.not_lt.mpr h), if_neg (by omega), prefixed,
    List.drop_left' (LittleEndian.bytes_length 4 _)]

/-- **The frame comes back** from its payload. -/
theorem encode_decode (h : codec.decode frame = .ok payload) : codec.encode payload = .ok frame := by
  obtain ⟨hlength, h⟩ := check_eq_ok h
  obtain ⟨hbound, h⟩ := check_eq_ok h
  obtain ⟨hdeclared, h⟩ := check_eq_ok h
  cases h
  have hdeclared := not_not.mp hdeclared
  rw [encode_eq (by rw [List.length_drop]; omega), prefixed_drop (by omega) hdeclared]

end FrameCodec

namespace ResponseCodec

variable {codec : ResponseCodec} {response : CommandResponse (List UInt8)} {bytes : List UInt8}

/-- The bytes of a response. -/
def responseBytes (response : CommandResponse (List UInt8)) : List UInt8 :=
  LittleEndian.bytes 8 response.stateVersion ++ prefixed 4 response.payload

theorem encode_eq_ok_iff : codec.encode response = .ok bytes ↔
    response.payload.length ≤ codec.maxPayload.bytes ∧ bytes = responseBytes response := by
  constructor
  · intro h
    obtain ⟨hbound, h⟩ := check_eq_ok h
    have hbound := Nat.not_lt.mp hbound
    rw [if_pos (ByteLimit.lt_width hbound)] at h
    cases h
    exact ⟨hbound, rfl⟩
  · rintro ⟨hbound, rfl⟩
    rw [encode, if_neg (Nat.not_lt.mpr hbound), if_pos (ByteLimit.lt_width hbound)]
    rfl

/-- **The bytes come back** from the response they were read as. -/
theorem encode_decode (h : codec.decode bytes = .ok response) :
    codec.encode response = .ok bytes := by
  obtain ⟨hlength, h⟩ := check_eq_ok h
  obtain ⟨hbound, h⟩ := check_eq_ok h
  obtain ⟨hdeclared, h⟩ := check_eq_ok h
  cases h
  have hdeclared := not_not.mp hdeclared
  have hbody : prefixed 4 ((bytes.drop 8).drop 4) = bytes.drop 8 :=
    prefixed_drop (by rw [List.length_drop]; omega) (by rw [List.length_drop]; omega)
  refine encode_eq_ok_iff.mpr ⟨by rw [List.length_drop]; omega, ?_⟩
  rw [List.drop_drop] at hbody
  rw [responseBytes, bytes_value_take (by omega), hbody, List.take_append_drop]

/-- The length a response declares stands after its version. -/
theorem declared_of_encode (h : codec.encode response = .ok bytes) :
    LittleEndian.value ((bytes.drop 8).take 4) ≤ codec.maxPayload.bytes := by
  obtain ⟨hbound, rfl⟩ := encode_eq_ok_iff.mp h
  rw [responseBytes, List.drop_left' (LittleEndian.bytes_length 8 _), prefixed,
    value_take_bytes (ByteLimit.lt_width hbound)]
  exact hbound

end ResponseCodec

-- Responses and diagnostics

/-- What starts as a diagnostic declares a length of more than one gibibyte. -/
theorem declared_of_magic {bytes : List UInt8} (h : remoteErrorMagic.isPrefixOf bytes = true) :
    LittleEndian.value ((bytes.drop 8).take 4) = 1414483269 := by
  obtain ⟨rest, rfl⟩ := List.isPrefixOf_iff_prefix.mp h
  have hmagic : remoteErrorMagic.take 12 ++ remoteErrorMagic.drop 12 = remoteErrorMagic :=
    List.take_append_drop 12 remoteErrorMagic
  have hfour : (remoteErrorMagic ++ rest).drop 8 =
      (remoteErrorMagic.drop 8).take 4 ++ (remoteErrorMagic.drop 12 ++ rest) := by
    rw [List.drop_append_of_le_length (by decide), ← List.append_assoc]
    congr 1
  rw [hfour, List.take_left' (by decide)]
  decide

/-- **A response is no diagnostic.** -/
theorem response_not_error {codec : ResponseCodec} (hlimit : codec.maxPayload.bytes ≤ 2 ^ 30)
    {response : CommandResponse (List UInt8)} {bytes : List UInt8}
    (h : codec.encode response = .ok bytes) : decodeRemoteError bytes = .ok none := by
  have hdeclared := ResponseCodec.declared_of_encode h
  rw [decodeRemoteError, if_pos]
  intro hmagic
  rw [declared_of_magic hmagic] at hdeclared
  omega

/-- **A diagnostic is no response.** -/
theorem error_not_response {codec : ResponseCodec} (hlimit : codec.maxPayload.bytes ≤ 2 ^ 30)
    (value : String) :
    codec.decode (encodeRemoteError value) = .error (.tooLarge 1414483269) := by
  have hmagic : remoteErrorMagic.isPrefixOf (encodeRemoteError value) = true := by
    rw [encodeRemoteError, List.append_assoc]
    exact List.isPrefixOf_iff_prefix.mpr (List.prefix_append _ _)
  have hlength : ¬(encodeRemoteError value).length < 12 := by
    have hmagicLength : remoteErrorMagic.length = 23 := by decide
    rw [encodeRemoteError, List.append_assoc, List.length_append, hmagicLength]
    omega
  rw [ResponseCodec.decode, if_neg hlength, declared_of_magic hmagic, if_pos (by omega)]

/-- What the codecs with a limit promise. -/
structure CodecsInverse (command : CommandCodec) (response : ResponseCodec) : Prop where
  commandBack : ∀ c : WireCommand, c.validate command.maxPayload.bytes = .ok () →
    ∃ bytes, command.encode c = .ok bytes ∧ command.decode bytes = .ok c
  commandBytes : ∀ bytes c, command.decode bytes = .ok c → command.encode c = .ok bytes
  responseBytes : ∀ bytes r, response.decode bytes = .ok r → response.encode r = .ok bytes
  frameBack : ∀ (frame : FrameCodec) payload, payload.length ≤ frame.maxFrame.bytes →
    ∃ bytes, frame.encode payload = .ok bytes ∧ frame.decode bytes = .ok payload
  frameBytes : ∀ (frame : FrameCodec) bytes payload,
    frame.decode bytes = .ok payload → frame.encode payload = .ok bytes
  responseNoError : ∀ r bytes, response.encode r = .ok bytes → decodeRemoteError bytes = .ok none
  errorNoResponse : ∀ value r, response.decode (encodeRemoteError value) ≠ .ok r

/-- **The codecs are inverse** to each other at every limit up to one gibibyte, and responses and
diagnostics are told apart. -/
theorem codecs_inverse {maxPayloadBytes : ℕ} (hlow : 1 ≤ maxPayloadBytes)
    (hhigh : maxPayloadBytes ≤ 2 ^ 30) :
    ∃ command response, CommandCodec.new maxPayloadBytes = some command ∧
      command.maxPayload.bytes = maxPayloadBytes ∧
      ResponseCodec.new maxPayloadBytes = some response ∧ CodecsInverse command response := by
  obtain ⟨limit, hnew, rfl⟩ := ByteLimit.new_of_bounds hlow hhigh
  refine ⟨⟨limit⟩, ⟨limit⟩, by rw [CommandCodec.new, hnew]; rfl, rfl,
    by rw [ResponseCodec.new, hnew]; rfl, ?_⟩
  exact
    { commandBack := fun _ h => CommandCodec.decode_encode h
      commandBytes := fun _ _ h => CommandCodec.encode_decode h
      responseBytes := fun _ _ h => ResponseCodec.encode_decode h
      frameBack := fun _ _ h => FrameCodec.decode_encode h
      frameBytes := fun _ _ _ h => FrameCodec.encode_decode h
      responseNoError := fun _ _ h => response_not_error hhigh h
      errorNoResponse := fun value r h => by
        rw [error_not_response hhigh value] at h
        cases h }

/-- At a limit of sixteen bytes. -/
theorem codecs_inverse_sixteen : ∃ command response, CommandCodec.new 16 = some command ∧
    command.maxPayload.bytes = 16 ∧ ResponseCodec.new 16 = some response ∧
    CodecsInverse command response :=
  codecs_inverse (by decide) (by decide)

end InsiderTrader
