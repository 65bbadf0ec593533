import InsiderTrader.WireSnapshot

/-!
# Reading an order intent back

The engine writes a text of an intent with a length of 32 bits, the terminal
reads one of 16. It takes the high half of the first length as text and so
falls behind by two bytes at each text. As it must end where the intent ends,
the identity it reads is longer than the one that was written.

## Main results

- `Terminal.decodeOrderIntent_client_ne` — an intent is never read back
-/

namespace InsiderTrader

namespace Terminal

open Wire

/-- A text that is read takes its length and its bytes. -/
theorem string_eq_ok {bytes rest : List UInt8} {value : String}
    (h : string bytes = .ok (value, rest)) :
    (utf8 value).length = LittleEndian.value (bytes.take 2) ∧
      bytes.length = 2 + (utf8 value).length + rest.length := by
  obtain ⟨length, afterLength, hlength, h⟩ := Wire.Reader.bind_eq_ok.mp h
  obtain ⟨n, _, hnumber, hn⟩ := Wire.Reader.bind_eq_ok.mp hlength
  obtain ⟨two, _, htwo, hvalue⟩ := Wire.Reader.bind_eq_ok.mp hnumber
  cases hn
  cases hvalue
  obtain ⟨htwoLength, rfl, rfl⟩ := Wire.Reader.take_eq_ok htwo
  have hlt : LittleEndian.value (bytes.take 2) < 256 ^ 2 :=
    LittleEndian.value_lt_of_length (by rw [List.length_take]; omega)
  have hread : (UInt16.ofNat (LittleEndian.value (bytes.take 2))).toNat =
      LittleEndian.value (bytes.take 2) := UInt16.toNat_ofNat_of_lt' hlt
  rw [hread] at h
  obtain ⟨_, _, hbound, h⟩ := Wire.Reader.bind_eq_ok.mp h
  rw [Wire.Reader.require, if_pos (by omega)] at hbound
  cases hbound
  obtain ⟨text, _, htext, h⟩ := Wire.Reader.bind_eq_ok.mp h
  obtain ⟨htextLength, rfl, rfl⟩ := Wire.Reader.take_eq_ok htext
  cases hs : fromUtf8 ((bytes.drop 2).take (LittleEndian.value (bytes.take 2))) with
  | none =>
    rw [hs] at h
    cases h
  | some s =>
    rw [hs] at h
    cases h
    rw [utf8_of_fromUtf8 hs, List.length_take]
    simp only [List.length_drop] at htextLength ⊢
    omega

/-- The length that is read of a text of an intent. -/
theorem value_take_pushLongString (value : String) (rest : List UInt8) :
    LittleEndian.value ((pushLongString value ++ rest).take 2) =
      min (utf8 value).length (2 ^ 32 - 1) % 256 ^ 2 := by
  have htake : (pushLongString value ++ rest).take 2 =
      LittleEndian.bytes 2 (min (utf8 value).length (2 ^ 32 - 1)) := by
    rw [pushLongString, List.append_assoc,
      List.take_append_of_le_length (by rw [LittleEndian.bytes_length]; omega)]
    exact LittleEndian.take_bytes 2 2 _
  rw [htake, LittleEndian.value_bytes_mod]

theorem length_pushLongString (value : String) :
    (pushLongString value).length = 4 + min (utf8 value).length (2 ^ 32 - 1) := by
  rw [pushLongString, List.length_append, LittleEndian.bytes_length, List.length_take, Nat.min_comm]

/-- Two texts of an intent, read to their end, do not give back the second. -/
theorem long_strings_ne {first second read : String} {rest : List UInt8} {skipped : String}
    (hfirst : string (pushLongString first ++ pushLongString second) = .ok (skipped, rest))
    (hsecond : string rest = .ok (read, [])) : read ≠ second := by
  obtain ⟨hskipped, htotal⟩ := string_eq_ok hfirst
  obtain ⟨hread, hrest⟩ := string_eq_ok hsecond
  rw [value_take_pushLongString] at hskipped
  rw [List.length_append, length_pushLongString, length_pushLongString] at htotal
  rw [List.length_nil] at hrest
  have hshort : (utf8 read).length < 256 ^ 2 := by
    rw [hread]
    exact LittleEndian.value_lt_of_length (by rw [List.length_take]; omega)
  have hmod := Nat.mod_le (min (utf8 first).length (2 ^ 32 - 1)) (256 ^ 2)
  rintro rfl
  omega

theorem sideNames_at (side : Side) : ∃ name,
    sideNames[(sideCode side).toNat]?.filter (!·.isEmpty) = some name := by
  cases side <;> exact ⟨_, rfl⟩

/-- **An intent** is never read back: the terminal refuses it or reads another client order. -/
theorem decodeOrderIntent_client_ne {intent : OrderIntent} {read : String × Wide × String × Int64}
    (h : decodeOrderIntent (encodeOrderIntent intent) = .ok read) :
    read.1 ≠ intent.clientOrderId := by
  obtain ⟨side, hside⟩ := sideNames_at intent.side
  have hread := afterMagic_eq_ok h
  rw [orderIntent, (reads_u128 _).run_next, (reads_u128 _).run_next,
    (reads_label hside).run_next, (reads_i64 _).run_next, (reads_u8 _).run_next,
    (reads_i64 _).run_next, (reads_u8 _).run_next, (reads_u128 _).run_next,
    List.flatten_cons, List.flatten_cons, List.flatten_nil, List.append_nil] at hread
  obtain ⟨_, _, hfirst, hread⟩ := Wire.Reader.bind_eq_ok.mp hread
  obtain ⟨_, _, hsecond, hread⟩ := Wire.Reader.bind_eq_ok.mp hread
  cases hread
  exact long_strings_ne hfirst hsecond

end Terminal

end InsiderTrader
