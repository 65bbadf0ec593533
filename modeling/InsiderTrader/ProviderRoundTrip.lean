import InsiderTrader.ProviderStates

/-!
# The state of a news worker comes back

The bytes of a state are those of a record, and a record is told apart by them.
An optional cursor that is the empty text comes back as none, and a time without
its flag comes back as zero; nothing else is lost.

## Main results

- `NewsProviders.StateRecord.eq_of_bytes_eq` — a record is told apart by its bytes
- `NewsProviders.encodeProviderState_eq_ok_iff` — what is written, and when
- `NewsProviders.exists_record_of_decodeProviderState` — which bytes are accepted
- `NewsProviders.providerState_roundTrip` — which states and which bytes come back
-/

namespace InsiderTrader

open Terminal Wire

namespace NewsProviders

-- Records are told apart

theorem separates_time : Separates TimeRecord.bytes fun _ => True := by
  intro x y s t _ _ h
  simp only [TimeRecord.bytes, List.append_assoc] at h
  obtain ⟨hvalue, h⟩ := codes_i64.separates _ _ _ _ trivial trivial h
  obtain ⟨hflag, rfl⟩ := codes_u8.separates _ _ _ _ trivial trivial h
  cases x
  cases y
  cases hvalue
  cases hflag
  exact ⟨rfl, rfl⟩

theorem separates_letter : Separates LetterRecord.bytes LetterRecord.Valid := by
  intro x y s t hx hy h
  simp only [LetterRecord.bytes, List.flatten_cons, List.flatten_nil, List.append_nil,
    List.append_assoc] at h
  obtain ⟨h₁, h⟩ := codes_string.separates _ _ _ _ hx.providerId hy.providerId h
  obtain ⟨h₂, h⟩ := codes_string.separates _ _ _ _ hx.cursor hy.cursor h
  obtain ⟨h₃, h⟩ := codes_i64.separates _ _ _ _ trivial trivial h
  obtain ⟨h₄, h⟩ := codes_u8.separates _ _ _ _ trivial trivial h
  obtain ⟨h₅, h⟩ := codes_u64.separates _ _ _ _ trivial trivial h
  obtain ⟨h₆, rfl⟩ := codes_string.separates _ _ _ _ hx.message hy.message h
  cases x
  cases y
  cases h₁
  cases h₂
  cases h₃
  cases h₄
  cases h₅
  cases h₆
  exact ⟨rfl, rfl⟩

/-- **A record is told apart by its bytes.** -/
theorem StateRecord.eq_of_bytes_eq {x y : StateRecord} (hx : x.Valid) (hy : y.Valid)
    (h : x.bytes = y.bytes) : x = y := by
  have hcount {r : StateRecord} (hr : r.Valid) : r.letters.length < 256 ^ 2 :=
    hr.few.trans_lt (by decide)
  simp only [StateRecord.bytes, List.flatten_cons] at h
  obtain ⟨h₁, h⟩ := codes_string.separates _ _ _ _ hx.providerId hy.providerId h
  obtain ⟨h₂, h⟩ := codes_string.separates _ _ _ _ hx.cursor hy.cursor h
  obtain ⟨h₃, h⟩ := codes_u64.separates _ _ _ _ trivial trivial h
  obtain ⟨h₄, h⟩ := separates_time _ _ _ _ trivial trivial h
  obtain ⟨h₅, h⟩ := codes_u32.separates _ _ _ _ trivial trivial h
  obtain ⟨h₆, h⟩ := codes_u8.separates _ _ _ _ trivial trivial h
  obtain ⟨h₇, h⟩ := separates_time _ _ _ _ trivial trivial h
  obtain ⟨h₈, h⟩ := separates_time _ _ _ _ trivial trivial h
  obtain ⟨h₉, h⟩ := codes_u32.separates _ _ _ _ trivial trivial h
  obtain ⟨hlength, h⟩ := (codes_number RegistryError.invalidConfiguration 2).separates _ _ _ _
    (hcount hx) (hcount hy) h
  obtain ⟨h₁₀, -⟩ := separates_letter.flatMap hlength hx.letters hy.letters h
  cases x
  cases y
  cases h₁
  cases h₂
  cases h₃
  cases h₄
  cases h₅
  cases h₆
  cases h₇
  cases h₈
  cases h₉
  cases h₁₀
  rfl

-- What is written

theorem pushBoundedString_eq_ok_iff {value : String} {bytes : List UInt8} :
    pushBoundedString value = .ok bytes ↔ Fits value ∧ bytes = boundedBytes value := by
  unfold pushBoundedString
  split
  · next h =>
    have hfits : Fits value := h
    rw [and_iff_right hfits, Except.ok.injEq]
    exact eq_comm
  · next h => exact iff_of_false (by intro heq; cases heq) fun hfits => h hfits.1

theorem ProviderHealth.ofCode_code (health : ProviderHealth) :
    ProviderHealth.ofCode health.code = some health := by
  cases health <;> rfl

theorem RetryClass.ofCode_code (retryClass : RetryClass) :
    RetryClass.ofCode retryClass.code retryClass.delay = some retryClass := by
  cases retryClass <;> rfl

theorem encodeDeadLetter_eq_ok_iff {d : DeadLetter} {bytes : List UInt8} :
    encodeDeadLetter d = .ok bytes ↔
      (LetterRecord.ofDeadLetter d).Valid ∧ bytes = (LetterRecord.ofDeadLetter d).bytes := by
  unfold encodeDeadLetter
  constructor
  · intro h
    obtain ⟨_, h₁, h⟩ := bind_eq_ok.mp h
    obtain ⟨_, h₂, h⟩ := bind_eq_ok.mp h
    obtain ⟨_, h₃, h⟩ := bind_eq_ok.mp h
    obtain ⟨hprovider, rfl⟩ := pushBoundedString_eq_ok_iff.mp h₁
    obtain ⟨hcursor, rfl⟩ := pushBoundedString_eq_ok_iff.mp h₂
    obtain ⟨hmessage, rfl⟩ := pushBoundedString_eq_ok_iff.mp h₃
    cases h
    exact ⟨⟨hprovider, hcursor, hmessage,
      Option.isSome_iff_exists.mpr ⟨_, RetryClass.ofCode_code d.retryClass⟩⟩, rfl⟩
  · rintro ⟨h, rfl⟩
    refine bind_eq_ok.mpr ⟨_, pushBoundedString_eq_ok_iff.mpr ⟨h.providerId, rfl⟩, ?_⟩
    refine bind_eq_ok.mpr ⟨_, pushBoundedString_eq_ok_iff.mpr ⟨h.cursor, rfl⟩, ?_⟩
    refine bind_eq_ok.mpr ⟨_, pushBoundedString_eq_ok_iff.mpr ⟨h.message, rfl⟩, ?_⟩
    rfl

theorem TimeRecord.bytes_ofTime (time : Option Int64) :
    (TimeRecord.ofTime time).bytes = timestampBytes time := by
  cases time <;> rfl

theorem TimeRecord.flag_ofTime_le (time : Option Int64) : (TimeRecord.ofTime time).flag ≤ 1 := by
  cases time with
  | none => decide
  | some t => exact UInt8.le_refl 1

theorem encodeDeadLetters_eq_ok_iff {letters : List DeadLetter} {bytes : List (List UInt8)} :
    letters.mapM encodeDeadLetter = .ok bytes ↔
      (∀ l ∈ letters.map LetterRecord.ofDeadLetter, l.Valid) ∧
        bytes = letters.map fun d => (LetterRecord.ofDeadLetter d).bytes := by
  rw [List.forall_mem_map]
  constructor
  · intro h
    have hvalid : ∀ d ∈ letters, (LetterRecord.ofDeadLetter d).Valid := by
      intro d hd
      obtain ⟨_, hletter⟩ := exists_mapM_eq_ok_iff.mp ⟨bytes, h⟩ d hd
      exact (encodeDeadLetter_eq_ok_iff.mp hletter).1
    have hbytes : letters.mapM encodeDeadLetter =
        .ok (letters.map fun d => (LetterRecord.ofDeadLetter d).bytes) :=
      mapM_eq_ok_map_iff.mpr fun d hd => encodeDeadLetter_eq_ok_iff.mpr ⟨hvalid d hd, rfl⟩
    cases h.symm.trans hbytes
    exact ⟨hvalid, rfl⟩
  · rintro ⟨hvalid, rfl⟩
    exact mapM_eq_ok_map_iff.mpr fun d hd => encodeDeadLetter_eq_ok_iff.mpr ⟨hvalid d hd, rfl⟩

/-- **What is written**: the bytes of the record of a state, when they are within the bounds. -/
theorem encodeProviderState_eq_ok_iff {s : ProviderStateSnapshot} {payload : List UInt8} :
    encodeProviderState s = .ok payload ↔ (StateRecord.ofSnapshot s).Valid ∧
      payload = providerStateMagic ++ (StateRecord.ofSnapshot s).bytes := by
  have hletters : (s.deadLetters.map fun d => (LetterRecord.ofDeadLetter d).bytes).flatten =
      (s.deadLetters.map LetterRecord.ofDeadLetter).flatMap LetterRecord.bytes := by
    rw [List.flatMap_map, List.flatMap_def]
  have hbytes : (StateRecord.ofSnapshot s).bytes = [boundedBytes s.providerId,
      boundedBytes (s.cursor.getD ""), le64 s.generation, timestampBytes s.nextRetryMs,
      le32 s.retries, [s.health.code], timestampBytes s.lastSuccessMs,
      timestampBytes s.lastFailureMs, le32 s.consecutiveFailures,
      LittleEndian.bytes 2 s.deadLetters.length,
      (s.deadLetters.map fun d => (LetterRecord.ofDeadLetter d).bytes).flatten].flatten := by
    have hcount : (s.deadLetters.map LetterRecord.ofDeadLetter).length = s.deadLetters.length :=
      List.length_map _
    rw [hletters, ← TimeRecord.bytes_ofTime, ← TimeRecord.bytes_ofTime, ← TimeRecord.bytes_ofTime,
      ← hcount]
    rfl
  rw [hbytes]
  unfold encodeProviderState
  split
  · next hbounds =>
    refine iff_of_false (by intro heq; cases heq) fun h => ?_
    have hid := h.1.providerId
    have hfew := h.1.few
    rw [StateRecord.ofSnapshot, List.length_map] at hfew
    obtain hblank | hlong | hmany := hbounds
    · exact Bool.false_ne_true (h.1.named.symm.trans hblank)
    · exact absurd hid (Nat.not_lt.mpr (Nat.le_of_pred_lt hlong))
    · omega
  · next hbounds =>
    obtain ⟨hnamed, hrest⟩ := not_or.mp hbounds
    obtain ⟨-, hfew⟩ := not_or.mp hrest
    constructor
    · intro h
      obtain ⟨_, h₁, h⟩ := bind_eq_ok.mp h
      obtain ⟨_, h₂, h⟩ := bind_eq_ok.mp h
      obtain ⟨_, h₃, h⟩ := bind_eq_ok.mp h
      obtain ⟨hprovider, rfl⟩ := pushBoundedString_eq_ok_iff.mp h₁
      obtain ⟨hcursor, rfl⟩ := pushBoundedString_eq_ok_iff.mp h₂
      obtain ⟨hvalid, rfl⟩ := encodeDeadLetters_eq_ok_iff.mp h₃
      cases h
      refine ⟨⟨hprovider, Bool.eq_false_iff.mpr hnamed, hcursor, TimeRecord.flag_ofTime_le _,
        Option.isSome_iff_exists.mpr ⟨_, ProviderHealth.ofCode_code s.health⟩,
        TimeRecord.flag_ofTime_le _, TimeRecord.flag_ofTime_le _, ?_, hvalid⟩, rfl⟩
      rw [StateRecord.ofSnapshot, List.length_map]
      omega
    · rintro ⟨h, rfl⟩
      refine bind_eq_ok.mpr ⟨_, pushBoundedString_eq_ok_iff.mpr ⟨h.providerId, rfl⟩, ?_⟩
      refine bind_eq_ok.mpr ⟨_, pushBoundedString_eq_ok_iff.mpr ⟨h.cursor, rfl⟩, ?_⟩
      exact bind_eq_ok.mpr ⟨_, encodeDeadLetters_eq_ok_iff.mpr ⟨h.letters, rfl⟩, rfl⟩

-- What comes back

theorem nonempty_getD_eq_iff {cursor : Option String} :
    nonempty (cursor.getD "") = cursor ↔ NamesCursor cursor := by
  cases cursor with
  | none => exact iff_of_true rfl (by intro h; cases h)
  | some value =>
    rw [Option.getD_some, NamesCursor, Ne, Option.some.injEq, nonempty]
    split
    · next h => exact iff_of_false (by intro h; cases h) fun hne => hne h
    · next h => exact iff_of_true rfl h

theorem getD_nonempty (value : String) : (nonempty value).getD "" = value := by
  unfold nonempty
  split
  · next h => exact h.symm
  · rfl

theorem TimeRecord.time_ofTime (time : Option Int64) : (ofTime time).time = time := by
  cases time <;> rfl

theorem TimeRecord.ofTime_time_eq_iff {t : TimeRecord} (h : t.flag ≤ 1) :
    ofTime t.time = t ↔ t.AbsentZero := by
  obtain ⟨value, flag⟩ := t
  have hflag : flag = 0 ∨ flag = 1 := by
    have hle : flag.toNat ≤ 1 := h
    obtain hzero | hone : flag.toNat = 0 ∨ flag.toNat = 1 := by omega
    · exact .inl (UInt8.toNat_inj.mp hzero)
    · exact .inr (UInt8.toNat_inj.mp hone)
  obtain rfl | rfl := hflag
  · show (⟨0, 0⟩ : TimeRecord) = ⟨value, 0⟩ ↔ (_ → value = 0)
    rw [TimeRecord.mk.injEq, and_iff_left rfl]
    exact ⟨fun hvalue _ => hvalue.symm, fun hvalue => (hvalue rfl).symm⟩
  · exact iff_of_true rfl fun hone => absurd (show (1 : UInt8) = 0 from hone) (by decide)

theorem ProviderHealth.code_of_ofCode {code : UInt8} {health : ProviderHealth}
    (h : ofCode code = some health) : health.code = code := by
  obtain ⟨hlt, hhealth⟩ := List.getElem?_eq_some_iff.mp h
  have hcodes : ∀ n (hn : n < 5),
      ([unknown, healthy, coolingDown, degraded, failed].get ⟨n, hn⟩).code.toNat = n := by decide
  rw [← UInt8.toNat_inj, ← hhealth]
  exact hcodes code.toNat hlt

theorem LetterRecord.ofDeadLetter_deadLetter_eq_iff {l : LetterRecord} (h : l.Valid) :
    ofDeadLetter l.deadLetter = l ↔ l.AbsentZero := by
  obtain ⟨providerId, cursor, failedAtMs, classCode, retryAfterMs, message⟩ := l
  have hclass := h.classCode
  simp only [RetryClass.ofCode] at hclass
  simp only [ofDeadLetter, deadLetter, getD_nonempty, AbsentZero, RetryClass.ofCode,
    LetterRecord.mk.injEq, true_and, and_true]
  split at hclass
  · next hone => simp [hone, RetryClass.code, RetryClass.delay]
  · next hone =>
    split at hclass
    · next htwo => simp [htwo, RetryClass.code, RetryClass.delay, eq_comm]
    · next htwo =>
      split at hclass
      · next hthree => simp [hthree, RetryClass.code, RetryClass.delay, eq_comm]
      · cases hclass

theorem LetterRecord.deadLetter_ofDeadLetter_eq_iff {d : DeadLetter} :
    (ofDeadLetter d).deadLetter = d ↔ NamesCursor d.cursor := by
  rw [← nonempty_getD_eq_iff]
  simp only [ofDeadLetter, deadLetter, RetryClass.ofCode_code, Option.getD_some]
  constructor
  · intro h
    exact congrArg DeadLetter.cursor h
  · intro h
    rw [h]

theorem map_eq_self_iff {α : Type} {f : α → α} {l : List α} :
    l.map f = l ↔ ∀ a ∈ l, f a = a := by
  constructor
  · intro h a ha
    have hmap : l.map f = l.map id := by rw [h, List.map_id]
    exact List.map_inj_left.mp hmap a ha
  · intro h
    exact (List.map_congr_left h).trans (List.map_id l)

/-- A state comes back from the fields that are written when no cursor is the empty text. -/
theorem StateRecord.snapshot_ofSnapshot_eq_iff {s : ProviderStateSnapshot} :
    (ofSnapshot s).snapshot = s ↔ s.NamesCursors := by
  have hletters : (s.deadLetters.map LetterRecord.ofDeadLetter).map LetterRecord.deadLetter =
      s.deadLetters ↔ ∀ d ∈ s.deadLetters, NamesCursor d.cursor := by
    rw [List.map_map, map_eq_self_iff]
    exact forall₂_congr fun d _ => LetterRecord.deadLetter_ofDeadLetter_eq_iff
  constructor
  · intro h
    exact ⟨nonempty_getD_eq_iff.mp (congrArg ProviderStateSnapshot.cursor h),
      hletters.mp (congrArg ProviderStateSnapshot.deadLetters h)⟩
  · intro h
    simp only [ofSnapshot, snapshot, nonempty_getD_eq_iff.mpr h.own, hletters.mpr h.deadLetters,
      TimeRecord.time_ofTime, ProviderHealth.ofCode_code, Option.getD_some]

/-- A record comes back from the state that is read when what is absent is zero. -/
theorem StateRecord.ofSnapshot_snapshot_eq_iff {r : StateRecord} (h : r.Valid) :
    ofSnapshot r.snapshot = r ↔ r.AbsentZero := by
  have hletters : (r.letters.map LetterRecord.deadLetter).map LetterRecord.ofDeadLetter =
      r.letters ↔ ∀ l ∈ r.letters, l.AbsentZero := by
    rw [List.map_map, map_eq_self_iff]
    exact forall₂_congr fun l hl => LetterRecord.ofDeadLetter_deadLetter_eq_iff (h.letters l hl)
  obtain ⟨health, hhealth⟩ := Option.isSome_iff_exists.mp h.healthCode
  have hcode : ((ProviderHealth.ofCode r.healthCode).getD .unknown).code = r.healthCode := by
    rw [hhealth, Option.getD_some, ProviderHealth.code_of_ofCode hhealth]
  constructor
  · intro heq
    exact ⟨(TimeRecord.ofTime_time_eq_iff h.nextRetry).mp (congrArg StateRecord.nextRetry heq),
      (TimeRecord.ofTime_time_eq_iff h.lastSuccess).mp (congrArg StateRecord.lastSuccess heq),
      (TimeRecord.ofTime_time_eq_iff h.lastFailure).mp (congrArg StateRecord.lastFailure heq),
      hletters.mp (congrArg StateRecord.letters heq)⟩
  · intro hzero
    simp only [ofSnapshot, snapshot, getD_nonempty, hletters.mpr hzero.letters, hcode,
      (TimeRecord.ofTime_time_eq_iff h.nextRetry).mpr hzero.nextRetry,
      (TimeRecord.ofTime_time_eq_iff h.lastSuccess).mpr hzero.lastSuccess,
      (TimeRecord.ofTime_time_eq_iff h.lastFailure).mpr hzero.lastFailure]

/-- The bytes of a record, read as a state. -/
theorem decodeProviderState_bytes {r : StateRecord} (h : r.Valid) :
    decodeProviderState (providerStateMagic ++ r.bytes) = .ok r.snapshot := by
  have hmark : providerStateMagic.isPrefixOf (providerStateMagic ++ r.bytes) = true := by simp
  rw [decodeProviderState, if_pos hmark]
  exact complete_eq (views_stateFields.reads h)

/-- **The bytes that are accepted** under the mark of the second version are those of a record. -/
theorem exists_record_of_decodeProviderState {s : ProviderStateSnapshot} {payload : List UInt8}
    (hmark : providerStateMagic <+: payload) (h : decodeProviderState payload = .ok s) :
    ∃ r : StateRecord, r.Valid ∧ payload = providerStateMagic ++ r.bytes ∧ s = r.snapshot := by
  obtain ⟨bytes, rfl⟩ := hmark
  have hprefix : providerStateMagic.isPrefixOf (providerStateMagic ++ bytes) = true := by simp
  rw [decodeProviderState, if_pos hprefix] at h
  obtain ⟨r, hr, hbytes, rfl⟩ := views_stateFields.stands (Reader.complete_eq_ok h)
  rw [List.append_nil] at hbytes
  exact ⟨r, hr, hbytes ▸ rfl, rfl⟩

/-- **The codec of a state.** A state that is written comes back when no cursor is the empty text.
Bytes that are accepted under the mark of the second version are those of a record, and they are
written again when what is absent is zero in it. -/
theorem providerState_roundTrip (s : ProviderStateSnapshot) (payload : List UInt8) :
    (encodeProviderState s = .ok payload →
      (decodeProviderState payload = .ok s ↔ s.NamesCursors)) ∧
    (providerStateMagic <+: payload → decodeProviderState payload = .ok s →
      ∃ r : StateRecord, r.Valid ∧ payload = providerStateMagic ++ r.bytes ∧ s = r.snapshot ∧
        (encodeProviderState s = .ok payload ↔ r.AbsentZero)) := by
  constructor
  · intro h
    obtain ⟨hvalid, rfl⟩ := encodeProviderState_eq_ok_iff.mp h
    rw [decodeProviderState_bytes hvalid, Except.ok.injEq, StateRecord.snapshot_ofSnapshot_eq_iff]
  · intro hmark h
    obtain ⟨r, hvalid, rfl, rfl⟩ := exists_record_of_decodeProviderState hmark h
    refine ⟨r, hvalid, rfl, rfl, ?_⟩
    rw [encodeProviderState_eq_ok_iff, List.append_cancel_left_eq,
      ← StateRecord.ofSnapshot_snapshot_eq_iff hvalid]
    constructor
    · rintro ⟨hwritten, hbytes⟩
      exact StateRecord.eq_of_bytes_eq hwritten hvalid hbytes.symm
    · intro heq
      rw [heq]
      exact ⟨hvalid, rfl⟩

namespace ProviderStateSnapshot.Example

/-- A worker that committed the empty cursor and was never deferred. -/
def emptyCursor : ProviderStateSnapshot :=
  ⟨"rss", some "", 1, none, 0, [], .healthy, some 5, none, 0⟩

/-- A worker without a cursor, with the time seven for its retry but no flag. -/
def staleRetry : StateRecord := ⟨"rss", "", 1, ⟨7, 0⟩, 0, 1, ⟨5, 1⟩, ⟨0, 0⟩, 0, []⟩

/-- The empty cursor comes back as none, and the time of the retry as zero. -/
theorem emptyCursor_and_staleRetry_lost :
    (∃ payload decoded, encodeProviderState emptyCursor = .ok payload ∧
      decodeProviderState payload = .ok decoded ∧ decoded.cursor ≠ emptyCursor.cursor) ∧
    ∃ decoded payload, decodeProviderState (providerStateMagic ++ staleRetry.bytes) = .ok decoded ∧
      encodeProviderState decoded = .ok payload ∧
      payload ≠ providerStateMagic ++ staleRetry.bytes :=
  ⟨⟨_, _, rfl, rfl, by decide⟩, _, _, rfl, rfl, by decide⟩

end ProviderStateSnapshot.Example

end NewsProviders

end InsiderTrader
