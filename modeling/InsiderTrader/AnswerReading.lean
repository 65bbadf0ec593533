import InsiderTrader.Responses

/-!
# Reading an answer of a language model back

A complete answer carries its texts. A stream carries deltas and a completion,
which the terminal joins; as each text may be cut on the way, a stream is read
back when no item is cut, the joined text is within its bound and nothing is
blank.

## Main definitions

- `Terminal.receivedItems` — the items of a stream as they arrive
- `Terminal.completed` — the items of a completed stream
- `Terminal.LlmAnswer.Readable`, `Terminal.StreamReadable` — an answer that fits the wire

## Main results

- `Terminal.receivedItems_completed_iff` — the items of a completed stream arrive
- `Terminal.decodeAnalyst_response_iff`, `Terminal.decodeAnalyst_stream_iff` — an answer is
  read back exactly when it is readable
-/

namespace InsiderTrader

namespace Terminal

open Wire

namespace LlmAnswer

variable (response : LlmResponse)

def view : AnalystView := ⟨response.traceId, response.finishReason, response.content⟩

/-- The texts are not cut, and the answer and its trace identity are not blank. -/
structure Readable : Prop where
  traceId : Short response.traceId
  finishReason : Short response.finishReason
  content : Short response.content
  notBlank : ¬(Text.isBlank response.traceId ∨ Text.isBlank response.content)

def arrives : Except String AnalystView := do
  let traceId ← sent response.traceId
  let finishReason ← sent response.finishReason
  let content ← sent response.content
  if ¬(Text.isBlank traceId ∨ Text.isBlank content) then .ok ⟨traceId, finishReason, content⟩
  else .error "analyst response is empty or missing trace identity"

theorem arrives_eq_view_iff : arrives response = .ok (view response) ↔ Readable response := by
  simp only [arrives, bind_eq_ok]
  constructor
  · rintro ⟨_, htrace, _, hreason, _, hcontent, hview⟩
    split at hview
    · next hblank =>
      cases hview
      exact ⟨sent_eq_self_iff.mp htrace, sent_eq_self_iff.mp hreason,
        sent_eq_self_iff.mp hcontent, hblank⟩
    · cases hview
  · intro h
    exact ⟨_, sent_of_short h.traceId, _, sent_of_short h.finishReason,
      _, sent_of_short h.content, if_pos h.notBlank⟩

end LlmAnswer

theorem reads_analystView (response : LlmResponse) :
    Reads analystView [pushString response.traceId, pushString response.finishReason,
      pushString response.content].flatten (LlmAnswer.arrives response) := by
  apply (reads_string _).next
  intro traceId _
  apply (reads_string _).next
  intro finishReason _
  apply (reads_string _).next
  intro content _
  exact Reads.require fun _ => reads_pure _

/-- **A complete answer** is read back exactly when it is readable. -/
theorem decodeAnalyst_response_iff {response : LlmResponse} :
    decodeAnalyst (encodeLlmResponse response) = .ok (LlmAnswer.view response) ↔
      LlmAnswer.Readable response := by
  have hmark : (utf8 "IT_CMD_LLM_STREAM_RESPONSE_V1\x00").isPrefixOf
      (encodeLlmResponse response) = false := rfl
  rw [decodeAnalyst, hmark, if_neg Bool.false_ne_true, encodeLlmResponse,
    afterMagic_eq (reads_analystView response), LlmAnswer.arrives_eq_view_iff]

/-- The items of a stream as they arrive, after some content and perhaps a completion. -/
def receivedItems : List StreamItem → String → Option String →
    Except String (String × Option String)
  | [], content, finishReason => .ok (content, finishReason)
  | .delta text :: items, content, none => do
    let delta ← sent text
    if (utf8 content).length + (utf8 delta).length ≤ maxContentBytes then
      receivedItems items (content ++ delta) none
    else .error "analyst stream content exceeds 1 MiB bound"
  | .done reason :: items, content, none => do
    let reason ← sent reason
    receivedItems items content (some reason)
  | _ :: _, _, some _ => .error "analyst stream contains data after completion"

theorem reads_streamItems (items : List StreamItem) (content : String)
    (finishReason : Option String) :
    Reads (streamItems items.length content finishReason) (items.flatMap encodeStreamItem)
      (receivedItems items content finishReason) := by
  induction items generalizing content finishReason with
  | nil => exact reads_pure _
  | cons item items ih =>
    rw [List.flatMap_cons]
    cases item with
    | delta text =>
      rw [encodeStreamItem, List.flatten_cons, List.append_assoc]
      apply (reads_u8 1).ok_bind
      rw [List.flatten_cons, List.flatten_nil, List.append_nil]
      cases finishReason with
      | none =>
        apply (reads_string text).bind
        intro delta _
        exact Reads.require fun _ => ih (content ++ delta) none
      | some reason => exact fun rest => rfl
    | done reason =>
      rw [encodeStreamItem, List.flatten_cons, List.append_assoc]
      apply (reads_u8 2).ok_bind
      rw [List.flatten_cons, List.flatten_nil, List.append_nil]
      cases finishReason with
      | none =>
        apply (reads_string reason).bind
        intro reason _
        exact ih content (some reason)
      | some reason => exact fun rest => rfl

section Stream

variable {deltas : List String} {reason content c : String} {f : Option String}

/-- The items of a completed stream. -/
def completed (deltas : List String) (reason : String) : List StreamItem :=
  deltas.map .delta ++ [.done reason]

/-- Nothing is longer than it was sent. -/
theorem length_of_receivedItems
    (h : receivedItems (completed deltas reason) content none = .ok (c, f)) :
    (utf8 c).length ≤ (utf8 (content ++ String.join deltas)).length := by
  induction deltas generalizing content with
  | nil =>
    obtain ⟨_, -, hdone⟩ := bind_eq_ok.mp h
    cases hdone
    rw [String.join_nil, String.append_empty]
  | cons delta deltas ih =>
    obtain ⟨cut, hcut, hrest⟩ := bind_eq_ok.mp h
    split at hrest
    · have hle := ih hrest
      have hlength := length_of_sent hcut
      simp only [String.join_cons, length_utf8_append] at hle ⊢
      omega
    · cases hrest

/-- **The items of a completed stream** arrive when none is cut and they fit together. -/
theorem receivedItems_completed_iff (hcontent : (utf8 content).length ≤ maxContentBytes) :
    receivedItems (completed deltas reason) content none =
        .ok (content ++ String.join deltas, some reason) ↔
      (∀ delta ∈ deltas, Short delta) ∧ Short reason ∧
        (utf8 (content ++ String.join deltas)).length ≤ maxContentBytes := by
  induction deltas generalizing content with
  | nil =>
    have hdone : receivedItems (completed [] reason) content none =
        (sent reason >>= fun cut => .ok (content, some cut)) := rfl
    rw [hdone, bind_eq_ok, String.join_nil, String.append_empty]
    constructor
    · rintro ⟨_, hsent, heq⟩
      cases heq
      exact ⟨nofun, sent_eq_self_iff.mp hsent, hcontent⟩
    · rintro ⟨-, hshort, -⟩
      exact ⟨reason, sent_of_short hshort, rfl⟩
  | cons delta deltas ih =>
    have hdelta : receivedItems (completed (delta :: deltas) reason) content none =
        (sent delta >>= fun cut =>
          if (utf8 content).length + (utf8 cut).length ≤ maxContentBytes then
            receivedItems (completed deltas reason) (content ++ cut) none
          else .error "analyst stream content exceeds 1 MiB bound") := rfl
    rw [hdelta, bind_eq_ok, String.join_cons, ← String.append_assoc, List.forall_mem_cons]
    constructor
    · rintro ⟨cut, hcut, hrest⟩
      split at hrest
      · next hfits =>
        -- What arrives is as long as what was sent, so this item is not cut.
        have hshort : Short delta := by
          have hle := length_of_receivedItems hrest
          have hlength := length_of_sent hcut
          simp only [length_utf8_append] at hle
          show (utf8 delta).length ≤ 65535
          omega
        rw [sent_of_short hshort] at hcut
        cases hcut
        obtain ⟨hshorts, hreason, htotal⟩ :=
          (ih (by rw [length_utf8_append]; exact hfits)).mp hrest
        exact ⟨⟨hshort, hshorts⟩, hreason, htotal⟩
      · cases hrest
    · rintro ⟨⟨hshort, hshorts⟩, hreason, htotal⟩
      have hfits : (utf8 (content ++ delta)).length ≤ maxContentBytes := by
        rw [length_utf8_append] at htotal
        omega
      refine ⟨delta, sent_of_short hshort, ?_⟩
      rw [if_pos (by rwa [← length_utf8_append])]
      exact (ih hfits).mpr ⟨hshorts, hreason, htotal⟩

/-- Without its completion a stream has no finish reason. -/
theorem receivedItems_deltas (h : receivedItems (deltas.map .delta) content none = .ok (c, f)) :
    f = none := by
  induction deltas generalizing content with
  | nil =>
    cases h
    rfl
  | cons delta deltas ih =>
    obtain ⟨cut, -, hrest⟩ := bind_eq_ok.mp h
    split at hrest
    · exact ih hrest
    · cases hrest

/-- A stream as it arrives. -/
def streamArrives (traceId : String) (items : List StreamItem) :
    Except String (String × String × Option String) := do
  let traceId ← sent traceId
  if ¬Text.isBlank traceId then do
    let items ← receivedItems (items.take 4096) "" none
    pure (traceId, items)
  else .error "analyst stream is missing trace identity"

theorem reads_analystStream (traceId : String) (items : List StreamItem) :
    Reads analystStream
      [pushString traceId, listBytes encodeStreamItem (items.take 4096)].flatten
      (streamArrives traceId items) := by
  apply (reads_string _).next
  intro traceId _
  apply Reads.require
  intro _
  rw [List.flatten_cons, List.flatten_nil, List.append_nil]
  have hbound : (items.take 4096).length ≤ 4096 := by
    rw [List.length_take]
    omega
  have hcount := reads_count (n := (items.take 4096).length) (show 4096 < 2 ^ 32 - 1 by omega)
  rw [if_pos hbound] at hcount
  apply hcount.ok_bind
  exact (reads_streamItems _ _ _).bind_pure

theorem finishStream_eq_ok_iff {traceId : String} {view : AnalystView} :
    finishStream traceId c f = .ok view ↔
      ∃ reason, f = some reason ∧ ¬Text.isBlank c ∧ view = ⟨traceId, reason, c⟩ := by
  cases f with
  | none => exact iff_of_false nofun nofun
  | some reason =>
    rw [finishStream]
    constructor
    · intro h
      split at h
      · cases h
      · next hblank =>
        cases h
        exact ⟨reason, rfl, hblank, rfl⟩
    · rintro ⟨_, ⟨⟩, hblank, rfl⟩
      exact if_neg hblank

/-- A stream that is complete, not cut and not blank. -/
structure StreamReadable (traceId : String) (deltas : List String) (reason : String) : Prop where
  trace : Short traceId
  traced : ¬Text.isBlank traceId
  count : deltas.length < 4096
  texts : ∀ delta ∈ deltas, Short delta
  finish : Short reason
  fits : (utf8 (String.join deltas)).length ≤ maxContentBytes
  notBlank : ¬Text.isBlank (String.join deltas)

/-- **A stream** is read back exactly when it is readable. -/
theorem decodeAnalyst_stream_iff {traceId : String} :
    decodeAnalyst (encodeLlmStreamResponse traceId (completed deltas reason)) =
        .ok ⟨traceId, reason, String.join deltas⟩ ↔
      StreamReadable traceId deltas reason := by
  have hmark : (utf8 "IT_CMD_LLM_STREAM_RESPONSE_V1\x00").isPrefixOf
      (encodeLlmStreamResponse traceId (completed deltas reason)) = true := rfl
  have hlength : (completed deltas reason).length = deltas.length + 1 := by
    rw [completed, List.length_append, List.length_map]
    rfl
  have hempty : (utf8 "").length ≤ maxContentBytes := Nat.zero_le _
  have hitems : receivedItems (completed deltas reason) "" none =
        .ok ("" ++ String.join deltas, some reason) ↔ _ :=
    receivedItems_completed_iff hempty
  rw [String.empty_append] at hitems
  rw [decodeAnalyst, hmark, if_pos rfl, decodeAnalystStream, encodeLlmStreamResponse,
    afterMagic_eq (reads_analystStream _ _), bind_eq_ok]
  constructor
  · rintro ⟨_, harrives, hview⟩
    obtain ⟨_, htrace, hchecked⟩ := bind_eq_ok.mp harrives
    split at hchecked
    · next htraced =>
      obtain ⟨⟨c, f⟩, hread, hpair⟩ := bind_eq_ok.mp hchecked
      cases hpair
      obtain ⟨_, rfl, hblank, hview⟩ := finishStream_eq_ok_iff.mp hview
      cases hview
      have hcount : deltas.length < 4096 := by
        by_contra hlong
        rw [completed, List.take_append_of_le_length (by rw [List.length_map]; omega),
          ← List.map_take] at hread
        cases receivedItems_deltas hread
      rw [List.take_of_length_le (by omega)] at hread
      obtain ⟨htexts, hfinish, hfits⟩ := hitems.mp hread
      exact ⟨sent_eq_self_iff.mp htrace, htraced, hcount, htexts, hfinish, hfits, hblank⟩
    · cases hchecked
  · intro h
    refine ⟨(traceId, String.join deltas, some reason), ?_, if_neg h.notBlank⟩
    refine bind_eq_ok.mpr ⟨traceId, sent_of_short h.trace, ?_⟩
    have hcount := h.count
    rw [if_pos h.traced, List.take_of_length_le (by omega),
      hitems.mpr ⟨h.texts, h.finish, h.fits⟩]
    rfl

end Stream

end Terminal

end InsiderTrader
