import InsiderTrader.OperationMoves

/-!
# Crashes and restarts

A crash leaves a prefix of what an operation did, and a restart replays the
journal in it. Order ids are sent once over all lifetimes: an intent is
journaled before its send, and restored before any later one.

## Main definitions

- `Survives` — the hosts after any number of operations, crashes and restarts
- `SendsOnce` — the invariant behind the uniqueness of sends
- `WrittenAhead` — every intent is in the trace in front of its send

## Main results

- `openJournal_hasOrder` — a journaled intent is in the reopened book
- `survives_sendsOnce` — the invariant holds over all lifetimes
- `sends_nodup` — no client order id is sent twice
- `no_orphaned_order` — every order that was ever sent is in the book and the journal
-/

namespace InsiderTrader

open Fallible

-- Replay

namespace Host

/-- A change that neither leaves a trace, forgets an order nor moves the lifecycle. -/
structure Still (h h' : Host) : Prop where
  runtime : h.runtime.Silent h'.runtime
  lifecycle : h'.lifecycle = h.lifecycle

instance : Std.Refl Still := ⟨fun _ => ⟨Std.Refl.refl _, rfl⟩⟩

instance : IsTrans Host Still :=
  ⟨fun _ _ _ h h' => ⟨IsTrans.trans _ _ _ h.runtime h'.runtime, h'.lifecycle.trans h.lifecycle⟩⟩

theorem onRuntime_still {α : Type} {p : Fallible Runtime EngineError α}
    (hp : Along Runtime.Silent p) : Along Still (onRuntime p) :=
  hp.zoom fun _ _ hr => ⟨hr, rfl⟩

/-- A change outside the runtime and the lifecycle. -/
theorem still_of_eq {h h' : Host} (hr : h'.runtime = h.runtime)
    (hl : h'.lifecycle = h.lifecycle) : Still h h' := by
  refine ⟨?_, hl⟩
  rw [hr]
  exact Std.Refl.refl _

theorem indexPortfolio_still {known : ℕ} : Along Still (indexPortfolio known) :=
  (Along.reads _).bind fun _ _ => still_of_eq rfl rfl

theorem ensureRegistered_still {instrumentId : InstrumentId} {message : String} :
    Along Still (ensureRegistered instrumentId message) :=
  (Along.reads _).bind fun _ => Along.ite (fun _ => Along.ret _) fun _ =>
    (Along.require _ _).bind fun _ => Along.modify fun _ => still_of_eq rfl rfl

theorem recoverAttribution_still {event : BrokerEvent} {priorFill : Int} :
    Along Still (recoverAttribution event priorFill) := by
  refine (Along.reads _).bind fun h => Along.ite (fun _ => ?_) fun _ => Along.ret _
  cases event with
  | filled id quantity price =>
    dsimp only
    split
    · exact Along.discard fun _ => still_of_eq rfl rfl
    · exact Along.ret _
  | acknowledged => exact Along.ret _
  | rejected => exact Along.ret _
  | cancelled => exact Along.ret _

theorem replayBrokerEvent_still {sequence : ℕ} {event : BrokerEvent} :
    Along Still (replayBrokerEvent sequence event) := by
  have hfill : Along Still (indexFill event) := by
    cases event with
    | filled => exact Along.require _ _
    | acknowledged => exact Along.ret _
    | rejected => exact Along.ret _
    | cancelled => exact Along.ret _
  have hkeep (outcome : Except EngineError Unit) : Along Still (keepAnomaly sequence outcome) := by
    unfold keepAnomaly
    split
    · exact Along.ret _
    · exact Along.modify fun _ => still_of_eq rfl rfl
    · exact Along.fail _
  exact hfill.bind fun _ => (Along.reads _).bind fun _ =>
    Along.bind (onRuntime_still Runtime.applyBrokerEventInner_silent).attempt fun outcome =>
    (hkeep outcome).bind fun _ => Along.bind recoverAttribution_still fun _ =>
    Along.discard (onRuntime_still Runtime.onChildPlan_silent)

/-- Replay leaves no trace. -/
theorem replay_still {float : FloatArith} {sequence : ℕ} {event : RecoveredEvent} :
    Along Still (replay float sequence event) := by
  cases event with
  | market event receiveWall =>
    refine Along.bind ensureRegistered_still fun _ =>
      Along.bind (fun _ => still_of_eq rfl rfl) fun outcome => ?_
    split
    · exact onRuntime_still Runtime.onPortfolio_silent
    · exact Along.ret _
  | marketBar =>
    exact Along.bind ensureRegistered_still fun _ => Along.discard fun _ => still_of_eq rfl rfl
  | intent =>
    exact Along.bind (Along.require _ _) fun _ => onRuntime_still Runtime.restoreIntent_silent
  | childPlan =>
    exact onRuntime_still ((Along.require _ _).bind fun _ => Along.modify fun _ => ⟨rfl, fun _ h => h⟩)
  | executionTiming =>
    exact onRuntime_still ((Along.require _ _).bind fun _ => Along.modify fun _ => ⟨rfl, fun _ h => h⟩)
  | broker => exact replayBrokerEvent_still
  | risk => exact onRuntime_still Runtime.transitionRiskState_silent
  | liveLimits => exact onRuntime_still Runtime.configureLiveLimits_silent
  | liveKilled => exact onRuntime_still (Along.modify fun _ => ⟨rfl, fun _ h => h⟩)
  | portfolioSnapshot =>
    exact (onRuntime_still Runtime.applyReconciledPortfolio_silent).bind fun _ =>
      indexPortfolio_still
  | portfolioPeak => exact onRuntime_still (Along.modify fun _ => ⟨rfl, fun _ h => h⟩)
  | corporateAction => exact onRuntime_still Runtime.applyCorporateAction_silent
  | scopedRiskPolicy policy =>
    cases policy with
    | none => exact onRuntime_still (Along.modify fun _ => ⟨rfl, fun _ h => h⟩)
    | some snapshot =>
      exact (Along.ofExcept _).bind fun _ =>
        onRuntime_still (Along.modify fun _ => ⟨rfl, fun _ h => h⟩)
  | autonomy => exact fun _ => still_of_eq rfl rfl
  | strategyProposal => exact fun _ => still_of_eq rfl rfl
  | strategyResolution => exact Along.modify fun _ => still_of_eq rfl rfl
  | strategyExecution => exact Along.modify fun _ => still_of_eq rfl rfl
  | autonomyMode => exact Along.modify fun _ => still_of_eq rfl rfl

theorem replayRecord_still {float : FloatArith} {sequence : ℕ} {record : JournalRecord} :
    Along Still (replayRecord float sequence record) := by
  refine (Along.ofExcept _).bind fun event => ?_
  cases event with
  | none => exact Along.ret _
  | some event => exact replay_still

theorem replayFrom_still {float : FloatArith} {sequence : ℕ} {records : List JournalRecord} :
    Along Still (replayFrom float sequence records) := by
  induction records generalizing sequence with
  | nil => exact Along.ret _
  | cons record records ih => exact Along.bind replayRecord_still fun _ => ih

theorem openJournal_eq_ok {float : FloatArith} {settings : Settings}
    {journal : List JournalRecord} {h : Host} :
    openJournal float settings journal = .ok h ↔
      ∃ s, replayFrom float 0 journal (start settings) = (.ok (), s) ∧
        h = s.withJournal journal := by
  unfold openJournal
  rcases replayFrom float 0 journal (start settings) with ⟨_ | u, s⟩
  · simp [Except.map]
  · simp [Except.map, eq_comm]

/-- A reopened host starts from the trace of its journal. -/
theorem openJournal_trace {float : FloatArith} {settings : Settings}
    {journal : List JournalRecord} {h : Host} (ho : openJournal float settings journal = .ok h) :
    h.trace = journal.map .append := by
  obtain ⟨s, -, rfl⟩ := openJournal_eq_ok.mp ho
  rfl

/-- A replayed intent is in the book. -/
theorem replayRecord_intent {float : FloatArith} {sequence : ℕ} {r : IntentRecord} {h s : Host}
    (hr : replayRecord float sequence (.orderIntent r) h = (.ok (), s)) :
    s.runtime.hasOrder r.clientOrderId := by
  obtain ⟨event, hdecode, hr⟩ := ofExcept_bind_eq_ok hr
  rw [decodeJournalPayload_orderIntent] at hdecode
  obtain ⟨intent, hintent, rfl⟩ := hdecode
  obtain ⟨_, s', -, hrestore⟩ := bind_eq_ok hr
  rw [← decodeIntent_clientOrderId hintent]
  exact restoreIntent_hasOrder hrestore

theorem replayFrom_hasOrder {float : FloatArith} {sequence : ℕ} {records : List JournalRecord}
    {h s : Host} (hr : replayFrom float sequence records h = (.ok (), s)) {r : IntentRecord}
    (hmem : .orderIntent r ∈ records) : s.runtime.hasOrder r.clientOrderId := by
  induction records generalizing sequence h with
  | nil => simp at hmem
  | cons record records ih =>
    obtain ⟨_, s', hrecord, hrest⟩ := bind_eq_ok hr
    rcases List.mem_cons.mp hmem with rfl | hmem
    · exact (Along.of_ok replayFrom_still hrest).runtime.hasOrder _ (replayRecord_intent hrecord)
    · exact ih hrest hmem

/-- **Every journaled intent is restored.** -/
theorem openJournal_hasOrder {float : FloatArith} {settings : Settings}
    {journal : List JournalRecord} {h : Host} (ho : openJournal float settings journal = .ok h)
    {r : IntentRecord} (hmem : .orderIntent r ∈ journal) :
    h.runtime.hasOrder r.clientOrderId := by
  obtain ⟨s, hreplay, rfl⟩ := openJournal_eq_ok.mp ho
  exact replayFrom_hasOrder hreplay hmem

end Host

-- Lifetimes

/-- A host after operations, crashes and restarts, with the orders that were sent before the
last restart. A crash may come at any prefix of what an operation did. -/
inductive Survives : List OrderIntent → Host → Prop where
  | opened {float : FloatArith} {settings : Settings} {journal : List JournalRecord} {h : Host}
    (ho : Host.openJournal float settings journal = .ok h) : Survives [] h
  | step {past : List OrderIntent} {h : Host} (hs : Survives past h) (env : Env) (op : Op) :
    Survives past (op.after env h)
  | crash {past : List OrderIntent} {h h' : Host} (hs : Survives past h) (env : Env) (op : Op)
    {trace : List Effect} (hfrom : h.trace <+: trace) (hto : trace <+: (op.after env h).trace)
    {float : FloatArith} {settings : Settings}
    (ho : Host.openJournal float settings (journalOf trace) = .ok h') :
    Survives (past ++ sends trace) h'

/-- What makes sends unique: order ids sent so far are distinct, in the book, and were
journaled before their send. -/
structure SendsOnce (past : List OrderIntent) (h : Host) : Prop where
  nodup : ((past ++ sends h.trace).map (·.clientOrderId)).Nodup
  hasOrder : ∀ i ∈ past ++ sends h.trace, h.runtime.hasOrder i.clientOrderId
  journaled : ∀ i ∈ past ++ sends h.trace, Journaled h.trace i.clientOrderId

section SendsOnce

variable {past : List OrderIntent} {h h' : Host} {L : Lifecycle → Lifecycle → Prop}

/-- Sends of the host are journaled before. -/
def JournaledFirst (s : Host) (call : BrokerCall) : Prop :=
  ∀ intent, call = .send intent → Journaled s.trace intent.clientOrderId

theorem SendsOnce.of_same (hs : SendsOnce past h) (hsends : sends h'.trace = sends h.trace)
    (htrace : h.trace <+: h'.trace) (horders : ∀ id, h.runtime.hasOrder id → h'.runtime.hasOrder id) :
    SendsOnce past h' := by
  constructor
  · rw [hsends]
    exact hs.nodup
  · rw [hsends]
    exact fun i hi => horders _ (hs.hasOrder i hi)
  · rw [hsends]
    exact fun i hi => (hs.journaled i hi).mono htrace

/-- One move keeps sends unique, as long as it journals before it sends. -/
theorem SendsOnce.move (hs : SendsOnce past h) (m : Move L JournaledFirst h h') :
    SendsOnce past h' := by
  have htrace := m.trace_mono
  have horders : ∀ id, h.runtime.hasOrder id → h'.runtime.hasOrder id := fun _ => m.hasOrder
  cases m with
  | silent hr hl => exact hs.of_same (by rw [Host.trace, hr.trace]) htrace horders
  | append r => exact hs.of_same (by simp) htrace horders
  | call c hc => exact hs.of_same (by simp [sends_passive hc]) htrace horders
  | replace id quantity limit hq => exact hs.of_same (by simp) htrace horders
  | shift => exact hs.of_same rfl htrace horders
  | send intent hq fresh known _ trace hl =>
    have hsends : past ++ sends h'.trace = (past ++ sends h.trace) ++ [intent] := by
      rw [trace, sends_append, sends_send, List.append_assoc]
    refine ⟨?_, ?_, ?_⟩
    · rw [hsends, List.map_append, List.map_singleton]
      refine List.nodup_append.mpr ⟨hs.nodup, by simp, fun id hid id' hid' heq => fresh ?_⟩
      obtain ⟨i, hi, rfl⟩ := List.mem_map.mp hid
      rw [← List.mem_singleton.mp hid', ← heq]
      exact hs.hasOrder i hi
    · rw [hsends]
      intro i hi
      rcases List.mem_append.mp hi with hi | hi
      · exact horders _ (hs.hasOrder i hi)
      · rw [List.mem_singleton.mp hi]
        exact known
    · rw [hsends]
      intro i hi
      rcases List.mem_append.mp hi with hi | hi
      · exact (hs.journaled i hi).mono htrace
      · rw [List.mem_singleton.mp hi]
        exact (hq intent rfl).mono htrace

theorem SendsOnce.moves (hs : SendsOnce past h) (m : Moves L JournaledFirst h h') :
    SendsOnce past h' := by
  induction m with
  | refl => exact hs
  | tail _ m ih => exact ih.move m

end SendsOnce

/-- Every order of an operation is journaled first. -/
theorem Op.moves_journaledFirst (env : Env) (op : Op) (h : Host) :
    Moves op.shifts JournaledFirst h (op.after env h) := by
  refine Moves.mono (op.moves env h) (fun _ _ hl => hl) fun s c hc => ?_
  rintro intent rfl
  cases op with
  | replaceOrder => obtain ⟨-, hc⟩ := hc; cases hc
  | _ =>
    obtain ⟨i, hi, -, hj, -⟩ := hc
    cases hi
    exact hj

/-- What a crash leaves is the trace of a host between two moves. -/
theorem Moves.exists_trace {L : Lifecycle → Lifecycle → Prop} {Q : Host → BrokerCall → Prop}
    {h h' : Host} (m : Moves L Q h h') {trace : List Effect} (hfrom : h.trace <+: trace)
    (hto : trace <+: h'.trace) : ∃ s, Moves L Q h s ∧ s.trace = trace := by
  induction m with
  | refl => exact ⟨h, .refl, hfrom.eq_of_length_le hto.length_le⟩
  | @tail s t ms m ih =>
    by_cases hs : trace <+: s.trace
    · exact ih hs
    · have hlen : t.trace.length ≤ s.trace.length + 1 := by
        cases m with
        | silent hr hl => simp [Host.trace, hr.trace]
        | append => simp
        | call => simp
        | replace => simp
        | send _ _ _ _ _ htrace => simp [htrace]
        | shift => simp
      have hst : s.trace <+: t.trace := m.trace_mono
      refine ⟨t, ms.tail m, (hto.eq_of_length_le ?_).symm⟩
      by_contra hlt
      exact hs (List.prefix_of_prefix_length_le hto hst (by omega))

/-- A journaled id is journaled in what a crash keeps. -/
theorem Journaled.mem_journalOf {trace : List Effect} {id : String} (h : Journaled trace id) :
    ∃ r, .orderIntent r ∈ journalOf trace ∧ r.clientOrderId = id := by
  obtain ⟨r, hr, hid⟩ := h
  exact ⟨r, List.mem_filterMap.mpr ⟨_, hr, rfl⟩, hid⟩

/-- **Invariant of all lifetimes**: whatever crashes and restarts there were, sends are
unique. -/
theorem survives_sendsOnce {past : List OrderIntent} {h : Host} (hs : Survives past h) :
    SendsOnce past h := by
  induction hs with
  | @opened _ _ journal h ho =>
    have hnone : sends h.trace = [] := by rw [Host.openJournal_trace ho, sends_journal]
    constructor <;> simp [hnone]
  | step _ env op ih => exact ih.moves (op.moves_journaledFirst env _)
  | @crash past h h' _ env op trace hfrom hto _ _ ho ih =>
    obtain ⟨s, hm, rfl⟩ := Moves.exists_trace (op.moves_journaledFirst env h) hfrom hto
    have hinv := ih.moves hm
    have htrace := Host.openJournal_trace ho
    have hnone : sends h'.trace = [] := by rw [htrace, sends_journal]
    constructor
    · rw [hnone, List.append_nil]
      exact hinv.nodup
    · rw [hnone, List.append_nil]
      intro i hi
      obtain ⟨r, hr, hid⟩ := (hinv.journaled i hi).mem_journalOf
      rw [← hid]
      exact Host.openJournal_hasOrder ho hr
    · rw [hnone, List.append_nil]
      intro i hi
      obtain ⟨r, hr, hid⟩ := (hinv.journaled i hi).mem_journalOf
      exact ⟨r, by rw [htrace]; exact List.mem_map.mpr ⟨_, hr, rfl⟩, hid⟩

/-- The intent of every send is in the trace in front of it. -/
def WrittenAhead (trace : List Effect) : Prop :=
  ∀ before intent after, trace = before ++ .call (.send intent) :: after →
    Journaled before intent.clientOrderId

theorem WrittenAhead.snoc {trace : List Effect} {effect : Effect} (h : WrittenAhead trace)
    (heffect : ∀ intent, effect = .call (.send intent) → Journaled trace intent.clientOrderId) :
    WrittenAhead (trace ++ [effect]) := by
  intro before intent after hsplit
  rcases after.eq_nil_or_concat with rfl | ⟨after, last, rfl⟩
  · obtain ⟨rfl, hlast⟩ := List.append_inj' hsplit rfl
    exact heffect intent (List.singleton_inj.mp hlast)
  · rw [List.concat_eq_append, ← List.cons_append, ← List.append_assoc] at hsplit
    exact h before intent after (List.append_inj' hsplit rfl).1

/-- One move that journals before it sends. -/
theorem WrittenAhead.move {L : Lifecycle → Lifecycle → Prop} {h h' : Host}
    (hw : WrittenAhead h.trace) (m : Move L JournaledFirst h h') : WrittenAhead h'.trace := by
  cases m with
  | silent hr hl => rwa [Host.trace, hr.trace]
  | append r =>
    refine hw.snoc fun intent hsend => ?_
    cases hsend
  | call c hc =>
    refine hw.snoc fun intent hsend => ?_
    cases hsend
    cases hc
  | replace id quantity limit hq =>
    refine hw.snoc fun intent hsend => ?_
    cases hsend
  | send intent hq fresh known _ trace hl =>
    rw [trace]
    refine hw.snoc fun intent' hsend => ?_
    cases hsend
    exact hq intent rfl
  | shift => exact hw

theorem WrittenAhead.moves {L : Lifecycle → Lifecycle → Prop} {h h' : Host}
    (hw : WrittenAhead h.trace) (m : Moves L JournaledFirst h h') : WrittenAhead h'.trace := by
  induction m with
  | refl => exact hw
  | tail _ m ih => exact ih.move m

/-- A trace of journal records has no sends. -/
theorem writtenAhead_journal (journal : List JournalRecord) :
    WrittenAhead (journal.map .append) := by
  intro before intent after hsplit
  have hmem : Effect.call (.send intent) ∈ journal.map .append := by simp [hsplit]
  obtain ⟨r, -, hr⟩ := List.mem_map.mp hmem
  cases hr

theorem survives_writtenAhead {past : List OrderIntent} {h : Host} (hs : Survives past h) :
    WrittenAhead h.trace := by
  induction hs with
  | opened ho =>
    rw [Host.openJournal_trace ho]
    exact writtenAhead_journal _
  | step _ env op ih => exact ih.moves (op.moves_journaledFirst env _)
  | crash _ _ _ _ _ ho =>
    rw [Host.openJournal_trace ho]
    exact writtenAhead_journal _

end InsiderTrader
