import InsiderTrader.Responses

/-!
# Reading registries, alerts and hits back

What the terminal makes of the bytes of a record, field by field, without the
bytes: each text arrives or is cut, each list arrives within its bound. From
this, a response is decoded into its own view exactly when it is readable.

## Main definitions

- `Terminal.StrategyRegistryRecord.arrives`, ... — a record as the terminal reads it
- `Terminal.StrategyRegistryRecord.view`, ... — the view that the terminal should have of it
- `Terminal.StrategyRegistryRecord.Readable`, ... — its texts and lists fit the wire

## Main results

- `Terminal.decodeStrategies_iff`, `Terminal.decodeMetrics_iff`, `Terminal.decodeAlerts_iff`,
  `Terminal.decodeContextHits_iff` — a response is read back exactly when it is readable
-/

namespace InsiderTrader

namespace Terminal

open Wire

section Lists

variable {max : ℕ} {e : String} {l : List String}

theorem received_sent_eq_self_iff :
    received max e l sent = .ok l ↔ l.length ≤ max ∧ ∀ s ∈ l, Short s := by
  have hids : received max e l sent = .ok (l.map id) ↔
      l.length ≤ max ∧ ∀ s ∈ l, sent s = .ok s := received_eq_ok_map_iff
  rw [List.map_id] at hids
  rw [hids]
  apply and_congr_right
  intro _
  exact forall₂_congr fun s _ => sent_eq_self_iff

theorem exists_received_sent_iff :
    (∃ cut, received max e l sent = .ok cut) ↔ l.length ≤ max ∧ ∀ s ∈ l, Cuttable s := by
  rw [exists_received_iff]
  apply and_congr_right
  intro _
  exact forall₂_congr fun s _ => exists_sent_iff

end Lists

-- Strategies

namespace StrategyRegistryRecord

variable (record : StrategyRegistryRecord)

def view : StrategyView :=
  ⟨record.strategyId, record.mode, record.state, record.lifecycle, record.priority,
    record.metricIds⟩

/-- The displayed texts are not cut, and what is not displayed can be read. -/
structure Readable : Prop where
  strategyId : Short record.strategyId
  mode : Short record.mode
  state : Short record.state
  lifecycle : Short record.lifecycle
  evidence : Cuttable record.lifecycleEvidenceRef
  priority : Short record.priority
  metrics : record.metricIds.length ≤ 4096 ∧ ∀ s ∈ record.metricIds, Short s
  dependencies : record.dependencies.length ≤ 4096 ∧ ∀ s ∈ record.dependencies, Cuttable s

def arrives : Except String StrategyView := do
  let id ← sent record.strategyId
  let mode ← sent record.mode
  let state ← sent record.state
  let lifecycle ← sent record.lifecycle
  let _ ← sent record.lifecycleEvidenceRef
  let priority ← sent record.priority
  let metrics ← received 4096 "wire collection exceeds bound" record.metricIds sent
  let _ ← received 4096 "wire collection exceeds bound" record.dependencies sent
  pure ⟨id, mode, state, lifecycle, priority, metrics⟩

theorem arrives_eq_view_iff : record.arrives = .ok record.view ↔ record.Readable := by
  simp only [arrives, bind_eq_ok]
  constructor
  · rintro ⟨_, hid, _, hmode, _, hstate, _, hlifecycle, _, hevidence, _, hpriority, _, hmetrics,
      _, hdependencies, hview⟩
    cases hview
    exact ⟨sent_eq_self_iff.mp hid, sent_eq_self_iff.mp hmode, sent_eq_self_iff.mp hstate,
      sent_eq_self_iff.mp hlifecycle, exists_sent_iff.mp ⟨_, hevidence⟩,
      sent_eq_self_iff.mp hpriority, received_sent_eq_self_iff.mp hmetrics,
      exists_received_sent_iff.mp ⟨_, hdependencies⟩⟩
  · intro h
    obtain ⟨_, hevidence⟩ := exists_sent_iff.mpr h.evidence
    obtain ⟨_, hdependencies⟩ := exists_received_sent_iff.mpr h.dependencies
    exact ⟨_, sent_of_short h.strategyId, _, sent_of_short h.mode, _, sent_of_short h.state,
      _, sent_of_short h.lifecycle, _, hevidence, _, sent_of_short h.priority,
      _, received_sent_eq_self_iff.mpr h.metrics, _, hdependencies, rfl⟩

end StrategyRegistryRecord

theorem reads_strategyView (record : StrategyRegistryRecord) :
    Reads strategyView (encodeStrategyRegistryRecord record) record.arrives := by
  apply (reads_string _).next
  intro id _
  apply (reads_string _).next
  intro mode _
  apply (reads_string _).next
  intro state _
  apply (reads_string _).next
  intro lifecycle _
  apply (reads_string _).next
  intro _ _
  apply (reads_string _).next
  intro priority _
  apply (reads_u64 _).value
  apply (reads_u64 _).value
  apply (reads_u64 _).value
  apply (reads_u64 _).value
  apply (reads_collection (by omega) fun s _ => reads_string s).next
  intro metrics _
  apply (reads_collection (by omega) fun s _ => reads_string s).next
  intro _ _
  exact reads_pure _

/-- **Strategies** are read back exactly when they are readable. -/
theorem decodeStrategies_iff {records : List StrategyRegistryRecord} :
    decodeStrategies (encodeStrategyRegistryListResponse records) = .ok (records.map (·.view)) ↔
      records.length ≤ 4096 ∧ ∀ record ∈ records, record.Readable := by
  rw [decodeStrategies, encodeStrategyRegistryListResponse,
    afterMagic_eq (reads_collection (by omega) fun record _ => reads_strategyView record),
    received_eq_ok_map_iff]
  apply and_congr_right
  intro _
  exact forall₂_congr fun record _ => record.arrives_eq_view_iff

-- Metrics

namespace MetricRegistryRecord

variable (record : MetricRegistryRecord)

def view : MetricView :=
  ⟨record.metricId, record.state, record.lifecycle, record.priority, record.periodNs,
    record.deadlineNs, record.inputs⟩

/-- The texts are not cut, and the score bounds are finite. -/
structure Readable : Prop where
  metricId : Short record.metricId
  state : Short record.state
  lifecycle : Short record.lifecycle
  priority : Short record.priority
  minScore : isFinite (record.minScore.getD 0) = true
  maxScore : isFinite (record.maxScore.getD 0) = true
  inputs : record.inputs.length ≤ 4096 ∧ ∀ s ∈ record.inputs, Short s

def arrives : Except String MetricView := do
  let id ← sent record.metricId
  let state ← sent record.state
  let lifecycle ← sent record.lifecycle
  let priority ← sent record.priority
  let _ ← sentFloat (record.minScore.getD 0)
  let _ ← sentFloat (record.maxScore.getD 0)
  let inputs ← received 4096 "wire collection exceeds bound" record.inputs sent
  pure ⟨id, state, lifecycle, priority, record.periodNs, record.deadlineNs, inputs⟩

theorem arrives_eq_view_iff : record.arrives = .ok record.view ↔ record.Readable := by
  simp only [arrives, bind_eq_ok]
  constructor
  · rintro ⟨_, hid, _, hstate, _, hlifecycle, _, hpriority, _, hmin, _, hmax, _, hinputs, hview⟩
    cases hview
    exact ⟨sent_eq_self_iff.mp hid, sent_eq_self_iff.mp hstate, sent_eq_self_iff.mp hlifecycle,
      sent_eq_self_iff.mp hpriority, (sentFloat_eq_ok_iff.mp hmin).1,
      (sentFloat_eq_ok_iff.mp hmax).1, received_sent_eq_self_iff.mp hinputs⟩
  · intro h
    exact ⟨_, sent_of_short h.metricId, _, sent_of_short h.state, _, sent_of_short h.lifecycle,
      _, sent_of_short h.priority, _, sentFloat_eq_ok_iff.mpr ⟨h.minScore, rfl⟩,
      _, sentFloat_eq_ok_iff.mpr ⟨h.maxScore, rfl⟩, _, received_sent_eq_self_iff.mpr h.inputs, rfl⟩

end MetricRegistryRecord

theorem reads_metricView (record : MetricRegistryRecord) :
    Reads metricView (encodeMetricRegistryRecord record) record.arrives := by
  apply (reads_string _).next
  intro id _
  apply (reads_string _).next
  intro state _
  apply (reads_string _).next
  intro lifecycle _
  apply (reads_string _).next
  intro priority _
  apply (reads_u64 _).value
  apply (reads_u64 _).value
  apply (reads_u64 _).value
  apply (reads_u64 _).value
  apply (reads_u8 _).value
  apply (reads_f64 _).next
  intro _ _
  apply (reads_u8 _).value
  apply (reads_f64 _).next
  intro _ _
  apply (reads_collection (by omega) fun s _ => reads_string s).next
  intro inputs _
  exact reads_pure _

/-- **Metrics** are read back exactly when they are readable. -/
theorem decodeMetrics_iff {records : List MetricRegistryRecord} :
    decodeMetrics (encodeMetricRegistryListResponse records) = .ok (records.map (·.view)) ↔
      records.length ≤ 4096 ∧ ∀ record ∈ records, record.Readable := by
  rw [decodeMetrics, encodeMetricRegistryListResponse,
    afterMagic_eq (reads_collection (by omega) fun record _ => reads_metricView record),
    received_eq_ok_map_iff]
  apply and_congr_right
  intro _
  exact forall₂_congr fun record _ => record.arrives_eq_view_iff

-- Alerts

namespace AlertRecord

variable (alert : AlertRecord)

def view : AlertView :=
  ⟨alert.alertId, alert.source, alert.occurredMs, alert.severity, alert.message⟩

/-- The displayed texts are not cut, and the dedupe key can be read. -/
structure Readable : Prop where
  alertId : Short alert.alertId
  dedupeKey : Cuttable alert.dedupeKey
  source : Short alert.source
  message : Short alert.message

def arrives : Except String AlertView := do
  let id ← sent alert.alertId
  let _ ← sent alert.dedupeKey
  let source ← sent alert.source
  let message ← sent alert.message
  pure ⟨id, source, alert.occurredMs, alert.severity, message⟩

theorem arrives_eq_view_iff : alert.arrives = .ok alert.view ↔ alert.Readable := by
  simp only [arrives, bind_eq_ok]
  constructor
  · rintro ⟨_, hid, _, hdedupe, _, hsource, _, hmessage, hview⟩
    cases hview
    exact ⟨sent_eq_self_iff.mp hid, exists_sent_iff.mp ⟨_, hdedupe⟩, sent_eq_self_iff.mp hsource,
      sent_eq_self_iff.mp hmessage⟩
  · intro h
    obtain ⟨_, hdedupe⟩ := exists_sent_iff.mpr h.dedupeKey
    exact ⟨_, sent_of_short h.alertId, _, hdedupe, _, sent_of_short h.source,
      _, sent_of_short h.message, rfl⟩

end AlertRecord

theorem reads_alertView (alert : AlertRecord) :
    Reads alertView (encodeAlertRecord alert) alert.arrives := by
  apply (reads_string _).next
  intro id _
  apply (reads_string _).next
  intro _ _
  apply (reads_string _).next
  intro source _
  apply (reads_i64 _).value
  apply (reads_u8 _).value
  apply (reads_u8 _).value
  apply (reads_string _).next
  intro message _
  exact reads_pure _

/-- **Alerts** are read back exactly when they are readable. -/
theorem decodeAlerts_iff {alerts : List AlertRecord} :
    decodeAlerts (encodeAlertsResponse alerts) = .ok (alerts.map (·.view)) ↔
      alerts.length ≤ 4096 ∧ ∀ alert ∈ alerts, alert.Readable := by
  rw [decodeAlerts, encodeAlertsResponse,
    afterMagic_eq (reads_collection (by omega) fun alert _ => reads_alertView alert),
    received_eq_ok_map_iff]
  apply and_congr_right
  intro _
  exact forall₂_congr fun alert _ => alert.arrives_eq_view_iff

-- Context search

namespace RetrievalHit

variable (hit : RetrievalHit)

/-- The texts are not cut, the path is within its bound and the scores are finite. -/
structure Readable : Prop where
  nodeId : Short hit.nodeId
  score : isFinite hit.score = true
  exactScore : isFinite hit.exactScore = true
  lexicalScore : isFinite hit.lexicalScore = true
  vectorScore : isFinite hit.vectorScore = true
  evidencePath : hit.evidencePath.length ≤ 32 ∧ ∀ s ∈ hit.evidencePath, Short s

def arrives : Except String ContextHitView := do
  let nodeId ← sent hit.nodeId
  let score ← sentFloat hit.score
  let exactScore ← sentFloat hit.exactScore
  let lexicalScore ← sentFloat hit.lexicalScore
  let vectorScore ← sentFloat hit.vectorScore
  let evidencePath ← received 32 "context evidence path exceeds bound" hit.evidencePath sent
  pure ⟨nodeId, score, exactScore, lexicalScore, vectorScore, evidencePath⟩

theorem arrives_eq_self_iff : hit.arrives = .ok hit ↔ hit.Readable := by
  simp only [arrives, bind_eq_ok]
  constructor
  · rintro ⟨_, hnode, _, hscore, _, hexact, _, hlexical, _, hvector, _, hpath, hview⟩
    cases hview
    exact ⟨sent_eq_self_iff.mp hnode, (sentFloat_eq_ok_iff.mp hscore).1,
      (sentFloat_eq_ok_iff.mp hexact).1, (sentFloat_eq_ok_iff.mp hlexical).1,
      (sentFloat_eq_ok_iff.mp hvector).1, received_sent_eq_self_iff.mp hpath⟩
  · intro h
    exact ⟨_, sent_of_short h.nodeId, _, sentFloat_eq_ok_iff.mpr ⟨h.score, rfl⟩,
      _, sentFloat_eq_ok_iff.mpr ⟨h.exactScore, rfl⟩,
      _, sentFloat_eq_ok_iff.mpr ⟨h.lexicalScore, rfl⟩,
      _, sentFloat_eq_ok_iff.mpr ⟨h.vectorScore, rfl⟩,
      _, received_sent_eq_self_iff.mpr h.evidencePath, rfl⟩

end RetrievalHit

theorem reads_contextHitView (hit : RetrievalHit) :
    Reads contextHitView (encodeRetrievalHit hit) hit.arrives := by
  apply (reads_string _).next
  intro nodeId _
  apply (reads_f64 _).next
  intro score _
  apply (reads_f64 _).next
  intro exactScore _
  apply (reads_f64 _).next
  intro lexicalScore _
  apply (reads_f64 _).next
  intro vectorScore _
  apply (reads_shortCollection (by omega) List.take_of_length_le fun s _ => reads_string s).next
  intro evidencePath _
  exact reads_pure _

/-- **Hits** are read back exactly when they are readable. -/
theorem decodeContextHits_iff {hits : List RetrievalHit} :
    decodeContextHits (encodeContextSearchResponse hits) = .ok hits ↔
      hits.length ≤ 256 ∧ ∀ hit ∈ hits, hit.Readable := by
  have hids : received 256 "too many context search hits" hits RetrievalHit.arrives =
      .ok (hits.map id) ↔ hits.length ≤ 256 ∧ ∀ hit ∈ hits, hit.arrives = .ok hit :=
    received_eq_ok_map_iff
  rw [List.map_id] at hids
  rw [decodeContextHits, encodeContextSearchResponse, afterMagic_eq (reads_shortCollection (by omega)
    List.take_of_length_le fun hit _ => reads_contextHitView hit), hids]
  apply and_congr_right
  intro _
  exact forall₂_congr fun hit _ => hit.arrives_eq_self_iff

end Terminal

end InsiderTrader
