import InsiderTrader.Evaluation
import InsiderTrader.Library.Fallible
import InsiderTrader.Library.JsonValue
import InsiderTrader.Library.Text
import InsiderTrader.Library.Wire
import InsiderTrader.Operation

/-!
# The metric host

Metrics are evaluated one at a time. What a metric answers is validated against
its descriptor and its age is checked; whose instrument the answer is about is
not. A Python worker is asked by a frame and answers by whatever frame is next
in its queue.

## Main definitions

- `HostedMetric` — a metric in the process, or a Python worker
- `MetricHost.evaluate` — the validated answer of a hosted metric
- `HostedMetric.Names` — the answer is about the instrument of the context

## Main results

- `evaluate_spec` — what an answer of the host went through
- `evaluate_answers_iff` — the answers that are about what was asked
-/

namespace InsiderTrader

/-- Metric evaluation failure. -/
inductive MetricError where
  | missingInput (name : String)
  | invalidOutput (what : String)
  | deadlineExceeded
  | staleOutput
  deriving DecidableEq

/-- Immutable metadata of a metric. -/
structure MetricDescriptor where
  metricId : String
  inputs : List String
  minScore : Option F64
  maxScore : Option F64
  ttlNs : ℕ
  deriving DecidableEq

/-- Scheduler priority of a metric. -/
inductive MetricPriority where
  | fast
  | normal
  | background
  deriving DecidableEq

/-- Scheduling contract of a metric package. -/
structure MetricManifest where
  descriptor : MetricDescriptor
  periodNs : ℕ
  deadlineNs : ℕ
  budgetNs : ℕ
  priority : MetricPriority
  deriving DecidableEq

def MetricManifest.validate (m : MetricManifest) : Except MetricError Unit :=
  if Text.isBlank m.descriptor.metricId ∨ m.descriptor.ttlNs = 0 ∨ m.periodNs = 0 ∨ m.deadlineNs = 0
      ∨ m.budgetNs = 0 ∨ m.deadlineNs < m.budgetNs ∨ m.descriptor.inputs.any Text.isBlank then
    .error (.invalidOutput "metric manifest")
  else .ok ()

/-- Inputs of one evaluation. -/
structure MetricContext where
  instrumentId : Option InstrumentId
  features : Std.TreeMap String F64
  now : MonoTime

/-- Validate an answer against the descriptor of its metric. -/
def MetricOutput.validate (float : FloatArith) (output : MetricOutput)
    (descriptor : MetricDescriptor) : Except MetricError Unit :=
  if output.metricId ≠ descriptor.metricId then .error (.invalidOutput "metric_id")
  else if ¬(float.isFinite output.score ∧ float.isFinite output.confidence
      ∧ float.isFinite output.uncertainty) then .error (.invalidOutput "non-finite output")
  else if ¬float.inUnit output.confidence ∨ float.exceeds float.zero output.uncertainty then
    .error (.invalidOutput "confidence or uncertainty")
  else if descriptor.minScore.any (float.exceeds · output.score)
      ∨ descriptor.maxScore.any (float.exceeds output.score) then
    .error (.invalidOutput "score bounds")
  else if output.ttlNs = 0 ∨ descriptor.ttlNs < output.ttlNs then .error (.invalidOutput "ttl")
  else .ok ()

-- Python workers

/-- Largest frame of a worker. -/
def pythonMaxFrameBytes : ℕ := 1048576

/-- A Python worker, in a world of which its process is a part. -/
structure PythonMetricProcess (W : Type) where
  manifest : MetricManifest
  /-- the JSON text of a request -/
  encode : MetricContext → Option (List UInt8)
  /-- write a framed request; the worker may do anything meanwhile -/
  write : List UInt8 → W → Bool × W
  /-- take the next frame that the worker has sent, unless the deadline passes -/
  receive : W → Option (List UInt8) × W
  kill : W → W
  parseJson : List UInt8 → Option JsonValue
  double : JsonNumber → F64

namespace PythonMetricProcess

variable {W : Type}

/-- The metric of a frame that reports success. -/
def frameMetric (p : PythonMetricProcess W) (response : List UInt8) :
    Except MetricError JsonValue := do
  if ¬(0 < response.length ∧ response.length ≤ pythonMaxFrameBytes) then
    .error (.invalidOutput "python response bounds")
  else
    let value ← (p.parseJson response).elim (.error (.invalidOutput "python response JSON")) .ok
    if (value.field "ok").bind JsonValue.asBool ≠ some true then
      .error (.invalidOutput "python metric failure")
    else (value.field "metric").elim (.error (.invalidOutput "python metric missing")) .ok

/-- The instrument that a metric names. -/
def instrumentOf (metric : JsonValue) : Option InstrumentId :=
  (((metric.field "instrument_id").bind JsonValue.asString).bind fun text =>
    Text.parseRadix 10 (2 ^ 128) text.toList).filter (0 < ·)

/-- Read the answer of a frame. -/
def readOutput (p : PythonMetricProcess W) (metric : JsonValue) :
    Except MetricError MetricOutput := do
  let read {α : Type} (value : Option α) (what : String) : Except MetricError α :=
    value.elim (.error (.invalidOutput what)) .ok
  let double (key : String) := ((metric.field key).bind JsonValue.asNumber).map p.double
  let metricId ← read ((metric.field "metric_id").bind JsonValue.asString) "python metric ID"
  let instrumentId ← read (instrumentOf metric) "python instrument ID"
  let generated ← read ((metric.field "generated_mono_ns").bind JsonValue.asNat64)
    "python generated time"
  let ttl ← read ((metric.field "ttl_ns").bind JsonValue.asNat64) "python ttl"
  let score ← read (double "score") "python score"
  let confidence ← read (double "confidence") "python confidence"
  let uncertainty ← read (double "uncertainty") "python uncertainty"
  .ok ⟨metricId, instrumentId, generated, ttl, score, confidence, uncertainty⟩

/-- Send the request of a context; the frame that is next afterwards answers it. -/
def exchange (p : PythonMetricProcess W) (context : MetricContext) :
    Fallible W MetricError (List UInt8) := do
  let _ ← Fallible.orFail context.instrumentId (.missingInput "instrument_id")
  let payload ← Fallible.orFail (p.encode context) (.invalidOutput "python request")
  Fallible.require (0 < payload.length ∧ payload.length ≤ pythonMaxFrameBytes)
    (.invalidOutput "python request bounds")
  fun w =>
    match p.write payload w with
    | (false, w) => (.error (.invalidOutput "python worker write"), w)
    | (true, w) =>
      match p.receive w with
      | (none, w) => (.error .deadlineExceeded, p.kill w)
      | (some response, w) => (.ok response, w)

/-- Ask the worker. -/
def request (float : FloatArith) (p : PythonMetricProcess W) (context : MetricContext) :
    Fallible W MetricError MetricOutput := do
  let response ← p.exchange context
  let metric ← Fallible.ofExcept (p.frameMetric response)
  let output ← Fallible.ofExcept (p.readOutput metric)
  Fallible.ofExcept (output.validate float p.manifest.descriptor)
  pure output

end PythonMetricProcess

-- Hosted metrics

/-- A metric that a host can evaluate. -/
inductive HostedMetric (W : Type) where
  | inProcess (descriptor : MetricDescriptor) (manifest : MetricManifest)
      (evaluate : MetricContext → Fallible W MetricError MetricOutput)
  | python (process : PythonMetricProcess W)

namespace HostedMetric

variable {W : Type}

def manifest : HostedMetric W → MetricManifest
  | inProcess _ manifest _ => manifest
  | python process => process.manifest

def descriptor : HostedMetric W → MetricDescriptor
  | inProcess descriptor _ _ => descriptor
  | python process => process.manifest.descriptor

def evaluate (float : FloatArith) : HostedMetric W → MetricContext →
    Fallible W MetricError MetricOutput
  | inProcess _ _ evaluate => evaluate
  | python process => process.request float

end HostedMetric

/-- Lifecycle state of a hosted metric. -/
inductive MetricState where
  | ready
  | quarantined
  deriving DecidableEq

/-- Promotion of a metric package. -/
inductive MetricLifecycle where
  | research
  | validated
  | shadow
  | canary
  | production
  | paused
  | retired
  deriving DecidableEq

/-- A registered metric. -/
structure MetricEntry (W : Type) where
  metric : HostedMetric W
  manifest : MetricManifest
  state : MetricState
  lifecycle : MetricLifecycle
  lifecycleEvidenceRef : String
  failures : ℕ

/-- The metrics by their identities; a metric is registered under its own. -/
structure MetricHost (W : Type) where
  failureLimit : ℕ
  entries : Std.TreeMap String (MetricEntry W)
  keyed : ∀ (id : String) (entry : MetricEntry W), entries[id]? = some entry →
    entry.metric.descriptor.metricId = id

/-- Registration or evaluation failure of the host. -/
inductive MetricHostError where
  | duplicate (metricId : String)
  | invalidManifest (metricId : String)
  | unavailable (metricId : String)
  | evaluation (error : MetricError)
  deriving DecidableEq

namespace MetricHost

variable {W : Type}

/-- A host without metrics. -/
def new (failureLimit : ℕ) : MetricHost W := ⟨failureLimit, ∅, by simp⟩

/-- Change what the host notes of a metric, not the metric. -/
def update (h : MetricHost W) (metricId : String) (f : MetricEntry W → MetricEntry W)
    (hf : ∀ entry, (f entry).metric = entry.metric) : MetricHost W where
  failureLimit := h.failureLimit
  entries := h.entries.modify metricId f
  keyed id entry hget := by
    rw [Std.TreeMap.getElem?_modify] at hget
    split at hget
    · next heq =>
      obtain ⟨old, hold, rfl⟩ := Option.map_eq_some_iff.mp hget
      rw [hf, ← Std.LawfulEqOrd.eq_of_compare heq]
      exact h.keyed _ old hold
    · exact h.keyed _ entry hget

/-- Register a metric under the identity of its descriptor. -/
def registerWithLifecycle (h : MetricHost W) (metric : HostedMetric W)
    (lifecycle : MetricLifecycle) : Except MetricHostError (MetricHost W) :=
  let id := metric.descriptor.metricId
  if h.entries.contains id then .error (.duplicate id)
  else if metric.manifest.descriptor.metricId ≠ id then .error (.invalidManifest id)
  else
    match metric.manifest.validate with
    | .error _ => .error (.invalidManifest id)
    | .ok _ =>
      .ok
        { failureLimit := h.failureLimit
          entries := h.entries.insert id
            ⟨metric, metric.manifest, .ready, lifecycle, "registration", 0⟩
          keyed := fun key entry hget => by
            rw [Std.TreeMap.getElem?_insert] at hget
            split at hget
            · next heq =>
              cases hget
              exact Std.LawfulEqOrd.eq_of_compare heq
            · exact h.keyed key entry hget }

/-- Register a metric that is fully eligible. -/
def register (h : MetricHost W) (metric : HostedMetric W) :
    Except MetricHostError (MetricHost W) :=
  h.registerWithLifecycle metric .production

/-- The lifecycle transitions that are permitted. -/
def permits : MetricLifecycle → MetricLifecycle → Bool
  | .research, .validated | .research, .retired => true
  | .validated, .shadow | .validated, .retired => true
  | .shadow, .canary | .shadow, .retired => true
  | .canary, .production | .canary, .paused | .canary, .retired => true
  | .production, .paused | .production, .retired => true
  | .paused, .canary | .paused, .production | .paused, .retired => true
  | _, _ => false

/-- Apply a permitted lifecycle transition. -/
def transitionLifecycle (h : MetricHost W) (metricId : String) (next : MetricLifecycle)
    (evidenceRef : String) : Bool × MetricHost W :=
  if (h.entries[metricId]?).any fun entry => permits entry.lifecycle next then
    (true, h.update metricId
      ({ · with lifecycle := next, lifecycleEvidenceRef := evidenceRef }) fun _ => rfl)
  else (false, h)

/-- Resume a quarantined metric. -/
def resume (h : MetricHost W) (metricId : String) : Bool × MetricHost W :=
  if h.entries.contains metricId then
    (true, h.update metricId ({ · with state := .ready, failures := 0 }) fun _ => rfl)
  else (false, h)

/-- Count a failure; too many of them in a row quarantine the metric. -/
def noteFailure (h : MetricHost W) (metricId : String) : MetricHost W :=
  h.update metricId (fun entry =>
    let failures := min (entry.failures + 1) (2 ^ 32 - 1)
    { entry with
      failures := failures
      state := if max h.failureLimit 1 ≤ failures then .quarantined else entry.state })
    fun _ => rfl

def noteSuccess (h : MetricHost W) (metricId : String) : MetricHost W :=
  h.update metricId ({ · with failures := 0 }) fun _ => rfl

/-- A metric that may be evaluated, for live use or in its shadow. -/
def eligible (lifecycle : MetricLifecycle) (shadow : Bool) : Bool :=
  if shadow then lifecycle = .shadow else lifecycle = .canary ∨ lifecycle = .production

/-- The context with the inputs that a metric declares. -/
def scopedContext (entry : MetricEntry W) (context : MetricContext) : MetricContext where
  instrumentId := context.instrumentId
  features := context.features.filter fun name _ => entry.manifest.descriptor.inputs.contains name
  now := context.now

/-- Evaluate a metric; the state is the host and the world of its metrics. -/
def evaluateInternal (float : FloatArith) (metricId : String) (context : MetricContext)
    (shadow : Bool) : Fallible (MetricHost W × W) MetricHostError MetricOutput := fun s =>
  match s.1.entries[metricId]? with
  | none => (.error (.unavailable metricId), s)
  | some entry =>
    if entry.state = .quarantined ∨ ¬eligible entry.lifecycle shadow then
      (.error (.unavailable metricId), s)
    else
      match entry.metric.evaluate float (scopedContext entry context) s.2 with
      | (.error error, w) => (.error (.evaluation error), s.1.noteFailure metricId, w)
      | (.ok output, w) =>
        match output.validate float entry.metric.descriptor with
        | .error error => (.error (.evaluation error), s.1.noteFailure metricId, w)
        | .ok _ =>
          if output.isFresh context.now then (.ok output, s.1.noteSuccess metricId, w)
          else (.error (.evaluation .staleOutput), s.1.noteFailure metricId, w)

/-- Evaluate a metric for live use. -/
def evaluate (float : FloatArith) (metricId : String) (context : MetricContext) :
    Fallible (MetricHost W × W) MetricHostError MetricOutput :=
  evaluateInternal float metricId context false

/-- Evaluate a metric for comparison only. -/
def evaluateShadow (float : FloatArith) (metricId : String) (context : MetricContext) :
    Fallible (MetricHost W × W) MetricHostError MetricOutput :=
  evaluateInternal float metricId context true

end MetricHost

-- Answers

namespace PythonMetricProcess

variable {W : Type} {p : PythonMetricProcess W}

/-- The answer of a frame is about the instrument that the frame names. -/
theorem readOutput_instrumentId {metric : JsonValue} {output : MetricOutput}
    (h : p.readOutput metric = .ok output) : instrumentOf metric = some output.instrumentId := by
  rw [readOutput] at h
  dsimp only at h
  obtain ⟨metricId, -, h⟩ := Wire.bind_eq_ok.mp h
  obtain ⟨instrumentId, hinstrument, h⟩ := Wire.bind_eq_ok.mp h
  obtain ⟨generated, -, h⟩ := Wire.bind_eq_ok.mp h
  obtain ⟨ttl, -, h⟩ := Wire.bind_eq_ok.mp h
  obtain ⟨score, -, h⟩ := Wire.bind_eq_ok.mp h
  obtain ⟨confidence, -, h⟩ := Wire.bind_eq_ok.mp h
  obtain ⟨uncertainty, -, h⟩ := Wire.bind_eq_ok.mp h
  cases h
  cases hread : instrumentOf metric with
  | none =>
    rw [hread] at hinstrument
    cases hinstrument
  | some named =>
    rw [hread] at hinstrument
    cases hinstrument
    rfl

/-- What the answer of a worker was read from. -/
theorem request_eq_ok {float : FloatArith} {context : MetricContext} {w w' : W}
    {output : MetricOutput} (h : p.request float context w = (.ok output, w')) :
    ∃ response metric, p.exchange context w = (.ok response, w') ∧
      p.frameMetric response = .ok metric ∧ instrumentOf metric = some output.instrumentId := by
  rw [request] at h
  obtain ⟨response, w₁, hexchange, h⟩ := Fallible.bind_eq_ok h
  obtain ⟨metric, hmetric, h⟩ := Fallible.ofExcept_bind_eq_ok h
  obtain ⟨answer, hanswer, h⟩ := Fallible.ofExcept_bind_eq_ok h
  obtain ⟨valid, -, h⟩ := Fallible.ofExcept_bind_eq_ok h
  cases h
  exact ⟨response, metric, hexchange, hmetric, readOutput_instrumentId hanswer⟩

end PythonMetricProcess

/-- The metric answers about the instrument of the context: in the process, its answer does; of a
worker, the frame that is next in the queue does. -/
def HostedMetric.Names {W : Type} (context : MetricContext) (w : W) : HostedMetric W → Prop
  | .inProcess _ _ evaluate =>
    ∀ output ∈ (evaluate context w).1.toOption, context.instrumentId = some output.instrumentId
  | .python process =>
    ∀ response ∈ (process.exchange context w).1.toOption,
      ∀ metric ∈ (process.frameMetric response).toOption,
        PythonMetricProcess.instrumentOf metric = context.instrumentId

/-- An answer is about the instrument of its context exactly when the metric answers so. -/
theorem HostedMetric.names_iff {W : Type} {float : FloatArith} {metric : HostedMetric W}
    {context : MetricContext} {w w' : W} {output : MetricOutput}
    (h : metric.evaluate float context w = (.ok output, w')) :
    metric.Names context w ↔ context.instrumentId = some output.instrumentId := by
  cases metric with
  | inProcess descriptor manifest evaluate =>
    have hevaluate : evaluate context w = (.ok output, w') := h
    simp [Names, hevaluate, Except.toOption]
  | python process =>
    obtain ⟨response, value, hexchange, hvalue, hinstrument⟩ :=
      PythonMetricProcess.request_eq_ok (p := process) h
    simp only [Names, hexchange, hvalue, hinstrument, Except.toOption, Option.mem_some_iff,
      forall_eq']
    exact eq_comm

namespace MetricHost

variable {W : Type} {float : FloatArith} {metricId : String} {context : MetricContext}
  {shadow : Bool} {s s' : MetricHost W × W} {output : MetricOutput}

/-- **Specification of an evaluation** that gives an answer: the metric is registered under the
identity, it gave the answer, the answer is valid for it, and it is fresh. -/
theorem evaluate_spec (h : evaluateInternal float metricId context shadow s = (.ok output, s')) :
    ∃ entry w, s.1.entries[metricId]? = some entry ∧
      entry.metric.evaluate float (scopedContext entry context) s.2 = (.ok output, w) ∧
      output.validate float entry.metric.descriptor = .ok () ∧
      output.isFresh context.now = true := by
  unfold evaluateInternal at h
  split at h
  · cases h
  · next entry hget =>
    split at h
    · cases h
    · split at h
      · cases h
      · next answer w hanswer =>
        split at h
        · cases h
        · next hvalid =>
          split at h
          · next hfresh =>
            cases h
            exact ⟨entry, w, hget, hanswer, hvalid, hfresh⟩
          · cases h

/-- The answer is what was asked for. -/
structure Answers (metricId : String) (context : MetricContext) (output : MetricOutput) :
    Prop where
  metric : output.metricId = metricId
  instrument : context.instrumentId = some output.instrumentId
  generated : output.generatedMono ≤ context.now

theorem metricId_of_validate {descriptor : MetricDescriptor}
    (h : output.validate float descriptor = .ok ()) : output.metricId = descriptor.metricId := by
  by_contra hne
  rw [MetricOutput.validate, if_pos hne] at h
  cases h

/-- **An answer of the host** is what was asked for exactly when the metric answers about the
instrument of the context; the metric and the time are always right. -/
theorem evaluate_answers_iff (float : FloatArith) (metricId : String) (context : MetricContext)
    (s : MetricHost W × W) (h : evaluate float metricId context s = (.ok output, s')) :
    Answers metricId context output ↔ ∀ entry ∈ s.1.entries[metricId]?,
      entry.metric.Names (scopedContext entry context) s.2 := by
  obtain ⟨entry, w, hget, hanswer, hvalid, hfresh⟩ := evaluate_spec h
  have hmetric : output.metricId = metricId :=
    (metricId_of_validate hvalid).trans (s.1.keyed metricId entry hget)
  have hgenerated : output.generatedMono ≤ context.now :=
    (of_decide_eq_true (p := output.generatedMono ≤ context.now ∧ _) hfresh).1
  rw [hget]
  constructor
  · intro hanswers entry' hentry
    cases hentry
    exact (HostedMetric.names_iff hanswer).mpr hanswers.instrument
  · intro hnames
    exact ⟨hmetric, (HostedMetric.names_iff hanswer).mp (hnames entry rfl), hgenerated⟩

end MetricHost

namespace Sample

def metricDescriptor : MetricDescriptor := ⟨"m", [], none, none, 10⟩

/-- The frame of an answer about an instrument of one digit. -/
def metricFrame (digit : UInt8) : JsonValue :=
  .object [("ok", .bool true), ("metric", .object [("metric_id", .string "m"),
    ("instrument_id", .string (String.singleton (Char.ofNat (48 + digit.toNat)))),
    ("generated_mono_ns", .number (.integer 0)), ("ttl_ns", .number (.integer 10)),
    ("score", .number (.integer 0)), ("confidence", .number (.integer 0)),
    ("uncertainty", .number (.integer 0))])]

/-- A worker in a world that is its queue: it answers each request by one frame, after the frames
that are in the queue. -/
def metricWorker : PythonMetricProcess (List (List UInt8)) where
  manifest := ⟨metricDescriptor, 10, 10, 10, .normal⟩
  encode context := context.instrumentId.map fun i => [UInt8.ofNat i]
  write payload queue := (true, queue ++ [payload])
  receive queue := (queue.head?, queue.tail)
  kill _ := []
  parseJson response := response.head?.map metricFrame
  double _ := ⟨0⟩

/-- A host of the worker. -/
def metricHost : MetricHost (List (List UInt8)) :=
  ((MetricHost.new 3).register (.python metricWorker)).toOption.getD (.new 3)

/-- Evaluate for instrument 7. -/
def metricContext : MetricContext := ⟨some 7, ∅, 0⟩

/-- The answer about an instrument. -/
def metricAnswer (i : InstrumentId) : MetricOutput := ⟨"m", i, 0, 10, ⟨0⟩, ⟨0⟩, ⟨0⟩⟩

/-- With an empty queue the frame of the request answers. -/
theorem metricHost_prompt :
    (MetricHost.evaluate float "m" metricContext (metricHost, [])).1 = .ok (metricAnswer 7) := by
  decide

/-- With a frame in the queue that nobody asked for, that frame answers. -/
theorem metricHost_unsolicited :
    (MetricHost.evaluate float "m" metricContext (metricHost, [[8]])).1 = .ok (metricAnswer 8) := by
  decide

end Sample

namespace MetricHost

/-- A worker without frames in its queue answers what was asked for. -/
theorem evaluate_answers_prompt : Answers "m" Sample.metricContext (Sample.metricAnswer 7) := by
  refine (evaluate_answers_iff Sample.float "m" Sample.metricContext (Sample.metricHost, [])
    (Prod.ext Sample.metricHost_prompt rfl)).mpr fun entry hentry => ?_
  have hget : Sample.metricHost.entries["m"]? =
      some ⟨.python Sample.metricWorker, Sample.metricWorker.manifest, .ready, .production,
        "registration", 0⟩ := rfl
  cases hget.symm.trans hentry
  intro response hresponse metric hmetric
  cases hresponse
  cases hmetric
  decide

/-- **An extra frame shifts the answers**: a frame about instrument 8 that nobody asked for is taken
as the answer about instrument 7. -/
theorem evaluate_answers_unsolicited : ¬∀ (s : MetricHost (List (List UInt8)) × List (List UInt8))
    (metricId : String) (context : MetricContext) (output : MetricOutput),
      (evaluate Sample.float metricId context s).1 = .ok output →
        Answers metricId context output := by
  intro hclaim
  have h := (hclaim _ "m" Sample.metricContext _ Sample.metricHost_unsolicited).instrument
  exact absurd h (by decide)

end MetricHost

end InsiderTrader
