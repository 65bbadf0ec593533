import InsiderTrader.Library.LatestSamples
import InsiderTrader.Library.WireList
import InsiderTrader.MetricHost

/-!
# The normalized trend of two moving averages

The metric keeps the closes of the newest bars of each instrument and computes
its answer from them. Evaluating the newest bar again replaces its close, an
older bar is refused. What it keeps can be written to a checkpoint and restored
into a metric with the same configuration.

## Main definitions

- `normalizedEmaTrendBatch` — the reference value of a series of closes
- `NormalizedEmaTrend` — a metric within its bounds
- `NormalizedEmaTrend.evaluate` — the answer about one more bar
- `NormalizedEmaTrend.checkpoint`, `NormalizedEmaTrend.restoreCheckpoint` — written and read back
-/

namespace InsiderTrader

open Fallible Wire

/-- The floating point operations of the starter metrics. -/
structure MetricArith extends FloatArith where
  /-- a value without a fraction -/
  isWhole : F64 → Bool
  /-- the nearest 32-bit integer towards zero -/
  toI32 : F64 → Int32
  div : F64 → F64 → F64
  sqrt : F64 → F64
  /-- the sum of values, from the first one on -/
  sum : List F64 → F64
  /-- a value clamped to `[-1, 1]` -/
  clampSigned : F64 → F64

/-- A bounded statistical value. -/
structure MetricEstimate where
  score : F64
  confidence : F64
  uncertainty : F64
  deriving DecidableEq

/-- The largest window of a starter metric. -/
def maxStarterWindow : ℕ := 4096

/-- The number of samples that a starter metric keeps at most. -/
def maxStarterStateSamples : ℕ := 262144

/-- A feature that is there and finite. -/
def MetricContext.feature (float : FloatArith) (context : MetricContext) (name : String) :
    Except MetricError F64 :=
  match context.features[name]? with
  | none => .error (.missingInput name)
  | some value => if float.isFinite value then .ok value else .error (.missingInput name)

def validateWindow (window : ℕ) : Except MetricError Unit :=
  if window = 0 ∨ maxStarterWindow < window then .error (.invalidOutput "rolling window")
  else .ok ()

-- The batch reference

section Batch

variable (float : MetricArith)

def standardDeviation (values : List F64) : Except MetricError F64 :=
  if values = [] then .ok float.zero
  else if 2 ^ 32 ≤ values.length then .error (.invalidOutput "sample count")
  else
    let count := float.ofInt values.length
    let mean := float.div (float.sum values) count
    let variance := float.div (float.sum (values.map fun value =>
      let difference := float.sub value mean
      float.times difference difference)) count
    if ¬float.isFinite variance ∨ float.exceeds float.zero variance then
      .error (.invalidOutput "sample dispersion")
    else .ok (float.sqrt variance)

def exponentialAverage (values : List F64) (window : ℕ) : Except MetricError F64 :=
  match values with
  | [] => .error (.missingInput "close_price")
  | first :: remaining =>
    if 2 ^ 32 ≤ window then .error (.invalidOutput "ema window")
    else
      let alpha := float.div (float.ofInt 2) (float.add (float.ofInt window) float.one)
      let average := remaining.foldl (fun average value =>
        float.add average (float.times alpha (float.sub value average))) first
      if ¬float.isFinite average ∨ float.atMost average float.zero then
        .error (.invalidOutput "ema value")
      else .ok average

/-- The batch reference value of a series of closes; only the last ones of the slow window count. -/
def normalizedEmaTrendBatch (closes : List F64) (fastWindow slowWindow : ℕ) :
    Except MetricError MetricEstimate := do
  validateWindow fastWindow
  validateWindow slowWindow
  if slowWindow ≤ fastWindow then .error (.invalidOutput "ema window relationship")
  else if closes = [] then .error (.missingInput "close_price")
  else if closes.any fun close => ¬float.isFinite close ∨ float.atMost close float.zero then
    .error (.invalidOutput "close price")
  else
    let retained := Samples.lastN slowWindow closes
    let fast ← exponentialAverage float retained fastWindow
    let slow ← exponentialAverage float retained slowWindow
    let rawScore := float.div (float.sub fast slow) slow
    if ¬float.isFinite rawScore then .error (.invalidOutput "ema trend")
    else
      let returns := (retained.zip retained.tail).map fun pair =>
        float.sub (float.div pair.2 pair.1) float.one
      if returns.any fun value => ¬float.isFinite value then .error (.invalidOutput "ema returns")
      else if 2 ^ 32 ≤ retained.length then .error (.invalidOutput "sample count")
      else if 2 ^ 32 ≤ slowWindow then .error (.invalidOutput "ema window")
      else
        let uncertainty ← standardDeviation float returns
        .ok ⟨float.clampSigned rawScore,
          float.div (float.ofInt retained.length) (float.ofInt slowWindow), uncertainty⟩

end Batch

-- The metric

/-- The close of a bar. -/
structure IndexedClose where
  barIndex : Int
  close : F64
  deriving DecidableEq

/-- The closes that are kept of an instrument, oldest first. -/
structure EmaInstrumentState where
  closes : List IndexedClose
  deriving DecidableEq

/-- What a metric keeps, by instrument. -/
abbrev EmaStates : Type := Std.ExtTreeMap InstrumentId EmaInstrumentState

/-- The trend metric, with windows and a capacity within the bounds. -/
structure NormalizedEmaTrend where
  descriptor : MetricDescriptor
  fastWindow : ℕ
  slowWindow : ℕ
  maxInstruments : ℕ
  fast_pos : 0 < fastWindow
  fast_lt : fastWindow < slowWindow
  slow_le : slowWindow ≤ maxStarterWindow
  instruments_pos : 0 < maxInstruments
  samples_le : slowWindow * maxInstruments ≤ maxStarterStateSamples

/-- The index of a bar: a whole number of 32 bits. -/
def barIndex (float : MetricArith) (context : MetricContext) : Except MetricError Int := do
  let value ← context.feature float.toFloatArith "bar_index"
  if ¬float.isWhole value ∨ float.exceeds (float.ofInt (-2 ^ 31)) value ∨
      float.exceeds value (float.ofInt (2 ^ 31 - 1)) then .error (.invalidOutput "bar index")
  else .ok (float.toI32 value).toInt

namespace NormalizedEmaTrend

/-- A metric whose configuration passes its checks. -/
def newWithInstrumentCapacity (float : MetricArith) (metricId : String)
    (fastWindow slowWindow ttlNs maxInstruments : ℕ) : Except MetricError NormalizedEmaTrend :=
  if hfast : fastWindow = 0 ∨ maxStarterWindow < fastWindow then
    .error (.invalidOutput "rolling window")
  else if hslow : slowWindow = 0 ∨ maxStarterWindow < slowWindow then
    .error (.invalidOutput "rolling window")
  else if hbounds : Text.isBlank metricId ∨ slowWindow ≤ fastWindow ∨ ttlNs = 0 ∨
      maxInstruments = 0 ∨ maxStarterStateSamples < slowWindow * maxInstruments then
    .error (.invalidOutput "ema trend configuration")
  else .ok {
    descriptor := ⟨metricId, ["bar_index", "close_price"], some (float.neg float.one),
      some float.one, ttlNs⟩
    fastWindow
    slowWindow
    maxInstruments
    fast_pos := by omega
    fast_lt := by omega
    slow_le := by omega
    instruments_pos := by omega
    samples_le := by omega }

/-- The answer about one more bar, which is kept before the answer is computed. -/
def evaluate (float : MetricArith) (metric : NormalizedEmaTrend) (context : MetricContext) :
    Fallible EmaStates MetricError MetricOutput := do
  let instrumentId ← orFail context.instrumentId (.missingInput "instrument_id")
  let index ← ofExcept (barIndex float context)
  let close ← ofExcept (context.feature float.toFloatArith "close_price")
  require (¬float.atMost close float.zero) (.invalidOutput "close price")
  let states ← reads id
  require (¬(instrumentId ∉ states ∧ metric.maxInstruments ≤ states.size))
    (.invalidOutput "instrument capacity")
  modify (·.insertIfNew instrumentId ⟨[]⟩)
  let kept := (states[instrumentId]?).elim [] (·.closes)
  let pushed ← orFail (Samples.push (·.barIndex) kept ⟨index, close⟩)
    (.invalidOutput "out-of-order bar")
  let closes := Samples.lastN metric.slowWindow pushed
  modify (·.insert instrumentId ⟨closes⟩)
  let estimate ← ofExcept (normalizedEmaTrendBatch float (closes.map (·.close))
    metric.fastWindow metric.slowWindow)
  pure ⟨metric.descriptor.metricId, instrumentId, context.now, metric.descriptor.ttlNs,
    estimate.score, estimate.confidence, estimate.uncertainty⟩

-- Checkpoints

/-- The mark of a checkpoint, `EMAT_V1` and a zero byte. -/
def checkpointMark : List UInt8 := [69, 77, 65, 84, 95, 86, 49, 0]

/-- The bytes of a sample. -/
def sampleBytes (sample : IndexedClose) : List UInt8 :=
  signedBytes 8 sample.barIndex ++ LittleEndian.bytes 8 sample.close.bits

/-- The bytes of what is kept of an instrument. -/
def entryBytes (entry : InstrumentId × EmaInstrumentState) : List UInt8 :=
  LittleEndian.bytes 16 entry.1 ++ LittleEndian.bytes 4 entry.2.closes.length ++
    entry.2.closes.flatMap sampleBytes

/-- The bytes of what a metric keeps. -/
def checkpoint (metric : NormalizedEmaTrend) (states : EmaStates) :
    Except MetricError (List UInt8) :=
  if 2 ^ 32 ≤ metric.fastWindow ∨ 2 ^ 32 ≤ metric.slowWindow then
    .error (.invalidOutput "checkpoint window")
  else if 2 ^ 32 ≤ states.size then .error (.invalidOutput "checkpoint instruments")
  else if states.toList.any fun entry => 2 ^ 32 ≤ entry.2.closes.length then
    .error (.invalidOutput "checkpoint samples")
  else .ok (checkpointMark ++ (LittleEndian.bytes 4 metric.fastWindow ++
    (LittleEndian.bytes 4 metric.slowWindow ++ (LittleEndian.bytes 4 states.size ++
      states.toList.flatMap entryBytes))))

/-- A field of a checkpoint. -/
def checkpointField (width : ℕ) : Reader MetricError ℕ :=
  number (.invalidOutput "checkpoint length") width

/-- Samples in the order of their bars. -/
def readSamples (float : MetricArith) : ℕ → Option Int → Reader MetricError (List IndexedClose)
  | 0, _ => pure []
  | count + 1, previous => do
    let barIndex ← signed (.invalidOutput "checkpoint length") 8
    let bits ← checkpointField 8
    Reader.require (float.isFinite ⟨bits⟩ ∧ ¬float.atMost ⟨bits⟩ float.zero ∧
      ¬previous.any (barIndex ≤ ·)) (.invalidOutput "checkpoint sample")
    let closes ← readSamples float count (some barIndex)
    pure (⟨barIndex, ⟨bits⟩⟩ :: closes)

/-- What is kept of a number of instruments, after the samples of the ones before. -/
def readInstruments (float : MetricArith) (metric : NormalizedEmaTrend) :
    ℕ → ℕ → EmaStates → Reader MetricError EmaStates
  | 0, _, restored => pure restored
  | instruments + 1, totalSamples, restored => do
    let rawId ← checkpointField 16
    Reader.require (rawId ≠ 0) (.invalidOutput "checkpoint instrument")
    let count ← checkpointField 4
    Reader.require (count ≤ metric.slowWindow ∧ totalSamples + count ≤ maxStarterStateSamples)
      (.invalidOutput "checkpoint samples")
    let closes ← readSamples float count none
    Reader.require (rawId ∉ restored) (.invalidOutput "checkpoint instrument")
    readInstruments float metric instruments (totalSamples + count)
      (restored.insert rawId ⟨closes⟩)

/-- What is kept, after the mark of a checkpoint. -/
def readCheckpoint (float : MetricArith) (metric : NormalizedEmaTrend) :
    Reader MetricError EmaStates := do
  let fastWindow ← checkpointField 4
  let slowWindow ← checkpointField 4
  let instrumentCount ← checkpointField 4
  Reader.require (fastWindow = metric.fastWindow ∧ slowWindow = metric.slowWindow ∧
    instrumentCount ≤ metric.maxInstruments) (.invalidOutput "checkpoint configuration")
  readInstruments float metric instrumentCount 0 ∅

/-- Restore a checkpoint; nothing is kept of a bad one. -/
def restoreCheckpoint (float : MetricArith) (metric : NormalizedEmaTrend) (bytes : List UInt8) :
    Fallible EmaStates MetricError Unit := do
  let restored ← ofExcept (Reader.complete checkpointMark (.invalidOutput "checkpoint schema")
    (.invalidOutput "checkpoint trailing bytes") (readCheckpoint float metric) bytes)
  modify fun _ => restored

end NormalizedEmaTrend

end InsiderTrader
