import InsiderTrader.Library.Text
import InsiderTrader.MarketData

/-!
# The market feed of a file

A feed reads the rows of a file in batches and keeps the line it comes to next.
A batch that meets a line it cannot use fails there, though the rows in front of
it were read and the feed has gone past them: they are in no answer.

## Main definitions

- `FileMarketProvider.nextBatch` — one call of the feed
- `rowsFrom` — the rows up to the first line that stops a batch
- `FileMarketProvider.delivered` — the records of the answers of some calls

## Main results

- `nextBatchFrom_spec` — what one call answers and what is left
- `FileMarketProvider.delivered_eq` — what any number of calls delivers
-/

namespace InsiderTrader

/-- Errors of the line-oriented market feed. -/
inductive FileProviderError where
  | io
  | invalidRow (line : ℕ) (reason : String)
  | bounds (what : String)
  deriving DecidableEq

/-- A feed item with its line. -/
structure MarketRecord where
  line : ℕ
  event : MarketEvent
  deriving DecidableEq

def maxLineBytes : ℕ := 4096

-- Rows

section Row

variable (line : ℕ)

/-- The value of a field, or the reason that the row is invalid. -/
def rowField {α : Type} (value : Option α) (reason : String) : Except FileProviderError α :=
  value.elim (.error (.invalidRow line reason)) .ok

def parseInstrument (value : String) : Except FileProviderError InstrumentId :=
  rowField line ((Text.parseRadix 10 (2 ^ 128) value.toList).filter (0 < ·)) "instrument id"

def parseU64 (value reason : String) : Except FileProviderError ℕ :=
  rowField line (Text.parseRadix 10 (2 ^ 64) value.toList) reason

def parseI64 (value reason : String) : Except FileProviderError Int :=
  rowField line (Text.parseSigned 64 value.toList) reason

/-- Read a row of the feed. -/
def parseRow (value : String) : Except FileProviderError MarketEvent := do
  match (value.toList.splitOn ',').map fun field => Text.trim (String.ofList field) with
  | ["Q", instrument, sequence, exchange, received, bid, ask, bidQuantity, askQuantity] =>
    let instrumentId ← parseInstrument line instrument
    let sequence ← parseU64 line sequence "sequence"
    let exchangeTime ← parseI64 line exchange "exchange_time"
    let receivedMono ← parseU64 line received "received_mono"
    let bidTicks ← parseI64 line bid "bid"
    let askTicks ← parseI64 line ask "ask"
    let bidQuantityTicks ← parseI64 line bidQuantity "bid_quantity"
    let askQuantityTicks ← parseI64 line askQuantity "ask_quantity"
    .ok (.quote ⟨instrumentId, sequence, exchangeTime, receivedMono, bidTicks, bidQuantityTicks,
      askTicks, askQuantityTicks⟩)
  | ["T", instrument, sequence, exchange, received, price, quantity] =>
    let instrumentId ← parseInstrument line instrument
    let sequence ← parseU64 line sequence "sequence"
    let exchangeTime ← parseI64 line exchange "exchange_time"
    let receivedMono ← parseU64 line received "received_mono"
    let priceTicks ← parseI64 line price "price"
    let quantityTicks ← parseI64 line quantity "quantity"
    .ok (.trade ⟨instrumentId, sequence, exchangeTime, receivedMono, priceTicks, quantityTicks⟩)
  | ["B", instrument, sequence, side, price, quantity] =>
    let instrumentId ← parseInstrument line instrument
    let sequence ← parseU64 line sequence "sequence"
    let side ← rowField line (if side = "bid" ∨ side = "BID" then some BookSide.bid
      else if side = "ask" ∨ side = "ASK" then some .ask else none) "book side"
    let priceTicks ← parseI64 line price "price"
    let quantityTicks ← parseI64 line quantity "quantity"
    .ok (.book ⟨instrumentId, sequence, side, priceTicks, quantityTicks⟩)
  | _ => .error (.invalidRow line "row shape")

/-- The record of a line, none for blank lines and comments. The line may be unreadable. -/
def readLine : Option String → Except FileProviderError (Option MarketRecord)
  | none => .error .io
  | some text =>
    if maxLineBytes < text.utf8ByteSize then .error (.bounds "feed line")
    else if Text.isBlank text ∨ (text.toList.dropWhile Text.isWhiteSpace).head? = some '#' then
      .ok none
    else (parseRow (line + 1) text).map fun event => some ⟨line, event⟩

end Row

-- Batches

/-- A restartable feed. -/
structure FileMarketProvider where
  nextLine : ℕ
  maxBatch : ℕ
  positive : 0 < maxBatch

/-- Read on from a line until the batch is full. The line is the cursor that is kept. -/
def nextBatchFrom (maxBatch : ℕ) (records : List MarketRecord) (line : ℕ) :
    List (Option String) → Except FileProviderError (List MarketRecord) × ℕ
  | [] => (.ok records, line)
  | text :: rest =>
    if records.length = maxBatch then (.ok records, line)
    else
      match readLine line text with
      | .error error => (.error error, line)
      | .ok none => nextBatchFrom maxBatch records (line + 1) rest
      | .ok (some record) => nextBatchFrom maxBatch (records ++ [record]) (line + 1) rest

/-- The rows up to the first line that stops a batch, and whether there is one. -/
def rowsFrom (line : ℕ) : List (Option String) → List MarketRecord × Bool
  | [] => ([], false)
  | text :: rest =>
    match readLine line text with
    | .error _ => ([], true)
    | .ok none => rowsFrom (line + 1) rest
    | .ok (some record) => (record :: (rowsFrom (line + 1) rest).1, (rowsFrom (line + 1) rest).2)

/-- **One batch** answers the next rows if there are enough or nothing stops it. Whatever it answers,
the rows it would have answered are behind the cursor. -/
theorem nextBatchFrom_spec {maxBatch : ℕ} (file : List (Option String))
    (records : List MarketRecord) (line : ℕ) (hfull : records.length ≤ maxBatch) :
    let batch := nextBatchFrom maxBatch records line file
    let rows := rowsFrom line file
    let room := maxBatch - records.length
    (∃ n, batch.2 = line + n ∧ rowsFrom batch.2 (file.drop n) = (rows.1.drop room, rows.2)) ∧
      if room ≤ rows.1.length ∨ rows.2 = false then batch.1 = .ok (records ++ rows.1.take room)
      else ∃ error, batch.1 = .error error := by
  induction file generalizing records line with
  | nil => exact ⟨⟨0, rfl, by simp [nextBatchFrom, rowsFrom]⟩, by simp [nextBatchFrom, rowsFrom]⟩
  | cons text rest ih =>
    by_cases hstop : records.length = maxBatch
    · simp only [nextBatchFrom, hstop, Nat.sub_self]
      exact ⟨⟨0, rfl, rfl⟩, by simp⟩
    simp only [nextBatchFrom, if_neg hstop, rowsFrom]
    cases hread : readLine line text with
    | error error =>
      have hroom : maxBatch - records.length ≠ 0 := by omega
      exact ⟨⟨0, rfl, by simp [rowsFrom, hread]⟩, by simp [hroom]⟩
    | ok read =>
      cases read with
      | none =>
        obtain ⟨⟨n, hline, hrows⟩, hanswer⟩ := ih records (line + 1) hfull
        exact ⟨⟨n + 1, by rw [hline]; omega, hrows⟩, hanswer⟩
      | some record =>
        obtain ⟨⟨n, hline, hrows⟩, hanswer⟩ := ih (records ++ [record]) (line + 1)
          (by rw [List.length_append, List.length_singleton]; omega)
        have hroom : maxBatch - records.length = maxBatch - (records ++ [record]).length + 1 := by
          rw [List.length_append, List.length_singleton]
          omega
        refine ⟨⟨n + 1, by rw [hline]; omega, ?_⟩, ?_⟩
        · rw [hroom]
          exact hrows
        · dsimp only
          rw [hroom]
          simpa using hanswer

namespace FileMarketProvider

/-- Read at most a batch of rows. -/
def nextBatch (feed : FileMarketProvider) (file : List (Option String)) :
    Except FileProviderError (List MarketRecord) × FileMarketProvider :=
  let batch := nextBatchFrom feed.maxBatch [] feed.nextLine (file.drop feed.nextLine)
  (batch.1, { feed with nextLine := batch.2 })

/-- The rows in front of a feed, and whether a line behind them stops it. -/
def ahead (feed : FileMarketProvider) (file : List (Option String)) : List MarketRecord × Bool :=
  rowsFrom feed.nextLine (file.drop feed.nextLine)

/-- The records that some calls deliver. -/
def delivered (file : List (Option String)) : ℕ → FileMarketProvider → List MarketRecord
  | 0, _ => []
  | calls + 1, feed =>
    (feed.nextBatch file).1.toOption.getD [] ++ delivered file calls (feed.nextBatch file).2

variable {feed : FileMarketProvider} {file : List (Option String)}

theorem nextBatch_ahead : (feed.nextBatch file).2.ahead file =
    ((feed.ahead file).1.drop feed.maxBatch, (feed.ahead file).2) := by
  obtain ⟨⟨n, hline, hrows⟩, -⟩ := nextBatchFrom_spec (file.drop feed.nextLine) [] feed.nextLine
    (Nat.zero_le feed.maxBatch)
  rw [List.drop_drop, ← hline] at hrows
  exact hrows

theorem nextBatch_answer : (feed.nextBatch file).1.toOption.getD [] =
    if feed.maxBatch ≤ (feed.ahead file).1.length ∨ (feed.ahead file).2 = false then
      (feed.ahead file).1.take feed.maxBatch else [] := by
  have h := (nextBatchFrom_spec (file.drop feed.nextLine) [] feed.nextLine
    (Nat.zero_le feed.maxBatch)).2
  show (nextBatchFrom _ _ _ _).1.toOption.getD [] = _
  split at h
  · next hok =>
    rw [h]
    exact (if_pos hok).symm
  · next hstop =>
    obtain ⟨error, h⟩ := h
    rw [h]
    exact (if_neg hstop).symm

/-- **What calls deliver**: the rows in front of the feed, in their order and each at most once, as
many as the calls have room for. In front of a line that stops it only whole batches are delivered:
the rows behind the last of them are lost, however often the call is repeated. -/
theorem delivered_eq (file : List (Option String)) (calls : ℕ) (feed : FileMarketProvider) :
    delivered file calls feed = (feed.ahead file).1.take (min (calls * feed.maxBatch)
      (if (feed.ahead file).2 then (feed.ahead file).1.length / feed.maxBatch * feed.maxBatch
      else (feed.ahead file).1.length)) := by
  induction calls generalizing feed with
  | zero => simp [delivered]
  | succ calls ih =>
    have hmul : (calls + 1) * feed.maxBatch = feed.maxBatch + calls * feed.maxBatch := by
      rw [Nat.succ_mul, Nat.add_comm]
    rw [delivered, ih, nextBatch_ahead, nextBatch_answer, List.length_drop, hmul]
    show _ ++ List.take (min (calls * feed.maxBatch) (if _ then _ / feed.maxBatch * feed.maxBatch
      else _)) _ = _
    generalize (feed.ahead file).1 = rows, (feed.ahead file).2 = stops
    by_cases hfull : feed.maxBatch ≤ rows.length
    · have hdiv : rows.length / feed.maxBatch * feed.maxBatch =
          feed.maxBatch + (rows.length - feed.maxBatch) / feed.maxBatch * feed.maxBatch := by
        rw [Nat.div_eq_sub_div feed.positive hfull, Nat.succ_mul, Nat.add_comm]
      rw [if_pos (.inl hfull), ← List.take_add, ← Nat.add_min_add_left]
      cases stops <;> simp [hdiv, Nat.add_sub_cancel' hfull]
    · have hshort := Nat.lt_of_not_le hfull
      cases stops with
      | false =>
        have hroom : rows.length ≤ feed.maxBatch + calls * feed.maxBatch :=
          hshort.le.trans (Nat.le_add_right _ _)
        simp [List.drop_of_length_le hshort.le, List.take_of_length_le, hshort.le, hroom]
      | true => simp [hfull, List.drop_of_length_le hshort.le, Nat.div_eq_of_lt hshort]

end FileMarketProvider

end InsiderTrader
