import InsiderTrader.SnapshotReading

/-!
# Which snapshots the terminal can read

The terminal decodes a snapshot whose lists are within its bounds into the
state that was encoded exactly when there is no order in it, the client orders
of the fills are not cut, the other texts can be read and each bar has an
interval.

## Main definitions

- `Terminal.RuntimeSnapshot.Fits` — the lists are within bounds, the numbers are finite
- `Terminal.RuntimeSnapshot.Agrees` — a view shows the state of the snapshot
- `Terminal.RuntimeSnapshot.Readable` — a snapshot that the terminal can read

## Main results

- `Terminal.snapshot_round_trips_iff` — a snapshot is read back exactly when it is readable
-/

namespace InsiderTrader

namespace Terminal

open Wire

namespace RuntimeSnapshot

variable (snapshot : RuntimeSnapshot)

/-- The lists are within the bounds of the terminal, and the numbers are finite. -/
structure Fits : Prop where
  plan : ∀ plan ∈ snapshot.autonomyPlan, plan.Fits
  positions : snapshot.portfolio.positions.length ≤ 16384
  orders : snapshot.orders.length ≤ 16384
  fills : snapshot.fills.length ≤ 10000
  tca : snapshot.tca.length ≤ 16384
  proposals : snapshot.proposals.length ≤ 4096
  proposalNumbers : ∀ record ∈ snapshot.proposals, record.Finite
  markets : snapshot.markets.length ≤ 4096
  marketLists : ∀ market ∈ snapshot.markets, market.WithinBounds

/-- The view shows the account, the cursor, the cash, the positions, the orders, the fills and
the markets of the snapshot. -/
structure Agrees (view : RuntimeView) : Prop where
  accountId : view.accountId = snapshot.accountId
  cursor : view.cursor = snapshot.cursor
  cash : view.cashTicks = snapshot.portfolio.cashTicks
  positions : view.positions = snapshot.portfolio.positions.map (·.view)
  orders : view.orders = snapshot.orders.map (·.view)
  fills : view.fills = snapshot.fills
  markets : view.markets = snapshot.markets.map (·.view)

/-- There is no order, the client orders of the fills are not cut, the other texts can be read
and each bar has an interval. -/
structure Readable : Prop where
  orders : snapshot.orders = []
  fills : ∀ fill ∈ snapshot.fills, Short fill.clientOrderId
  plan : ∀ plan ∈ snapshot.autonomyPlan, plan.Legible
  llmProviderId : Cuttable (snapshot.llmProviderId.getD "")
  llmModel : Cuttable (snapshot.llmModel.getD "")
  tca : ∀ tca ∈ snapshot.tca, Cuttable tca.clientOrderId
  proposals : ∀ record ∈ snapshot.proposals, Cuttable record.proposal.strategyId
  markets : ∀ market ∈ snapshot.markets, ∀ bar ∈ market.bars, bar.intervalNs ≠ 0

def arrives : Except String RuntimeView := do
  let plan ← planArrives snapshot.autonomyPlan
  let llmProviderId ← snapshot.llmProviderId.mapM sent
  let llmModel ← snapshot.llmModel.mapM sent
  let positions ← received 16384 "wire collection exceeds bound" snapshot.portfolio.positions
    fun position => .ok position.view
  let orders ← received 16384 "wire collection exceeds bound" snapshot.orders (·.arrives)
  let fills ← received 10000 "wire collection exceeds bound" snapshot.fills (·.arrives)
  let tca ← received 16384 "wire collection exceeds bound" snapshot.tca (·.arrives)
  let proposals ← received 4096 "wire collection exceeds bound" snapshot.proposals (·.arrives)
  let markets ← received 4096 "wire collection exceeds bound" snapshot.markets (·.arrives)
  pure { accountId := snapshot.accountId, cursor := snapshot.cursor,
         risk := riskNames.getD (riskStateCode snapshot.riskState).toNat "",
         mode := modeNames.getD (autonomyModeCode snapshot.autonomyMode).toNat "", plan := plan,
         llmProviderId := llmProviderId, llmModel := llmModel,
         cashTicks := snapshot.portfolio.cashTicks,
         realizedPnlTicks := snapshot.portfolio.realizedPnlTicks,
         feesTicks := snapshot.portfolio.feesTicks,
         grossNotionalTicks := snapshot.grossNotionalTicks,
         maxGrossNotionalTicks := snapshot.maxGrossNotionalTicks,
         grossUtilizationBps := snapshot.grossUtilizationBps,
         largestPositionNotionalTicks := snapshot.largestPositionNotionalTicks,
         drawdownBps := snapshot.drawdownBps, positions := positions, orders := orders,
         fills := fills, tca := tca, proposals := proposals, markets := markets }

theorem reads_drawdownView (drawdown : Option Int64) :
    Reads drawdownView (optionBytes leI64 0 drawdown) (.ok drawdown) := by
  have hpieces : optionBytes leI64 0 drawdown =
      [flag drawdown.isSome, leI64 (drawdown.getD 0)].flatten := by
    rw [optionBytes, List.flatten_cons, List.flatten_cons, List.flatten_nil, List.append_nil]
  rw [hpieces]
  apply (reads_u8 _).value
  apply (reads_i64 _).value
  cases drawdown <;> exact reads_pure _

theorem reads_runtimeView (h : snapshot.Fits) : afterMagic "IT_RUNTIME_SNAPSHOT_V14\x00" runtimeView
    (encodeSnapshot snapshot) = snapshot.arrives := by
  apply afterMagic_eq
  apply (reads_u128 _).value
  apply (reads_u64 _).value
  apply (reads_riskState _).value
  apply (reads_autonomyMode _).value
  apply (reads_planView h.plan).next
  intro plan _
  apply (reads_optionalString _).next
  intro llmProviderId _
  apply (reads_optionalString _).next
  intro llmModel _
  apply (reads_i64 _).value
  apply (reads_i64 _).value
  apply (reads_i64 _).value
  apply (reads_u128 _).value
  apply (reads_u128 _).value
  apply (reads_i64 _).value
  apply (reads_u128 _).value
  apply (reads_drawdownView _).value
  apply (reads_collection (by omega) fun position _ => reads_positionView position).next
  intro positions _
  apply (reads_collection (by omega) fun order _ => order.reads_orderView).next
  intro orders _
  apply (reads_collection (by omega) fun fill _ => fill.reads_fillView).next
  intro fills _
  apply (reads_collection (by omega) fun tca _ => tca.reads_tcaView).next
  intro tca _
  apply (reads_collection (by omega) fun record hrecord =>
    record.reads_proposalView (h.proposalNumbers record hrecord)).next
  intro proposals _
  apply (reads_collection (by omega) fun market _ => market.reads_marketView).next
  intro markets _
  exact reads_pure _

-- Lists of a snapshot

section Lists

variable {snapshot : RuntimeSnapshot}

theorem positions_arrive (h : snapshot.Fits) :
    received 16384 "wire collection exceeds bound" snapshot.portfolio.positions
      (fun position => .ok position.view) = .ok (snapshot.portfolio.positions.map (·.view)) :=
  received_eq_ok_map_iff.mpr ⟨h.positions, fun _ _ => rfl⟩

/-- The orders arrive when there is none. -/
theorem orders_arrive_iff :
    received 16384 "wire collection exceeds bound" snapshot.orders (·.arrives) =
        .ok (snapshot.orders.map (·.view)) ↔ snapshot.orders = [] := by
  rw [received_eq_ok_map_iff]
  constructor
  · rintro ⟨-, hall⟩
    rw [List.eq_nil_iff_forall_not_mem]
    intro order horder
    exact order.arrives_ne_view (hall order horder)
  · intro hempty
    rw [hempty]
    exact ⟨Nat.zero_le _, List.forall_mem_nil _⟩

theorem fills_arrive_iff (h : snapshot.Fits) :
    received 10000 "wire collection exceeds bound" snapshot.fills (·.arrives) =
        .ok snapshot.fills ↔
      ∀ fill ∈ snapshot.fills, Short fill.clientOrderId := by
  have hfills : received 10000 "wire collection exceeds bound" snapshot.fills (·.arrives) =
        .ok (snapshot.fills.map id) ↔
      snapshot.fills.length ≤ 10000 ∧ ∀ fill ∈ snapshot.fills, fill.arrives = .ok fill :=
    received_eq_ok_map_iff
  rw [List.map_id] at hfills
  rw [hfills, and_iff_right h.fills]
  exact forall₂_congr fun fill _ => fill.arrives_eq_self_iff

theorem exists_tca_arrive_iff (h : snapshot.Fits) :
    (∃ tca, received 16384 "wire collection exceeds bound" snapshot.tca (·.arrives) = .ok tca) ↔
      ∀ tca ∈ snapshot.tca, Cuttable tca.clientOrderId := by
  rw [exists_received_iff, and_iff_right h.tca]
  exact forall₂_congr fun tca _ => tca.exists_arrives_iff

theorem exists_proposals_arrive_iff (h : snapshot.Fits) :
    (∃ views, received 4096 "wire collection exceeds bound" snapshot.proposals (·.arrives) =
        .ok views) ↔
      ∀ record ∈ snapshot.proposals, Cuttable record.proposal.strategyId := by
  rw [exists_received_iff, and_iff_right h.proposals]
  exact forall₂_congr fun record _ => record.exists_arrives_iff

theorem markets_arrive_iff (h : snapshot.Fits) :
    received 4096 "wire collection exceeds bound" snapshot.markets (·.arrives) =
        .ok (snapshot.markets.map (·.view)) ↔
      ∀ market ∈ snapshot.markets, ∀ bar ∈ market.bars, bar.intervalNs ≠ 0 := by
  rw [received_eq_ok_map_iff, and_iff_right h.markets]
  exact forall₂_congr fun market hmarket =>
    market.arrives_eq_view_iff (h.marketLists market hmarket)

end Lists

theorem exists_option_sent_iff {x : Option String} :
    (∃ cut, x.mapM sent = .ok cut) ↔ Cuttable (x.getD "") := by
  cases x with
  | none => exact iff_of_true ⟨none, rfl⟩ short_empty.cuttable
  | some text =>
    rw [Option.getD_some, ← exists_sent_iff]
    show (∃ cut, (some <$> sent text) = .ok cut) ↔ _
    cases sent text with
    | error e => exact iff_of_false (fun ⟨_, h⟩ => nomatch h) fun ⟨_, h⟩ => nomatch h
    | ok cut => exact iff_of_true ⟨some cut, rfl⟩ ⟨cut, rfl⟩

/-- What agrees with a snapshot was readable. -/
theorem readable_of_agrees (h : snapshot.Fits) {view : RuntimeView}
    (hview : decodeSnapshot (encodeSnapshot snapshot) = .ok view) (hagrees : snapshot.Agrees view) :
    snapshot.Readable := by
  rw [decodeSnapshot, snapshot.reads_runtimeView h] at hview
  simp only [arrives, bind_eq_ok] at hview
  obtain ⟨_, hplan, _, hprovider, _, hmodel, _, hpositions, _, horders, _, hfills, _, htca,
    _, hproposals, _, hmarkets, heq⟩ := hview
  cases heq
  obtain ⟨-, -, -, -, rfl, rfl, rfl⟩ := hagrees
  exact ⟨orders_arrive_iff.mp horders, (fills_arrive_iff h).mp hfills,
    (exists_planArrives_iff h.plan).mp ⟨_, hplan⟩, exists_option_sent_iff.mp ⟨_, hprovider⟩,
    exists_option_sent_iff.mp ⟨_, hmodel⟩, (exists_tca_arrive_iff h).mp ⟨_, htca⟩,
    (exists_proposals_arrive_iff h).mp ⟨_, hproposals⟩, (markets_arrive_iff h).mp hmarkets⟩

/-- A readable snapshot is decoded into what it holds. -/
theorem exists_agrees (h : snapshot.Fits) (hreadable : snapshot.Readable) :
    ∃ view, decodeSnapshot (encodeSnapshot snapshot) = .ok view ∧ snapshot.Agrees view := by
  obtain ⟨plan, hplan⟩ := (exists_planArrives_iff h.plan).mpr hreadable.plan
  obtain ⟨provider, hprovider⟩ := exists_option_sent_iff.mpr hreadable.llmProviderId
  obtain ⟨model, hmodel⟩ := exists_option_sent_iff.mpr hreadable.llmModel
  obtain ⟨tca, htca⟩ := (exists_tca_arrive_iff h).mpr hreadable.tca
  obtain ⟨proposals, hproposals⟩ := (exists_proposals_arrive_iff h).mpr hreadable.proposals
  have horders := orders_arrive_iff.mpr hreadable.orders
  have hfills := (fills_arrive_iff h).mpr hreadable.fills
  have hmarkets := (markets_arrive_iff h).mpr hreadable.markets
  rw [decodeSnapshot, snapshot.reads_runtimeView h]
  simp only [arrives, hplan, hprovider, hmodel, positions_arrive h, horders, hfills, htca,
    hproposals, hmarkets, ok_bind]
  exact ⟨_, rfl, rfl, rfl, rfl, rfl, rfl, rfl, rfl⟩

end RuntimeSnapshot

/-- **The round trip of a snapshot.** A snapshot within the bounds of the terminal is decoded
into the state that was encoded exactly when it is readable. -/
theorem snapshot_round_trips_iff (snapshot : RuntimeSnapshot) (h : snapshot.Fits) :
    (∃ view, decodeSnapshot (encodeSnapshot snapshot) = .ok view ∧ snapshot.Agrees view) ↔
      snapshot.Readable := by
  constructor
  · rintro ⟨view, hview, hagrees⟩
    exact snapshot.readable_of_agrees h hview hagrees
  · intro hreadable
    exact snapshot.exists_agrees h hreadable

namespace Sample

/-- A runtime with one position and one fill, and no order. -/
def quietRuntime : RuntimeSnapshot where
  accountId := 1
  cursor := 7
  riskState := .running
  autonomyMode := .manual
  autonomyPlan := none
  llmProviderId := none
  llmModel := none
  portfolio := ⟨1000, 0, 1, [⟨9, 10, 100, none⟩]⟩
  orders := []
  fills := [⟨"order-1", 9, 10, 100⟩]
  tca := []
  proposals := []
  markets := []
  grossNotionalTicks := 1000
  maxGrossNotionalTicks := 100000
  grossUtilizationBps := 100
  largestPositionNotionalTicks := 1000
  drawdownBps := none

/-- The same runtime with a working order. -/
def busyRuntime : RuntimeSnapshot :=
  { quietRuntime with
    orders := [⟨⟨1, 9, .buy, 10, .limit, some 100, .day, 1, "intent-2", "order-2", .acknowledged⟩,
      some "broker-2", 0⟩] }

end Sample

theorem quietRuntime_fits : Sample.quietRuntime.Fits where
  plan := fun plan h => absurd h (Option.not_mem_none plan)
  positions := by decide
  orders := by decide
  fills := by decide
  tca := by decide
  proposals := by decide
  proposalNumbers := List.forall_mem_nil _
  markets := by decide
  marketLists := List.forall_mem_nil _

theorem quietRuntime_readable : Sample.quietRuntime.Readable where
  orders := rfl
  fills := by
    intro fill hfill
    rw [List.mem_singleton.mp hfill]
    show (utf8 "order-1").length ≤ 65535
    decide
  plan := fun plan h => absurd h (Option.not_mem_none plan)
  llmProviderId := short_empty.cuttable
  llmModel := short_empty.cuttable
  tca := List.forall_mem_nil _
  proposals := List.forall_mem_nil _
  markets := List.forall_mem_nil _

theorem quiet_snapshot_round_trips : ∃ view,
    decodeSnapshot (encodeSnapshot Sample.quietRuntime) = .ok view ∧
      Sample.quietRuntime.Agrees view :=
  (snapshot_round_trips_iff Sample.quietRuntime quietRuntime_fits).mpr quietRuntime_readable

/-- A snapshot with a working order does not reach the terminal. -/
theorem busy_snapshot_lost : Sample.busyRuntime.Fits ∧
    ¬∃ view, decodeSnapshot (encodeSnapshot Sample.busyRuntime) = .ok view ∧
      Sample.busyRuntime.Agrees view := by
  have hfits : Sample.busyRuntime.Fits := { quietRuntime_fits with orders := by decide }
  refine ⟨hfits, ?_⟩
  rintro ⟨view, hview, hagrees⟩
  cases (Sample.busyRuntime.readable_of_agrees hfits hview hagrees).orders

end Terminal

end InsiderTrader
