import InsiderTrader.Bookkeeping
import InsiderTrader.FillAgreement
import InsiderTrader.SnapshotSweep

/-!
# The two snapshot reconciliations

The engine sweeps a broker snapshot with a loop of its own: it journals and
applies the latest event of each order and looks at the cumulative quantity only
to cut a fill down to what is new. The reconciliation crate applies the
cumulative quantity as well.

## Main definitions

- `Host.reconcileSnapshotOrder` — one order of the engine's loop

## Main results

- `Host.reconcileSnapshotOrder_orders` — what one clean step does to the order book
- `reconciliations_agree_iff` — the loops agree as long as no order supplies a quantity
-/

namespace InsiderTrader

open MachineInt Fallible

/-- An event that is applied without the portfolio is applied to the order book. -/
theorem Runtime.applyReconciledBrokerEvent_orders {event : BrokerEvent} {r r' : Runtime}
    (h : Runtime.applyReconciledBrokerEvent event r = (.ok (), r')) :
    OrderBook.applyBrokerEvent event r.orders = (.ok (), r'.orders) := by
  have horders : ∀ {r'' : Runtime},
      Runtime.onOrders .transition (OrderBook.applyBrokerEvent event) r = (.ok (), r'') →
        OrderBook.applyBrokerEvent event r.orders = (.ok (), r''.orders) := by
    intro r'' h
    rw [Runtime.onOrders, zoom_apply, Prod.mk.injEq, mapError_eq_ok] at h
    exact Prod.ext h.1 (by rw [← h.2])
  unfold Runtime.applyReconciledBrokerEvent Runtime.applyBrokerEventInner at h
  rw [reads_bind] at h
  cases event with
  | filled orderId ticks price =>
    dsimp only [id] at h
    cases hget : r.orders.get orderId with
    | none => rw [hget] at h; cases h
    | some record =>
      rw [hget] at h
      dsimp only at h
      by_cases hfilled : record.state = .filled
      · rw [if_pos hfilled] at h
        exact horders h
      · rw [if_neg hfilled, if_neg (by simp)] at h
        obtain ⟨_, next, hnext, h⟩ := bind_eq_ok h
        cases h
        exact (horders hnext).trans rfl
  | acknowledged _ _ | rejected _ _ | cancelled _ => exact horders h

namespace Host

/-- One order of the engine's loop. -/
def reconcileSnapshotOrder (env : Env) (order : BrokerOrderSnapshot) (summary : ReconcileSummary) :
    Fallible Host EngineError ReconcileSummary := do
  let h ← Fallible.reads id
  if h.runtime.hasOrder order.clientOrderId then
    (h.snapshotEvent order).elim (pure summary) fun event => applySnapshotEvent env event summary
  else pure { summary with externalOrders := summary.externalOrders + 1 }

variable {env : Env} {h h' : Host} {summary summary' : ReconcileSummary}
  {order : BrokerOrderSnapshot} {orders : List BrokerOrderSnapshot} {event : BrokerEvent}

/-- The loop takes one order after the other. -/
theorem reconcileSnapshotOrders_cons :
    reconcileSnapshotOrders env (order :: orders) summary =
      reconcileSnapshotOrder env order summary >>= reconcileSnapshotOrders env orders := by
  funext h
  rw [reconcileSnapshotOrders, reads_bind, bind_apply, reconcileSnapshotOrder, reads_bind]
  dsimp only [id]
  by_cases hknown : h.runtime.hasOrder order.clientOrderId
  · rw [if_pos hknown, if_pos hknown]
    cases h.snapshotEvent order with
    | none => rfl
    | some event => rfl
  · rw [if_neg hknown, if_neg hknown]
    rfl

/-- A broker event is journaled and applied; a clean step applies it to the order book. -/
theorem applySnapshotEvent_orders
    (hrun : applySnapshotEvent env event summary h = (.ok summary', h')) :
    summary.failed <+: summary'.failed ∧ (summary'.failed = summary.failed →
      OrderBook.applyBrokerEvent event h.runtime.orders = (.ok (), h'.runtime.orders)) := by
  unfold applySnapshotEvent at hrun
  obtain ⟨_, h₁, happend, hrun⟩ := bind_eq_ok hrun
  obtain ⟨_, h₂, htiming, hrun⟩ := bind_eq_ok hrun
  have hbefore : h₂.runtime.orders = h.runtime.orders := by
    rw [((recordTiming_bookkeeping (P := fun _ => True) fun _ => trivial).of_ok htiming).orders,
      ((appendEvent_bookkeeping (P := fun _ => True) trivial).of_ok happend).orders]
  rw [reads_bind, attempt_bind] at hrun
  rcases houtcome : onRuntime (Runtime.applyReconciledBrokerEvent event) h₂ with ⟨error | _, h₃⟩
  · rw [houtcome] at hrun
    cases hrun
    exact ⟨List.prefix_append _ _, fun hclean => by simp at hclean⟩
  · rw [houtcome] at hrun
    obtain ⟨_, h₄, hindex, hrun⟩ := bind_eq_ok hrun
    obtain ⟨_, h₅, hattribution, hrun⟩ := bind_eq_ok hrun
    obtain ⟨_, h₆, hchild, hrun⟩ := bind_eq_ok hrun
    cases hrun
    refine ⟨List.prefix_refl _, fun _ => ?_⟩
    have hevent : OrderBook.applyBrokerEvent event h₂.runtime.orders = (.ok (), h₃.runtime.orders) := by
      rw [onRuntime, zoom_apply, Prod.mk.injEq, mapError_eq_ok] at houtcome
      obtain ⟨hok, rfl⟩ := houtcome
      exact Runtime.applyReconciledBrokerEvent_orders (Prod.ext hok rfl)
    have hafter : h'.runtime.orders = h₃.runtime.orders := by
      rw [((recordChildEvent_bookkeeping (P := fun _ => True) fun _ => trivial).of_ok hchild).orders,
        ((recordAttribution_bookkeeping (P := fun _ => True) fun _ => trivial).of_ok
          hattribution).orders,
        ((indexFillNow_bookkeeping (P := fun _ => True)).of_ok hindex).orders]
    rw [hafter, ← hbefore, hevent]

/-- **One clean step of the engine's loop**: the event of a known order is applied to the order
book, and nothing else is. -/
theorem reconcileSnapshotOrder_orders
    (hrun : reconcileSnapshotOrder env order summary h = (.ok summary', h')) :
    summary.failed <+: summary'.failed ∧ (summary'.failed = summary.failed →
      if h.runtime.hasOrder order.clientOrderId then
        (h.snapshotEvent order).elim (pure ()) OrderBook.applyBrokerEvent h.runtime.orders =
          (.ok (), h'.runtime.orders)
      else h'.runtime.orders = h.runtime.orders) := by
  unfold reconcileSnapshotOrder at hrun
  rw [reads_bind] at hrun
  dsimp only [id] at hrun
  by_cases hknown : h.runtime.hasOrder order.clientOrderId
  · rw [if_pos hknown] at hrun ⊢
    cases hevent : h.snapshotEvent order with
    | none =>
      rw [hevent] at hrun
      cases hrun
      exact ⟨List.prefix_refl _, fun _ => rfl⟩
    | some event =>
      rw [hevent] at hrun
      exact applySnapshotEvent_orders hrun
  · rw [if_neg hknown] at hrun ⊢
    cases hrun
    exact ⟨List.prefix_refl _, fun _ => rfl⟩

/-- Failures of a sweep are only added to. -/
theorem reconcileSnapshotOrders_failed
    (hrun : reconcileSnapshotOrders env orders summary h = (.ok summary', h')) :
    summary.failed <+: summary'.failed := by
  induction orders generalizing summary h with
  | nil => cases hrun; exact List.prefix_refl _
  | cons order orders ih =>
    rw [reconcileSnapshotOrders_cons] at hrun
    obtain ⟨middle, h₁, hstep, hrest⟩ := bind_eq_ok hrun
    exact (reconcileSnapshotOrder_orders hstep).1.trans (ih hrest)

/-- The two loops cut a fill down to the same event. -/
theorem snapshotEvent_eq {record : OrderRecord} {taken : Option BrokerEvent}
    (hget : h.runtime.orders.get order.clientOrderId = some record)
    (hcounted : 0 ≤ record.filledQuantityTicks)
    (hfits : ∀ cumulative ∈ order.filledQuantityTicks, Fits 64 cumulative)
    (hevent : record.snapshotEvent order = .ok taken) : h.snapshotEvent order = taken := by
  have hcurrent : h.runtime.filledQuantity order.clientOrderId = record.filledQuantityTicks := by
    rw [Runtime.filledQuantity, hget]
    rfl
  unfold OrderRecord.snapshotEvent at hevent
  unfold snapshotEvent
  cases he : order.event with
  | filled orderId ticks price =>
    cases hc : order.filledQuantityTicks with
    | none =>
      rw [he, hc] at hevent
      cases hevent
      rfl
    | some cumulative =>
      have hmax := (hfits cumulative hc).2
      rw [he, hc] at hevent
      dsimp only at hevent ⊢
      rw [hcurrent]
      split at hevent
      · cases hevent
      · split at hevent
        · next hnew =>
          cases hevent
          rw [if_neg (by omega), min_eq_left (by omega)]
        · next hnew =>
          cases hevent
          rw [if_pos (by omega)]
  | acknowledged _ _ | rejected _ _ | cancelled _ =>
    rw [he] at hevent
    cases hevent
    rfl

end Host

-- Agreement

section Agreement

variable {env : Env} {h h' : Host} {summary summary' : ReconcileSummary} {book : OrderBook}
  {order : BrokerOrderSnapshot} {orders : List BrokerOrderSnapshot}

/-- **One step of both loops** from books with the same records: they stay alike unless the order
supplies a quantity, and then they part. -/
theorem reconcileSnapshotOrder_agrees (halike : h.runtime.orders.Alike book)
    (hcounted : h.runtime.orders.Counted)
    (hfits : ∀ cumulative ∈ order.filledQuantityTicks, Fits 64 cumulative)
    (hrun : Host.reconcileSnapshotOrder env order summary h = (.ok summary', h'))
    (hclean : summary'.failed = summary.failed)
    (hcrate : ∀ error, (book.observe order).1 ≠ .failed error) :
    h'.runtime.orders.Counted ∧
      (¬h.runtime.orders.Supplies order → h'.runtime.orders.Alike (book.observe order).2) ∧
      (h.runtime.orders.Supplies order → ¬h'.runtime.orders.Agrees (book.observe order).2) := by
  have hstep := (Host.reconcileSnapshotOrder_orders hrun).2 hclean
  cases hget : h.runtime.orders.get order.clientOrderId with
  | none =>
    rw [if_neg (by simp [Runtime.hasOrder, hget])] at hstep
    rw [OrderBook.observe_of_unknown (by rw [← halike, hget]), hstep]
    refine ⟨hcounted, fun _ => halike, fun hsupplies => ?_⟩
    obtain ⟨record, hrecord, -⟩ := hsupplies
    rw [hget] at hrecord
    cases hrecord
  | some record =>
    rw [if_pos (by simp [Runtime.hasOrder, hget])] at hstep
    have happlied := OrderBook.applySnapshotOrder_of_observe (by rw [← halike, hget]) hcrate
    -- the crate's order, carried over to the engine's book
    obtain ⟨hvalue, hbook⟩ := OrderBook.applySnapshotOrder_uniform _ _ halike
    rw [happlied] at hvalue hbook
    obtain ⟨last, hours⟩ : ∃ last,
        OrderBook.applySnapshotOrder order h.runtime.orders = (.ok (), last) :=
      ⟨(OrderBook.applySnapshotOrder order h.runtime.orders).2, Prod.ext hvalue rfl⟩
    rw [hours] at hbook
    obtain ⟨record', event, next, hget', hevent, hnext, hlast⟩ :=
      OrderBook.applySnapshotOrder_eq_ok hours
    rw [hget] at hget'
    cases hget'
    have hsame := Host.snapshotEvent_eq hget (hcounted _ _ hget) hfits hevent
    rw [hsame] at hstep
    obtain rfl : h'.runtime.orders = next := by
      rw [hstep] at hnext
      cases hnext
      rfl
    obtain ⟨hkeep, hpart⟩ :=
      OrderBook.applyCumulativeFill_of_snapshotEvent hget hevent hnext hlast
    refine ⟨?_, fun hno => (hkeep hno).trans hbook, fun hsupplies hagrees => ?_⟩
    · cases event with
      | none =>
        have hunchanged : h.runtime.orders = h'.runtime.orders := congrArg Prod.snd hstep
        exact hunchanged ▸ hcounted
      | some event => exact hcounted.applyBrokerEvent hstep
    · exact hpart hsupplies fun orderId => by rw [hbook orderId, hagrees orderId]

/-- The loops agree after every beginning of the orders exactly when no order supplies a
quantity. -/
theorem sweeps_agree_iff (halike : h.runtime.orders.Alike book)
    (hcounted : h.runtime.orders.Counted)
    (hfits : ∀ order ∈ orders, ∀ cumulative ∈ order.filledQuantityTicks, Fits 64 cumulative)
    (hrun : Host.reconcileSnapshotOrders env orders summary h = (.ok summary', h'))
    (hclean : summary'.failed = summary.failed) (hsweeps : OrderBook.Sweeps orders book) :
    (∀ n ≤ orders.length,
        (Host.reconcileSnapshotOrders env (orders.take n) summary h).2.runtime.orders.Agrees
          (OrderBook.observeAll (orders.take n) book).2) ↔
      ∀ n order, orders[n]? = some order →
        ¬(Host.reconcileSnapshotOrders env (orders.take n) summary h).2.runtime.orders.Supplies
          order := by
  induction orders generalizing summary h book with
  | nil =>
    refine ⟨fun _ n order hn => by simp at hn, fun _ n _ => ?_⟩
    rw [List.take_nil]
    exact halike.agrees
  | cons order orders ih =>
    obtain ⟨hfinding, hrest⟩ := hsweeps.cons
    rw [Host.reconcileSnapshotOrders_cons] at hrun
    obtain ⟨middle, h₁, hstep, hloop⟩ := bind_eq_ok hrun
    -- failures only grow, so that a clean loop makes clean steps
    have hmiddle : middle.failed = summary.failed := by
      refine (List.IsPrefix.eq_of_length (Host.reconcileSnapshotOrder_orders hstep).1 ?_).symm
      have hle := (Host.reconcileSnapshotOrders_failed hloop).length_le
      have hle' := (Host.reconcileSnapshotOrder_orders hstep).1.length_le
      rw [hclean] at hle
      omega
    obtain ⟨hcounted', hkeep, hpart⟩ := reconcileSnapshotOrder_agrees halike hcounted
      (hfits order (List.mem_cons_self ..)) hstep hmiddle hfinding
    have hsucc : ∀ n, (Host.reconcileSnapshotOrders env ((order :: orders).take (n + 1))
        summary h).2 = (Host.reconcileSnapshotOrders env (orders.take n) middle h₁).2 := by
      intro n
      rw [List.take_succ_cons, Host.reconcileSnapshotOrders_cons, bind_of_ok hstep]
    by_cases hsupplies : h.runtime.orders.Supplies order
    · refine ⟨fun hagrees => absurd ?_ (hpart hsupplies),
        fun hno => absurd hsupplies (hno 0 order rfl)⟩
      have hone := hagrees 1 (by simp)
      rwa [hsucc 0] at hone
    · have hnext := ih (hkeep hsupplies) hcounted'
        (fun order' horder' => hfits order' (List.mem_cons_of_mem _ horder')) hloop
        (hclean.trans hmiddle.symm) hrest
      constructor
      · intro hagrees n order' hn
        cases n with
        | zero => cases hn; exact hsupplies
        | succ n =>
          rw [hsucc n]
          refine hnext.mp (fun k hk => ?_) n order' hn
          rw [← hsucc k]
          exact hagrees (k + 1) (by simpa using hk)
      · intro hno n hn
        cases n with
        | zero => exact halike.agrees
        | succ n =>
          rw [hsucc n]
          refine hnext.mpr (fun k order' hk => ?_) n (by simpa using hn)
          rw [← hsucc k]
          exact hno (k + 1) order' hk

end Agreement

/-- **The engine's loop and the crate's**: when both take every order of a snapshot, they agree
after each of them exactly when no known order comes with a cumulative quantity that differs
from what the order has filled, except next to a fill of that order. -/
theorem reconciliations_agree_iff {env : Env} {h h' : Host} {summary summary' : ReconcileSummary}
    {snapshot : BrokerSnapshot} (hcounted : h.runtime.orders.Counted)
    (hfits : ∀ order ∈ snapshot.orders, ∀ cumulative ∈ order.filledQuantityTicks,
      Fits 64 cumulative)
    (hengine : Host.reconcileSnapshotOrders env snapshot.orders summary h = (.ok summary', h'))
    (hclean : summary'.failed = summary.failed)
    (hcrate : ∀ finding ∈ (h.runtime.orders.reconcileSnapshot snapshot).1.findings, ∀ error,
      finding.2 ≠ .failed error) :
    (∀ n ≤ snapshot.orders.length,
        (Host.reconcileSnapshotOrders env (snapshot.orders.take n) summary h).2.runtime.orders.Agrees
          (h.runtime.orders.reconcileSnapshot
            { snapshot with orders := snapshot.orders.take n }).2) ↔
      ∀ n order, snapshot.orders[n]? = some order →
        ¬(Host.reconcileSnapshotOrders env (snapshot.orders.take n)
          summary h).2.runtime.orders.Supplies order :=
  sweeps_agree_iff (fun _ => rfl) hcounted hfits hengine hclean
    (OrderBook.sweeps_of_findings hcrate)

namespace Sample

/-- A host with the acknowledged purchase of 10. -/
def purchasing : Host :=
  { running with runtime :=
    acknowledgedPurchase.foldl (fun r (env, op) => OrderOp.after env op r) running.runtime }

/-- A snapshot that reports the purchase alone. -/
def reports (event : BrokerEvent) (cumulative : Int) : BrokerSnapshot :=
  ⟨[⟨"o-1", event, some cumulative⟩], [], ∅⟩

/-- A sweep before its first order. -/
def unswept : ReconcileSummary := ⟨0, 0, 0, [], 0, 0, 0, 0⟩

theorem purchasing_counted : purchasing.runtime.orders.Counted := by
  have hvalues : ∀ e ∈ purchasing.runtime.orders.orders.toList, 0 ≤ e.2.filledQuantityTicks := by
    decide
  intro orderId record hget
  exact hvalues (orderId, record) (Std.TreeMap.mem_toList_iff_getElem?_eq_some.mpr hget)

end Sample

/-- A partial fill that is reported as one. -/
theorem reconciliations_agree_filled :
    (Host.reconcileSnapshotOrders (Sample.env Sample.empty)
        ((Sample.reports (.filled "o-1" 4 100) 4).orders.take 1) Sample.unswept
        Sample.purchasing).2.runtime.orders.Agrees
      (Sample.purchasing.runtime.orders.reconcileSnapshot { Sample.reports (.filled "o-1" 4 100) 4
        with orders := (Sample.reports (.filled "o-1" 4 100) 4).orders.take 1 }).2 := by
  have hengine : ((Host.reconcileSnapshotOrders (Sample.env Sample.empty)
      (Sample.reports (.filled "o-1" 4 100) 4).orders Sample.unswept Sample.purchasing).1.map
        (·.failed)).toOption = some [] := by
    decide
  have hcrate : ∀ finding ∈ (Sample.purchasing.runtime.orders.reconcileSnapshot
      (Sample.reports (.filled "o-1" 4 100) 4)).1.findings, finding.2 = .applied := by
    decide +kernel
  rcases hrun : Host.reconcileSnapshotOrders (Sample.env Sample.empty)
      (Sample.reports (.filled "o-1" 4 100) 4).orders Sample.unswept Sample.purchasing with
    ⟨error | summary, h'⟩
  · rw [hrun] at hengine
    cases hengine
  · rw [hrun] at hengine
    refine (reconciliations_agree_iff Sample.purchasing_counted ?_ hrun
      (Option.some.inj hengine) ?_).mpr ?_ 1 (Nat.le_refl 1)
    · simp [Sample.reports, MachineInt.Fits]
    · intro finding hfinding error
      rw [hcrate finding hfinding]
      exact SnapshotFinding.noConfusion
    · intro n order horder
      cases n with
      | zero =>
        cases horder
        rintro ⟨_, _, _, _, -, hsilent⟩
        exact hsilent rfl
      | succ n => simp [Sample.reports] at horder

/-- **The acknowledged order with a cumulative fill**: the crate's book has 4 filled, the
engine's 0. -/
theorem reconciliations_disagree_acknowledged :
    ¬∀ (env : Env) (h h' : Host) (summary summary' : ReconcileSummary) (snapshot : BrokerSnapshot),
      h.runtime.orders.Counted →
      (∀ order ∈ snapshot.orders, ∀ cumulative ∈ order.filledQuantityTicks, Fits 64 cumulative) →
      Host.reconcileSnapshotOrders env snapshot.orders summary h = (.ok summary', h') →
      summary'.failed = summary.failed →
      (∀ finding ∈ (h.runtime.orders.reconcileSnapshot snapshot).1.findings, ∀ error,
        finding.2 ≠ .failed error) →
      h'.runtime.orders.Agrees (h.runtime.orders.reconcileSnapshot snapshot).2 := by
  have hengine : ((Host.reconcileSnapshotOrders (Sample.env Sample.empty)
      (Sample.reports (.acknowledged "o-1" "b-1") 4).orders Sample.unswept
        Sample.purchasing).1.map (·.failed)).toOption = some [] := by
    decide
  have hcrate : ∀ finding ∈ (Sample.purchasing.runtime.orders.reconcileSnapshot
      (Sample.reports (.acknowledged "o-1" "b-1") 4)).1.findings, finding.2 = .applied := by
    decide +kernel
  have hbooks : ((Host.reconcileSnapshotOrders (Sample.env Sample.empty)
        (Sample.reports (.acknowledged "o-1" "b-1") 4).orders Sample.unswept
          Sample.purchasing).2.runtime.orders.get "o-1").map (·.filledQuantityTicks) = some 0 ∧
      ((Sample.purchasing.runtime.orders.reconcileSnapshot
        (Sample.reports (.acknowledged "o-1" "b-1") 4)).2.get "o-1").map (·.filledQuantityTicks) =
          some 4 := by
    decide
  intro hclaim
  rcases hrun : Host.reconcileSnapshotOrders (Sample.env Sample.empty)
      (Sample.reports (.acknowledged "o-1" "b-1") 4).orders Sample.unswept Sample.purchasing with
    ⟨error | summary, h'⟩
  · rw [hrun] at hengine
    cases hengine
  · rw [hrun] at hengine hbooks
    have hagrees := hclaim _ _ _ _ _ _ Sample.purchasing_counted
      (by simp [Sample.reports, MachineInt.Fits]) hrun (Option.some.inj hengine) (by
        intro finding hfinding error
        rw [hcrate finding hfinding]
        exact SnapshotFinding.noConfusion) "o-1"
    have hfilled := congrArg (Option.map Prod.snd) hagrees
    rw [Option.map_map, Option.map_map] at hfilled
    have hquantities : some (0 : Int) = some 4 := hbooks.1.symm.trans (hfilled.trans hbooks.2)
    exact absurd hquantities (by decide)

end InsiderTrader
