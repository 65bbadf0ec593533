import InsiderTrader.FillAccounting

/-!
# The ledger and the accounts

Every accepted fill enters the ledger with what it does to cash, realized PnL,
fees and the position. Over any fills, of any instruments, the accounts move by
the sums of the entries, and the postings of each entry cancel.

## Main definitions

- `FillLedgerEntry.isBalanced` — the postings of an entry cancel
- `Portfolio.postFills` — fills of any instruments in turn
- `Portfolio.Posts` — the accounts move by the sums of some entries

## Main results

- `Portfolio.applyFill_posts` — what one fill posts is what it moves
- `fills_posted` — what the fills post is what they move
-/

namespace InsiderTrader

open MachineInt Fallible

/-- The postings of an entry cancel, and no partial sum overflows. -/
def FillLedgerEntry.isBalanced (entry : FillLedgerEntry) : Bool :=
  entry.postings.foldlM (fun total posting => narrow 128 (total + posting.amountTicks)) (0 : Int) =
    some 0

namespace Portfolio

/-- Accepted fills of any instruments, one after the other. -/
def postFills : List (InstrumentId × FillTerms) → Fallible Portfolio AccountingError Unit :=
  Fallible.forEach fun fill =>
    Fallible.discard (applyFill fill.1 fill.2.quantityTicks fill.2.priceTicks fill.2.feeTicks)

/-- The ledger grows by some entries, and the accounts and positions move by their sums. -/
structure Posts (p p' : Portfolio) (entries : List FillLedgerEntry) : Prop where
  ledger : p'.ledger = p.ledger ++ entries
  cash : p'.cashTicks = p.cashTicks + (entries.map (·.cashDeltaTicks)).sum
  realized : p'.realizedPnlTicks = p.realizedPnlTicks + (entries.map (·.realizedPnlTicks)).sum
  fees : p'.feesTicks = p.feesTicks + (entries.map (·.feeTicks)).sum
  quantity : ∀ i, p'.quantity i = p.quantity i +
    ((entries.filter (·.instrumentId = i)).map (·.quantityTicks)).sum

variable {p p' p'' : Portfolio} {entries entries' : List FillLedgerEntry}

theorem Posts.nil (p : Portfolio) : Posts p p [] := by
  constructor <;> simp

theorem Posts.append (h : Posts p p' entries) (h' : Posts p' p'' entries') :
    Posts p p'' (entries ++ entries') where
  ledger := by rw [h'.ledger, h.ledger, List.append_assoc]
  cash := by rw [h'.cash, h.cash, List.map_append, List.sum_append, add_assoc]
  realized := by rw [h'.realized, h.realized, List.map_append, List.sum_append, add_assoc]
  fees := by rw [h'.fees, h.fees, List.map_append, List.sum_append, add_assoc]
  quantity i := by
    rw [h'.quantity, h.quantity, List.filter_append, List.map_append, List.sum_append, add_assoc]

/-- **One fill** posts what it moves. -/
theorem applyFill_posts {i : InstrumentId} {quantity price fee : Int} {entry : FillLedgerEntry}
    (h : applyFill i quantity price fee p = (.ok entry, p')) : Posts p p' [entry] := by
  have hquantity := applyFill_quantity h
  obtain ⟨-, -, rfl, hp'⟩ := applyFill_posted h
  rw [recordEquityPeak_eq] at hp'
  subst hp'
  refine ⟨rfl, ?_, ?_, ?_, fun j => ?_⟩
  · simp [fillEntry]
  · simp [fillEntry]
  · simp [fillEntry]
  · rw [hquantity j]
    by_cases hj : j = i
    · simp [fillEntry, hj]
    · simp [fillEntry, hj, Ne.symm hj]

/-- **The postings of a fill** cancel. -/
theorem applyFill_balanced {i : InstrumentId} {quantity price fee : Int} {entry : FillLedgerEntry}
    (hfee : Fits 64 fee) (h : applyFill i quantity price fee p = (.ok entry, p')) :
    (entry.postings.map (·.amountTicks)).sum = 0 ∧ entry.isBalanced = true := by
  obtain ⟨htakes, -, rfl, -⟩ := applyFill_posted h
  have hcash := fits_64_iff.mp htakes.cash
  have hpaid : cashBy quantity price fee + quantity * price = -fee := by
    rw [cashBy]
    omega
  rw [fits_64_iff] at hfee
  constructor
  · simp only [fillEntry, List.map_cons, List.map_nil, List.sum_cons, List.sum_nil]
    omega
  · have hcashFits : Fits 128 (cashBy quantity price fee) := by
      rw [fits_128_iff]
      omega
    have hpaidFits : Fits 128 (-fee) := by
      rw [fits_128_iff]
      omega
    have hzero : narrow 128 (0 : Int) = some 0 := by decide
    simp only [FillLedgerEntry.isBalanced, fillEntry, List.foldlM_cons, List.foldlM_nil, zero_add,
      narrow_of_fits hcashFits, Option.bind_eq_bind, Option.bind_some, hpaid,
      narrow_of_fits hpaidFits, neg_add_cancel, hzero]
    rfl

/-- **A run of fills** posts what it moves, and the postings of its entries cancel. -/
theorem postFills_posts {fills : List (InstrumentId × FillTerms)}
    (hfees : ∀ fill ∈ fills, Fits 64 fill.2.feeTicks) (h : postFills fills p = (.ok (), p')) :
    ∃ entries, Posts p p' entries ∧ entries.length = fills.length ∧
      ∀ entry ∈ entries, (entry.postings.map (·.amountTicks)).sum = 0 ∧ entry.isBalanced = true := by
  induction fills generalizing p with
  | nil =>
    obtain rfl : p = p' := congrArg Prod.snd h
    exact ⟨[], Posts.nil p, rfl, fun entry hentry => by cases hentry⟩
  | cons fill fills ih =>
    obtain ⟨hfee, hfees⟩ := List.forall_mem_cons.mp hfees
    obtain ⟨u, q, hfill, hrest⟩ := bind_eq_ok h
    obtain ⟨entry, q', hentry, hq⟩ := bind_eq_ok hfill
    obtain rfl : q' = q := congrArg Prod.snd hq
    obtain ⟨entries, hposts, hlength, hbalanced⟩ := ih hfees hrest
    exact ⟨entry :: entries, (applyFill_posts hentry).append hposts, congrArg (· + 1) hlength,
      List.forall_mem_cons.mpr ⟨applyFill_balanced hfee hentry, hbalanced⟩⟩

end Portfolio

/-- **The ledger accounts for everything**: over accepted fills, cash, realized PnL, fees and every
position change by the sums of the entries they append, one for each fill, and the postings of each
entry sum to zero. -/
theorem fills_posted {fills : List (InstrumentId × FillTerms)} {p p' : Portfolio}
    (hfees : ∀ fill ∈ fills, Fits 64 fill.2.feeTicks)
    (h : Portfolio.postFills fills p = (.ok (), p')) :
    ∃ entries, p.Posts p' entries ∧ entries.length = fills.length ∧
      ∀ entry ∈ entries, (entry.postings.map (·.amountTicks)).sum = 0 ∧ entry.isBalanced = true :=
  Portfolio.postFills_posts hfees h

namespace Sample

/-- Opening, adding, reversing and closing in two instruments. -/
def mixedFills : List (InstrumentId × FillTerms) :=
  [(7, ⟨4, 10, 1⟩), (7, ⟨2, 13, 1⟩), (8, ⟨-3, 20, 0⟩), (7, ⟨-9, 12, 2⟩), (8, ⟨3, 19, 1⟩)]

end Sample

/-- The fills of two instruments post what they move. -/
theorem fills_posted_mixed :
    ∃ entries, Portfolio.new.Posts (Portfolio.postFills Sample.mixedFills Portfolio.new).2 entries ∧
      entries.length = 5 ∧ ∀ entry ∈ entries,
        (entry.postings.map (·.amountTicks)).sum = 0 ∧ entry.isBalanced = true := by
  have hsucceeds : (Portfolio.postFills Sample.mixedFills).Succeeds Portfolio.new := by
    decide +kernel
  obtain ⟨u, h⟩ := hsucceeds.eq_ok
  exact fills_posted (by decide) h

end InsiderTrader
