import InsiderTrader.Library.MapBest
import InsiderTrader.MarketAtomicity

/-!
# The top of a depth-limited book

A depth book keeps the best levels of each side and drops the worse ones; a
dropped level does not come back. Next to it runs a book without a limit that
takes the same accepted changes and snapshots.

## Main definitions

- `FullBook` — the book without a limit
- `BookOp`, `BookOp.track` — what can happen to a book, and both books after it
- `BookOp.Uncovers` — a deletion below which the limited book has lost a level

## Main results

- `DepthBook.top_exact` — the tops agree until a deletion uncovers a lost level
-/

namespace InsiderTrader

open Fallible MapBest

namespace BookSide

/-- A price is at least as good as another on its side. -/
def AtLeast : BookSide → Int → Int → Prop
  | .bid => fun p p' => p' ≤ p
  | .ask => fun p p' => p ≤ p'

instance (side : BookSide) : Std.Refl side.AtLeast :=
  ⟨fun p => by cases side <;> exact le_refl p⟩

instance (side : BookSide) : IsTrans Int side.AtLeast :=
  ⟨fun _ _ _ h h' => by cases side with
    | bid => exact le_trans h' h
    | ask => exact le_trans h h'⟩

instance (side : BookSide) : Std.Antisymm side.AtLeast :=
  ⟨fun _ _ h h' => by cases side with
    | bid => exact le_antisymm h' h
    | ask => exact le_antisymm h h'⟩

/-- The best level of a side. -/
def best (side : BookSide) (levels : Std.TreeMap Int Int) : Option (Int × Int) :=
  match side with
  | .bid => levels.maxEntry?
  | .ask => levels.minEntry?

variable {side : BookSide} {levels kept full : Std.TreeMap Int Int} {e : Int × Int}

theorem best_eq_some_iff : side.best levels = some e ↔ IsBest side.AtLeast levels e := by
  cases side with
  | bid => simp only [best, maxEntry?_eq_some_iff, Int.isLE_compare, IsBest, AtLeast]
  | ask => simp only [best, minEntry?_eq_some_iff, Int.isLE_compare, IsBest, AtLeast]

/-- A side that covers another has its best level. -/
theorem best_eq_of_covers (h : Covers side.AtLeast kept full) : side.best kept = side.best full :=
  Option.ext fun e => by rw [best_eq_some_iff, best_eq_some_iff, h.isBest_iff]

/-- A side with a level has a best one. -/
theorem exists_best (side : BookSide) {p : Int} (hp : p ∈ levels) : ∃ e, side.best levels = some e := by
  obtain ⟨v, hv⟩ := Option.isSome_iff_exists.mp (Std.TreeMap.mem_iff_isSome_getElem?.mp hp)
  have hne : levels.toList ≠ [] :=
    List.ne_nil_of_mem (Std.TreeMap.mem_toList_iff_getElem?_eq_some.mpr hv)
  cases side with
  | bid => exact ⟨_, (maxEntry?_eq_getLast? levels).trans (List.getLast?_eq_some_getLast hne)⟩
  | ask => exact ⟨_, (minEntry?_eq_head? levels).trans (List.head?_eq_some_head hne)⟩

/-- A deletion that uncovers a lost level leaves another level best. -/
theorem best_ne_of_uncovers {p : Int} (hcovers : Covers side.AtLeast kept full)
    (h : Uncovers side.AtLeast kept full p) : side.best (kept.erase p) ≠ side.best (full.erase p) := by
  obtain ⟨d, hd, hlost, hbest⟩ := h
  have hne : d ≠ p := by
    rintro rfl
    obtain ⟨k, hk, hle⟩ := hcovers.best d hd
    exact hbest k hk (fun heq => hlost (heq ▸ hk)) hle
  have hrest : d ∈ full.erase p := mem_erase_iff.mpr ⟨hne, hd⟩
  obtain ⟨e, he⟩ := exists_best side hrest
  intro heq
  obtain ⟨hmem, -⟩ := best_eq_some_iff.mp (heq.trans he)
  obtain ⟨hep, hek⟩ := mem_erase_iff.mp (mem_of_getElem? hmem)
  exact hbest e.1 hek hep ((best_eq_some_iff.mp he).2 d hrest)

end BookSide

-- The levels of a limited side

namespace DepthBook

section Trim

variable {side : BookSide} {levels kept full : Std.TreeMap Int Int} {limit : ℕ}

/-- The worst level of a side is the one that is dropped. -/
theorem dropWorst_eq_erase (side : BookSide) (h : levels.isEmpty = false) :
    ∃ w ∈ levels, (∀ k ∈ levels, side.AtLeast k w) ∧ dropWorst side levels = levels.erase w := by
  cases side with
  | bid =>
    obtain ⟨w, hw⟩ := Option.isSome_iff_exists.mp
      (Std.TreeMap.isSome_minKey?_iff_isEmpty_eq_false.mpr h)
    obtain ⟨hmem, hleast⟩ := Std.TreeMap.minKey?_eq_some_iff_mem_and_forall.mp hw
    exact ⟨w, hmem, fun k hk => Int.isLE_compare.mp (hleast k hk), by rw [dropWorst, hw]; rfl⟩
  | ask =>
    obtain ⟨w, hw⟩ := Option.isSome_iff_exists.mp
      (Std.TreeMap.isSome_maxKey?_iff_isEmpty_eq_false.mpr h)
    obtain ⟨hmem, hgreatest⟩ := Std.TreeMap.maxKey?_eq_some_iff_mem_and_forall.mp hw
    exact ⟨w, hmem, fun k hk => Int.isLE_compare.mp (hgreatest k hk), by rw [dropWorst, hw]; rfl⟩

/-- A side of several levels is covered by what is left without the worst one. -/
theorem dropWorst_covers (side : BookSide) (h : 1 < levels.size) :
    Covers side.AtLeast (dropWorst side levels) levels ∧
      (dropWorst side levels).size = levels.size - 1 := by
  have hlevels : levels.isEmpty = false := by
    rw [Std.TreeMap.isEmpty_eq_size_eq_zero]
    simpa using (by omega : levels.size ≠ 0)
  obtain ⟨w, hw, hworst, heq⟩ := dropWorst_eq_erase side hlevels
  have hsize : (levels.erase w).size = levels.size - 1 := by
    rw [Std.TreeMap.size_erase, if_pos (Std.TreeMap.mem_iff_contains.mp hw)]
  have hrest : (levels.erase w).isEmpty = false := by
    rw [Std.TreeMap.isEmpty_eq_size_eq_zero, hsize]
    simpa using (by omega : levels.size - 1 ≠ 0)
  obtain ⟨k, hk⟩ := Std.TreeMap.isEmpty_eq_false_iff_exists_mem.mp hrest
  obtain ⟨hne, hk⟩ := mem_erase_iff.mp hk
  rw [heq]
  exact ⟨covers_erase_self hk hne (hworst k hk), hsize⟩

/-- **A trimmed side** covers what it was trimmed from. -/
theorem trim_covers (hlimit : 0 < limit) (levels : Std.TreeMap Int Int) :
    Covers side.AtLeast (trim side limit levels) levels := by
  -- dropping `n` levels, no more than are beyond the limit
  have hdrop (n : ℕ) (hn : n ≤ levels.size - limit) :
      Covers side.AtLeast (Nat.repeat (dropWorst side) n levels) levels ∧
        (Nat.repeat (dropWorst side) n levels).size = levels.size - n := by
    induction n with
    | zero => exact ⟨Covers.refl levels, rfl⟩
    | succ n ih =>
      obtain ⟨hcovers, hsize⟩ := ih (by omega)
      obtain ⟨hnext, hsizeNext⟩ := dropWorst_covers side (by omega :
        1 < (Nat.repeat (dropWorst side) n levels).size)
      exact ⟨hnext.trans hcovers, hsizeNext.trans (by omega)⟩
  exact (hdrop _ le_rfl).1

/-- Setting a level of both sides keeps the cover, and so does deleting one unless it uncovers a
lost level. -/
theorem setLevel_covers {price quantity : Int} (hcovers : Covers side.AtLeast kept full)
    (h : quantity = 0 → ¬Uncovers side.AtLeast kept full price) :
    Covers side.AtLeast (setLevel kept price quantity) (setLevel full price quantity) := by
  unfold setLevel
  split
  · next hzero => exact hcovers.erase_iff.mpr (h hzero)
  · exact hcovers.insert price quantity

end Trim

/-- A book has room for at least one level on each side. -/
def opened (instrumentId : InstrumentId) (depthLimit : ℕ) : Option DepthBook :=
  if 0 < depthLimit then some (new instrumentId depthLimit) else none

/-- Mark the book stale until a valid change or snapshot is accepted. -/
def markStale (b : DepthBook) : DepthBook :=
  { b with health := .stale }

/-- The levels of a side. -/
def levels (b : DepthBook) : BookSide → Std.TreeMap Int Int
  | .bid => b.bids
  | .ask => b.asks

end DepthBook

-- The book without a limit

/-- A book that keeps every level. -/
structure FullBook where
  bids : Std.TreeMap Int Int
  asks : Std.TreeMap Int Int

namespace FullBook

/-- The book without levels. -/
def empty : FullBook := ⟨∅, ∅⟩

/-- The levels of a side. -/
def levels (b : FullBook) : BookSide → Std.TreeMap Int Int
  | .bid => b.bids
  | .ask => b.asks

/-- One change of one level. -/
def change (b : FullBook) (delta : BookDelta) : FullBook :=
  match delta.side with
  | .bid => { b with bids := DepthBook.setLevel b.bids delta.priceTicks delta.quantityTicks }
  | .ask => { b with asks := DepthBook.setLevel b.asks delta.priceTicks delta.quantityTicks }

/-- The levels of a snapshot. -/
def ofLevels (levels : List (Int × Int)) : Std.TreeMap Int Int :=
  levels.foldl (fun m e => m.insert e.1 e.2) ∅

/-- Best bid and ask with their quantities. -/
def top (b : FullBook) : Option (Int × Int × Int × Int) := do
  let bid ← b.bids.maxEntry?
  let ask ← b.asks.minEntry?
  some (bid.1, bid.2, ask.1, ask.2)

end FullBook

/-- What can happen to a book. -/
inductive BookOp where
  | apply (delta : BookDelta)
  | replaceSnapshot (sequence : ℕ) (bids asks : List (Int × Int))
  | markStale

namespace BookOp

/-- The limited book afterwards. -/
def after (op : BookOp) (b : DepthBook) : DepthBook :=
  match op with
  | .apply delta => (DepthBook.apply delta b).2
  | .replaceSnapshot sequence bids asks =>
    (b.replaceSnapshot sequence bids asks).toOption.getD b
  | .markStale => b.markStale

/-- The limited book takes the change: a repeated one is answered but not taken. -/
def accepted (op : BookOp) (b : DepthBook) : Bool :=
  match op with
  | .apply delta =>
    match (DepthBook.apply delta b).1 with
    | .ok .initial | .ok .contiguous => true
    | _ => false
  | .replaceSnapshot sequence bids asks => (b.replaceSnapshot sequence bids asks).isOk
  | .markStale => false

/-- The full book with a change taken. -/
def take (op : BookOp) (full : FullBook) : FullBook :=
  match op with
  | .apply delta => full.change delta
  | .replaceSnapshot _ bids asks => ⟨FullBook.ofLevels bids, FullBook.ofLevels asks⟩
  | .markStale => full

/-- Both books afterwards: the full one takes what the limited one takes. -/
def track (op : BookOp) (s : DepthBook × FullBook) : DepthBook × FullBook :=
  (op.after s.1, if op.accepted s.1 then op.take s.2 else s.2)

/-- An accepted deletion below which the limited book has lost the best level left. -/
def Uncovers (op : BookOp) (s : DepthBook × FullBook) : Prop :=
  ∃ delta, op = .apply delta ∧ op.accepted s.1 ∧ delta.quantityTicks = 0 ∧
    MapBest.Uncovers delta.side.AtLeast (s.1.levels delta.side) (s.2.levels delta.side)
      delta.priceTicks

end BookOp

-- One change in both books

theorem FullBook.levels_change (b : FullBook) (delta : BookDelta) (side : BookSide) :
    (b.change delta).levels side =
      if side = delta.side then
        DepthBook.setLevel (b.levels side) delta.priceTicks delta.quantityTicks
      else b.levels side := by
  unfold change
  cases side <;> cases delta.side <;> rfl

/-- **What a delta does**: it is accepted and its level is set and its side trimmed, or no level
changes. -/
theorem BookOp.after_apply (b : DepthBook) (delta : BookDelta) :
    (BookOp.apply delta).accepted b = true ∧
        (∀ side, ((BookOp.apply delta).after b).levels side =
          b.after delta side (b.levels side)) ∧
        ((BookOp.apply delta).after b).health = .good ∧
        ((BookOp.apply delta).after b).depthLimit = b.depthLimit ∨
      (BookOp.apply delta).accepted b = false ∧
        (∀ side, ((BookOp.apply delta).after b).levels side = b.levels side) ∧
        ((BookOp.apply delta).after b).depthLimit = b.depthLimit := by
  dsimp only [BookOp.accepted, BookOp.after]
  by_cases hadmits : b.Admits delta
  · by_cases haccepts : b.sequence.Accepts delta.sequence
    · by_cases hcrossed : b.crossedBy delta = true
      · rw [DepthBook.apply_of_accepts hadmits haccepts, if_pos hcrossed]
        exact .inr ⟨rfl, fun side => by cases side <;> rfl, rfl⟩
      · rw [DepthBook.apply_of_accepts hadmits haccepts, if_neg hcrossed]
        refine .inl ⟨?_, fun side => by cases side <;> rfl, rfl, rfl⟩
        rcases haccepts with hs | hs <;> rw [hs]
    · rw [DepthBook.apply_of_not_accepts hadmits haccepts]
      refine .inr ⟨?_, fun side => by cases side <;> rfl, rfl⟩
      cases hs : b.sequence.status delta.sequence with
      | initial => exact absurd (.inl hs) haccepts
      | contiguous => exact absurd (.inr hs) haccepts
      | duplicate => rfl
      | gap => rfl
  · rw [DepthBook.apply_of_not_admits hadmits]
    exact .inr ⟨rfl, fun _ => rfl, rfl⟩

/-- A snapshot that is read holds exactly its levels. -/
theorem DepthBook.ofLevels_of_snapshotLevels {l : List (Int × Int)} {m : Std.TreeMap Int Int}
    (h : snapshotLevels l = some m) : FullBook.ofLevels l = m := by
  have hread (l : List (Int × Int)) (m₀ : Std.TreeMap Int Int)
      (h : l.foldlM (fun (m : Std.TreeMap Int Int) e =>
        if e.1 ≤ 0 ∨ e.2 ≤ 0 ∨ m.contains e.1 then none else some (m.insert e.1 e.2)) m₀ = some m) :
      l.foldl (fun m e => m.insert e.1 e.2) m₀ = m := by
    induction l generalizing m₀ with
    | nil => exact Option.some.inj h
    | cons e l ih =>
      rw [List.foldlM_cons] at h
      split at h
      · cases h
      · exact ih _ h
  exact hread l ∅ h

/-- **What a snapshot does**: it is accepted and both sides are its levels, or nothing changes. -/
theorem BookOp.after_replaceSnapshot (b : DepthBook) (sequence : ℕ) (bids asks : List (Int × Int)) :
    (BookOp.replaceSnapshot sequence bids asks).accepted b = true ∧
        (∀ side, ((BookOp.replaceSnapshot sequence bids asks).after b).levels side =
          (⟨FullBook.ofLevels bids, FullBook.ofLevels asks⟩ : FullBook).levels side) ∧
        ((BookOp.replaceSnapshot sequence bids asks).after b).depthLimit = b.depthLimit ∨
      (BookOp.replaceSnapshot sequence bids asks).accepted b = false ∧
        (BookOp.replaceSnapshot sequence bids asks).after b = b := by
  dsimp only [BookOp.accepted, BookOp.after]
  cases hread : b.replaceSnapshot sequence bids asks with
  | error e => exact .inr ⟨rfl, rfl⟩
  | ok next =>
    refine .inl ⟨rfl, ?_⟩
    rw [DepthBook.replaceSnapshot] at hread
    split at hread
    · cases hread
    · split at hread
      · next hbids hasks =>
        split at hread
        · cases hread
        · obtain rfl := Except.ok.inj hread
          rw [DepthBook.ofLevels_of_snapshotLevels hbids, DepthBook.ofLevels_of_snapshotLevels hasks]
          exact ⟨fun side => by cases side <;> rfl, rfl⟩
      · cases hread

-- The two books along a run

/-- Each side of the limited book covers the side of the full one. -/
structure Tracks (s : DepthBook × FullBook) : Prop where
  room : 0 < s.1.depthLimit
  covers : ∀ side : BookSide, Covers side.AtLeast (s.1.levels side) (s.2.levels side)

/-- Both books have the same best level on each side. -/
def SameBest (s : DepthBook × FullBook) : Prop :=
  ∀ side : BookSide, side.best (s.1.levels side) = side.best (s.2.levels side)

variable {s : DepthBook × FullBook} {op : BookOp}

theorem Tracks.sameBest (h : Tracks s) : SameBest s := fun side =>
  BookSide.best_eq_of_covers (h.covers side)

/-- Books with the same best levels have the same top. -/
theorem SameBest.top_eq (h : SameBest s) : s.1.top = s.2.top := by
  have hbid : s.1.bids.maxEntry? = s.2.bids.maxEntry? := h .bid
  have hask : s.1.asks.minEntry? = s.2.asks.minEntry? := h .ask
  rw [DepthBook.top, FullBook.top, hbid, hask]

/-- **One step** keeps the cover unless it uncovers a lost level. -/
theorem Tracks.step (h : Tracks s) (hcovered : ¬op.Uncovers s) : Tracks (op.track s) := by
  cases op with
  | markStale => exact ⟨h.room, fun side => by cases side <;> exact h.covers _⟩
  | replaceSnapshot sequence bids asks =>
    unfold BookOp.track
    rcases BookOp.after_replaceSnapshot s.1 sequence bids asks with
      ⟨haccepted, hlevels, hlimit⟩ | ⟨hrefused, heq⟩
    · rw [if_pos haccepted]
      refine ⟨hlimit ▸ h.room, fun side => ?_⟩
      dsimp only
      rw [hlevels]
      exact Covers.refl _
    · rw [hrefused, heq]
      exact h
  | apply delta =>
    unfold BookOp.track
    rcases BookOp.after_apply s.1 delta with
      ⟨haccepted, hlevels, -, hlimit⟩ | ⟨hrefused, hlevels, hlimit⟩
    · rw [if_pos haccepted]
      refine ⟨hlimit ▸ h.room, fun side => ?_⟩
      dsimp only [BookOp.take]
      rw [hlevels, FullBook.levels_change, DepthBook.after]
      split
      · next hside =>
        subst hside
        refine (DepthBook.trim_covers h.room _).trans ?_
        refine DepthBook.setLevel_covers (h.covers _) fun hzero huncovers => hcovered ?_
        exact ⟨delta, rfl, haccepted, hzero, huncovers⟩
      · exact h.covers side
    · rw [hrefused]
      exact ⟨hlimit ▸ h.room, fun side => by rw [hlevels]; exact h.covers side⟩

/-- A step that uncovers a lost level leaves the books with different best levels, and the limited
one in good health. -/
theorem Tracks.not_sameBest (h : Tracks s) (huncovers : op.Uncovers s) :
    ¬SameBest (op.track s) ∧ (op.track s).1.health = .good := by
  obtain ⟨delta, rfl, haccepted, hzero, huncovers⟩ := huncovers
  rcases BookOp.after_apply s.1 delta with ⟨-, hlevels, hhealth, -⟩ | ⟨hrefused, -⟩
  · refine ⟨fun hsame => ?_, hhealth⟩
    have hbest := hsame delta.side
    unfold BookOp.track at hbest
    rw [if_pos haccepted] at hbest
    dsimp only [BookOp.take] at hbest
    rw [hlevels, FullBook.levels_change, if_pos rfl, DepthBook.after, if_pos rfl,
      BookSide.best_eq_of_covers (DepthBook.trim_covers h.room _), DepthBook.setLevel, hzero,
      if_pos rfl, DepthBook.setLevel, if_pos rfl] at hbest
    exact BookSide.best_ne_of_uncovers (h.covers _) huncovers hbest
  · rw [haccepted] at hrefused
    cases hrefused

/-- **The top of a depth-limited book** is the top of the full one in every state reached, until
an accepted deletion uncovers a level that the limit has dropped; then a best level is wrong while
the book reports good health. -/
theorem DepthBook.top_exact (instrumentId : InstrumentId) (depthLimit : ℕ) {b : DepthBook}
    (hopened : DepthBook.opened instrumentId depthLimit = some b) (run : List BookOp) :
    ((∀ c ∈ Runs.calls BookOp.track (b, .empty) run, ¬c.2.Uncovers c.1) →
      ∀ s ∈ Runs.states BookOp.track (b, .empty) run, s.1.health = .good → s.1.top = s.2.top) ∧
      ((∀ s ∈ Runs.states BookOp.track (b, .empty) run, s.1.health = .good → SameBest s) ↔
        ∀ c ∈ Runs.calls BookOp.track (b, .empty) run, ¬c.2.Uncovers c.1) := by
  have hstart : Tracks (b, .empty) := by
    rw [DepthBook.opened] at hopened
    split at hopened
    · next hroom =>
      obtain rfl := Option.some.inj hopened
      exact ⟨hroom, fun side => by cases side <;> exact Covers.refl _⟩
    · cases hopened
  constructor
  · intro hcovered s hs _
    have htracks := Runs.states_of_step (A := fun _ => True) (G := fun op s => ¬BookOp.Uncovers op s)
      (fun op s _ h hcovered => Tracks.step h hcovered) hstart (fun _ _ => trivial) hcovered s hs
    exact htracks.sameBest.top_eq
  · refine Runs.states_iff_of_inv (A := fun _ => True) (I := Tracks)
      (fun op s _ h => Tracks.step h) (fun op s _ h => ⟨fun hgood huncovers => ?_, fun hcovered _ => ?_⟩)
      hstart (fun _ => hstart.sameBest) fun _ _ => trivial
    · obtain ⟨hdiffer, hhealth⟩ := h.not_sameBest huncovers
      exact hdiffer (hgood hhealth)
    · exact (h.step hcovered).sameBest

namespace Sample

/-- An ask and two bids. -/
def depthQuotes : List BookOp :=
  [.apply ⟨7, 1, .ask, 20, 5⟩, .apply ⟨7, 2, .bid, 10, 1⟩, .apply ⟨7, 3, .bid, 11, 1⟩]

end Sample

/-- Without deletions the top is exact. -/
theorem depthQuotes_exact :
    DepthBook.opened 7 1 = some (.new 7 1) ∧
      ∀ s ∈ Runs.states BookOp.track (.new 7 1, .empty) Sample.depthQuotes,
        s.1.health = .good → s.1.top = s.2.top := by
  refine ⟨rfl, (DepthBook.top_exact 7 1 rfl Sample.depthQuotes).1 ?_⟩
  rintro c hc ⟨delta, hdelta, -, hzero, -⟩
  have hop := Runs.mem_of_mem_calls hc
  rw [hdelta] at hop
  simp only [Sample.depthQuotes, List.mem_cons, BookOp.apply.injEq, List.not_mem_nil,
    or_false] at hop
  rcases hop with rfl | rfl | rfl <;> cases hzero

/-- Both books after a delta that is accepted. -/
theorem track_of_accepts {b : DepthBook} {full : FullBook} {delta : BookDelta}
    (hadmits : b.Admits delta) (haccepts : b.sequence.Accepts delta.sequence)
    (hcrossed : b.crossedBy delta = false) :
    BookOp.track (.apply delta) (b, full) =
      ({ b with
        bids := b.after delta .bid b.bids
        asks := b.after delta .ask b.asks
        sequence := ⟨some delta.sequence⟩
        health := .good }, full.change delta) := by
  have hrun := DepthBook.apply_of_accepts hadmits haccepts
  rw [hcrossed, if_neg Bool.false_ne_true] at hrun
  have haccepted : (BookOp.apply delta).accepted b = true := by
    dsimp only [BookOp.accepted]
    rw [hrun]
    rcases haccepts with hs | hs <;> rw [hs]
  rw [BookOp.track, if_pos haccepted]
  dsimp only [BookOp.after, BookOp.take]
  rw [hrun]

namespace Sample

/-- The levels of two bids, and of the ask. -/
def bids : Std.TreeMap Int Int := ((∅ : Std.TreeMap Int Int).insert 10 1).insert 11 1

def asks : Std.TreeMap Int Int := (∅ : Std.TreeMap Int Int).insert 20 5

theorem mem_bids {k : Int} : k ∈ bids ↔ k = 11 ∨ k = 10 := by
  rw [bids, Std.TreeMap.mem_insert, Std.TreeMap.mem_insert, Std.LawfulEqCmp.compare_eq_iff_eq,
    Std.LawfulEqCmp.compare_eq_iff_eq, or_iff_left Std.TreeMap.not_mem_emptyc, eq_comm, @eq_comm _ 10]

theorem dropWorst_bids : DepthBook.dropWorst .bid bids = bids.erase 10 := by
  obtain ⟨w, hw, hworst, heq⟩ := DepthBook.dropWorst_eq_erase .bid (rfl : bids.isEmpty = false)
  have hlow : w ≤ 10 := hworst 10 (Std.TreeMap.mem_iff_contains.mpr rfl)
  rcases mem_bids.mp hw with rfl | rfl
  · omega
  · exact heq

/-- Bids of at most 11 are below the ask. -/
theorem crossed_asks {levels : Std.TreeMap Int Int} (hlow : ∀ k ∈ levels, k ≤ 11) :
    DepthBook.crossed levels asks = false := by
  rw [Bool.eq_false_iff, ne_eq, DepthBook.crossed_iff]
  rintro ⟨bid, hbid, ask, hask, hle⟩
  rw [asks, Std.TreeMap.mem_insert, or_iff_left Std.TreeMap.not_mem_emptyc,
    Std.LawfulEqCmp.compare_eq_iff_eq] at hask
  have hbound := hlow bid hbid
  omega

/-- The books after the quotes: the limited one has dropped the lower bid. -/
theorem track_depthQuotes : Runs.final BookOp.track (.new 7 1, .empty) depthQuotes =
    (⟨7, bids.erase 10, asks, ⟨some 3⟩, .good, 1⟩, ⟨bids, asks⟩) := by
  have hask : BookOp.track (.apply ⟨7, 1, .ask, 20, 5⟩) (.new 7 1, .empty) =
      (⟨7, ∅, asks, ⟨some 1⟩, .good, 1⟩, ⟨∅, asks⟩) :=
    track_of_accepts (by decide) (by decide)
      (crossed_asks fun k hk => absurd hk Std.TreeMap.not_mem_emptyc)
  have hlow : BookOp.track (.apply ⟨7, 2, .bid, 10, 1⟩)
      (⟨7, ∅, asks, ⟨some 1⟩, .good, 1⟩, ⟨∅, asks⟩) =
      (⟨7, (∅ : Std.TreeMap Int Int).insert 10 1, asks, ⟨some 2⟩, .good, 1⟩,
        ⟨(∅ : Std.TreeMap Int Int).insert 10 1, asks⟩) := by
    refine track_of_accepts (by decide) (by decide) (crossed_asks fun k hk => ?_)
    have hk : k ∈ (∅ : Std.TreeMap Int Int).insert 10 1 := hk
    rw [Std.TreeMap.mem_insert, or_iff_left Std.TreeMap.not_mem_emptyc,
      Std.LawfulEqCmp.compare_eq_iff_eq] at hk
    omega
  have hhigh : BookOp.track (.apply ⟨7, 3, .bid, 11, 1⟩)
      (⟨7, (∅ : Std.TreeMap Int Int).insert 10 1, asks, ⟨some 2⟩, .good, 1⟩,
        ⟨(∅ : Std.TreeMap Int Int).insert 10 1, asks⟩) =
      (⟨7, DepthBook.dropWorst .bid bids, asks, ⟨some 3⟩, .good, 1⟩, ⟨bids, asks⟩) := by
    refine track_of_accepts (by decide) (by decide) (crossed_asks fun k hk => ?_)
    have hk : k ∈ DepthBook.dropWorst .bid bids := hk
    rw [dropWorst_bids, mem_erase_iff, mem_bids] at hk
    omega
  rw [depthQuotes, Runs.final_cons, Runs.final_cons, Runs.final_cons, Runs.final_nil, hask, hlow,
    hhigh, dropWorst_bids]

/-- The better bid is deleted. -/
def deletion : BookOp := .apply ⟨7, 4, .bid, 11, 0⟩

theorem track_deletion : Runs.final BookOp.track (.new 7 1, .empty) (depthQuotes ++ [deletion]) =
    (⟨7, (bids.erase 10).erase 11, asks, ⟨some 4⟩, .good, 1⟩, ⟨bids.erase 11, asks⟩) := by
  rw [Runs.final_append, track_depthQuotes]
  refine track_of_accepts (by decide) (by decide) (crossed_asks fun k hk => ?_)
  have hk : k ∈ (bids.erase 10).erase 11 := hk
  rw [mem_erase_iff, mem_erase_iff, mem_bids] at hk
  omega

end Sample

/-- **A level is lost**: a book of one level drops the bid 10 for the bid 11; when that is deleted
the book has no bid and good health, the full one has the bid 10. -/
theorem top_lost_after_deletion :
    ¬∀ (depthLimit : ℕ) (b : DepthBook), DepthBook.opened 7 depthLimit = some b →
      ∀ run, ∀ s ∈ Runs.states BookOp.track (b, .empty) run,
        s.1.health = .good → s.1.top = s.2.top := by
  intro h
  have hmem : Runs.final BookOp.track (.new 7 1, .empty)
      (Sample.depthQuotes ++ [Sample.deletion]) ∈ Runs.states BookOp.track (.new 7 1, .empty)
        (Sample.depthQuotes ++ [Sample.deletion]) := Runs.final_mem_states _ _
  have hgood : (Runs.final BookOp.track (.new 7 1, .empty)
      (Sample.depthQuotes ++ [Sample.deletion])).1.health = .good := by rw [Sample.track_deletion]
  have htop := h 1 (.new 7 1) rfl _ _ hmem hgood
  rw [Sample.track_deletion] at htop
  -- the limited book has no bid
  have hnone : Std.TreeMap.maxEntry? ((Sample.bids.erase 10).erase 11) = none :=
    (maxEntry?_eq_getLast? _).trans rfl
  have hbid : Std.TreeMap.maxEntry? (Sample.bids.erase 11) = some (10, 1) :=
    (maxEntry?_eq_getLast? _).trans rfl
  have hask : Sample.asks.minEntry? = some (20, 5) := (minEntry?_eq_head? _).trans rfl
  rw [DepthBook.top, FullBook.top, hnone, hbid, hask] at htop
  cases htop

end InsiderTrader
