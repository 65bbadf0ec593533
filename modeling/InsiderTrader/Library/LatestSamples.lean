import Mathlib

/-!
# Corrected series

Samples arrive with an index. A sample of the newest index corrects the one that
was there, an older one is refused, and only the newest samples are kept. What
is kept after any arrivals is said at once: of the samples that were not older
than one before them, those that no later one corrects, and the last of these.

## Main definitions

- `Samples.inOrder` — the samples that are not older than one before them
- `Samples.latest` — the samples that no later one corrects
- `Samples.lastN` — the last samples
- `Samples.window` — the last of the latest samples
- `Samples.push` — one more sample, unless it is older than the newest one

## Main results

- `Samples.push_latest` — one more sample corrects or extends the series
- `Samples.push_window` — the same on the last samples only
- `Samples.push_kept` — what a window is after one more sample
-/

namespace Samples

variable {τ ι : Type} [LinearOrder ι] (key : τ → ι)

/-- The samples that are not older than one before them. -/
def inOrder (samples : List τ) : List τ :=
  samples.foldl (fun kept x => if ∀ y ∈ kept, key y ≤ key x then kept ++ [x] else kept) []

/-- The samples that no later one corrects. -/
def latest : List τ → List τ
  | [] => []
  | x :: rest => if ∃ y ∈ rest, key y = key x then latest rest else x :: latest rest

/-- The last elements of a list. -/
def lastN (n : ℕ) (l : List τ) : List τ := l.drop (l.length - n)

/-- One more sample, unless it is older than the newest one. -/
def push (series : List τ) (x : τ) : Option (List τ) :=
  match series.getLast? with
  | none => some [x]
  | some last =>
    if key x < key last then none
    else if key x = key last then some (series.dropLast ++ [x])
    else some (series ++ [x])

variable {key} {samples kept series : List τ} {x y : τ} {n : ℕ}

-- In order

/-- The indexes of a series never fall. -/
def Rises (key : τ → ι) (kept : List τ) : Prop := kept.Pairwise fun a b => key a ≤ key b

theorem inOrder_concat (samples : List τ) (x : τ) :
    inOrder key (samples ++ [x]) =
      if ∀ y ∈ inOrder key samples, key y ≤ key x then inOrder key samples ++ [x]
      else inOrder key samples :=
  List.foldl_append

theorem rises_inOrder (samples : List τ) : Rises key (inOrder key samples) := by
  induction samples using List.reverseRecOn with
  | nil => exact List.Pairwise.nil
  | append_singleton samples x ih =>
    rw [inOrder_concat]
    split
    · next h => exact List.pairwise_append.mpr ⟨ih, List.pairwise_singleton _ _, fun y hy z hz => by
        rw [List.mem_singleton.mp hz]
        exact h y hy⟩
    · exact ih

theorem mem_of_mem_inOrder (h : y ∈ inOrder key samples) : y ∈ samples := by
  induction samples using List.reverseRecOn with
  | nil => exact h
  | append_singleton samples x ih =>
    rw [inOrder_concat] at h
    split at h
    · obtain h | h := List.mem_append.mp h
      · exact List.mem_append_left _ (ih h)
      · exact List.mem_append_right _ h
    · exact List.mem_append_left _ (ih h)

-- The latest samples

theorem latest_concat (kept : List τ) (x : τ) :
    latest key (kept ++ [x]) = (latest key kept).filter (fun y => key y ≠ key x) ++ [x] := by
  induction kept with
  | nil => simp [latest]
  | cons z kept ih =>
    rw [List.cons_append, latest, ih, latest]
    by_cases hz : key x = key z
    · rw [if_pos ⟨x, by simp, hz⟩]
      by_cases hlater : ∃ y ∈ kept, key y = key z
      · rw [if_pos hlater]
      · rw [if_neg hlater, List.filter_cons_of_neg (by simpa using hz.symm)]
    · by_cases hlater : ∃ y ∈ kept, key y = key z
      · obtain ⟨y, hy, heq⟩ := hlater
        rw [if_pos ⟨y, List.mem_append_left _ hy, heq⟩, if_pos ⟨y, hy, heq⟩]
      · have hnone : ¬∃ y ∈ kept ++ [x], key y = key z := by
          rintro ⟨y, hy, heq⟩
          obtain hy | hy := List.mem_append.mp hy
          · exact hlater ⟨y, hy, heq⟩
          · exact hz (List.mem_singleton.mp hy ▸ heq)
        rw [if_neg hlater, if_neg hnone, List.filter_cons_of_pos (by simpa using Ne.symm hz),
          List.cons_append]

theorem mem_of_mem_latest (h : y ∈ latest key kept) : y ∈ kept := by
  induction kept with
  | nil => exact h
  | cons x kept ih =>
    rw [latest] at h
    split at h
    · exact List.mem_cons_of_mem x (ih h)
    · obtain rfl | h := List.mem_cons.mp h
      · exact List.mem_cons_self
      · exact List.mem_cons_of_mem x (ih h)

theorem filter_ne_eq_self {l : List τ} (h : ∀ y ∈ l, key y ≠ key x) :
    l.filter (fun y => key y ≠ key x) = l :=
  List.filter_eq_self.mpr fun y hy => decide_eq_true (h y hy)

/-- The latest samples of a series have ascending indexes. -/
theorem ascending_latest (h : Rises key kept) :
    (latest key kept).Pairwise fun a b => key a < key b := by
  induction kept with
  | nil => exact List.Pairwise.nil
  | cons x kept ih =>
    obtain ⟨hfirst, hrest⟩ := List.pairwise_cons.mp h
    rw [latest]
    split
    · exact ih hrest
    · next hlast =>
      refine List.pairwise_cons.mpr ⟨fun y hy => ?_, ih hrest⟩
      have hmem := mem_of_mem_latest hy
      exact lt_of_le_of_ne (hfirst y hmem) fun heq => hlast ⟨y, hmem, heq.symm⟩

-- One more sample

/-- **One more sample** corrects the newest one, or extends the series. -/
theorem push_latest (h : Rises key kept) (x : τ) :
    push key (latest key kept) x =
      if ∀ y ∈ kept, key y ≤ key x then some (latest key (kept ++ [x])) else none := by
  cases kept using List.reverseRecOn with
  | nil => simp [latest, push]
  | append_singleton init z =>
    obtain ⟨-, -, hnewest⟩ := List.pairwise_append.mp h
    have hle : ∀ y ∈ init ++ [z], key y ≤ key z := by
      intro y hy
      obtain hy | hy := List.mem_append.mp hy
      · exact hnewest y hy z (List.mem_singleton_self z)
      · rw [List.mem_singleton.mp hy]
    have hiff : (∀ y ∈ init ++ [z], key y ≤ key x) ↔ key z ≤ key x :=
      ⟨fun hall => hall z (by simp), fun hz y hy => (hle y hy).trans hz⟩
    rw [if_congr hiff rfl rfl, latest_concat (init ++ [z]), latest_concat init, push,
      List.getLast?_concat]
    dsimp only
    obtain hlt | heq | hgt := lt_trichotomy (key x) (key z)
    · rw [if_pos hlt, if_neg hlt.not_ge]
    · have hkeep : ∀ y ∈ (latest key init).filter fun y => key y ≠ key z, key y ≠ key x := by
        intro y hy
        rw [heq]
        simpa using (List.mem_filter.mp hy).2
      rw [if_neg heq.not_lt, if_pos heq, if_pos heq.ge, List.dropLast_concat, List.filter_append,
        filter_ne_eq_self hkeep, List.filter_cons_of_neg (by simpa using heq.symm), List.filter_nil,
        List.append_nil]
    · have hkeep : ∀ y ∈ (latest key init).filter (fun y => key y ≠ key z) ++ [z],
          key y ≠ key x := by
        intro y hy
        obtain hy | hy := List.mem_append.mp hy
        · have hmem := List.mem_append_left [z] (mem_of_mem_latest (List.mem_filter.mp hy).1)
          exact ((hle y hmem).trans_lt hgt).ne
        · rw [List.mem_singleton.mp hy]
          exact hgt.ne
      rw [if_neg hgt.not_gt, if_neg hgt.ne', if_pos hgt.le, filter_ne_eq_self hkeep]

-- The last samples

theorem lastN_concat (hn : 0 < n) (l : List τ) (x : τ) :
    lastN n (l ++ [x]) = lastN (n - 1) l ++ [x] := by
  have hle : l.length - (n - 1) ≤ l.length := Nat.sub_le _ _
  have hcount : (l ++ [x]).length - n = l.length - (n - 1) := by
    rw [List.length_append, List.length_singleton]
    omega
  rw [lastN, lastN, hcount, List.drop_append_of_le_length hle]

theorem length_lastN (n : ℕ) (l : List τ) : (lastN n l).length = min n l.length := by
  rw [lastN, List.length_drop]
  omega

theorem lastN_lastN {m : ℕ} (h : m ≤ n) (l : List τ) : lastN m (lastN n l) = lastN m l := by
  rw [lastN, length_lastN, lastN, lastN, List.drop_drop]
  congr 1
  omega

/-- **On the last samples**, one more sample does what it does to the whole series. -/
theorem push_window (hn : 0 < n) (series : List τ) (x : τ) :
    (push key (lastN n series) x).map (lastN n) = (push key series x).map (lastN n) := by
  cases series using List.reverseRecOn with
  | nil => rw [lastN, List.drop_nil]
  | append_singleton init z =>
    rw [lastN_concat hn, push, push, List.getLast?_concat, List.getLast?_concat]
    dsimp only
    split_ifs with hlt heq
    · rfl
    · rw [List.dropLast_concat, List.dropLast_concat, Option.map_some, Option.map_some,
        lastN_concat hn, lastN_concat hn, lastN_lastN (Nat.le_refl _)]
    · have hwindow := lastN_lastN (Nat.sub_le n 1) (init ++ [z])
      rw [lastN_concat hn] at hwindow
      rw [Option.map_some, Option.map_some, lastN_concat hn, lastN_concat hn, hwindow]

/-- The last of the latest samples. -/
def window (key : τ → ι) (n : ℕ) (samples : List τ) : List τ :=
  lastN n (latest key (inOrder key samples))

@[simp] theorem window_nil (key : τ → ι) (n : ℕ) : window key n [] = [] :=
  List.drop_nil

theorem mem_of_mem_window (h : y ∈ window key n samples) : y ∈ samples :=
  mem_of_mem_inOrder (mem_of_mem_latest (List.mem_of_mem_drop h))

theorem ascending_window (n : ℕ) (samples : List τ) :
    (window key n samples).Pairwise fun a b => key a < key b :=
  (ascending_latest (rises_inOrder samples)).sublist (List.drop_sublist _ _)

/-- The samples that are kept of a window and one more sample. -/
theorem push_kept (hn : 0 < n) (samples : List τ) (x : τ) :
    (push key (window key n samples) x).map (lastN n) =
      if ∀ y ∈ inOrder key samples, key y ≤ key x then some (window key n (samples ++ [x]))
      else none := by
  rw [window, window, push_window hn, push_latest (rises_inOrder samples), inOrder_concat]
  split_ifs <;> rfl

/-- A sample that is refused changes nothing. -/
theorem window_concat_of_refused (h : ¬∀ y ∈ inOrder key samples, key y ≤ key x) :
    window key n (samples ++ [x]) = window key n samples := by
  rw [window, window, inOrder_concat, if_neg h]

end Samples
