import Mathlib.Data.List.Chain
import Mathlib.Data.List.Nodup

/-!
# Breadth-first search

A search discovers nodes in the order of their distances from a root. It goes
through the nodes it has discovered, and adds the neighbours of each that are
new, down to a greatest depth.

## Main definitions

- `BreadthFirst.Walk`, `BreadthFirst.Distance` — walks of a length, and the least one
- `BreadthFirst.Frontier` — the nodes gone through and those that wait, with their depths
- `BreadthFirst.fresh` — the new ones among some nodes, each once
- `BreadthFirst.PointsBack` — each discovered node names one a step nearer

## Main results

- `BreadthFirst.Frontier.expand`, `BreadthFirst.Frontier.skip` — going through one node
- `BreadthFirst.Frontier.mem_iff` — when none waits, every node within the depth was gone through
- `BreadthFirst.walk_of_isChain` — a list of nodes along edges is a walk
- `BreadthFirst.PointsBack.expand` — the new neighbours of a node name it
-/

namespace BreadthFirst

variable {α : Type} {E : α → α → Prop}

/-- A walk of a length. -/
inductive Walk (E : α → α → Prop) (root : α) : ℕ → α → Prop where
  | nil : Walk E root 0 root
  | concat {n : ℕ} {a b : α} : Walk E root n a → E a b → Walk E root (n + 1) b

/-- The length of a shortest walk. -/
structure Distance (E : α → α → Prop) (root : α) (n : ℕ) (a : α) : Prop where
  walk : Walk E root n a
  least : ∀ m, Walk E root m a → n ≤ m

theorem Distance.unique {root a : α} {n m : ℕ} (hn : Distance E root n a)
    (hm : Distance E root m a) : n = m :=
  Nat.le_antisymm (hn.least m hm.walk) (hm.least n hn.walk)

/-- A walk as the list of its nodes. -/
theorem walk_of_isChain {root a : α} {path : List α} (hchain : path.IsChain E)
    (hhead : path.head? = some root) (hlast : path.getLast? = some a) :
    Walk E root (path.length - 1) a := by
  induction path using List.reverseRecOn generalizing a with
  | nil => cases hhead
  | append_singleton path b ih =>
    rw [List.getLast?_concat] at hlast
    cases hlast
    rcases List.eq_nil_or_concat' path with rfl | ⟨init, c, rfl⟩
    · cases hhead
      exact Walk.nil
    · obtain ⟨hinit, -, hedge⟩ := List.isChain_append.mp hchain
      have hcb : E c b := hedge c (List.getLast?_concat ..) b rfl
      have hwalk := ih hinit (by rwa [List.head?_append_of_ne_nil] at hhead; simp)
        (List.getLast?_concat ..)
      have hlength : (init ++ [c] ++ [b]).length - 1 = (init ++ [c]).length - 1 + 1 := by simp
      rw [hlength]
      exact Walk.concat hwalk hcb

/-- How far a search has come: the nodes it has gone through and those that wait are discovered
in the order of their distances. -/
structure Frontier (E : α → α → Prop) (root : α) (maxDepth : ℕ) (done queue : List (α × ℕ)) :
    Prop where
  nodup : ((done ++ queue).map Prod.fst).Nodup
  begins : (root, 0) ∈ done ++ queue
  distance : ∀ e ∈ done ++ queue, Distance E root e.2 e.1 ∧ e.2 ≤ maxDepth
  sorted : (done ++ queue).Pairwise fun e f => e.2 ≤ f.2
  near : ∀ e ∈ queue.head?, ∀ f ∈ done ++ queue, f.2 ≤ e.2 + 1
  closed : ∀ e ∈ done, e.2 < maxDepth → ∀ b, E e.1 b → b ∈ (done ++ queue).map Prod.fst

variable {root : α} {maxDepth : ℕ} {done queue : List (α × ℕ)}

theorem Frontier.start (E : α → α → Prop) (root : α) (maxDepth : ℕ) :
    Frontier E root maxDepth [] [(root, 0)] where
  nodup := List.nodup_singleton root
  begins := List.mem_singleton_self _
  distance e he := by
    cases List.mem_singleton.mp he
    exact ⟨⟨Walk.nil, fun m _ => Nat.zero_le m⟩, Nat.zero_le maxDepth⟩
  sorted := List.pairwise_singleton _ _
  near e _ f hf := by
    cases List.mem_singleton.mp hf
    exact Nat.zero_le _
  closed e he := absurd he List.not_mem_nil

/-- What is no further than the first node that waits is discovered. -/
theorem Frontier.mem_of_walk {e : α × ℕ} {rest : List (α × ℕ)}
    (h : Frontier E root maxDepth done (e :: rest)) {n : ℕ} {b : α} (hwalk : Walk E root n b)
    (hn : n ≤ e.2) : b ∈ (done ++ e :: rest).map Prod.fst := by
  induction hwalk with
  | nil => exact List.mem_map_of_mem h.begins
  | @concat n a b hwalk hab ih =>
    obtain ⟨f, hf, hfa⟩ := List.mem_map.mp (ih (by omega))
    have hle : f.2 ≤ n := (h.distance f hf).1.least n (hfa ▸ hwalk)
    have hmax := (h.distance e (List.mem_append_right _ List.mem_cons_self)).2
    have hdone : f ∈ done := by
      rcases List.mem_append.mp hf with hf | hf
      · exact hf
      · -- what waits is no nearer than the first one
        have hsorted := (List.pairwise_append.mp h.sorted).2.1
        rcases List.mem_cons.mp hf with rfl | hf
        · omega
        · have hef := (List.pairwise_cons.mp hsorted).1 f hf
          omega
    exact h.closed f hdone (by omega) b (hfa ▸ hab)

/-- **Going through a node** of which the new neighbours are `fresh`. -/
theorem Frontier.expand {a : α} {n : ℕ} {rest : List (α × ℕ)} {fresh : List α}
    (h : Frontier E root maxDepth done ((a, n) :: rest)) (hdepth : n < maxDepth)
    (hnodup : fresh.Nodup)
    (hfresh : ∀ b ∈ fresh, E a b ∧ b ∉ (done ++ (a, n) :: rest).map Prod.fst)
    (hall : ∀ b, E a b → b ∈ (done ++ (a, n) :: rest).map Prod.fst ∨ b ∈ fresh) :
    Frontier E root maxDepth (done ++ [(a, n)]) (rest ++ fresh.map (·, n + 1)) := by
  have hlist : done ++ [(a, n)] ++ (rest ++ fresh.map (·, n + 1)) =
      (done ++ (a, n) :: rest) ++ fresh.map (·, n + 1) := by simp
  have hnew : ∀ e ∈ fresh.map (·, n + 1), e.2 = n + 1 ∧ e.1 ∈ fresh := by
    intro e he
    obtain ⟨b, hb, rfl⟩ := List.mem_map.mp he
    exact ⟨rfl, hb⟩
  have hhead := h.near (a, n) rfl
  constructor
  case nodup =>
    rw [hlist, List.map_append, List.nodup_append]
    refine ⟨h.nodup, by simpa [List.map_map, Function.comp_def] using hnodup, ?_⟩
    rintro b hb c hc rfl
    obtain ⟨e, he, rfl⟩ := List.mem_map.mp hc
    exact (hfresh e.1 (hnew e he).2).2 hb
  case begins =>
    rw [hlist]
    exact List.mem_append_left _ h.begins
  case distance =>
    rw [hlist]
    intro e he
    rcases List.mem_append.mp he with he | he
    · exact h.distance e he
    · obtain ⟨hdist, hmem⟩ := hnew e he
      obtain ⟨hedge, hunseen⟩ := hfresh e.1 hmem
      have hwalk := (h.distance (a, n) (List.mem_append_right _ List.mem_cons_self)).1.walk
      refine ⟨⟨hdist ▸ Walk.concat hwalk hedge, fun m hm => ?_⟩, by omega⟩
      by_contra hlt
      exact hunseen (h.mem_of_walk hm (by show m ≤ n; omega))
  case sorted =>
    rw [hlist]
    refine List.pairwise_append.mpr ⟨h.sorted, ?_, fun e he f hf => ?_⟩
    · refine List.pairwise_of_forall_mem_list fun e he f hf => ?_
      rw [(hnew e he).1, (hnew f hf).1]
    · rw [(hnew f hf).1]
      exact hhead e he
  case near =>
    rw [hlist]
    intro e he f hf
    have hmem : e ∈ rest ++ fresh.map (·, n + 1) := List.mem_of_mem_head? he
    have hle : n ≤ e.2 := by
      rcases List.mem_append.mp hmem with hmem | hmem
      · exact (List.pairwise_cons.mp (List.pairwise_append.mp h.sorted).2.1).1 e hmem
      · rw [(hnew e hmem).1]
        exact Nat.le_succ n
    rcases List.mem_append.mp hf with hf | hf
    · exact (hhead f hf).trans (Nat.succ_le_succ hle)
    · rw [(hnew f hf).1]
      exact Nat.succ_le_succ hle
  case closed =>
    rw [hlist]
    intro e he hlt b hab
    rw [List.map_append]
    rcases List.mem_append.mp he with he | he
    · exact List.mem_append_left _ (h.closed e he hlt b hab)
    · cases List.mem_singleton.mp he
      refine List.mem_append.mpr ((hall b hab).imp_right fun hb => ?_)
      exact List.mem_map.mpr ⟨(b, n + 1), List.mem_map_of_mem hb, rfl⟩

/-! ## New neighbours -/

section Fresh

variable [DecidableEq α]

/-- The nodes that were not seen, each at its first occurrence. -/
def fresh : List α → List α → List α
  | _, [] => []
  | seen, b :: bs => if b ∈ seen then fresh seen bs else b :: fresh (b :: seen) bs

theorem mem_fresh {seen bs : List α} {b : α} : b ∈ fresh seen bs ↔ b ∈ bs ∧ b ∉ seen := by
  induction bs generalizing seen with
  | nil => simp [fresh]
  | cons c bs ih =>
    by_cases hc : c ∈ seen
    · rw [fresh, if_pos hc, ih, List.mem_cons]
      refine ⟨fun h => ⟨.inr h.1, h.2⟩, fun h => ⟨h.1.resolve_left ?_, h.2⟩⟩
      rintro rfl
      exact h.2 hc
    · rw [fresh, if_neg hc, List.mem_cons, ih, List.mem_cons, List.mem_cons]
      constructor
      · rintro (rfl | ⟨hb, hnot⟩)
        · exact ⟨.inl rfl, hc⟩
        · exact ⟨.inr hb, fun hmem => hnot (.inr hmem)⟩
      · rintro ⟨rfl | hb, hnot⟩
        · exact .inl rfl
        · by_cases hbc : b = c
          · exact .inl hbc
          · exact .inr ⟨hb, fun hmem => hmem.elim hbc hnot⟩

theorem fresh_nodup (seen bs : List α) : (fresh seen bs).Nodup := by
  induction bs generalizing seen with
  | nil => exact List.nodup_nil
  | cons c bs ih =>
    by_cases hc : c ∈ seen
    · rw [fresh, if_pos hc]
      exact ih seen
    · rw [fresh, if_neg hc]
      exact List.nodup_cons.mpr ⟨fun hmem => (mem_fresh.mp hmem).2 List.mem_cons_self, ih _⟩

/-- Going through a node whose neighbours are listed. -/
theorem Frontier.expand_fresh {a : α} {n : ℕ} {rest : List (α × ℕ)} {bs : List α}
    (h : Frontier E root maxDepth done ((a, n) :: rest)) (hdepth : n < maxDepth)
    (hbs : ∀ b, b ∈ bs ↔ E a b) :
    Frontier E root maxDepth (done ++ [(a, n)])
      (rest ++ (fresh ((done ++ (a, n) :: rest).map Prod.fst) bs).map (·, n + 1)) := by
  refine h.expand hdepth (fresh_nodup _ _) (fun b hb => ?_) fun b hab => ?_
  · obtain ⟨hmem, hnew⟩ := mem_fresh.mp hb
    exact ⟨(hbs b).mp hmem, hnew⟩
  · by_cases hseen : b ∈ (done ++ (a, n) :: rest).map Prod.fst
    · exact .inl hseen
    · exact .inr (mem_fresh.mpr ⟨(hbs b).mpr hab, hseen⟩)

end Fresh

/-- Going through a node at the greatest depth. -/
theorem Frontier.skip {a : α} {n : ℕ} {rest : List (α × ℕ)}
    (h : Frontier E root maxDepth done ((a, n) :: rest)) (hdepth : maxDepth ≤ n) :
    Frontier E root maxDepth (done ++ [(a, n)]) rest := by
  have hlist : done ++ [(a, n)] ++ rest = done ++ (a, n) :: rest := by simp
  constructor
  case nodup => exact hlist ▸ h.nodup
  case begins => exact hlist ▸ h.begins
  case distance => exact hlist ▸ h.distance
  case sorted => exact hlist ▸ h.sorted
  case near =>
    rw [hlist]
    intro e he f hf
    have hle := (List.pairwise_cons.mp (List.pairwise_append.mp h.sorted).2.1).1 e
      (List.mem_of_mem_head? he)
    exact (h.near (a, n) rfl f hf).trans (Nat.succ_le_succ hle)
  case closed =>
    rw [hlist]
    intro e he hlt
    rcases List.mem_append.mp he with he | he
    · exact h.closed e he hlt
    · cases List.mem_singleton.mp he
      exact absurd hlt (Nat.not_lt.mpr hdepth)

/-- **When none waits**, the nodes gone through are those within the greatest depth. -/
theorem Frontier.mem_iff (h : Frontier E root maxDepth done []) {b : α} :
    b ∈ done.map Prod.fst ↔ ∃ n ≤ maxDepth, Walk E root n b := by
  have hmem : ∀ e ∈ done, e ∈ done ++ [] := fun e he => List.mem_append_left _ he
  constructor
  · intro hb
    obtain ⟨e, he, rfl⟩ := List.mem_map.mp hb
    obtain ⟨hdist, hle⟩ := h.distance e (hmem e he)
    exact ⟨e.2, hle, hdist.walk⟩
  · rintro ⟨n, hn, hwalk⟩
    induction hwalk with
    | nil => simpa using List.mem_map_of_mem (f := Prod.fst) h.begins
    | @concat n a b hwalk hab ih =>
      obtain ⟨f, hf, hfa⟩ := List.mem_map.mp (ih (by omega))
      have hle : f.2 ≤ n := (h.distance f (hmem f hf)).1.least n (hfa ▸ hwalk)
      have hclosed := h.closed f hf (by omega) b (hfa ▸ hab)
      rwa [List.append_nil] at hclosed

/-! ## Ways back -/

/-- Each node in a list names one that is a step nearer, and the root names none. -/
def PointsBack (E : α → α → Prop) (root : α) (parent : α → Option α) (entries : List (α × ℕ)) :
    Prop :=
  ∀ e ∈ entries, (e.2 = 0 → e.1 = root ∧ parent e.1 = none) ∧
    ∀ n, e.2 = n + 1 → ∃ a, parent e.1 = some a ∧ (a, n) ∈ entries ∧ E a e.1

theorem PointsBack.start {parent : α → Option α} (h : parent root = none) :
    PointsBack E root parent [(root, 0)] := by
  intro e he
  cases List.mem_singleton.mp he
  exact ⟨fun _ => ⟨rfl, h⟩, fun n hn => absurd hn (Nat.succ_ne_zero n).symm⟩

/-- New neighbours of a node name it; what the others name stays. -/
theorem PointsBack.expand {parent parent' : α → Option α} {entries : List (α × ℕ)}
    (h : PointsBack E root parent entries) {a : α} {n : ℕ} {new : List α}
    (ha : (a, n) ∈ entries) (hkeep : ∀ e ∈ entries, parent' e.1 = parent e.1)
    (hnew : ∀ b ∈ new, parent' b = some a ∧ E a b) :
    PointsBack E root parent' (entries ++ new.map (·, n + 1)) := by
  intro e he
  rcases List.mem_append.mp he with he | he
  · obtain ⟨hzero, hsucc⟩ := h e he
    rw [hkeep e he]
    refine ⟨hzero, fun m hm => ?_⟩
    obtain ⟨b, hb, hmem, hedge⟩ := hsucc m hm
    exact ⟨b, hb, List.mem_append_left _ hmem, hedge⟩
  · obtain ⟨b, hb, rfl⟩ := List.mem_map.mp he
    obtain ⟨hparent, hedge⟩ := hnew b hb
    refine ⟨fun hzero => absurd hzero (Nat.succ_ne_zero n), fun m hm => ?_⟩
    cases Nat.succ_inj.mp hm
    exact ⟨a, hparent, List.mem_append_left _ ha, hedge⟩

end BreadthFirst
