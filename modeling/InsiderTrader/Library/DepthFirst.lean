import Mathlib.Data.List.Chain
import Mathlib.Data.List.Nodup
import Mathlib.Logic.Relation

/-!
# Depth-first search

What a depth-first search has found: the stack of nodes it is in, and the list
of nodes it has left. A node is left after all its successors; a node that is
met again while it is on the stack closes a cycle.

## Main definitions

- `DepthFirst.Progress` — the stack is a path, the nodes left are in order
- `DepthFirst.IsCycle` — a path that ends where it starts

## Main results

- `DepthFirst.Progress.enter`, `DepthFirst.Progress.leave` — the two moves of the search
- `DepthFirst.Progress.isCycle` — a node met again closes a cycle
- `DepthFirst.Progress.not_transGen_self` — no cycle runs through a node that was left
-/

namespace DepthFirst

open Relation

variable {α : Type} {E : α → α → Prop}

/-- A path along edges that ends where it starts. -/
structure IsCycle (E : α → α → Prop) (path : List α) : Prop where
  chain : path.IsChain E
  long : 2 ≤ path.length
  closed : path.head? = path.getLast?

theorem IsCycle.transGen {path : List α} (h : IsCycle E path) : ∃ a, TransGen E a a := by
  obtain ⟨hchain, hlong, hclosed⟩ := h
  obtain ⟨a, rest, rfl⟩ := List.exists_cons_of_length_pos (Nat.lt_of_lt_of_le Nat.two_pos hlong)
  have hrest : rest ≠ [] := by
    rintro rfl
    exact Nat.not_succ_le_self 1 hlong
  obtain ⟨b, tail, rfl⟩ := List.exists_cons_of_ne_nil hrest
  obtain ⟨hab, hchain⟩ := List.isChain_cons_cons.mp hchain
  have hne : b :: tail ≠ [] := List.cons_ne_nil b tail
  have hreach := List.relationReflTransGen_of_exists_isChain (b :: tail) hchain hne
  have hlast : (b :: tail).getLast hne = a := by
    rw [List.head?_cons, List.getLast?_cons_cons, List.getLast?_eq_some_getLast hne] at hclosed
    exact (Option.some_inj.mp hclosed).symm
  exact ⟨a, TransGen.head' hab (hlast ▸ hreach)⟩

variable [DecidableEq α]

/-- How far a search has come: the nodes it is in are a path, and each node it has left comes
after its successors. -/
structure Progress (E : α → α → Prop) (nodes stack order : List α) : Prop where
  nodup : (stack ++ order).Nodup
  subset : ∀ a ∈ stack ++ order, a ∈ nodes
  chain : stack.IsChain E
  after : ∀ a ∈ order, ∀ b, E a b → b ∈ order ∧ order.idxOf b < order.idxOf a

variable {nodes stack order : List α} {node : α}

theorem Progress.nil : Progress E nodes [] [] :=
  ⟨List.nodup_nil, fun _ ha => absurd ha List.not_mem_nil, List.isChain_nil,
    fun _ ha => absurd ha List.not_mem_nil⟩

/-- The search never has more nodes in hand than there are. -/
theorem Progress.length_le (h : Progress E nodes stack order) :
    stack.length + order.length ≤ nodes.length := by
  rw [← List.length_append]
  exact h.nodup.length_le_of_subset fun a => h.subset a

/-- Entering a new node that the path leads to. -/
theorem Progress.enter (h : Progress E nodes stack order) (hnode : node ∈ nodes)
    (hnew : node ∉ stack ++ order) (hchain : (stack ++ [node]).IsChain E) :
    Progress E nodes (stack ++ [node]) order := by
  have hperm : (stack ++ [node] ++ order).Perm (node :: (stack ++ order)) := by
    rw [List.append_assoc, List.singleton_append]
    exact List.perm_middle
  refine ⟨hperm.nodup_iff.mpr (List.nodup_cons.mpr ⟨hnew, h.nodup⟩), fun a ha => ?_, hchain,
    h.after⟩
  rcases List.mem_cons.mp (hperm.mem_iff.mp ha) with rfl | ha
  · exact hnode
  · exact h.subset a ha

/-- Leaving the last node of the path once all its successors were left. -/
theorem Progress.leave (h : Progress E nodes (stack ++ [node]) order)
    (hleft : ∀ b, E node b → b ∈ order) : Progress E nodes stack (order ++ [node]) := by
  have hperm : (stack ++ (order ++ [node])).Perm (stack ++ [node] ++ order) := by
    rw [List.append_assoc]
    exact List.perm_append_comm.append_left stack
  have hnode : node ∉ order := by
    have hdisjoint := List.disjoint_of_nodup_append h.nodup
    exact fun hmem => hdisjoint (List.mem_append_right stack (List.mem_singleton_self node)) hmem
  refine ⟨hperm.nodup_iff.mpr h.nodup, fun a ha => h.subset a (hperm.mem_iff.mp ha),
    h.chain.left_of_append, fun a ha b hab => ?_⟩
  rcases List.mem_append.mp ha with ha | ha
  · obtain ⟨hb, hlt⟩ := h.after a ha b hab
    rw [List.idxOf_append_of_mem hb, List.idxOf_append_of_mem ha]
    exact ⟨List.mem_append_left _ hb, hlt⟩
  · cases List.mem_singleton.mp ha
    have hb := hleft b hab
    rw [List.idxOf_append_of_mem hb, List.idxOf_append_of_notMem hnode]
    exact ⟨List.mem_append_left _ hb,
      Nat.lt_of_lt_of_le (List.idxOf_lt_length_of_mem hb) (Nat.le_add_right _ _)⟩

/-- A node that is met again on the path closes a cycle. -/
theorem isCycle_drop (hmem : node ∈ stack) (hchain : (stack ++ [node]).IsChain E) :
    IsCycle E (stack.drop (stack.idxOf node) ++ [node]) := by
  have hlt : stack.idxOf node < stack.length := List.idxOf_lt_length_of_mem hmem
  have hhead : (stack.drop (stack.idxOf node)).head? = some node := by
    rw [List.head?_drop]
    exact List.getElem?_idxOf hmem
  constructor
  · rw [← List.drop_append_of_le_length hlt.le]
    exact hchain.drop _
  · rw [List.length_append, List.length_drop, List.length_singleton]
    omega
  · rw [List.getLast?_concat, List.head?_append, hhead]
    rfl

/-- **No cycle runs through a node that was left.** -/
theorem Progress.not_transGen_self (h : Progress E nodes stack order) {a : α} (ha : a ∈ order) :
    ¬ TransGen E a a := by
  have hbefore : ∀ b, TransGen E a b → b ∈ order ∧ order.idxOf b < order.idxOf a := by
    intro b hab
    induction hab with
    | single hab => exact h.after a ha _ hab
    | tail _ hbc ih =>
      obtain ⟨hb, hlt⟩ := ih
      obtain ⟨hc, hlt'⟩ := h.after _ hb _ hbc
      exact ⟨hc, hlt'.trans hlt⟩
  exact fun hcycle => absurd (hbefore a hcycle).2 (Nat.lt_irrefl _)

end DepthFirst
