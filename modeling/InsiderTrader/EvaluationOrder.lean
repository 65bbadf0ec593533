import Std.Data.TreeSet
import Mathlib.Data.List.Basic
import InsiderTrader.Library.DepthFirst

/-!
# The evaluation order of strategies

Strategies declare the ones they depend on. The coordinator evaluates them in
an order found by a depth-first search, which stops at a dependency that is not
registered or that runs in a circle.

## Main definitions

- `DependencyGraph.visitNode` — the search from one node
- `DependencyGraph.topologicalOrder` — the order of all strategies

## Main results

- `DependencyGraph.visitNode_spec` — what a search from one node comes to
- `DependencyGraph.topologicalOrder_exact` — the order exists just for graphs without a circle
-/

namespace InsiderTrader

open DepthFirst Relation

/-- The declared dependencies of each strategy. -/
structure DependencyGraph where
  dependencies : Std.TreeMap String (Std.TreeSet String)

namespace DependencyGraph

inductive GraphError where
  | duplicateNode (strategy : String)
  | missingDependency (strategy dependency : String)
  | cycle (path : List String)
  deriving Repr, DecidableEq

inductive VisitState where
  | visiting
  | visited
  deriving Repr, DecidableEq

/-- What a search keeps: the states of the nodes met, the nodes it is in and those it has left. -/
structure Search where
  state : Std.TreeMap String VisitState
  stack : List String
  order : List String

/-- Why a search stops. The recursion of the source has no bound; that the bound given here is
never met is part of what is proved. -/
inductive SearchStop where
  | cycle (path : List String)
  | outOfFuel
  deriving Repr, DecidableEq

variable (graph : DependencyGraph)

/-- The declared dependencies of a node, in order; none for a node that is not registered. -/
def dependenciesOf (node : String) : List String :=
  (graph.dependencies[node]?.map (·.toList)).getD []

/-- Search from a node. -/
def visitNode : ℕ → Search → String → Except SearchStop Search
  | 0, _, _ => .error .outOfFuel
  | fuel + 1, search, node =>
    match search.state[node]? with
    | some .visited => .ok search
    | some .visiting =>
      let start := (search.stack.findIdx? (· == node)).getD 0
      .error (.cycle (search.stack.drop start ++ [node]))
    | none => do
      let search := { search with
        state := search.state.insert node .visiting
        stack := search.stack ++ [node] }
      let search ← (graph.dependenciesOf node).foldlM (visitNode fuel) search
      pure { search with
        state := search.state.insert node .visited
        stack := search.stack.dropLast
        order := search.order ++ [node] }

/-- The first dependency that is not registered. -/
def missing : Option (String × String) :=
  (graph.dependencies.toList.flatMap fun entry =>
    entry.2.toList.map (entry.1, ·)).find? fun edge => ¬ graph.dependencies.contains edge.2

/-- The evaluation order. -/
def topologicalOrder : Option (Except GraphError (List String)) :=
  match graph.missing with
  | some (strategy, dependency) => some (.error (.missingDependency strategy dependency))
  | none =>
    let nodes := graph.dependencies.keys
    match nodes.foldlM (graph.visitNode (nodes.length + 1)) ⟨∅, [], []⟩ with
    | .ok search => some (.ok search.order)
    | .error (.cycle path) => some (.error (.cycle path))
    | .error .outOfFuel => none

/-! ## The search -/

variable {graph : DependencyGraph}

/-- A node declares another one. -/
def Edge (graph : DependencyGraph) (node dependency : String) : Prop :=
  dependency ∈ graph.dependenciesOf node

/-- The registered strategies. -/
def nodes (graph : DependencyGraph) : List String := graph.dependencies.keys

/-- Every dependency is registered. -/
def Registered (graph : DependencyGraph) : Prop := ∀ a b, graph.Edge a b → b ∈ graph.nodes

/-- What a search keeps agrees with itself. -/
structure Search.Holds (graph : DependencyGraph) (s : Search) : Prop where
  progress : Progress graph.Edge graph.nodes s.stack s.order
  visiting : ∀ a, s.state[a]? = some .visiting ↔ a ∈ s.stack
  visited : ∀ a, s.state[a]? = some .visited ↔ a ∈ s.order

/-- What a search for some nodes comes to: it has left them all and is where it was, or it has
found a cycle. -/
def Search.Reaches (graph : DependencyGraph) (s : Search) (targets : List String) :
    Except SearchStop Search → Prop
  | .ok t => t.Holds graph ∧ t.stack = s.stack ∧ s.order.Sublist t.order ∧
      ∀ a ∈ targets, a ∈ t.order
  | .error (.cycle path) => IsCycle graph.Edge path
  | .error .outOfFuel => False

theorem Search.holds_empty : Search.Holds graph ⟨∅, [], []⟩ :=
  ⟨Progress.nil, fun a => by simp, fun a => by simp⟩

/-- Searching from nodes one after the other. -/
theorem foldlM_reaches {visit : Search → String → Except SearchStop Search} (bound : ℕ)
    {targets : List String}
    (hvisit : ∀ s : Search, s.Holds graph → bound ≤ s.stack.length + s.order.length →
      ∀ node ∈ targets, (s.stack ++ [node]).IsChain graph.Edge →
        s.Reaches graph [node] (visit s node)) (s : Search) (hs : s.Holds graph)
    (hbound : bound ≤ s.stack.length + s.order.length)
    (hchain : ∀ node ∈ targets, (s.stack ++ [node]).IsChain graph.Edge) :
    s.Reaches graph targets (targets.foldlM visit s) := by
  induction targets generalizing s with
  | nil => exact ⟨hs, rfl, List.Sublist.refl _, fun a ha => absurd ha List.not_mem_nil⟩
  | cons node targets ih =>
    obtain ⟨hnode, hrest⟩ := List.forall_mem_cons.mp hchain
    have hfirst := hvisit s hs hbound node List.mem_cons_self hnode
    rw [List.foldlM_cons]
    cases hresult : visit s node with
    | error stop =>
      rw [hresult] at hfirst
      cases stop with
      | cycle path => exact hfirst
      | outOfFuel => exact hfirst
    | ok t =>
      rw [hresult] at hfirst
      obtain ⟨ht, hstack, horder, hleft⟩ := hfirst
      have hlength := horder.length_le
      have hlater := ih (fun s hs hb n hn => hvisit s hs hb n (List.mem_cons_of_mem _ hn)) t ht
        (by rw [hstack]; omega) (fun n hn => hstack ▸ hrest n hn)
      show s.Reaches graph (node :: targets) (targets.foldlM visit t)
      cases hfinal : targets.foldlM visit t with
      | error stop =>
        rw [hfinal] at hlater
        cases stop with
        | cycle path => exact hlater
        | outOfFuel => exact hlater
      | ok u =>
        rw [hfinal] at hlater
        obtain ⟨hu, hstack', horder', hleft'⟩ := hlater
        refine ⟨hu, hstack'.trans hstack, horder.trans horder', fun a ha => ?_⟩
        rcases List.mem_cons.mp ha with rfl | ha
        · exact horder'.subset (hleft a (List.mem_singleton_self a))
        · exact hleft' a ha

theorem position_eq {stack : List String} {node : String} (h : node ∈ stack) :
    (stack.findIdx? (· == node)).getD 0 = stack.idxOf node := by
  rw [List.findIdx?_eq_some_of_exists (p := fun x => x == node) ⟨node, h, beq_self_eq_true node⟩]
  rfl

theorem Search.Holds.new_of_none {s : Search} (h : s.Holds graph) {node : String}
    (hnone : s.state[node]? = none) : node ∉ s.stack ++ s.order := by
  intro hmem
  rcases List.mem_append.mp hmem with hmem | hmem
  · rw [(h.visiting node).mpr hmem] at hnone
    cases hnone
  · rw [(h.visited node).mpr hmem] at hnone
    cases hnone

/-- Entering a node. -/
theorem Search.Holds.enter {s : Search} (h : s.Holds graph) {node : String}
    (hnode : node ∈ graph.nodes) (hnone : s.state[node]? = none)
    (hchain : (s.stack ++ [node]).IsChain graph.Edge) :
    Search.Holds graph ⟨s.state.insert node .visiting, s.stack ++ [node], s.order⟩ := by
  have hnew := h.new_of_none hnone
  refine ⟨h.progress.enter hnode hnew hchain, fun a => ?_, fun a => ?_⟩
  · rw [Std.TreeMap.getElem?_insert, List.mem_append, List.mem_singleton]
    split_ifs with ha
    · exact iff_of_true rfl (.inr (Std.LawfulEqCmp.eq_of_compare ha).symm)
    · have hne : a ≠ node := fun heq => ha (heq ▸ Std.ReflCmp.compare_self)
      rw [h.visiting a, or_iff_left hne]
  · rw [Std.TreeMap.getElem?_insert]
    split_ifs with ha
    · cases Std.LawfulEqCmp.eq_of_compare ha
      refine iff_of_false (fun h => ?_) fun hmem => hnew (List.mem_append_right _ hmem)
      cases h
    · exact h.visited a

/-- Leaving a node. -/
theorem Search.Holds.leave {t : Search} {stack : List String} {node : String}
    (h : t.Holds graph) (hstack : t.stack = stack ++ [node])
    (hleft : ∀ b, graph.Edge node b → b ∈ t.order) :
    Search.Holds graph ⟨t.state.insert node .visited, t.stack.dropLast, t.order ++ [node]⟩ := by
  have hprogress := h.progress
  rw [hstack] at hprogress
  have hnot : node ∉ stack := by
    have hnodup := List.Nodup.of_append_left hprogress.nodup
    exact fun hmem => (List.disjoint_of_nodup_append hnodup) hmem (List.mem_singleton_self node)
  have hdrop : t.stack.dropLast = stack := by rw [hstack, List.dropLast_concat]
  rw [hdrop]
  refine ⟨hprogress.leave hleft, fun a => ?_, fun a => ?_⟩
  · rw [Std.TreeMap.getElem?_insert]
    split_ifs with ha
    · cases Std.LawfulEqCmp.eq_of_compare ha
      refine iff_of_false (fun h => ?_) hnot
      cases h
    · have hne : a ≠ node := fun heq => ha (heq ▸ Std.ReflCmp.compare_self)
      rw [h.visiting a, hstack, List.mem_append, List.mem_singleton, or_iff_left hne]
  · rw [Std.TreeMap.getElem?_insert, List.mem_append, List.mem_singleton]
    split_ifs with ha
    · exact iff_of_true rfl (.inr (Std.LawfulEqCmp.eq_of_compare ha).symm)
    · have hne : a ≠ node := fun heq => ha (heq ▸ Std.ReflCmp.compare_self)
      rw [h.visited a, or_iff_left hne]

/-- **The search from one node** leaves it or finds a cycle; it is never deeper than there are
nodes. -/
theorem visitNode_spec (hregistered : graph.Registered) (fuel : ℕ) (s : Search)
    (hs : s.Holds graph) (hfuel : graph.nodes.length < fuel + (s.stack.length + s.order.length))
    (node : String) (hnode : node ∈ graph.nodes)
    (hchain : (s.stack ++ [node]).IsChain graph.Edge) :
    s.Reaches graph [node] (graph.visitNode fuel s node) := by
  induction fuel generalizing s node with
  | zero =>
    have hle := hs.progress.length_le
    omega
  | succ fuel ih =>
    unfold visitNode
    cases hstate : s.state[node]? with
    | some state =>
      cases state with
      | visited =>
        have hmem := (hs.visited node).mp hstate
        exact ⟨hs, rfl, List.Sublist.refl _, fun a ha => List.mem_singleton.mp ha ▸ hmem⟩
      | visiting =>
        have hmem := (hs.visiting node).mp hstate
        dsimp only
        rw [position_eq hmem]
        exact isCycle_drop hmem hchain
    | none =>
      have henter := hs.enter hnode hstate hchain
      have hfollow : ∀ dependency ∈ graph.dependenciesOf node,
          (s.stack ++ [node] ++ [dependency]).IsChain graph.Edge := by
        intro dependency hdependency
        refine List.isChain_append.mpr ⟨hchain, List.isChain_singleton dependency, ?_⟩
        intro a ha b hb
        rw [List.getLast?_concat] at ha
        cases ha
        cases hb
        exact hdependency
      have hdeps := foldlM_reaches (graph.nodes.length + 1 - fuel)
        (fun t ht hbound b hb hpath => ih t ht (by omega) b (hregistered node b hb) hpath)
        _ henter (by simp only [List.length_append, List.length_singleton]; omega) hfollow
      dsimp only
      cases hresult : (graph.dependenciesOf node).foldlM (graph.visitNode fuel)
          ⟨s.state.insert node .visiting, s.stack ++ [node], s.order⟩ with
      | error stop =>
        rw [hresult] at hdeps
        cases stop with
        | cycle path => exact hdeps
        | outOfFuel => exact hdeps
      | ok t =>
        rw [hresult] at hdeps
        obtain ⟨ht, hstack, horder, hleft⟩ := hdeps
        refine ⟨ht.leave hstack hleft, ?_, horder.trans (List.sublist_append_left _ _), ?_⟩
        · show t.stack.dropLast = s.stack
          rw [hstack, List.dropLast_concat]
        · intro a ha
          exact List.mem_append_right _ ha

/-! ## The order -/

theorem edge_iff {a b : String} :
    graph.Edge a b ↔ ∃ declared, (a, declared) ∈ graph.dependencies.toList ∧
      b ∈ declared.toList := by
  rw [Edge, dependenciesOf]
  constructor
  · intro h
    cases hget : graph.dependencies[a]? with
    | none =>
      rw [hget] at h
      exact absurd h List.not_mem_nil
    | some declared =>
      rw [hget] at h
      exact ⟨declared, Std.TreeMap.mem_toList_iff_getElem?_eq_some.mpr hget, h⟩
  · rintro ⟨declared, hmem, hb⟩
    rw [Std.TreeMap.mem_toList_iff_getElem?_eq_some.mp hmem]
    exact hb

theorem mem_nodes {a : String} : a ∈ graph.nodes ↔ a ∈ graph.dependencies :=
  Std.TreeMap.mem_keys

theorem mem_nodes_of_edge {a b : String} (h : graph.Edge a b) : a ∈ graph.nodes := by
  obtain ⟨declared, hmem, -⟩ := edge_iff.mp h
  have hget := Std.TreeMap.mem_toList_iff_getElem?_eq_some.mp hmem
  exact mem_nodes.mpr (Std.TreeMap.mem_iff_isSome_getElem?.mpr (by rw [hget]; rfl))

theorem missing_eq_none_iff : graph.missing = none ↔ graph.Registered := by
  rw [missing, List.find?_eq_none]
  simp only [List.mem_flatMap, List.mem_map, decide_eq_true_eq, not_not]
  constructor
  · intro h a b hab
    obtain ⟨declared, hmem, hb⟩ := edge_iff.mp hab
    exact mem_nodes.mpr (h (a, b) ⟨(a, declared), hmem, b, hb, rfl⟩)
  · rintro h _ ⟨⟨a, declared⟩, hmem, b, hb, rfl⟩
    exact mem_nodes.mp (h a b (edge_iff.mpr ⟨declared, hmem, hb⟩))

/-- No strategy depends on itself, however far around. -/
def Acyclic (graph : DependencyGraph) : Prop := ∀ a, ¬ TransGen graph.Edge a a

/-- An order that lists every strategy once, after all it depends on. -/
structure IsOrder (graph : DependencyGraph) (order : List String) : Prop where
  nodup : order.Nodup
  mem : ∀ a, a ∈ order ↔ a ∈ graph.nodes
  after : ∀ a b, graph.Edge a b → order.idxOf b < order.idxOf a

/-- A search over all strategies. -/
theorem search_spec (hregistered : graph.Registered) :
    Search.Reaches graph ⟨∅, [], []⟩ graph.nodes
      (graph.nodes.foldlM (graph.visitNode (graph.nodes.length + 1)) ⟨∅, [], []⟩) :=
  foldlM_reaches 0 (fun s hs _ node hnode hchain =>
      visitNode_spec hregistered _ s hs (by omega) node hnode hchain)
    _ Search.holds_empty (Nat.zero_le _) fun node _ => List.isChain_singleton node

/-- **The evaluation order is a topological sort.** It is found just when every dependency is
registered and none runs in a circle; it lists every strategy once, after all it depends on; and
a reported cycle is one. -/
theorem topologicalOrder_exact (graph : DependencyGraph) :
    ((∃ order, graph.topologicalOrder = some (.ok order)) ↔
      graph.Registered ∧ graph.Acyclic) ∧
    (∀ order, graph.topologicalOrder = some (.ok order) → graph.IsOrder order) ∧
    (∀ path, graph.topologicalOrder = some (.error (.cycle path)) →
      IsCycle graph.Edge path) ∧
    graph.topologicalOrder ≠ none := by
  unfold topologicalOrder
  cases hmissing : graph.missing with
  | some edge =>
    have hnot : ¬ graph.Registered := by
      rw [← missing_eq_none_iff, hmissing]
      exact Option.some_ne_none edge
    refine ⟨⟨fun h => ?_, fun h => absurd h.1 hnot⟩, fun order h => ?_, fun path h => ?_,
      Option.some_ne_none _⟩
    · obtain ⟨order, h⟩ := h
      cases h
    · cases h
    · cases h
  | none =>
    have hregistered := missing_eq_none_iff.mp hmissing
    have hsearch := search_spec hregistered
    unfold nodes at hsearch
    dsimp only
    cases hresult : graph.dependencies.keys.foldlM
        (graph.visitNode (graph.dependencies.keys.length + 1)) ⟨∅, [], []⟩ with
    | error stop =>
      rw [hresult] at hsearch
      cases stop with
      | outOfFuel => exact hsearch.elim
      | cycle path =>
        have hcycle : IsCycle graph.Edge path := hsearch
        refine ⟨⟨fun h => ?_, fun h => ?_⟩, fun order h => ?_, fun path' h => ?_,
          Option.some_ne_none _⟩
        · obtain ⟨order, h⟩ := h
          cases h
        · obtain ⟨a, ha⟩ := hcycle.transGen
          exact absurd ha (h.2 a)
        · cases h
        · cases h
          exact hcycle
    | ok t =>
      rw [hresult] at hsearch
      obtain ⟨ht, hstack, -, hleft⟩ := hsearch
      have hmem (a : String) : a ∈ t.order ↔ a ∈ graph.nodes :=
        ⟨fun ha => ht.progress.subset a (List.mem_append_right _ ha), hleft a⟩
      have horder : graph.IsOrder t.order :=
        ⟨List.Nodup.of_append_right ht.progress.nodup, hmem, fun a b hab =>
          (ht.progress.after a ((hmem a).mpr (mem_nodes_of_edge hab)) b hab).2⟩
      have hacyclic : graph.Acyclic := by
        intro a hcycle
        obtain ⟨b, hab, -⟩ := TransGen.head'_iff.mp hcycle
        exact ht.progress.not_transGen_self ((hmem a).mpr (mem_nodes_of_edge hab)) hcycle
      refine ⟨⟨fun _ => ⟨hregistered, hacyclic⟩, fun _ => ⟨t.order, rfl⟩⟩, fun order h => ?_,
        fun path h => ?_, Option.some_ne_none _⟩
      · cases h
        exact horder
      · cases h

end DependencyGraph

end InsiderTrader
