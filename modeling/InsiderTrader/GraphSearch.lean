import InsiderTrader.ContextGraph
import InsiderTrader.Library.BreadthFirst

/-!
# Searching the context graph

Relations between the nodes of the context graph are directed and typed; the
searches follow them both ways. A neighbourhood and a path are found by going
through the nodes in the order of their distances, down to a greatest depth.

## Main definitions

- `RelationGraph` — the nodes with their facts, and the relations between them
- `RelationGraph.neighborhood`, `RelationGraph.pathBetween` — the two searches
- `RelationGraph.Wired` — relations join registered nodes

## Main results

- `RelationGraph.wired_final` — the nodes and relations of every run are wired
- `RelationGraph.neighborhood_spec`, `RelationGraph.pathBetween_spec` — what the searches find
- `graphSearch_exact` — the searches are exact in every graph a run leads to
-/

namespace InsiderTrader

open BreadthFirst

/-- A directed, typed relationship. -/
structure Edge where
  fromId : String
  relation : String
  toId : String
  deriving DecidableEq

namespace Edge

/-- By source, then relationship, then destination. -/
instance : Ord Edge where
  compare := compareLex (compareOn (·.fromId)) (compareLex (compareOn (·.relation))
    (compareOn (·.toId)))

instance : Std.TransOrd Edge := inferInstanceAs (Std.TransCmp (compareLex _ _))

instance : Std.LawfulEqOrd Edge where
  eq_of_compare {e f} h := by
    obtain ⟨hfrom, h⟩ := Ordering.then_eq_eq.mp h
    obtain ⟨hrelation, hto⟩ := Ordering.then_eq_eq.mp h
    have hfrom : e.fromId = f.fromId :=
      Std.LawfulEqCmp.eq_of_compare (show compare e.fromId f.fromId = .eq from hfrom)
    have hrelation : e.relation = f.relation :=
      Std.LawfulEqCmp.eq_of_compare (show compare e.relation f.relation = .eq from hrelation)
    have hto : e.toId = f.toId :=
      Std.LawfulEqCmp.eq_of_compare (show compare e.toId f.toId = .eq from hto)
    cases e
    cases f
    simp_all

end Edge

/-- A version of a relation with its valid time and its time of knowledge. -/
structure EdgeFact where
  edge : Edge
  valid : TimeInterval
  known : TimeInterval
  provenance : Provenance
  deriving DecidableEq

namespace EdgeFact

/-- The facts are equal; their confidences are compared as numbers. -/
def same (float : FloatArith) (e f : EdgeFact) : Bool :=
  e.edge = f.edge ∧ e.valid = f.valid ∧ e.known = f.known ∧
    e.provenance.source = f.provenance.source ∧
    e.provenance.artifactId = f.provenance.artifactId ∧
    float.atMost e.provenance.confidence f.provenance.confidence ∧
    float.atMost f.provenance.confidence e.provenance.confidence

/-- The fact with its knowledge ended by a later fact for the same valid time. -/
def closedBy (f e : EdgeFact) : EdgeFact :=
  if e.valid = f.valid ∧ e.known.startMs < f.known.startMs ∧ e.known.endMs.all (f.known.startMs < ·)
  then { e with known := ⟨e.known.startMs, some f.known.startMs⟩ }
  else e

/-- The order of the versions of a relation. -/
def before (e f : EdgeFact) : Prop :=
  e.known.startMs < f.known.startMs ∨
    e.known.startMs = f.known.startMs ∧ e.valid.startMs ≤ f.valid.startMs

instance : DecidableRel before := fun _ _ => inferInstanceAs (Decidable (_ ∨ _))

end EdgeFact

/-- The nodes with their facts, and the relations between them with theirs. -/
structure RelationGraph where
  context : ContextGraph
  edges : Std.TreeSet Edge
  edgeFacts : Std.TreeMap Edge (List EdgeFact)

namespace RelationGraph

def new : RelationGraph := ⟨ContextGraph.new, ∅, ∅⟩

/-- The nodes by their identity. -/
def nodes (g : RelationGraph) : Std.TreeMap String Node := g.context.nodes

def always : TimeInterval := ⟨0, none⟩

/-- The provenance of what is added without a version; its confidence is one. -/
def legacy : Provenance := ⟨"legacy", "legacy", ⟨0x3ff0000000000000⟩⟩

def validateEdge (edge : Edge) : Except GraphError Unit :=
  if Text.isBlank edge.fromId ∨ Text.isBlank edge.toId ∨ Text.isBlank edge.relation then
    .error .invalidIdentity
  else .ok ()

/-- Insert a node; the same node again changes nothing. -/
def upsertNode (node : Node) (g : RelationGraph) : Except GraphError RelationGraph :=
  if Text.isBlank node.id ∨ Text.isBlank node.label then .error .invalidIdentity
  else
    match g.nodes[node.id]? with
    | some existing => if existing ≠ node then .error .conflictingNode else .ok g
    | none =>
      let fact : NodeFact := ⟨node, always, always, legacy⟩
      .ok { g with
        context :=
          { nodes := g.nodes.insert node.id node
            nodeFacts := g.context.nodeFacts.insert node.id (g.context.versions node.id ++ [fact]) } }

/-- Add a relation between two registered nodes. -/
def addEdge (edge : Edge) (g : RelationGraph) : Except GraphError RelationGraph := do
  validateEdge edge
  if ¬(g.nodes.contains edge.fromId ∧ g.nodes.contains edge.toId) then .error .missingNode
  else
    let versions := (g.edgeFacts[edge]?).getD []
    .ok { g with
      edges := g.edges.insert edge
      edgeFacts := g.edgeFacts.insert edge (versions ++ [⟨edge, always, always, legacy⟩]) }

/-- Add a versioned relation without deleting prior knowledge. -/
def addEdgeFact (float : FloatArith) (fact : EdgeFact) (g : RelationGraph) :
    Except GraphError RelationGraph := do
  validateEdge fact.edge
  validateFactMetadata float fact.valid fact.known fact.provenance
  if ¬(g.nodes.contains fact.edge.fromId ∧ g.nodes.contains fact.edge.toId) then
    .error .missingNode
  else
    let versions := (g.edgeFacts[fact.edge]?).getD []
    if versions.any (·.same float fact) then .ok g
    else
      .ok { g with
        edges := g.edges.insert fact.edge
        edgeFacts := g.edgeFacts.insert fact.edge
          ((versions.map fact.closedBy ++ [fact]).insertionSort EdgeFact.before) }

end RelationGraph

/-- A change of the graph. -/
inductive GraphOp where
  | upsertNode (node : Node)
  | upsertNodeFact (fact : NodeFact)
  | addEdge (edge : Edge)
  | addEdgeFact (fact : EdgeFact)

namespace RelationGraph

/-- The graph after a call; a refused one changes nothing. -/
def apply (float : FloatArith) (op : GraphOp) (g : RelationGraph) : RelationGraph :=
  match op with
  | .upsertNode node => (g.upsertNode node).toOption.getD g
  | .upsertNodeFact fact => { g with context := g.context.upsert float fact }
  | .addEdge edge => (g.addEdge edge).toOption.getD g
  | .addEdgeFact fact => (g.addEdgeFact float fact).toOption.getD g

/-- The nodes are stored under their identities, and relations join stored nodes. -/
structure Wired (g : RelationGraph) : Prop where
  keyed : ∀ (id : String) (node : Node), g.nodes[id]? = some node → node.id = id
  joins : ∀ edge ∈ g.edges, edge.fromId ∈ g.nodes ∧ edge.toId ∈ g.nodes

theorem wired_new : new.Wired where
  keyed id node h := by
    rw [nodes, new, ContextGraph.new, Std.TreeMap.getElem?_emptyc] at h
    cases h
  joins edge h := absurd h Std.TreeSet.not_mem_emptyc

variable {g : RelationGraph}

/-- Storing a node under its identity. -/
theorem Wired.insertNode (h : g.Wired) (node : Node) {context : ContextGraph}
    (hnodes : context.nodes = g.nodes.insert node.id node) :
    Wired { g with context := context } where
  keyed id other hget := by
    rw [nodes, hnodes, Std.TreeMap.getElem?_insert] at hget
    split_ifs at hget with heq
    · cases hget
      exact Std.LawfulEqCmp.eq_of_compare heq
    · exact h.keyed id other hget
  joins edge hedge := by
    have hkeep {id : String} (hid : id ∈ g.nodes) : id ∈ context.nodes := by
      rw [hnodes]
      exact Std.TreeMap.mem_insert.mpr (.inr hid)
    exact (h.joins edge hedge).imp hkeep hkeep

/-- Storing a relation between two stored nodes. -/
theorem Wired.insertEdge (h : g.Wired) {edge : Edge} {edgeFacts : Std.TreeMap Edge (List EdgeFact)}
    (hends : g.nodes.contains edge.fromId ∧ g.nodes.contains edge.toId) :
    Wired { g with edges := g.edges.insert edge, edgeFacts := edgeFacts } where
  keyed := h.keyed
  joins e he := by
    rcases Std.TreeSet.mem_insert.mp he with heq | he
    · cases Std.LawfulEqCmp.eq_of_compare heq
      exact hends
    · exact h.joins e he

theorem Wired.upsertNode (h : g.Wired) {node : Node} {g' : RelationGraph}
    (hok : g.upsertNode node = .ok g') : g'.Wired := by
  unfold RelationGraph.upsertNode at hok
  split_ifs at hok
  cases hget : g.nodes[node.id]? with
  | some existing =>
    rw [hget] at hok
    dsimp only at hok
    split_ifs at hok
    cases hok
    exact h
  | none =>
    rw [hget] at hok
    cases hok
    exact h.insertNode node rfl

theorem Wired.upsertNodeFact (h : g.Wired) (float : FloatArith) (fact : NodeFact) :
    Wired { g with context := g.context.upsert float fact } := by
  obtain ⟨hsame, -⟩ | ⟨-, hstored⟩ := ContextGraph.upsert_cases float fact g.context
  · rw [hsame]
    exact h
  · rw [hstored]
    cases hlast : (ContextGraph.addVersion fact (g.context.versions fact.node.id)).getLast? with
    | none =>
      have hnodes : (g.context.store fact.node.id
          (ContextGraph.addVersion fact (g.context.versions fact.node.id))).nodes = g.nodes := by
        rw [ContextGraph.store, hlast]
        rfl
      exact ⟨fun id node => by rw [nodes, hnodes]; exact h.keyed id node,
        fun edge hedge => by rw [nodes, hnodes]; exact h.joins edge hedge⟩
    | some last =>
      refine h.insertNode last.node ?_
      rw [ContextGraph.store, hlast]
      rfl

theorem Wired.addEdge (h : g.Wired) {edge : Edge} {g' : RelationGraph}
    (hok : g.addEdge edge = .ok g') : g'.Wired := by
  unfold RelationGraph.addEdge at hok
  cases hvalid : validateEdge edge with
  | error e =>
    rw [hvalid] at hok
    cases hok
  | ok u =>
    rw [hvalid] at hok
    change (if _ then _ else _) = _ at hok
    split_ifs at hok with hends
    cases hok
    exact h.insertEdge hends

theorem Wired.addEdgeFact (h : g.Wired) {float : FloatArith} {fact : EdgeFact}
    {g' : RelationGraph} (hok : g.addEdgeFact float fact = .ok g') : g'.Wired := by
  unfold RelationGraph.addEdgeFact at hok
  cases hvalid : validateEdge fact.edge with
  | error e =>
    rw [hvalid] at hok
    cases hok
  | ok u =>
    cases hmetadata : validateFactMetadata float fact.valid fact.known fact.provenance with
    | error e =>
      rw [hvalid, hmetadata] at hok
      cases hok
    | ok u' =>
      rw [hvalid, hmetadata] at hok
      change (if _ then _ else _) = _ at hok
      split_ifs at hok with hends hsame
      · cases hok
        exact h
      · cases hok
        exact h.insertEdge hends

theorem Wired.apply (h : g.Wired) (float : FloatArith) (op : GraphOp) :
    (g.apply float op).Wired := by
  have hkept {result : Except GraphError RelationGraph} (hok : ∀ g', result = .ok g' → g'.Wired) :
      (result.toOption.getD g).Wired := by
    cases result with
    | error e => exact h
    | ok g' => exact hok g' rfl
  cases op with
  | upsertNode node => exact hkept fun g' => h.upsertNode
  | upsertNodeFact fact => exact h.upsertNodeFact float fact
  | addEdge edge => exact hkept fun g' => h.addEdge
  | addEdgeFact fact => exact hkept fun g' => h.addEdgeFact

/-- **Every run** leads to a wired graph. -/
theorem wired_final (float : FloatArith) (ops : List GraphOp) :
    (Runs.final (fun op g => g.apply float op) new ops).Wired :=
  Runs.final_of_step (A := fun _ => True) (fun op _ _ h => h.apply float op) wired_new
    fun _ _ => trivial

/-! ## The searches -/

/-- The other end of a relation at a node. -/
def nextOf (current : String) (edge : Edge) : Option String :=
  if edge.fromId = current then some edge.toId
  else if edge.toId = current then some edge.fromId
  else none

section Neighborhood

/-- Queue the other end of a relation unless it was visited. -/
def visit (current : String) (depth : ℕ)
    (s : List (String × ℕ) × Std.TreeSet String) (edge : Edge) :
    List (String × ℕ) × Std.TreeSet String :=
  match nextOf current edge with
  | some next => if s.2.contains next then s else (s.1 ++ [(next, depth + 1)], s.2.insert next)
  | none => s

/-- Go through the queue. -/
def neighborhoodFrom (g : RelationGraph) (maxDepth : ℕ) :
    ℕ → List (String × ℕ) → Std.TreeSet String → List Node → Option (List Node)
  | _, [], _, result => some result
  | 0, _ :: _, _, _ => none
  | fuel + 1, (current, depth) :: queue, visited, result =>
    let result := result ++ (g.nodes[current]?).toList
    if maxDepth ≤ depth then neighborhoodFrom g maxDepth fuel queue visited result
    else
      let s := g.edges.toList.foldl (visit current depth) (queue, visited)
      neighborhoodFrom g maxDepth fuel s.1 s.2 result

/-- The nodes around a root; the search goes through each node once at most. -/
def neighborhood (g : RelationGraph) (root : String) (maxDepth : ℕ) : Option (List Node) :=
  if ¬g.nodes.contains root then some []
  else
    neighborhoodFrom g maxDepth g.nodes.keys.length [(root, 0)]
      ((∅ : Std.TreeSet String).insert root) []

end Neighborhood

section Path

/-- Follow the parents from a node on. -/
def pathTo (parents : Std.TreeMap String (Option String)) :
    ℕ → Option String → List String → Option (List String)
  | _, none, path => some path
  | 0, some _, _ => none
  | fuel + 1, some nodeId, path =>
    pathTo parents fuel (parents[nodeId]?).join (path ++ [nodeId])

/-- Queue the other end of a relation unless it has a parent. -/
def adopt (current : String) (depth : ℕ)
    (s : List (String × ℕ) × Std.TreeMap String (Option String)) (edge : Edge) :
    List (String × ℕ) × Std.TreeMap String (Option String) :=
  match nextOf current edge with
  | some next =>
    if s.2.contains next then s
    else (s.1 ++ [(next, depth + 1)], s.2.insert next (some current))
  | none => s

/-- Go through the queue up to the target. The outer option stands for the bound on the steps. -/
def pathFrom (g : RelationGraph) (target : String) (maxDepth : ℕ) :
    ℕ → List (String × ℕ) → Std.TreeMap String (Option String) →
      Option (Option (List String))
  | _, [], _ => some none
  | 0, _ :: _, _ => none
  | fuel + 1, (current, depth) :: queue, parents =>
    if current = target then
      (pathTo parents (depth + 1) (some current) []).map fun path => some path.reverse
    else if maxDepth ≤ depth then pathFrom g target maxDepth fuel queue parents
    else
      let s := g.edges.toList.foldl (adopt current depth) (queue, parents)
      pathFrom g target maxDepth fuel s.1 s.2

/-- A path between two nodes; the search goes through each node once at most. -/
def pathBetween (g : RelationGraph) (root target : String) (maxDepth : ℕ) :
    Option (Option (List String)) :=
  if ¬g.nodes.contains root ∨ ¬g.nodes.contains target then some none
  else
    pathFrom g target maxDepth g.nodes.keys.length [(root, 0)]
      ((∅ : Std.TreeMap String (Option String)).insert root none)

end Path

/-- Two nodes share a relation, whichever way it points. -/
def Linked (g : RelationGraph) (a b : String) : Prop :=
  ∃ edge ∈ g.edges, edge.fromId = a ∧ edge.toId = b ∨ edge.toId = a ∧ edge.fromId = b

/-- The nodes linked to one, in the order of the relations. -/
def linkedTo (g : RelationGraph) (a : String) : List String := g.edges.toList.filterMap (nextOf a)

theorem mem_linkedTo {a b : String} : b ∈ g.linkedTo a ↔ g.Linked a b := by
  rw [linkedTo, List.mem_filterMap, Linked]
  simp only [Std.TreeSet.mem_toList]
  refine exists_congr fun edge => and_congr_right fun _ => ?_
  unfold nextOf
  split_ifs with hfrom hto
  · rw [Option.some_inj, and_iff_right hfrom]
    refine ⟨.inl, fun h => h.elim id fun h => ?_⟩
    rw [h.1, ← h.2, hfrom]
  · rw [Option.some_inj, and_iff_right hto, or_iff_right (fun h => hfrom h.1)]
  · exact iff_of_false (fun h => by cases h) fun h => h.elim (fun h => hfrom h.1) fun h => hto h.1

theorem Wired.mem_of_linked (h : g.Wired) {a b : String} (hab : g.Linked a b) : b ∈ g.nodes := by
  obtain ⟨edge, hedge, ⟨-, rfl⟩ | ⟨-, rfl⟩⟩ := hab
  · exact (h.joins edge hedge).2
  · exact (h.joins edge hedge).1

theorem Wired.mem_of_walk (h : g.Wired) {root a : String} (hroot : root ∈ g.nodes) {n : ℕ}
    (hwalk : Walk g.Linked root n a) : a ∈ g.nodes := by
  cases hwalk with
  | nil => exact hroot
  | concat _ hab => exact h.mem_of_linked hab

/-- The search never has more nodes in hand than there are. -/
theorem Wired.length_le (h : g.Wired) {root : String} (hroot : root ∈ g.nodes) {maxDepth : ℕ}
    {done queue : List (String × ℕ)} (hf : Frontier g.Linked root maxDepth done queue) :
    done.length + queue.length ≤ g.nodes.keys.length := by
  have hsubset : (done ++ queue).map Prod.fst ⊆ g.nodes.keys := by
    intro a ha
    obtain ⟨e, he, rfl⟩ := List.mem_map.mp ha
    exact Std.TreeMap.mem_keys.mpr (h.mem_of_walk hroot (hf.distance e he).1.walk)
  have hle := hf.nodup.length_le_of_subset hsubset
  rwa [List.length_map, List.length_append] at hle

/-! ## The neighbourhood -/

theorem foldl_visit (current : String) (depth : ℕ) (edges : List Edge)
    (queue : List (String × ℕ)) {visited : Std.TreeSet String} {seen : List String}
    (hseen : ∀ a, a ∈ visited ↔ a ∈ seen) :
    let new := fresh seen (edges.filterMap (nextOf current))
    let s := edges.foldl (visit current depth) (queue, visited)
    s.1 = queue ++ new.map (·, depth + 1) ∧ ∀ a, a ∈ s.2 ↔ a ∈ seen ∨ a ∈ new := by
  induction edges generalizing queue visited seen with
  | nil => simpa [fresh] using hseen
  | cons edge edges ih =>
    dsimp only
    rw [List.foldl_cons, visit]
    cases hnext : nextOf current edge with
    | none =>
      rw [List.filterMap_cons_none hnext]
      exact ih queue hseen
    | some next =>
      rw [List.filterMap_cons_some hnext, fresh]
      dsimp only
      by_cases hmem : next ∈ seen
      · have hcontains : visited.contains next = true := (hseen next).mpr hmem
        rw [if_pos hcontains, if_pos hmem]
        exact ih queue hseen
      · have hcontains : ¬visited.contains next = true := fun hv => hmem ((hseen next).mp hv)
        rw [if_neg hcontains, if_neg hmem]
        have hinsert (a : String) : a ∈ visited.insert next ↔ a ∈ next :: seen := by
          rw [Std.TreeSet.mem_insert, List.mem_cons, Std.LawfulEqCmp.compare_eq_iff_eq, hseen,
            @eq_comm _ next]
        obtain ⟨hqueue, hvisited⟩ := ih (queue ++ [(next, depth + 1)]) hinsert
        refine ⟨by rw [hqueue, List.append_assoc]; rfl, fun a => ?_⟩
        rw [hvisited, List.mem_cons, List.mem_cons, or_assoc, or_left_comm]

theorem map_fst_append (entries : List (String × ℕ)) (new : List String) (depth : ℕ) :
    (entries ++ new.map (·, depth)).map Prod.fst = entries.map Prod.fst ++ new := by
  simp [Function.comp_def]

/-- Going through the queue ends with every node within the greatest depth. -/
theorem neighborhoodFrom_spec (h : g.Wired) {root : String} (hroot : root ∈ g.nodes)
    (maxDepth fuel : ℕ) {done queue : List (String × ℕ)} {visited : Std.TreeSet String}
    (hf : Frontier g.Linked root maxDepth done queue)
    (hvisited : ∀ a, a ∈ visited ↔ a ∈ (done ++ queue).map Prod.fst)
    (hfuel : g.nodes.keys.length ≤ fuel + done.length) :
    ∃ all, Frontier g.Linked root maxDepth all [] ∧
      neighborhoodFrom g maxDepth fuel queue visited (done.filterMap (g.nodes[·.1]?)) =
        some (all.filterMap (g.nodes[·.1]?)) := by
  induction fuel generalizing done queue visited with
  | zero =>
    cases queue with
    | nil => exact ⟨done, hf, by rw [neighborhoodFrom]⟩
    | cons e queue =>
      have hle := h.length_le hroot hf
      rw [List.length_cons] at hle
      omega
  | succ fuel ih =>
    cases queue with
    | nil => exact ⟨done, hf, by rw [neighborhoodFrom]⟩
    | cons e queue =>
      obtain ⟨current, depth⟩ := e
      have hresult : done.filterMap (g.nodes[·.1]?) ++ (g.nodes[current]?).toList =
          (done ++ [(current, depth)]).filterMap (g.nodes[·.1]?) := by
        rw [List.filterMap_append, List.filterMap_cons]
        dsimp only
        cases g.nodes[current]? <;> rfl
      have hlength : g.nodes.keys.length ≤ fuel + (done ++ [(current, depth)]).length := by
        rw [List.length_append, List.length_singleton]
        omega
      have hlist (more : List (String × ℕ)) : (done ++ [(current, depth)] ++ (queue ++ more)) =
          (done ++ (current, depth) :: queue) ++ more := by simp
      rw [neighborhoodFrom]
      dsimp only
      rw [hresult]
      by_cases hdepth : maxDepth ≤ depth
      · rw [if_pos hdepth]
        refine ih (hf.skip hdepth) (fun a => ?_) hlength
        have hsame := hlist []
        rw [List.append_nil, List.append_nil] at hsame
        rw [hvisited, hsame]
      · rw [if_neg hdepth]
        obtain ⟨hqueue, hnew⟩ := foldl_visit current depth g.edges.toList queue hvisited
        rw [hqueue]
        refine ih (hf.expand_fresh (not_le.mp hdepth) fun b => mem_linkedTo) (fun a => ?_) hlength
        rw [hnew, hlist, map_fst_append, List.mem_append]

/-- What a neighbourhood is: each node within the greatest depth once, the nearer ones first. -/
structure IsNeighborhood (g : RelationGraph) (root : String) (maxDepth : ℕ)
    (result : List Node) : Prop where
  stored : ∀ node ∈ result, g.nodes[node.id]? = some node
  once : (result.map (·.id)).Nodup
  within : ∀ a, a ∈ result.map (·.id) ↔ ∃ n ≤ maxDepth, Walk g.Linked root n a
  nearer : result.Pairwise fun a b => ∀ n m, Distance g.Linked root n a.id →
    Distance g.Linked root m b.id → n ≤ m

/-- The nodes of entries that are stored under their identities. -/
theorem Wired.map_id_filterMap (h : g.Wired) {entries : List (String × ℕ)}
    (hentries : ∀ e ∈ entries, e.1 ∈ g.nodes) :
    (entries.filterMap (g.nodes[·.1]?)).map (·.id) = entries.map Prod.fst := by
  induction entries with
  | nil => rfl
  | cons e entries ih =>
    obtain ⟨he, hentries⟩ := List.forall_mem_cons.mp hentries
    cases hget : g.nodes[e.1]? with
    | none =>
      have hsome := Std.TreeMap.mem_iff_isSome_getElem?.mp he
      rw [hget] at hsome
      cases hsome
    | some node =>
      rw [List.filterMap_cons, hget]
      show node.id :: _ = _
      rw [ih hentries, h.keyed e.1 node hget, List.map_cons]

/-- **The neighbourhood** of a node. -/
theorem neighborhood_spec (h : g.Wired) {root : String} (hroot : root ∈ g.nodes) (maxDepth : ℕ) :
    ∃ result, neighborhood g root maxDepth = some result ∧
      g.IsNeighborhood root maxDepth result := by
  have hvisited (a : String) : a ∈ (∅ : Std.TreeSet String).insert root ↔
      a ∈ ([] ++ [(root, 0)] : List (String × ℕ)).map Prod.fst := by
    rw [Std.TreeSet.mem_insert, Std.LawfulEqCmp.compare_eq_iff_eq, @eq_comm _ root]
    simp
  obtain ⟨all, hall, hresult⟩ := neighborhoodFrom_spec h hroot maxDepth g.nodes.keys.length
    (Frontier.start g.Linked root maxDepth) hvisited (Nat.le_refl _)
  have hcontains : g.nodes.contains root = true := hroot
  refine ⟨_, by rw [neighborhood, if_neg (not_not.mpr hcontains)]; exact hresult, ?_⟩
  have hdistance : ∀ e ∈ all, Distance g.Linked root e.2 e.1 := fun e he =>
    (hall.distance e (List.mem_append_left [] he)).1
  have hids := h.map_id_filterMap fun e he => h.mem_of_walk hroot (hdistance e he).walk
  have hnodup := hall.nodup
  have hsorted := hall.sorted
  rw [List.append_nil] at hnodup hsorted
  constructor
  case stored =>
    intro node hnode
    obtain ⟨e, -, hget⟩ := List.mem_filterMap.mp hnode
    rw [h.keyed e.1 node hget]
    exact hget
  case once => rwa [hids]
  case within => exact fun a => by rw [hids, hall.mem_iff]
  case nearer =>
    refine List.pairwise_filterMap.mpr ?_
    refine hsorted.imp_of_mem fun {e f} he hf hef a ha b hb n m hn hm => ?_
    rw [h.keyed e.1 a ha] at hn
    rw [h.keyed f.1 b hb] at hm
    rw [hn.unique (hdistance e he), hm.unique (hdistance f hf)]
    exact hef

/-! ## Paths -/

/-- A path along relations. -/
structure Joins (g : RelationGraph) (root target : String) (path : List String) : Prop where
  head : path.head? = some root
  last : path.getLast? = some target
  chain : path.IsChain g.Linked

/-- A path as long as the distance, which is within the greatest depth. -/
structure IsPath (g : RelationGraph) (root target : String) (maxDepth : ℕ)
    (path : List String) : Prop extends g.Joins root target path where
  distance : ∃ n ≤ maxDepth, Distance g.Linked root n target ∧ path.length = n + 1

/-- No path is shorter. -/
theorem IsPath.length_le {root target : String} {maxDepth : ℕ} {path : List String}
    (h : g.IsPath root target maxDepth path) {other : List String}
    (hother : g.Joins root target other) : path.length ≤ other.length := by
  obtain ⟨n, -, hdistance, hlength⟩ := h.distance
  have hle := hdistance.least _ (walk_of_isChain hother.chain hother.head hother.last)
  have hne : other ≠ [] := by
    rintro rfl
    cases hother.head
  have hpos := List.length_pos_of_ne_nil hne
  omega

theorem foldl_adopt (current : String) (depth : ℕ) (edges : List Edge)
    (queue : List (String × ℕ)) {parents : Std.TreeMap String (Option String)}
    {seen : List String} (hseen : ∀ a, a ∈ parents ↔ a ∈ seen) :
    let new := fresh seen (edges.filterMap (nextOf current))
    let s := edges.foldl (adopt current depth) (queue, parents)
    s.1 = queue ++ new.map (·, depth + 1) ∧ (∀ a, a ∈ s.2 ↔ a ∈ seen ∨ a ∈ new) ∧
      (∀ a ∈ seen, s.2[a]? = parents[a]?) ∧ ∀ a ∈ new, s.2[a]? = some (some current) := by
  induction edges generalizing queue parents seen with
  | nil => simpa [fresh] using hseen
  | cons edge edges ih =>
    dsimp only
    rw [List.foldl_cons, adopt]
    cases hnext : nextOf current edge with
    | none =>
      rw [List.filterMap_cons_none hnext]
      exact ih queue hseen
    | some next =>
      rw [List.filterMap_cons_some hnext, fresh]
      dsimp only
      by_cases hmem : next ∈ seen
      · have hcontains : parents.contains next = true := (hseen next).mpr hmem
        rw [if_pos hcontains, if_pos hmem]
        exact ih queue hseen
      · have hcontains : ¬parents.contains next = true := fun hv => hmem ((hseen next).mp hv)
        rw [if_neg hcontains, if_neg hmem]
        have hinsert (a : String) : a ∈ parents.insert next (some current) ↔ a ∈ next :: seen := by
          rw [Std.TreeMap.mem_insert, List.mem_cons, Std.LawfulEqCmp.compare_eq_iff_eq, hseen,
            @eq_comm _ next]
        have hself : (parents.insert next (some current))[next]? = some (some current) :=
          Std.TreeMap.getElem?_insert_self
        obtain ⟨hqueue, hparents, hkeep, hnew⟩ := ih (queue ++ [(next, depth + 1)]) hinsert
        refine ⟨by rw [hqueue, List.append_assoc]; rfl, fun a => ?_, fun a ha => ?_, fun a ha => ?_⟩
        · rw [hparents, List.mem_cons, List.mem_cons, or_assoc, or_left_comm]
        · rw [hkeep a (List.mem_cons_of_mem next ha), Std.TreeMap.getElem?_insert]
          have hne : ¬compare next a = .eq := fun heq =>
            hmem (Std.LawfulEqCmp.eq_of_compare heq ▸ ha)
          rw [if_neg hne]
        · rcases List.mem_cons.mp ha with rfl | ha
          · rw [hkeep a List.mem_cons_self, hself]
          · exact hnew a ha

/-- Following the parents leads back to the root in as many steps as the node is away. -/
theorem pathTo_spec {parents : Std.TreeMap String (Option String)} {root : String}
    {entries : List (String × ℕ)}
    (h : PointsBack g.Linked root (fun a => (parents[a]?).join) entries) {a : String} {n : ℕ}
    (ha : (a, n) ∈ entries) (path : List String) :
    ∃ back, pathTo parents (n + 1) (some a) path = some (path ++ back) ∧
      back.length = n + 1 ∧ back.reverse.IsChain g.Linked ∧ back.head? = some a ∧
        back.getLast? = some root := by
  obtain ⟨hzero, hsucc⟩ := h (a, n) ha
  induction n generalizing a path with
  | zero =>
    obtain ⟨rfl, hnone⟩ := hzero rfl
    refine ⟨[a], ?_, rfl, List.isChain_singleton a, rfl, rfl⟩
    rw [pathTo]
    dsimp only at hnone
    rw [hnone, pathTo]
  | succ n ih =>
    obtain ⟨b, hparent, hmem, hedge⟩ := hsucc n rfl
    obtain ⟨hzero', hsucc'⟩ := h (b, n) hmem
    obtain ⟨back, hback, hlength, hchain, hhead, hlast⟩ := ih hmem (path ++ [a]) hzero' hsucc'
    have hne : back ≠ [] := List.ne_nil_of_length_eq_add_one hlength
    refine ⟨a :: back, ?_, by rw [List.length_cons, hlength], ?_, rfl, ?_⟩
    · dsimp only at hparent
      rw [pathTo, hparent, hback, List.append_assoc]
      rfl
    · rw [List.reverse_cons]
      refine List.isChain_append.mpr ⟨hchain, List.isChain_singleton a, fun c hc d hd => ?_⟩
      rw [List.getLast?_reverse, hhead] at hc
      cases hc
      cases hd
      exact hedge
    · rw [List.getLast?_cons_of_ne_nil hne, hlast]

/-- Going through the queue ends at the target, or it is not within the greatest depth. -/
theorem pathFrom_spec (h : g.Wired) {root target : String} (hroot : root ∈ g.nodes)
    (maxDepth fuel : ℕ) {done queue : List (String × ℕ)}
    {parents : Std.TreeMap String (Option String)}
    (hf : Frontier g.Linked root maxDepth done queue)
    (hparents : ∀ a, a ∈ parents ↔ a ∈ (done ++ queue).map Prod.fst)
    (hback : PointsBack g.Linked root (fun a => (parents[a]?).join) (done ++ queue))
    (htarget : target ∉ done.map Prod.fst) (hfuel : g.nodes.keys.length ≤ fuel + done.length) :
    (∃ path, pathFrom g target maxDepth fuel queue parents = some (some path) ∧
        g.IsPath root target maxDepth path) ∨
      pathFrom g target maxDepth fuel queue parents = some none ∧
        ¬∃ n ≤ maxDepth, Walk g.Linked root n target := by
  induction fuel generalizing done queue parents with
  | zero =>
    cases queue with
    | nil => exact .inr ⟨by rw [pathFrom], fun hwalk => htarget (hf.mem_iff.mpr hwalk)⟩
    | cons e queue =>
      have hle := h.length_le hroot hf
      rw [List.length_cons] at hle
      omega
  | succ fuel ih =>
    cases queue with
    | nil => exact .inr ⟨by rw [pathFrom], fun hwalk => htarget (hf.mem_iff.mpr hwalk)⟩
    | cons e queue =>
      obtain ⟨current, depth⟩ := e
      have hmem : (current, depth) ∈ done ++ (current, depth) :: queue :=
        List.mem_append_right _ List.mem_cons_self
      rw [pathFrom]
      by_cases hcurrent : current = target
      · subst hcurrent
        obtain ⟨back, hpath, hlength, hchain, hhead, hlast⟩ := pathTo_spec hback hmem []
        obtain ⟨hdistance, hle⟩ := hf.distance _ hmem
        refine .inl ⟨back.reverse, ?_, ⟨?_, ?_, hchain⟩, depth, hle, hdistance, ?_⟩
        · rw [if_pos rfl, hpath]
          rfl
        · rw [List.head?_reverse, hlast]
        · rw [List.getLast?_reverse, hhead]
        · rw [List.length_reverse, hlength]
      rw [if_neg hcurrent]
      have hlength : g.nodes.keys.length ≤ fuel + (done ++ [(current, depth)]).length := by
        rw [List.length_append, List.length_singleton]
        omega
      have hdone : target ∉ (done ++ [(current, depth)]).map Prod.fst := by
        rw [List.map_append, List.mem_append, not_or]
        exact ⟨htarget, fun hm => hcurrent (List.mem_singleton.mp hm).symm⟩
      have hlist (more : List (String × ℕ)) : (done ++ [(current, depth)] ++ (queue ++ more)) =
          (done ++ (current, depth) :: queue) ++ more := by simp
      by_cases hdepth : maxDepth ≤ depth
      · have hsame := hlist []
        rw [List.append_nil, List.append_nil] at hsame
        rw [if_pos hdepth]
        exact ih (hf.skip hdepth) (fun a => by rw [hparents, hsame]) (hsame ▸ hback) hdone hlength
      · rw [if_neg hdepth]
        obtain ⟨hqueue, hkeys, hkeep, hnew⟩ :=
          foldl_adopt current depth g.edges.toList queue hparents
        dsimp only
        rw [hqueue]
        refine ih (hf.expand_fresh (not_le.mp hdepth) fun b => mem_linkedTo) (fun a => ?_) ?_ hdone
          hlength
        · rw [hkeys, hlist, map_fst_append, List.mem_append]
        · rw [hlist]
          refine hback.expand hmem (fun e he => ?_) fun b hb => ?_
          · rw [hkeep e.1 (List.mem_map_of_mem he)]
          · rw [hnew b hb]
            exact ⟨rfl, mem_linkedTo.mp (mem_fresh.mp hb).1⟩

/-- **The path** between two nodes. -/
theorem pathBetween_spec (h : g.Wired) {root target : String} (hroot : root ∈ g.nodes)
    (htarget : target ∈ g.nodes) (maxDepth : ℕ) :
    (∃ path, pathBetween g root target maxDepth = some (some path) ∧
        g.IsPath root target maxDepth path) ∨
      pathBetween g root target maxDepth = some none ∧
        ¬∃ n ≤ maxDepth, Walk g.Linked root n target := by
  have hroot' : g.nodes.contains root = true := hroot
  have htarget' : g.nodes.contains target = true := htarget
  have hparents (a : String) : a ∈ (∅ : Std.TreeMap String (Option String)).insert root none ↔
      a ∈ ([] ++ [(root, 0)] : List (String × ℕ)).map Prod.fst := by
    rw [Std.TreeMap.mem_insert, Std.LawfulEqCmp.compare_eq_iff_eq, @eq_comm _ root]
    simp
  have hnone : (((∅ : Std.TreeMap String (Option String)).insert root none)[root]?).join =
      none := by
    rw [Std.TreeMap.getElem?_insert_self]
    rfl
  rw [pathBetween, if_neg (not_or.mpr ⟨not_not.mpr hroot', not_not.mpr htarget'⟩)]
  exact pathFrom_spec h hroot maxDepth _ (Frontier.start g.Linked root maxDepth) hparents
    (PointsBack.start hnone) List.not_mem_nil (Nat.le_refl _)

end RelationGraph

/-- **The searches are exact.** In every graph that a run of changes leads to, a path between two
nodes is found just when they are within the greatest depth, and it is a shortest one; and the
neighbourhood has each node within the depth once, the nearer ones first. -/
theorem graphSearch_exact (float : FloatArith) (ops : List GraphOp) :
    let g := Runs.final (fun op g => RelationGraph.apply float op g) RelationGraph.new ops
    ∀ root ∈ g.nodes, ∀ maxDepth,
      (∀ target ∈ g.nodes,
        ((∃ path, g.pathBetween root target maxDepth = some (some path)) ↔
            ∃ n ≤ maxDepth, Walk g.Linked root n target) ∧
          (∀ path, g.pathBetween root target maxDepth = some (some path) →
            g.Joins root target path ∧
              ∀ other, g.Joins root target other → path.length ≤ other.length) ∧
          g.pathBetween root target maxDepth ≠ none) ∧
      ∃ result, g.neighborhood root maxDepth = some result ∧
        g.IsNeighborhood root maxDepth result := by
  intro g root hroot maxDepth
  have hwired : g.Wired := RelationGraph.wired_final float ops
  refine ⟨fun target htarget => ?_, RelationGraph.neighborhood_spec hwired hroot maxDepth⟩
  obtain ⟨path, hpath, his⟩ | ⟨hnone, hfar⟩ :=
    RelationGraph.pathBetween_spec hwired hroot htarget maxDepth
  · obtain ⟨n, hn, hdistance, -⟩ := his.distance
    rw [hpath]
    refine ⟨⟨fun _ => ⟨n, hn, hdistance.walk⟩, fun _ => ⟨path, rfl⟩⟩, fun path' h => ?_,
      Option.some_ne_none _⟩
    cases h
    exact ⟨his.toJoins, fun other => his.length_le⟩
  · rw [hnone]
    refine ⟨⟨fun h => ?_, fun h => absurd h hfar⟩, fun path h => ?_, Option.some_ne_none _⟩
    · obtain ⟨path, h⟩ := h
      cases h
    · cases h

theorem graphSearch_exact_pair :
    let g := Runs.final (fun op g => RelationGraph.apply Sample.float op g) RelationGraph.new
      [.upsertNode ⟨"a", .issuer, "A"⟩, .upsertNode ⟨"b", .issuer, "B"⟩, .addEdge ⟨"a", "r", "b"⟩]
    g.pathBetween "b" "a" 1 = some (some ["b", "a"]) ∧ ∃ n ≤ 1, Walk g.Linked "b" n "a" := by
  have hsearch := graphSearch_exact Sample.float [.upsertNode ⟨"a", .issuer, "A"⟩,
    .upsertNode ⟨"b", .issuer, "B"⟩, .addEdge ⟨"a", "r", "b"⟩] "b" (by decide) 1
  exact ⟨rfl, (hsearch.1 "a" (by decide)).1.mp ⟨["b", "a"], rfl⟩⟩

end InsiderTrader
