import InsiderTrader.Journal
import InsiderTrader.Library.MapFilter
import InsiderTrader.Library.Runs
import InsiderTrader.Operation
import Mathlib.Data.List.Pairwise
import Mathlib.Data.List.Sort

/-!
# Facts of the context graph

A node has facts with two times: when a fact is true, and when the system knew
it. A new fact ends the knowledge of the earlier ones for the same valid time.
The queries look at a valid time as of a time of knowledge.

## Main definitions

- `NodeFact`, `ContextGraph` — facts by node, in the order of their times
- `ContextGraph.upsertNodeFact` — add a fact
- `ContextGraph.nodesAt` — the facts of a valid time that were known at a time
- `ContextGraph.KnownOnce` — at every time one fact is known, the latest one
- `ContextGraph.Reaches` — a new fact is known beyond the start of a later one

## Main results

- `ContextGraph.upsert_cases` — what a call can do
- `ContextGraph.knownOnce_upsert_iff` — the calls after which one fact is known
- `bitemporal_along_iff` — the runs along which one fact is known
-/

namespace InsiderTrader

/-- Supported graph entity kinds. -/
inductive NodeType where
  | instrument
  | issuer
  | newsItem
  | newsCluster
  | metric
  | strategy
  | position
  | order
  | fill
  | event
  | sector
  | industry
  | index
  | etf
  | currency
  | commodity
  | country
  | macroSeries
  | person
  | model
  | portfolio
  | experiment
  deriving DecidableEq

/-- A graph node with stable identity. -/
structure Node where
  id : String
  nodeType : NodeType
  label : String
  deriving DecidableEq

/-- A half-open interval of milliseconds; without an end it is open-ended. -/
structure TimeInterval where
  startMs : Int
  endMs : Option Int
  deriving DecidableEq

namespace TimeInterval

/-- The bounds of an interval, when they are in order and not negative. -/
def new (startMs : Int) (endMs : Option Int) : Except GraphError TimeInterval :=
  if startMs < 0 ∨ endMs.any (· ≤ startMs) then .error .invalidInterval else .ok ⟨startMs, endMs⟩

def contains (i : TimeInterval) (timestampMs : Int) : Bool :=
  i.startMs ≤ timestampMs && i.endMs.all (timestampMs < ·)

end TimeInterval

/-- Where a fact comes from, and how sure its source is. -/
structure Provenance where
  source : String
  artifactId : String
  confidence : F64
  deriving DecidableEq

/-- A version of a node with its valid time and its time of knowledge. -/
structure NodeFact where
  node : Node
  valid : TimeInterval
  known : TimeInterval
  provenance : Provenance
  deriving DecidableEq

def validateNode (node : Node) : Except GraphError Unit :=
  if Text.isBlank node.id ∨ Text.isBlank node.label then .error .invalidIdentity else .ok ()

def validateFactMetadata (float : FloatArith) (valid known : TimeInterval)
    (provenance : Provenance) : Except GraphError Unit := do
  let _ ← TimeInterval.new valid.startMs valid.endMs
  let _ ← TimeInterval.new known.startMs known.endMs
  if Text.isBlank provenance.source ∨ Text.isBlank provenance.artifactId ∨
      ¬float.inUnit provenance.confidence then
    .error .invalidProvenance
  else .ok ()

namespace NodeFact

/-- The facts are equal; their confidences are compared as numbers. -/
def same (float : FloatArith) (e f : NodeFact) : Bool :=
  e.node = f.node ∧ e.valid = f.valid ∧ e.known = f.known ∧
    e.provenance.source = f.provenance.source ∧
    e.provenance.artifactId = f.provenance.artifactId ∧
    float.atMost e.provenance.confidence f.provenance.confidence ∧
    float.atMost f.provenance.confidence e.provenance.confidence

/-- The facts give one artifact two meanings. -/
def conflicts (e f : NodeFact) : Bool :=
  e.known.startMs = f.known.startMs ∧ e.valid = f.valid ∧
    e.provenance.artifactId = f.provenance.artifactId ∧ e.node ≠ f.node

/-- The fact with its knowledge ended by a later fact for the same valid time. -/
def closedBy (f e : NodeFact) : NodeFact :=
  if e.valid = f.valid ∧ e.known.startMs < f.known.startMs ∧ e.known.endMs.all (f.known.startMs < ·)
  then { e with known := ⟨e.known.startMs, some f.known.startMs⟩ }
  else e

/-- The order of the versions of a node. -/
def before (e f : NodeFact) : Prop :=
  e.known.startMs < f.known.startMs ∨
    e.known.startMs = f.known.startMs ∧ e.valid.startMs ≤ f.valid.startMs

instance : DecidableRel before := fun _ _ => inferInstanceAs (Decidable (_ ∨ _))

/-- The fact holds at a valid time, and was known at a time. -/
def visible (validAtMs knownAtMs : Int) (f : NodeFact) : Bool :=
  f.valid.contains validAtMs && f.known.contains knownAtMs

/-- What a fact says, without the end of its knowledge. -/
def statement (f : NodeFact) : Node × TimeInterval × Int × Provenance :=
  (f.node, f.valid, f.known.startMs, f.provenance)

end NodeFact

/-- The nodes, and the facts of each of them. -/
structure ContextGraph where
  nodes : Std.TreeMap String Node
  nodeFacts : Std.TreeMap String (List NodeFact)

namespace ContextGraph

def new : ContextGraph := ⟨∅, ∅⟩

/-- The versions of a node. -/
def versions (g : ContextGraph) (id : String) : List NodeFact := (g.nodeFacts[id]?).getD []

/-- The versions with a new one, which ends the knowledge of the earlier ones. -/
def addVersion (fact : NodeFact) (versions : List NodeFact) : List NodeFact :=
  (versions.map fact.closedBy ++ [fact]).insertionSort NodeFact.before

/-- Store the versions of a node; the last one is the current node. -/
def store (id : String) (versions : List NodeFact) (g : ContextGraph) : ContextGraph where
  nodes := versions.getLast?.elim g.nodes fun last => g.nodes.insert last.node.id last.node
  nodeFacts := g.nodeFacts.insert id versions

/-- Add a versioned fact without deleting prior knowledge. -/
def upsertNodeFact (float : FloatArith) (fact : NodeFact) : Fallible ContextGraph GraphError Unit := do
  Fallible.ofExcept (validateNode fact.node)
  Fallible.ofExcept (validateFactMetadata float fact.valid fact.known fact.provenance)
  let versions ← Fallible.reads (·.versions fact.node.id)
  if versions.any (·.same float fact) then pure ()
  else do
    Fallible.require (¬versions.any (·.conflicts fact)) .conflictingNode
    Fallible.modify (store fact.node.id (addVersion fact versions))

/-- The facts that hold at a valid time and were known at a time. -/
def nodesAt (g : ContextGraph) (validAtMs knownAtMs : Int) : List NodeFact :=
  g.nodeFacts.values.flatMap (·.filter (NodeFact.visible validAtMs knownAtMs))

/-- A call of `upsertNodeFact`. -/
def upsert (float : FloatArith) (fact : NodeFact) (g : ContextGraph) : ContextGraph :=
  (upsertNodeFact float fact g).2

/-- At every valid time of a fact, and every time at which a fact for it is known, exactly one
fact is, and no fact that starts until then starts later. -/
def KnownOnce (g : ContextGraph) : Prop :=
  ∀ id valid validAtMs knownAtMs, valid.contains validAtMs →
    (∃ e ∈ g.versions id, e.valid = valid ∧ e.known.contains knownAtMs) →
    ∃ f, (g.nodesAt validAtMs knownAtMs).filter (fun e => e.node.id = id ∧ e.valid = valid) = [f] ∧
      ∀ e ∈ g.versions id, e.valid = valid → e.known.startMs ≤ knownAtMs →
        e.known.startMs ≤ f.known.startMs

/-- A call passes the checks and stores its fact. -/
structure Stores (float : FloatArith) (fact : NodeFact) (g : ContextGraph) : Prop where
  node : validateNode fact.node = .ok ()
  metadata : validateFactMetadata float fact.valid fact.known fact.provenance = .ok ()
  new : ¬(g.versions fact.node.id).any (·.same float fact) = true
  agrees : ¬(g.versions fact.node.id).any (·.conflicts fact) = true

/-- A call stores a fact that is still known when a stored fact for its valid time, not an
earlier one, starts to be. -/
def Reaches (float : FloatArith) (fact : NodeFact) (g : ContextGraph) : Prop :=
  Stores float fact g ∧ ∃ e ∈ g.versions fact.node.id, e.valid = fact.valid ∧
    fact.known.contains e.known.startMs = true

variable {float : FloatArith} {fact e f : NodeFact} {g : ContextGraph} {v k : Int}

-- The order of the versions

instance : IsTrans NodeFact NodeFact.before where
  trans a b c hab hbc := by
    unfold NodeFact.before at *
    omega

instance : Std.Total NodeFact.before where
  total a b := by
    unfold NodeFact.before
    omega

/-- A sort keeps the elements that pass a test in their order, when they are sorted. -/
theorem filter_insertionSort {p : NodeFact → Bool} {l : List NodeFact}
    (h : (l.filter p).Pairwise NodeFact.before) :
    (l.insertionSort NodeFact.before).filter p = l.filter p := by
  have hsub := (List.sublist_insertionSort h List.filter_sublist).filter p
  rw [List.filter_filter] at hsub
  simp only [Bool.and_self] at hsub
  have hlength := ((List.perm_insertionSort NodeFact.before l).filter p).length_eq
  exact (hsub.eq_of_length hlength.symm).symm

-- Closing a version

theorem closedBy_node : (fact.closedBy e).node = e.node := by
  unfold NodeFact.closedBy
  split <;> rfl

theorem closedBy_valid : (fact.closedBy e).valid = e.valid := by
  unfold NodeFact.closedBy
  split <;> rfl

theorem closedBy_start : (fact.closedBy e).known.startMs = e.known.startMs := by
  unfold NodeFact.closedBy
  split <;> rfl

theorem closedBy_statement : (fact.closedBy e).statement = e.statement := by
  unfold NodeFact.closedBy
  split <;> rfl

/-- What is not earlier is not closed. -/
theorem closedBy_eq_self (h : fact.known.startMs ≤ e.known.startMs) : fact.closedBy e = e := by
  rw [NodeFact.closedBy, if_neg]
  rintro ⟨-, hearlier, -⟩
  omega

theorem contains_iff {i : TimeInterval} {t : Int} :
    i.contains t = true ↔ i.startMs ≤ t ∧ ∀ e ∈ i.endMs, t < e := by
  rw [TimeInterval.contains, Bool.and_eq_true, decide_eq_true_iff, Option.all_eq_true]
  simp

/-- Closing ends knowledge, it never begins or extends it. -/
theorem contains_of_closedBy (h : (fact.closedBy e).known.contains k = true) :
    e.known.contains k = true := by
  unfold NodeFact.closedBy at h
  split at h
  · next hclosed =>
    rw [contains_iff] at h ⊢
    refine ⟨h.1, fun t ht => ?_⟩
    have hlate := (Option.all_eq_true ..).mp hclosed.2.2 t ht
    exact (h.2 _ rfl).trans (of_decide_eq_true hlate)
  · exact h

/-- A version that the fact closes is not known when the fact is. -/
theorem lt_of_closedBy_contains (hvalid : e.valid = fact.valid)
    (hstart : e.known.startMs < fact.known.startMs)
    (h : (fact.closedBy e).known.contains k = true) : k < fact.known.startMs := by
  unfold NodeFact.closedBy at h
  split at h
  · exact (contains_iff.mp h).2 _ rfl
  · next hopen =>
    have hended : ¬e.known.endMs.all (fact.known.startMs < ·) = true :=
      fun hall => hopen ⟨hvalid, hstart, hall⟩
    rw [Option.all_eq_true] at hended
    push Not at hended
    obtain ⟨t, ht, hle⟩ := hended
    have hlt := (contains_iff.mp h).2 t ht
    have hle : t ≤ fact.known.startMs := by simpa using hle
    omega

/-- Before the fact is known, closing changes nothing. -/
theorem contains_closedBy (hk : k < fact.known.startMs) :
    (fact.closedBy e).known.contains k = e.known.contains k := by
  rw [Bool.eq_iff_iff]
  refine ⟨contains_of_closedBy, fun h => ?_⟩
  unfold NodeFact.closedBy
  split
  · rw [contains_iff] at h ⊢
    refine ⟨h.1, ?_⟩
    rintro _ ⟨⟩
    exact hk
  · exact h

-- What a call does

theorem upsert_cases (float : FloatArith) (fact : NodeFact) (g : ContextGraph) :
    upsert float fact g = g ∧ ¬Stores float fact g ∨
      Stores float fact g ∧
        upsert float fact g = g.store fact.node.id (addVersion fact (g.versions fact.node.id)) := by
  unfold upsert upsertNodeFact
  cases hnode : validateNode fact.node with
  | error e =>
    refine .inl ⟨rfl, fun h => ?_⟩
    have hok := h.node
    rw [hnode] at hok
    cases hok
  | ok u =>
    cases hmetadata : validateFactMetadata float fact.valid fact.known fact.provenance with
    | error e =>
      refine .inl ⟨rfl, fun h => ?_⟩
      have hok := h.metadata
      rw [hmetadata] at hok
      cases hok
    | ok u' =>
      rw [Fallible.ofExcept_bind_ok rfl, Fallible.ofExcept_bind_ok rfl, Fallible.reads_bind]
      by_cases hsame : (g.versions fact.node.id).any (·.same float fact) = true
      · rw [if_pos hsame]
        exact .inl ⟨rfl, fun h => h.new hsame⟩
      rw [if_neg hsame, Fallible.require_bind]
      by_cases hconflict : (g.versions fact.node.id).any (·.conflicts fact) = true
      · rw [if_neg (not_not.mpr hconflict)]
        exact .inl ⟨rfl, fun h => h.agrees hconflict⟩
      · rw [if_pos hconflict]
        exact .inr ⟨⟨hnode, hmetadata, hsame, hconflict⟩, rfl⟩

theorem versions_store (id id' : String) (l : List NodeFact) (g : ContextGraph) :
    (g.store id l).versions id' = if id = id' then l else g.versions id' := by
  rw [versions, store, Std.TreeMap.getElem?_insert]
  simp only [Std.LawfulEqCmp.compare_eq_iff_eq]
  split
  · rfl
  · rfl

theorem addVersion_perm (fact : NodeFact) (l : List NodeFact) :
    (addVersion fact l).Perm (l.map fact.closedBy ++ [fact]) :=
  List.perm_insertionSort _ _

theorem mem_addVersion {l : List NodeFact} :
    f ∈ addVersion fact l ↔ (∃ e ∈ l, fact.closedBy e = f) ∨ f = fact := by
  rw [(addVersion_perm fact l).mem_iff, List.mem_append, List.mem_map, List.mem_singleton]

-- The invariants

/-- The interval ends after it starts. -/
def Proper (i : TimeInterval) : Prop := ∀ e ∈ i.endMs, i.startMs < e

theorem Proper.contains_start {i : TimeInterval} (h : Proper i) : i.contains i.startMs = true :=
  contains_iff.mpr ⟨le_rfl, h⟩

/-- The versions of a node name it, are in order, and have proper intervals. -/
structure Ordered (g : ContextGraph) : Prop where
  ids : ∀ id, ∀ f ∈ g.versions id, f.node.id = id
  sorted : ∀ id, (g.versions id).Pairwise NodeFact.before
  valid : ∀ id, ∀ f ∈ g.versions id, Proper f.valid
  known : ∀ id, ∀ f ∈ g.versions id, Proper f.known

/-- Two facts for one valid time are never known together. -/
def Apart (e f : NodeFact) : Prop :=
  e.valid = f.valid → ∀ k, e.known.contains k = true → f.known.contains k = true → False

instance : Std.Symm Apart where
  symm _ _ h hvalid k he hf := h hvalid.symm k hf he

theorem proper_of_new {i j : TimeInterval} (h : TimeInterval.new i.startMs i.endMs = .ok j) :
    Proper i := by
  unfold TimeInterval.new at h
  split at h
  · cases h
  · next hbounds =>
    push Not at hbounds
    intro t ht
    have hend := hbounds.2
    rw [Ne, Bool.not_eq_true, Option.any_eq_false] at hend
    simpa using hend t ht

theorem Stores.proper (h : Stores float fact g) : Proper fact.valid ∧ Proper fact.known := by
  have hmetadata := h.metadata
  unfold validateFactMetadata at hmetadata
  cases hvalid : TimeInterval.new fact.valid.startMs fact.valid.endMs with
  | error e =>
    rw [hvalid] at hmetadata
    cases hmetadata
  | ok i =>
    cases hknown : TimeInterval.new fact.known.startMs fact.known.endMs with
    | error e =>
      rw [hvalid, hknown] at hmetadata
      cases hmetadata
    | ok j => exact ⟨proper_of_new hvalid, proper_of_new hknown⟩

theorem proper_closedBy (he : Proper e.known) : Proper (fact.closedBy e).known := by
  unfold NodeFact.closedBy
  split
  · next hclosed =>
    rintro _ ⟨⟩
    exact hclosed.2.1
  · exact he

theorem ordered_new : Ordered new := by
  have hnone : ∀ id, new.versions id = [] := fun id => by
    rw [versions, new, Std.TreeMap.getElem?_emptyc]
    rfl
  refine ⟨?_, ?_, ?_, ?_⟩ <;> intro id <;> rw [hnone id] <;> simp

/-- **Every call** keeps the versions in order. -/
theorem Ordered.upsert (h : Ordered g) (float : FloatArith) (fact : NodeFact) :
    Ordered (upsert float fact g) := by
  obtain ⟨hsame, -⟩ | ⟨hstores, hstored⟩ := upsert_cases float fact g
  · rw [hsame]
    exact h
  rw [hstored]
  obtain ⟨hvalid, hknown⟩ := hstores.proper
  have hversions : ∀ {P : NodeFact → Prop} (id : String),
      (∀ f ∈ g.versions id, P f) → (id = fact.node.id → P fact) →
      (∀ f, P f → P (fact.closedBy f)) →
      ∀ f ∈ (g.store fact.node.id (addVersion fact (g.versions fact.node.id))).versions id, P f := by
    intro P id hall hfact hclosed f hf
    rw [versions_store] at hf
    split at hf
    · next heq =>
      subst heq
      obtain ⟨e, he, rfl⟩ | rfl := mem_addVersion.mp hf
      · exact hclosed e (hall e he)
      · exact hfact rfl
    · exact hall f hf
  refine ⟨fun id => ?_, fun id => ?_, fun id => ?_, fun id => ?_⟩
  · exact hversions id (h.ids id) (fun heq => heq.symm) fun f hf => by rwa [closedBy_node]
  · rw [versions_store]
    split
    · exact List.pairwise_insertionSort _ _
    · exact h.sorted id
  · exact hversions id (h.valid id) (fun _ => hvalid) fun f hf => by rwa [closedBy_valid]
  · exact hversions id (h.known id) (fun _ => hknown) fun f hf => proper_closedBy hf

-- One fact is known

/-- The facts of one node and valid time among those of a query. -/
theorem filter_nodesAt (h : Ordered g) (id : String) (valid : TimeInterval) (v k : Int) :
    (g.nodesAt v k).filter (fun e => e.node.id = id ∧ e.valid = valid) =
      (g.versions id).filter fun e => e.visible v k ∧ e.valid = valid := by
  rw [nodesAt, List.filter_flatMap]
  cases hfound : g.nodeFacts[id]? with
  | none =>
    rw [versions, hfound, Option.getD_none, List.filter_nil, List.flatMap_eq_nil_iff]
    intro l hl
    obtain ⟨id', hid'⟩ := MapFilter.mem_values.mp hl
    rw [List.filter_filter, List.filter_eq_nil_iff]
    intro e he hpass
    have hnamed := h.ids id' e (by rw [versions, hid']; exact he)
    have heq : e.node.id = id := (of_decide_eq_true (Bool.and_eq_true _ _ ▸ hpass).1).1
    rw [← heq, hnamed, hid'] at hfound
    cases hfound
  | some l =>
    rw [MapFilter.flatMap_values_of_key hfound, versions, hfound, Option.getD_some,
      List.filter_filter]
    · refine List.filter_congr fun e he => ?_
      have hnamed := h.ids id e (by rw [versions, hfound]; exact he)
      simp [hnamed, Bool.and_comm]
    · intro id' l' hid' hne
      rw [List.filter_filter, List.filter_eq_nil_iff]
      intro e he hpass
      have hnamed := h.ids id' e (by rw [versions, hid']; exact he)
      have heq : e.node.id = id := (of_decide_eq_true (Bool.and_eq_true _ _ ▸ hpass).1).1
      exact hne (hnamed.symm.trans heq)

/-- Versions that are never known together are known once. -/
theorem knownOnce_of_apart (h : Ordered g) (hapart : ∀ id, (g.versions id).Pairwise Apart) :
    g.KnownOnce := by
  rintro id valid v k hv ⟨f, hf, rfl, hk⟩
  refine ⟨f, ?_, ?_⟩
  · rw [filter_nodesAt h]
    refine MapFilter.filter_eq_singleton ((hapart id).imp ?_) hf ?_
    · rintro a b hab ⟨ha, hb⟩
      simp only [NodeFact.visible, Bool.and_eq_true, decide_eq_true_iff] at ha hb
      exact hab (ha.2.trans hb.2.symm) k ha.1.2 hb.1.2
    · simp [NodeFact.visible, hv, hk]
  · intro e he hvalid hstart
    by_contra hlater
    have hne : e ≠ f := fun heq => hlater (heq ▸ le_rfl)
    have hfe : f.known.contains e.known.startMs = true := by
      rw [contains_iff] at hk ⊢
      exact ⟨by omega, fun t ht => hstart.trans_lt (hk.2 t ht)⟩
    exact (hapart id).forall he hf hne hvalid _ (h.known id e he).contains_start hfe

/-- A stored fact that reaches no later one is apart from all others. -/
theorem apart_store (hapart : ∀ id, (g.versions id).Pairwise Apart)
    (hstores : Stores float fact g) (hkeeps : ¬Reaches float fact g) (id : String) :
    ((g.store fact.node.id (addVersion fact (g.versions fact.node.id))).versions id).Pairwise
      Apart := by
  rw [versions_store]
  split
  · refine (addVersion_perm fact _).symm.pairwise ?_ (fun hef => Std.Symm.symm _ _ hef)
    rw [List.pairwise_append, List.pairwise_map]
    refine ⟨(hapart _).imp ?_, List.pairwise_singleton _ _, ?_⟩
    · intro e f hef hvalid k he hf
      rw [closedBy_valid, closedBy_valid] at hvalid
      exact hef hvalid k (contains_of_closedBy he) (contains_of_closedBy hf)
    · intro closed hclosed last hlast hvalid k he hf
      rw [List.mem_singleton.mp hlast] at hvalid hf
      obtain ⟨e, hmem, rfl⟩ := List.mem_map.mp hclosed
      rw [closedBy_valid] at hvalid
      obtain hearlier | hlater := lt_or_ge e.known.startMs fact.known.startMs
      · have hlt := lt_of_closedBy_contains hvalid hearlier he
        exact absurd (contains_iff.mp hf).1 (by omega)
      · have hk := (contains_iff.mp (contains_of_closedBy he)).1
        refine hkeeps ⟨hstores, e, hmem, hvalid, contains_iff.mpr ⟨hlater, fun t ht => ?_⟩⟩
        exact hk.trans_lt ((contains_iff.mp hf).2 t ht)
  · exact hapart id

/-- A stored fact that reaches a later one is known together with it. -/
theorem not_knownOnce_store (h : Ordered g) (hreaches : Reaches float fact g) :
    ¬(g.store fact.node.id (addVersion fact (g.versions fact.node.id))).KnownOnce := by
  obtain ⟨hstores, e, he, hvalid, hknown⟩ := hreaches
  have hordered : Ordered (g.store fact.node.id (addVersion fact (g.versions fact.node.id))) := by
    obtain ⟨-, hnot⟩ | ⟨-, hstored⟩ := upsert_cases float fact g
    · exact absurd hstores hnot
    · exact hstored ▸ h.upsert float fact
  have hself : fact.closedBy e = e := closedBy_eq_self (contains_iff.mp hknown).1
  have hversions : (g.store fact.node.id (addVersion fact (g.versions fact.node.id))).versions
      fact.node.id = addVersion fact (g.versions fact.node.id) := by
    rw [versions_store, if_pos rfl]
  have hstart := (h.known fact.node.id e he).contains_start
  intro honce
  obtain ⟨f, hone, -⟩ := honce fact.node.id fact.valid fact.valid.startMs e.known.startMs
    hstores.proper.1.contains_start
    ⟨e, by rw [hversions]; exact mem_addVersion.mpr (.inl ⟨e, he, hself⟩), hvalid, hstart⟩
  rw [filter_nodesAt hordered, hversions] at hone
  have hlength := ((addVersion_perm fact (g.versions fact.node.id)).filter
    fun e' => e'.visible fact.valid.startMs e.known.startMs ∧ e'.valid = fact.valid).length_eq
  rw [hone, List.filter_append, List.length_append] at hlength
  have hsecond : [fact].filter (fun e' => e'.visible fact.valid.startMs e.known.startMs ∧
      e'.valid = fact.valid) = [fact] := by
    simp [NodeFact.visible, hstores.proper.1.contains_start, hknown]
  have hfirst : e ∈ ((g.versions fact.node.id).map fact.closedBy).filter
      fun e' => e'.visible fact.valid.startMs e.known.startMs ∧ e'.valid = fact.valid := by
    refine List.mem_filter.mpr ⟨List.mem_map.mpr ⟨e, he, hself⟩, ?_⟩
    simp [NodeFact.visible, hvalid, hstores.proper.1.contains_start, hstart]
  have hpos := List.length_pos_of_mem hfirst
  rw [hsecond] at hlength
  simp only [List.length_singleton] at hlength
  omega

/-- **Exactly the calls that reach a later fact** leave two facts known at a time. -/
theorem knownOnce_upsert_iff (h : Ordered g) (hapart : ∀ id, (g.versions id).Pairwise Apart) :
    (upsert float fact g).KnownOnce ↔ ¬Reaches float fact g := by
  obtain ⟨hsame, hnot⟩ | ⟨hstores, hstored⟩ := upsert_cases float fact g
  · rw [hsame]
    exact iff_of_true (knownOnce_of_apart h hapart) fun hreaches => hnot hreaches.1
  · rw [hstored]
    constructor
    · exact fun honce hreaches => not_knownOnce_store h hreaches honce
    · intro hkeeps
      exact knownOnce_of_apart (hstored ▸ h.upsert float fact) (apart_store hapart hstores hkeeps)

-- Earlier times of knowledge

/-- **A fact that is known later** changes no earlier answer. -/
theorem nodesAt_upsert (h : Ordered g) (float : FloatArith) (hk : k < fact.known.startMs) (v : Int) :
    ((upsert float fact g).nodesAt v k).map NodeFact.statement =
      (g.nodesAt v k).map NodeFact.statement := by
  obtain ⟨hsame, -⟩ | ⟨-, hstored⟩ := upsert_cases float fact g
  · rw [hsame]
  rw [hstored, nodesAt, nodesAt, List.map_flatMap, List.map_flatMap]
  refine MapFilter.flatMap_values_congr fun id => ?_
  have hversions : ∀ g' : ContextGraph, (g'.nodeFacts[id]?).elim []
      (fun l => (l.filter (NodeFact.visible v k)).map NodeFact.statement) =
      ((g'.versions id).filter (NodeFact.visible v k)).map NodeFact.statement := by
    intro g'
    rw [versions]
    cases g'.nodeFacts[id]? <;> rfl
  rw [hversions, hversions, versions_store]
  split
  · next heq =>
    subst heq
    have hvisible : ∀ e : NodeFact, (fact.closedBy e).visible v k = e.visible v k := fun e => by
      rw [NodeFact.visible, NodeFact.visible, closedBy_valid, contains_closedBy hk]
    have hlist : ((g.versions fact.node.id).map fact.closedBy ++ [fact]).filter
        (NodeFact.visible v k) =
        ((g.versions fact.node.id).filter (NodeFact.visible v k)).map fact.closedBy := by
      have hhidden : fact.visible v k = false := by
        have hunknown : fact.known.contains k = false := by
          rw [Bool.eq_false_iff]
          exact fun hcontains => absurd (contains_iff.mp hcontains).1 (by omega)
        rw [NodeFact.visible, hunknown, Bool.and_false]
      rw [List.filter_append, List.filter_map, List.filter_singleton, hhidden]
      simp [Function.comp_def, hvisible]
    have hsorted : (((g.versions fact.node.id).map fact.closedBy ++ [fact]).filter
        (NodeFact.visible v k)).Pairwise NodeFact.before := by
      rw [hlist, List.pairwise_map]
      refine ((h.sorted _).filter _).imp fun hef => ?_
      rwa [NodeFact.before, closedBy_start, closedBy_start, closedBy_valid, closedBy_valid]
    rw [addVersion, filter_insertionSort hsorted, hlist, List.map_map]
    exact List.map_congr_left fun e _ => closedBy_statement
  · rfl

end ContextGraph

/-- **Exactly the runs in which no fact reaches a later one** keep, at every point, one fact known
at every time; and no call of any run changes an answer about a time before its fact is known. -/
theorem bitemporal_along_iff (float : FloatArith) (facts : List NodeFact) :
    ((∀ g ∈ Runs.states (ContextGraph.upsert float) ContextGraph.new facts, g.KnownOnce) ∧
        ∀ c ∈ Runs.calls (ContextGraph.upsert float) ContextGraph.new facts,
          ∀ v k, k < c.2.known.startMs →
            ((ContextGraph.upsert float c.2 c.1).nodesAt v k).map NodeFact.statement =
              (c.1.nodesAt v k).map NodeFact.statement) ↔
      ∀ c ∈ Runs.calls (ContextGraph.upsert float) ContextGraph.new facts,
        ¬ContextGraph.Reaches float c.2 c.1 := by
  have hnone : ∀ id, ContextGraph.new.versions id = [] := fun id => by
    rw [ContextGraph.versions, ContextGraph.new, Std.TreeMap.getElem?_emptyc]
    rfl
  have hapart : ∀ id, (ContextGraph.new.versions id).Pairwise ContextGraph.Apart := fun id => by
    rw [hnone id]
    exact .nil
  have hcalls : ∀ c ∈ Runs.calls (ContextGraph.upsert float) ContextGraph.new facts,
      True ∧ c.1.Ordered :=
    Runs.calls_of_step (A := fun _ => True) (I := ContextGraph.Ordered) (G := fun _ _ => True)
      (fun fact g _ h _ => h.upsert float fact) ContextGraph.ordered_new (fun _ _ => trivial)
      fun _ _ => trivial
  rw [and_iff_left fun c hc v k hk =>
    ContextGraph.nodesAt_upsert (hcalls c hc).2 float hk v]
  refine Runs.states_iff_of_inv (A := fun _ => True)
    (I := fun g => g.Ordered ∧ ∀ id, (g.versions id).Pairwise ContextGraph.Apart) ?_ ?_
    ⟨ContextGraph.ordered_new, hapart⟩ (ContextGraph.knownOnce_of_apart ContextGraph.ordered_new hapart)
    fun _ _ => trivial
  · rintro fact g - ⟨h, hapart⟩ hkeeps
    refine ⟨h.upsert float fact, ?_⟩
    obtain ⟨hsame, -⟩ | ⟨hstores, hstored⟩ := ContextGraph.upsert_cases float fact g
    · rw [hsame]
      exact hapart
    · rw [hstored]
      exact ContextGraph.apart_store hapart hstores hkeeps
  · rintro fact g - ⟨h, hapart⟩
    exact ContextGraph.knownOnce_upsert_iff h hapart

namespace Sample

/-- A fact that is true at all times, known from a time on. -/
def knownFrom (startMs : Int) : NodeFact where
  node := ⟨"n", .instrument, "N"⟩
  valid := ⟨0, none⟩
  known := ⟨startMs, none⟩
  provenance := ⟨"s", "a", ⟨0⟩⟩

end Sample

/-- A fact known from 5 on, added after the one known from 10 on, is known together with it. -/
theorem bitemporal_along_late : ¬∀ (float : FloatArith) (facts : List NodeFact),
    (∀ g ∈ Runs.states (ContextGraph.upsert float) ContextGraph.new facts, g.KnownOnce) ∧
      ∀ c ∈ Runs.calls (ContextGraph.upsert float) ContextGraph.new facts,
        ∀ v k, k < c.2.known.startMs →
          ((ContextGraph.upsert float c.2 c.1).nodesAt v k).map NodeFact.statement =
            (c.1.nodesAt v k).map NodeFact.statement := by
  intro hall
  have hmem : ContextGraph.upsert Sample.float (Sample.knownFrom 5)
      (ContextGraph.upsert Sample.float (Sample.knownFrom 10) ContextGraph.new) ∈
      Runs.states (ContextGraph.upsert Sample.float) ContextGraph.new
        [Sample.knownFrom 10, Sample.knownFrom 5] :=
    .tail _ (.tail _ (.head _))
  obtain ⟨f, hone, -⟩ := (hall _ _).1 _ hmem "n" ⟨0, none⟩ 0 10 rfl
    ⟨Sample.knownFrom 10, by decide, rfl, rfl⟩
  have htwo := congrArg List.length hone
  revert htwo
  rw [List.length_singleton]
  decide

end InsiderTrader
