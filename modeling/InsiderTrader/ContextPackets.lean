import InsiderTrader.Library.Runs
import InsiderTrader.Llm
import Mathlib.Data.List.Sort
import Mathlib.Data.Prod.Lex
import Mathlib.Data.String.Basic

/-!
# Context packets

A context packet takes entries under three budgets and discloses every entry it
leaves out. The entries are sorted by kind and object id first, so that the
packet is meant to depend on the set of entries only. Entries that share both
keep the order in which they came.

## Main definitions

- `ContextPacketBuilder.verdict` — why an entry is left out of the packet so far
- `ContextPacketBuilder.build` — the packet of some entries
- `ContextPacketBuilder.Sound` — what a packet says about the entries
- `ContextPacketBuilder.Alike` — an entry that the packet so far cannot tell from another

## Main results

- `ContextPacketBuilder.packet_determined` — when the packet depends on the set of entries only
-/

namespace Runs

/-- A call of a run is made after a part of it. -/
theorem exists_of_mem_calls {σ α : Type} {step : α → σ → σ} {s : σ} {run : List α} {c : σ × α}
    (hc : c ∈ calls step s run) :
    ∃ before after, run = before ++ c.2 :: after ∧ final step s before = c.1 := by
  induction run generalizing s with
  | nil => cases hc
  | cons a run ih =>
    rcases List.mem_cons.mp hc with rfl | hc
    · exact ⟨[], run, rfl, rfl⟩
    · obtain ⟨before, after, rfl, hbefore⟩ := ih hc
      exact ⟨a :: before, after, rfl, hbefore⟩

end Runs

namespace InsiderTrader

/-- One immutable object supplied to a context packet. -/
structure ContextEntry where
  objectId : String
  kind : String
  generatedAt : MonoTime
  expiresAt : MonoTime
  payload : List UInt8
  deriving DecidableEq

/-- Why an input was not included in a context packet. -/
inductive ContextOmissionReason where
  | invalidIdentity
  | duplicate
  | stale
  | entryTooLarge
  | byteBudget
  | tokenBudget
  | entryBudget
  deriving DecidableEq

/-- Explicit disclosure for data omitted from a context packet. -/
structure ContextOmission where
  objectId : String
  kind : String
  reason : ContextOmissionReason
  deriving DecidableEq

/-- Bounded, auditable context handed to an intelligence-plane consumer. -/
structure ContextPacket where
  asOf : MonoTime
  entries : List ContextEntry
  omitted : List ContextOmission
  totalBytes : ℕ
  estimatedTokens : ℕ
  deriving DecidableEq

/-- Limits used when constructing a context packet. -/
structure ContextBudget where
  maxEntries : ℕ
  maxBytes : ℕ
  maxTokens : ℕ

namespace ContextBudget

/-- All budgets are non-zero. -/
def Valid (budget : ContextBudget) : Prop :=
  ¬(budget.maxEntries = 0 ∨ budget.maxBytes = 0 ∨ budget.maxTokens = 0)

instance : DecidablePred Valid := fun _ => inferInstanceAs (Decidable (¬_))

def validate (budget : ContextBudget) : Except LlmError Unit :=
  if budget.Valid then .ok () else .error (.invalidAction "context budget must be non-zero")

end ContextBudget

/-- Deterministic context-packet assembler. -/
structure ContextPacketBuilder where
  budget : ContextBudget
  valid : budget.Valid

/-- The packet while its entries are gone through, with the object ids that have been met. The
totals are of type `usize`. -/
structure Assembly where
  included : List ContextEntry
  omitted : List ContextOmission
  seen : List String
  totalBytes : ℕ
  estimatedTokens : ℕ
  deriving DecidableEq

namespace ContextPacketBuilder

/-- A builder with finite packet limits. -/
def new (budget : ContextBudget) : Except LlmError ContextPacketBuilder :=
  if h : budget.Valid then .ok ⟨budget, h⟩
  else .error (.invalidAction "context budget must be non-zero")

/-- The addition of `usize`, which stops at its maximum. -/
def saturatingAdd (x y : ℕ) : ℕ := min (x + y) (2 ^ 64 - 1)

/-- The object id or the kind is blank. -/
def Blank (entry : ContextEntry) : Prop :=
  Text.isBlank entry.objectId = true ∨ Text.isBlank entry.kind = true

instance : DecidablePred Blank := fun _ => inferInstanceAs (Decidable (_ ∨ _))

/-- An entry that has expired, or never was valid. -/
def Stale (asOf : MonoTime) (entry : ContextEntry) : Prop :=
  entry.expiresAt ≤ entry.generatedAt ∨ entry.expiresAt ≤ asOf

instance (asOf : MonoTime) : DecidablePred (Stale asOf) :=
  fun _ => inferInstanceAs (Decidable (_ ∨ _))

/-- The estimated tokens of an entry. -/
def tokens (entry : ContextEntry) : ℕ := saturatingAdd entry.payload.length 3 / 4

/-- Why an entry is left out; nothing for an entry that is included. -/
def verdict (b : ContextPacketBuilder) (asOf : MonoTime) (s : Assembly) (entry : ContextEntry) :
    Option ContextOmissionReason :=
  if Blank entry then some .invalidIdentity
  else if entry.objectId ∈ s.seen then some .duplicate
  else if Stale asOf entry then some .stale
  else if b.budget.maxEntries ≤ s.included.length then some .entryBudget
  else if b.budget.maxBytes < entry.payload.length then some .entryTooLarge
  else if b.budget.maxBytes < saturatingAdd s.totalBytes entry.payload.length then some .byteBudget
  else if b.budget.maxTokens < saturatingAdd s.estimatedTokens (tokens entry) then some .tokenBudget
  else none

/-- The object ids that have been met: an entry with an identity is met before it is judged. -/
def note (s : Assembly) (entry : ContextEntry) : List String :=
  if Blank entry ∨ entry.objectId ∈ s.seen then s.seen else entry.objectId :: s.seen

/-- Go on with one entry. -/
def consider (b : ContextPacketBuilder) (asOf : MonoTime) (entry : ContextEntry) (s : Assembly) :
    Assembly :=
  match b.verdict asOf s entry with
  | some reason =>
    { s with
      seen := note s entry
      omitted := s.omitted ++ [⟨entry.objectId, entry.kind, reason⟩] }
  | none =>
    { s with
      seen := note s entry
      included := s.included ++ [entry]
      totalBytes := saturatingAdd s.totalBytes entry.payload.length
      estimatedTokens := saturatingAdd s.estimatedTokens (tokens entry) }

/-- What the entries are sorted by. -/
def sortKey (entry : ContextEntry) : String ×ₗ String := toLex (entry.kind, entry.objectId)

/-- The entries by kind and object id; equal ones keep their order. -/
def sorted (entries : List ContextEntry) : List ContextEntry :=
  entries.mergeSort fun left right => sortKey left ≤ sortKey right

def start : Assembly := ⟨[], [], [], 0, 0⟩

/-- The state after all entries. -/
def assemble (b : ContextPacketBuilder) (asOf : MonoTime) (entries : List ContextEntry) : Assembly :=
  Runs.final (b.consider asOf) start (sorted entries)

/-- A bounded packet, with every omitted object reported. -/
def build (b : ContextPacketBuilder) (asOf : MonoTime) (entries : List ContextEntry) :
    Except LlmError ContextPacket := do
  b.budget.validate
  let s := b.assemble asOf entries
  pure ⟨asOf, s.included, s.omitted, s.totalBytes, s.estimatedTokens⟩

/-- What a packet says about the entries it is made of. -/
structure Sound (b : ContextPacketBuilder) (asOf : MonoTime) (entries : List ContextEntry)
    (packet : ContextPacket) : Prop where
  bytes : packet.totalBytes = (packet.entries.map (·.payload.length)).sum
  tokens : packet.estimatedTokens = (packet.entries.map tokens).sum
  entriesWithin : packet.entries.length ≤ b.budget.maxEntries
  bytesWithin : packet.totalBytes ≤ b.budget.maxBytes
  tokensWithin : packet.estimatedTokens ≤ b.budget.maxTokens
  once : (packet.entries.map (·.objectId)).Nodup
  fresh : ∀ e ∈ packet.entries, ¬Stale asOf e
  accounted : ∃ rest, (packet.entries ++ rest).Perm entries ∧
    packet.omitted.map (fun o => (o.objectId, o.kind)) = rest.map (fun e => (e.objectId, e.kind))

/-- The packet so far cannot tell the entry from another: both are left out for the same reason,
or the same entry is included. -/
def Alike (b : ContextPacketBuilder) (asOf : MonoTime) (s : Assembly) (entry other : ContextEntry) :
    Prop :=
  b.verdict asOf s other = b.verdict asOf s entry ∧
    (b.verdict asOf s entry = none → other = entry)

instance (b : ContextPacketBuilder) (asOf : MonoTime) (s : Assembly) (entry other : ContextEntry) :
    Decidable (b.Alike asOf s entry other) :=
  inferInstanceAs (Decidable (_ ∧ _))

/-- Where entries share their kind and object id, the packet cannot tell them apart when it comes
to the first of them. -/
def Settled (b : ContextPacketBuilder) (asOf : MonoTime) (entries : List ContextEntry) : Prop :=
  ∀ c ∈ Runs.calls (b.consider asOf) start (sorted entries), ∀ other ∈ entries,
    sortKey other = sortKey c.2 → b.Alike asOf c.1 c.2 other

/-- The payloads are in memory at once, so that their sizes add up to a `usize`. -/
def Addressable (entries : List ContextEntry) : Prop :=
  (entries.map (·.payload.length)).sum < 2 ^ 64

instance : DecidablePred Addressable := fun _ => inferInstanceAs (Decidable (_ < _))

section Assembly

variable {b : ContextPacketBuilder} {asOf : MonoTime} {s : Assembly} {entry other : ContextEntry}
  {entries : List ContextEntry}

theorem sorted_perm (entries : List ContextEntry) : (sorted entries).Perm entries :=
  List.mergeSort_perm _ _

theorem sorted_pairwise (entries : List ContextEntry) :
    (sorted entries).Pairwise fun left right => sortKey left ≤ sortKey right := by
  refine (List.pairwise_mergeSort (fun left middle right h h' => ?_) (fun left right => ?_)
    entries).imp of_decide_eq_true
  · exact decide_eq_true (le_trans (of_decide_eq_true h) (of_decide_eq_true h'))
  · rw [Bool.or_eq_true, decide_eq_true_eq, decide_eq_true_eq]
    exact le_total _ _

theorem sorted_of_pairwise
    (h : entries.Pairwise fun left right => sortKey left ≤ sortKey right) :
    sorted entries = entries :=
  List.mergeSort_of_pairwise (h.imp decide_eq_true)

theorem build_eq (b : ContextPacketBuilder) (asOf : MonoTime) (entries : List ContextEntry) :
    b.build asOf entries = .ok ⟨asOf, (b.assemble asOf entries).included,
      (b.assemble asOf entries).omitted, (b.assemble asOf entries).totalBytes,
      (b.assemble asOf entries).estimatedTokens⟩ := by
  rw [build, ContextBudget.validate, if_pos b.valid]
  rfl

/-- The keys of sorted entries depend on the set of entries only. -/
theorem sortKeys_eq {others : List ContextEntry} (h : others.Perm entries) :
    (sorted others).map sortKey = (sorted entries).map sortKey := by
  have hperm : ((sorted others).map sortKey).Perm ((sorted entries).map sortKey) :=
    ((sorted_perm others).trans (h.trans (sorted_perm entries).symm)).map sortKey
  have hkeys : ∀ es : List ContextEntry, ((sorted es).map sortKey).Pairwise (· ≤ ·) :=
    fun es => List.pairwise_map.mpr (sorted_pairwise es)
  exact hperm.eq_of_pairwise (fun _ _ _ _ => le_antisymm) (hkeys others) (hkeys entries)

theorem sortKey_eq_iff : sortKey other = sortKey entry ↔
    other.kind = entry.kind ∧ other.objectId = entry.objectId := by
  rw [sortKey, sortKey, toLex_inj, Prod.mk.injEq]

/-- Entries that the packet so far cannot tell apart have the same effect. -/
theorem consider_congr (hkey : sortKey other = sortKey entry) (h : b.Alike asOf s entry other) :
    b.consider asOf other s = b.consider asOf entry s := by
  obtain ⟨hverdict, hsame⟩ := h
  obtain ⟨hkind, hid⟩ := sortKey_eq_iff.mp hkey
  have hnote : note s other = note s entry := by
    have hblank : Blank other ↔ Blank entry := by rw [Blank, Blank, hkind, hid]
    simp only [note, hblank, hid]
  cases hentry : b.verdict asOf s entry with
  | none => rw [hsame hentry]
  | some reason =>
    rw [consider, consider, hverdict, hentry]
    dsimp only
    rw [hnote, hkind, hid]

/-- **Entries with the same keys** lead to the same state, where the packet cannot tell them
apart. -/
theorem final_congr {run others : List ContextEntry} (hkeys : others.map sortKey = run.map sortKey)
    (hothers : ∀ e ∈ others, e ∈ entries)
    (halike : ∀ c ∈ Runs.calls (b.consider asOf) s run, ∀ other ∈ entries,
      sortKey other = sortKey c.2 → b.Alike asOf c.1 c.2 other) :
    Runs.final (b.consider asOf) s others = Runs.final (b.consider asOf) s run := by
  induction run generalizing others s with
  | nil => rw [List.map_eq_nil_iff.mp hkeys]
  | cons entry run ih =>
    obtain ⟨other, others, rfl, hkey, hkeys⟩ := List.map_eq_cons_iff.mp hkeys
    obtain ⟨hother, hothers⟩ := List.forall_mem_cons.mp hothers
    obtain ⟨hfirst, hrest⟩ := List.forall_mem_cons.mp halike
    rw [Runs.final_cons, Runs.final_cons, consider_congr hkey (hfirst other hother hkey)]
    exact ih hkeys hothers hrest

theorem assemble_of_settled {others : List ContextEntry} (h : b.Settled asOf entries)
    (hperm : others.Perm entries) : b.assemble asOf others = b.assemble asOf entries :=
  final_congr (sortKeys_eq hperm) (fun _ he => hperm.subset ((sorted_perm others).subset he)) h

-- What the packet shows of the entries of one key

/-- The included entries of a key. -/
def includedOf (key : String ×ₗ String) (s : Assembly) : List ContextEntry :=
  s.included.filter fun e => sortKey e = key

/-- The omissions of a key. -/
def omittedOf (key : String ×ₗ String) (s : Assembly) : List ContextOmission :=
  s.omitted.filter fun o => toLex (o.kind, o.objectId) = key

/-- An entry shows among the entries of its own key. -/
theorem shown_consider (b : ContextPacketBuilder) (asOf : MonoTime) (entry : ContextEntry)
    (s : Assembly) (key : String ×ₗ String) :
    includedOf key (b.consider asOf entry s) = includedOf key s ++
        (if sortKey entry = key ∧ b.verdict asOf s entry = none then [entry] else []) ∧
      omittedOf key (b.consider asOf entry s) = omittedOf key s ++
        (if sortKey entry = key then
          (b.verdict asOf s entry).toList.map fun r => ⟨entry.objectId, entry.kind, r⟩ else []) := by
  rw [consider]
  cases b.verdict asOf s entry with
  | none => by_cases hkey : sortKey entry = key <;> simp [includedOf, omittedOf, hkey]
  | some reason =>
    by_cases hkey : sortKey entry = key
    · have hlex : toLex (entry.kind, entry.objectId) = key := hkey
      simp [includedOf, omittedOf, hkey, hlex]
    · have hlex : toLex (entry.kind, entry.objectId) ≠ key := hkey
      simp [includedOf, omittedOf, hkey, hlex]

/-- An object id that has been met stays met. -/
theorem seen_consider (b : ContextPacketBuilder) (asOf : MonoTime) (entry : ContextEntry)
    {id : String} (h : id ∈ s.seen) : id ∈ (b.consider asOf entry s).seen := by
  have hnote : id ∈ note s entry := by
    rw [note]
    split
    · exact h
    · exact List.mem_cons_of_mem _ h
  rw [consider]
  cases b.verdict asOf s entry <;> exact hnote

/-- An entry that is not blank is met when it has been considered. -/
theorem mem_seen_consider (b : ContextPacketBuilder) (asOf : MonoTime) (s : Assembly)
    (h : ¬Blank entry) : entry.objectId ∈ (b.consider asOf entry s).seen := by
  have hnote : entry.objectId ∈ note s entry := by
    rw [note]
    split
    · next hmet => exact hmet.resolve_left h
    · exact List.mem_cons_self
  rw [consider]
  cases b.verdict asOf s entry <;> exact hnote

/-- **Once an object id is met**, its entries are left out as duplicates. -/
theorem shown_final (b : ContextPacketBuilder) (asOf : MonoTime) (run : List ContextEntry)
    (hvalid : ¬Blank entry) (h : entry.objectId ∈ s.seen) :
    includedOf (sortKey entry) (Runs.final (b.consider asOf) s run) =
        includedOf (sortKey entry) s ∧
      omittedOf (sortKey entry) (Runs.final (b.consider asOf) s run) =
        omittedOf (sortKey entry) s ++
          List.replicate (run.countP fun e => sortKey e = sortKey entry)
            ⟨entry.objectId, entry.kind, .duplicate⟩ := by
  induction run generalizing s with
  | nil => simp
  | cons other run ih =>
    obtain ⟨hincluded, homitted⟩ := ih (seen_consider b asOf other h)
    obtain ⟨hincluded', homitted'⟩ := shown_consider b asOf other s (sortKey entry)
    rw [Runs.final_cons, hincluded, homitted, hincluded', homitted']
    by_cases hkey : sortKey other = sortKey entry
    · obtain ⟨hkind, hid⟩ := sortKey_eq_iff.mp hkey
      have hblank : ¬Blank other := by rwa [Blank, hkind, hid]
      have hverdict : b.verdict asOf s other = some .duplicate := by
        rw [verdict, if_neg hblank, hid, if_pos h]
      simp [hkey, hverdict, hkind, hid, List.replicate_succ]
    · simp [hkey]

/-- What an entry and those after it show of its key, when it is the first to be met. -/
theorem shown_first (b : ContextPacketBuilder) (asOf : MonoTime) (s : Assembly)
    (run : List ContextEntry) (hvalid : ¬Blank entry) :
    includedOf (sortKey entry) (Runs.final (b.consider asOf) s (entry :: run)) =
        includedOf (sortKey entry) s ++ (if b.verdict asOf s entry = none then [entry] else []) ∧
      omittedOf (sortKey entry) (Runs.final (b.consider asOf) s (entry :: run)) =
        omittedOf (sortKey entry) s ++
          ((b.verdict asOf s entry).toList.map fun r => ⟨entry.objectId, entry.kind, r⟩) ++
          List.replicate (run.countP fun e => sortKey e = sortKey entry)
            ⟨entry.objectId, entry.kind, .duplicate⟩ := by
  obtain ⟨hincluded, homitted⟩ := shown_final b asOf run hvalid
    (mem_seen_consider b asOf s hvalid)
  obtain ⟨hincluded', homitted'⟩ := shown_consider b asOf entry s (sortKey entry)
  rw [Runs.final_cons, hincluded, homitted, hincluded', homitted']
  simp

/-- The object ids of the entries of a run have been met at its end. -/
theorem mem_seen_final {run : List ContextEntry} (hentry : entry ∈ run) (hvalid : ¬Blank entry) :
    entry.objectId ∈ (Runs.final (b.consider asOf) s run).seen := by
  obtain ⟨before, after, rfl⟩ := List.append_of_mem hentry
  rw [Runs.final_append, Runs.final_cons]
  exact Runs.final_of_step (A := fun _ => True) (I := fun s : Assembly => entry.objectId ∈ s.seen)
    (fun other _ _ h => seen_consider b asOf other h) (mem_seen_consider b asOf _ hvalid)
    fun _ _ => trivial

/-- An entry that is blank, or whose object id has been met, is left out as any other of its key. -/
theorem alike_of_met (hkey : sortKey other = sortKey entry)
    (h : Blank entry ∨ entry.objectId ∈ s.seen) : b.Alike asOf s entry other := by
  obtain ⟨hkind, hid⟩ := sortKey_eq_iff.mp hkey
  have hblank : Blank other ↔ Blank entry := by rw [Blank, Blank, hkind, hid]
  by_cases hvalid : Blank entry
  · rw [Alike, verdict, verdict, if_pos hvalid, if_pos (hblank.mpr hvalid)]
    simp
  · have hmet := h.resolve_left hvalid
    rw [Alike, verdict, verdict, if_neg hvalid, if_neg (hblank.not.mpr hvalid), hid, if_pos hmet,
      if_pos hmet]
    simp

/-- What two packets show of a key tells the entries apart that were met first. -/
theorem alike_of_shown {run others : List ContextEntry} (hkey : sortKey other = sortKey entry)
    (hvalid : ¬Blank entry)
    (hincluded : (Runs.final (b.consider asOf) s (other :: others)).included =
      (Runs.final (b.consider asOf) s (entry :: run)).included)
    (homitted : (Runs.final (b.consider asOf) s (other :: others)).omitted =
      (Runs.final (b.consider asOf) s (entry :: run)).omitted) :
    b.Alike asOf s entry other := by
  obtain ⟨hkind, hid⟩ := sortKey_eq_iff.mp hkey
  have hvalid' : ¬Blank other := by rwa [Blank, hkind, hid]
  obtain ⟨hfirst, hleft⟩ := shown_first b asOf s run hvalid
  obtain ⟨hfirst', hleft'⟩ := shown_first b asOf s others hvalid'
  rw [hkey, includedOf, hincluded, ← includedOf, hfirst, List.append_cancel_left_eq] at hfirst'
  rw [hkey, omittedOf, homitted, ← omittedOf, hleft, List.append_assoc, List.append_assoc,
    List.append_cancel_left_eq, hkind, hid] at hleft'
  cases hentry : b.verdict asOf s entry with
  | none =>
    rw [if_pos hentry] at hfirst'
    cases hother : b.verdict asOf s other with
    | none =>
      rw [if_pos hother] at hfirst'
      exact ⟨hother.trans hentry.symm, fun _ => (List.singleton_inj.mp hfirst').symm⟩
    | some reason => simp [hother] at hfirst'
  | some reason =>
    cases hother : b.verdict asOf s other with
    | none => simp [hentry, hother] at hfirst'
    | some reason' =>
      rw [hentry, hother] at hleft'
      have hreason : reason = reason' := by simpa using (List.cons.inj hleft').1
      refine ⟨?_, fun hnone => ?_⟩
      · rw [hother, hentry, hreason]
      · rw [hentry] at hnone
        cases hnone

/-- **A packet that depends on the set of entries only** cannot tell apart the entries of a key when
it comes to the first. -/
theorem settled_of_perm
    (h : ∀ others, others.Perm entries → b.build asOf others = b.build asOf entries) :
    b.Settled asOf entries := by
  intro c hc other hother hkey
  obtain ⟨before, after, hrun, hbefore⟩ := Runs.exists_of_mem_calls hc
  by_cases hmet : Blank c.2 ∨ c.2.objectId ∈ c.1.seen
  · exact alike_of_met hkey hmet
  obtain ⟨hvalid, hunseen⟩ := not_or.mp hmet
  obtain ⟨hkind, hid⟩ := sortKey_eq_iff.mp hkey
  have hvalid' : ¬Blank other := by rwa [Blank, hkind, hid]
  have hmem : other ∈ before ++ c.2 :: after := hrun ▸ (sorted_perm entries).mem_iff.mpr hother
  rcases List.mem_append.mp hmem with hearlier | hlater
  · refine absurd ?_ hunseen
    rw [← hid, ← hbefore]
    exact mem_seen_final hearlier hvalid'
  rcases List.mem_cons.mp hlater with rfl | hafter
  · exact ⟨rfl, fun _ => rfl⟩
  -- the same entries, with the other one before the first
  have hsorted := sorted_pairwise entries
  rw [hrun] at hsorted
  have hperm : (before ++ other :: c.2 :: after.erase other).Perm entries := by
    have hafter' : (other :: c.2 :: after.erase other).Perm (c.2 :: after) :=
      (List.Perm.swap _ _ _).trans ((List.perm_cons_erase hafter).symm.cons c.2)
    exact (hafter'.append_left before).trans (hrun ▸ sorted_perm entries)
  have hmoved : sorted (before ++ other :: c.2 :: after.erase other) =
      before ++ other :: c.2 :: after.erase other := by
    obtain ⟨hbeforeSorted, hrest, hcross⟩ := List.pairwise_append.mp hsorted
    obtain ⟨hfirst, hafterSorted⟩ := List.pairwise_cons.mp hrest
    have herase : ∀ e ∈ after.erase other, sortKey c.2 ≤ sortKey e :=
      fun e he => hfirst e (List.mem_of_mem_erase he)
    refine sorted_of_pairwise (List.pairwise_append.mpr ⟨hbeforeSorted, ?_, fun e he x hx => ?_⟩)
    · refine List.pairwise_cons.mpr ⟨List.forall_mem_cons.mpr ⟨hkey.le, ?_⟩,
        List.pairwise_cons.mpr ⟨herase, hafterSorted.sublist List.erase_sublist⟩⟩
      exact hkey ▸ herase
    · rcases List.mem_cons.mp hx with rfl | hx
      · exact hcross e he _ (List.mem_cons_of_mem _ hafter)
      · exact hcross e he x (List.cons_subset_cons _ List.erase_subset hx)
  have hbuild := h _ hperm
  rw [build_eq, build_eq, assemble, assemble, hmoved, hrun, Runs.final_append, Runs.final_append,
    hbefore] at hbuild
  obtain ⟨-, hincluded, homitted, -⟩ := ContextPacket.mk.inj (Except.ok.inj hbuild)
  exact alike_of_shown hkey hvalid hincluded homitted

-- What every packet says

/-- What holds while the entries are gone through. -/
structure Consistent (b : ContextPacketBuilder) (asOf : MonoTime) (s : Assembly) : Prop where
  bytes : s.totalBytes = (s.included.map (·.payload.length)).sum
  tokens : s.estimatedTokens = (s.included.map tokens).sum
  entriesWithin : s.included.length ≤ b.budget.maxEntries
  bytesWithin : s.totalBytes ≤ b.budget.maxBytes
  tokensWithin : s.estimatedTokens ≤ b.budget.maxTokens
  once : (s.included.map (·.objectId)).Nodup
  met : ∀ e ∈ s.included, e.objectId ∈ s.seen
  fresh : ∀ e ∈ s.included, ¬Stale asOf e
  light : s.estimatedTokens ≤ s.totalBytes

/-- What an entry that is included has passed. -/
theorem verdict_eq_none (h : b.verdict asOf s entry = none) :
    ¬Blank entry ∧ entry.objectId ∉ s.seen ∧ ¬Stale asOf entry ∧
      s.included.length < b.budget.maxEntries ∧
      saturatingAdd s.totalBytes entry.payload.length ≤ b.budget.maxBytes ∧
      saturatingAdd s.estimatedTokens (ContextPacketBuilder.tokens entry) ≤ b.budget.maxTokens := by
  unfold verdict at h
  split_ifs at h
  refine ⟨‹_›, ‹_›, ‹_›, ?_, ?_, ?_⟩ <;> omega

theorem saturatingAdd_of_lt {x y : ℕ} (h : x + y < 2 ^ 64) : saturatingAdd x y = x + y :=
  Nat.min_eq_left (by omega)

/-- An entry has no more tokens than bytes. -/
theorem tokens_le (entry : ContextEntry) : tokens entry ≤ entry.payload.length := by
  rw [tokens, saturatingAdd]
  omega

/-- An object id that has been met stays met when an entry is noted. -/
theorem subset_note (s : Assembly) (entry : ContextEntry) : s.seen ⊆ note s entry := by
  rw [note]
  split
  · exact List.Subset.refl _
  · exact List.subset_cons_self _ _

theorem Consistent.consider (h : b.Consistent asOf s)
    (hfits : s.totalBytes + entry.payload.length < 2 ^ 64) :
    b.Consistent asOf (b.consider asOf entry s) := by
  rw [ContextPacketBuilder.consider]
  cases hverdict : b.verdict asOf s entry with
  | some reason => exact { h with met := fun e he => subset_note s entry (h.met e he) }
  | none =>
    obtain ⟨hvalid, hunseen, hfresh, hentries, hbytes, htokens⟩ := verdict_eq_none hverdict
    have hlight := tokens_le entry
    have hsum := h.light
    have hadd : saturatingAdd s.estimatedTokens (ContextPacketBuilder.tokens entry) =
        s.estimatedTokens + ContextPacketBuilder.tokens entry := saturatingAdd_of_lt (by omega)
    rw [saturatingAdd_of_lt hfits] at hbytes
    rw [hadd] at htokens
    dsimp only
    rw [saturatingAdd_of_lt hfits, hadd]
    have hlight' : s.estimatedTokens + ContextPacketBuilder.tokens entry ≤
        s.totalBytes + entry.payload.length := by omega
    have hnoted : entry.objectId ∈ note s entry := by
      rw [note, if_neg (not_or.mpr ⟨hvalid, hunseen⟩)]
      exact List.mem_cons_self
    refine ⟨?_, ?_, ?_, hbytes, htokens, ?_, ?_, ?_, hlight'⟩
    · simp [h.bytes]
    · simp [h.tokens]
    · rw [List.length_append]
      exact hentries
    · rw [List.map_append, List.nodup_append]
      refine ⟨h.once, List.nodup_singleton _, ?_⟩
      rintro _ hid _ hlast rfl
      obtain ⟨e, he, rfl⟩ := List.mem_map.mp hid
      have hsame : e.objectId = entry.objectId := List.mem_singleton.mp hlast
      exact hunseen (hsame ▸ h.met e he)
    · intro e he
      rcases List.mem_append.mp he with he | he
      · exact subset_note s entry (h.met e he)
      · rw [List.mem_singleton.mp he]
        exact hnoted
    · intro e he
      rcases List.mem_append.mp he with he | he
      · exact h.fresh e he
      · rw [List.mem_singleton.mp he]
        exact hfresh

/-- The bytes of the packet grow by no more than the entry. -/
theorem totalBytes_consider (b : ContextPacketBuilder) (asOf : MonoTime)
    (hfits : s.totalBytes + entry.payload.length < 2 ^ 64) :
    (b.consider asOf entry s).totalBytes ≤ s.totalBytes + entry.payload.length := by
  rw [consider]
  cases b.verdict asOf s entry with
  | none => exact (saturatingAdd_of_lt hfits).le
  | some reason => exact Nat.le_add_right _ _

theorem Consistent.final {run : List ContextEntry} (h : b.Consistent asOf s)
    (hfits : s.totalBytes + (run.map (·.payload.length)).sum < 2 ^ 64) :
    b.Consistent asOf (Runs.final (b.consider asOf) s run) := by
  induction run generalizing s with
  | nil => exact h
  | cons entry run ih =>
    rw [List.map_cons, List.sum_cons] at hfits
    have hentry : s.totalBytes + entry.payload.length < 2 ^ 64 := by omega
    have hgrown := totalBytes_consider b asOf hentry
    have hrest : (b.consider asOf entry s).totalBytes + (run.map (·.payload.length)).sum <
        2 ^ 64 := by omega
    exact ih (h.consider hentry) hrest

/-- Every entry of a run is included or reported. -/
theorem accounted_final (b : ContextPacketBuilder) (asOf : MonoTime) (s : Assembly)
    (run : List ContextEntry) : ∃ taken rest, (taken ++ rest).Perm run ∧
      (Runs.final (b.consider asOf) s run).included = s.included ++ taken ∧
      (Runs.final (b.consider asOf) s run).omitted.map (fun o => (o.objectId, o.kind)) =
        s.omitted.map (fun o => (o.objectId, o.kind)) ++
          rest.map fun e => (e.objectId, e.kind) := by
  induction run generalizing s with
  | nil => exact ⟨[], [], .refl _, by simp, by simp⟩
  | cons entry run ih =>
    obtain ⟨taken, rest, hperm, hincluded, homitted⟩ := ih (b.consider asOf entry s)
    rw [Runs.final_cons, hincluded, homitted, consider]
    cases b.verdict asOf s entry with
    | none =>
      exact ⟨entry :: taken, rest, hperm.cons entry, by simp, by simp⟩
    | some reason =>
      exact ⟨taken, entry :: rest, List.perm_middle.trans (hperm.cons entry), by simp, by simp⟩

theorem consistent_start (b : ContextPacketBuilder) (asOf : MonoTime) :
    b.Consistent asOf start :=
  ⟨rfl, rfl, Nat.zero_le _, Nat.zero_le _, Nat.zero_le _, List.nodup_nil,
    fun _ he => absurd he List.not_mem_nil, fun _ he => absurd he List.not_mem_nil, le_rfl⟩

/-- **What every packet says** of the entries it is made of. -/
theorem sound_build (b : ContextPacketBuilder) (asOf : MonoTime) (h : Addressable entries) :
    ∃ packet, b.build asOf entries = .ok packet ∧ b.Sound asOf entries packet := by
  have hsum : ((sorted entries).map (·.payload.length)).sum < 2 ^ 64 := by
    rw [((sorted_perm entries).map _).sum_nat]
    exact h
  have hfits : start.totalBytes + ((sorted entries).map (·.payload.length)).sum < 2 ^ 64 := by
    rwa [start, Nat.zero_add]
  have hfinal := (consistent_start b asOf).final hfits
  obtain ⟨taken, rest, hperm, hincluded, homitted⟩ := accounted_final b asOf start (sorted entries)
  refine ⟨_, build_eq b asOf entries, ⟨hfinal.bytes, hfinal.tokens, hfinal.entriesWithin,
    hfinal.bytesWithin, hfinal.tokensWithin, hfinal.once, hfinal.fresh, rest, ?_, homitted⟩⟩
  rw [assemble, hincluded]
  exact hperm.trans (sorted_perm entries)

end Assembly

/-- **When a packet depends on the set of entries only**: exactly when, at the first entry of each
kind and object id, the packet cannot tell it from the others that share both. What the packet
says of the entries it is made of holds always. -/
theorem packet_determined (b : ContextPacketBuilder) (asOf : MonoTime) (entries : List ContextEntry)
    (h : Addressable entries) :
    ((∀ others, others.Perm entries → b.build asOf others = b.build asOf entries) ↔
        b.Settled asOf entries) ∧
      ∃ packet, b.build asOf entries = .ok packet ∧ b.Sound asOf entries packet := by
  refine ⟨⟨settled_of_perm, fun hsettled others hperm => ?_⟩, sound_build b asOf h⟩
  rw [build_eq, build_eq, assemble_of_settled hsettled hperm]

namespace Sample

def builder : ContextPacketBuilder := ⟨⟨4, 64, 16⟩, by decide⟩

/-- A quote object with a payload. -/
def quote (objectId : String) (payload : List UInt8) : ContextEntry :=
  ⟨objectId, "quote", 1, 9, payload⟩

end Sample

/-- Two entries that share their kind only. -/
theorem packet_determined_two :
    ((∀ others, others.Perm [Sample.quote "b" [1], Sample.quote "a" [2]] →
        Sample.builder.build 5 others =
          Sample.builder.build 5 [Sample.quote "b" [1], Sample.quote "a" [2]]) ↔
        Sample.builder.Settled 5 [Sample.quote "b" [1], Sample.quote "a" [2]]) ∧
      ∃ packet, Sample.builder.build 5 [Sample.quote "b" [1], Sample.quote "a" [2]] = .ok packet ∧
        Sample.builder.Sound 5 [Sample.quote "b" [1], Sample.quote "a" [2]] packet :=
  packet_determined Sample.builder 5 _ (by decide)

/-- Two versions of one object: the packet includes the version that comes first. -/
theorem packet_of_versions :
    [Sample.quote "a" [2], Sample.quote "a" [1]].Perm [Sample.quote "a" [1], Sample.quote "a" [2]] ∧
      Sample.builder.build 5 [Sample.quote "a" [2], Sample.quote "a" [1]] ≠
        Sample.builder.build 5 [Sample.quote "a" [1], Sample.quote "a" [2]] := by
  refine ⟨by decide, fun h => ?_⟩
  rw [build_eq, build_eq, assemble, assemble, sorted_of_pairwise (by decide),
    sorted_of_pairwise (by decide)] at h
  have hincluded := (ContextPacket.mk.inj (Except.ok.inj h)).2.1
  exact absurd hincluded (by decide)

end ContextPacketBuilder

end InsiderTrader
