import Mathlib.Data.List.Perm.Subperm
import InsiderTrader.Risk

/-!
# Recovery of a scoped policy

A scoped policy is journaled as a snapshot of its revisions and restored from
it revision by revision. The setters keep every list of revisions valid and in
time order, but bound no number of them; the restoration does.

## Main definitions

- `PolicyCall` — one call of a setter
- `ScopedRiskPolicy.Reachable` — what successful setters make of a new policy
- `ScopedRiskPolicy.WithinBounds` — the numbers of revisions that a restoration admits

## Main results

- `ScopedRiskPolicy.Reachable.legal` — the revisions of a reachable policy
- `ScopedRiskPolicy.Legal.fromSnapshot_ok` — the restored policy
- `policy_recovered_iff` — the reachable policies that their snapshots restore
-/

namespace InsiderTrader

/-- A list of revisions in time order, one for each time, all of them valid. -/
structure RevisionsLegal (revisions : List TimedLimits) : Prop where
  sorted : revisions.Pairwise fun r r' => r.effectiveMonoNs < r'.effectiveMonoNs
  valid : ∀ r ∈ revisions, validateLimits r.limits = .ok ()

theorem revisionsLegal_nil : RevisionsLegal [] := ⟨.nil, by simp⟩

section Revisions

variable {revisions : List TimedLimits} {revision : TimedLimits}

theorem mem_insertRevision {r : TimedLimits} :
    r ∈ insertRevision revision revisions ↔ r = revision ∨ r ∈ revisions := by
  induction revisions with
  | nil => simp [insertRevision]
  | cons head tail ih =>
    unfold insertRevision
    split
    · rw [List.mem_cons]
    · rw [List.mem_cons, ih, List.mem_cons]
      tauto

/-- Inserting a revision of a new time keeps the order. -/
theorem insertRevision_sorted
    (h : revisions.Pairwise fun r r' => r.effectiveMonoNs < r'.effectiveMonoNs)
    (hnew : ∀ r ∈ revisions, r.effectiveMonoNs ≠ revision.effectiveMonoNs) :
    (insertRevision revision revisions).Pairwise
      fun r r' => r.effectiveMonoNs < r'.effectiveMonoNs := by
  induction revisions with
  | nil => simp [insertRevision]
  | cons head tail ih =>
    obtain ⟨hhead, htail⟩ := List.pairwise_cons.mp h
    obtain ⟨hne, hnew⟩ := List.forall_mem_cons.mp hnew
    unfold insertRevision
    split
    · next hlt =>
      refine List.pairwise_cons.mpr ⟨fun r hr => ?_, h⟩
      rcases List.mem_cons.mp hr with rfl | hr
      · exact hlt
      · exact lt_trans hlt (hhead r hr)
    · next hge =>
      refine List.pairwise_cons.mpr ⟨fun r hr => ?_, ih htail hnew⟩
      rcases mem_insertRevision.mp hr with rfl | hr
      · omega
      · exact hhead r hr

/-- **A setter keeps a list of revisions legal.** -/
theorem RevisionsLegal.upsert (h : RevisionsLegal revisions)
    (hvalid : validateLimits revision.limits = .ok ()) :
    RevisionsLegal (upsertRevision revisions revision) := by
  unfold upsertRevision
  split
  · constructor
    · refine List.pairwise_map.mpr (h.sorted.imp fun {r r'} hlt => ?_)
      -- a replaced revision has the time of the one it replaces
      have htime : ∀ r : TimedLimits, (if r.effectiveMonoNs = revision.effectiveMonoNs then revision
          else r).effectiveMonoNs = r.effectiveMonoNs := by
        intro r
        split
        · next heq => exact heq.symm
        · rfl
      rwa [htime, htime]
    · intro r hr
      obtain ⟨old, hold, rfl⟩ := List.mem_map.mp hr
      split
      · exact hvalid
      · exact h.valid old hold
  · next hnew =>
    constructor
    · refine insertRevision_sorted h.sorted fun r hr heq => hnew ?_
      exact List.any_eq_true.mpr ⟨r, hr, decide_eq_true heq⟩
    · intro r hr
      rcases mem_insertRevision.mp hr with rfl | hr
      · exact hvalid
      · exact h.valid r hr

theorem upsertRevision_ne_nil : upsertRevision revisions revision ≠ [] := by
  unfold upsertRevision
  split
  · next hany =>
    intro hnil
    rw [List.map_eq_nil_iff] at hnil
    rw [hnil] at hany
    cases hany
  · intro hnil
    have hmem := mem_insertRevision.mpr (.inl rfl : revision = revision ∨ revision ∈ revisions)
    rw [hnil] at hmem
    cases hmem

/-- A revision after all others goes to the end. -/
theorem upsertRevision_of_later
    (h : ∀ r ∈ revisions, r.effectiveMonoNs < revision.effectiveMonoNs) :
    upsertRevision revisions revision = revisions ++ [revision] := by
  have hnone : ¬revisions.any (·.effectiveMonoNs = revision.effectiveMonoNs) = true := by
    rw [List.any_eq_true]
    rintro ⟨r, hr, heq⟩
    have hlt := h r hr
    have heq := of_decide_eq_true heq
    omega
  rw [upsertRevision, if_neg hnone]
  clear hnone
  induction revisions with
  | nil => rfl
  | cons head tail ih =>
    obtain ⟨hhead, htail⟩ := List.forall_mem_cons.mp h
    rw [insertRevision, if_neg (by omega), ih htail]
    rfl

/-- **Installing revisions in time order** appends them. -/
theorem foldl_upsertRevision (rest : List TimedLimits)
    (h : (revisions ++ rest).Pairwise fun r r' => r.effectiveMonoNs < r'.effectiveMonoNs) :
    rest.foldl upsertRevision revisions = revisions ++ rest := by
  induction rest generalizing revisions with
  | nil => exact (List.append_nil _).symm
  | cons r rest ih =>
    have hlater : ∀ r' ∈ revisions, r'.effectiveMonoNs < r.effectiveMonoNs := fun r' hr' =>
      (List.pairwise_append.mp h).2.2 r' hr' r List.mem_cons_self
    rw [List.foldl_cons, upsertRevision_of_later hlater, ih, List.append_assoc,
      List.singleton_append]
    rwa [List.append_assoc, List.singleton_append]

end Revisions

-- Revisions by scope

section Scopes

variable {κ : Type} [Ord κ]

/-- Install a revision in one scope. -/
def upsertAt (m : Std.TreeMap κ (List TimedLimits)) (k : κ) (r : TimedLimits) :
    Std.TreeMap κ (List TimedLimits) :=
  m.insert k (upsertRevision ((m[k]?).getD []) r)

/-- The map that a restoration of scopes builds. -/
def restoreScopes (entries : List (κ × List TimedLimits)) (m : Std.TreeMap κ (List TimedLimits)) :
    Std.TreeMap κ (List TimedLimits) :=
  entries.foldl (fun m e => e.2.foldl (upsertAt · e.1) m) m

/-- Every scope has a legal list of revisions, which is not empty, and an admitted identity. -/
def ScopesLegal (admitted : κ → Prop) (m : Std.TreeMap κ (List TimedLimits)) : Prop :=
  ∀ k revisions, m[k]? = some revisions → RevisionsLegal revisions ∧ revisions ≠ [] ∧ admitted k

variable {admitted : κ → Prop} {m : Std.TreeMap κ (List TimedLimits)} {k : κ}

/-- **A loop of setters on one component**: on admitted scopes and valid revisions no setter is
refused, and together they restore the component. -/
theorem foldlM_set (set : ScopedRiskPolicy → κ → TimedLimits → Except PolicyError ScopedRiskPolicy)
    (get : ScopedRiskPolicy → Std.TreeMap κ (List TimedLimits))
    (put : ScopedRiskPolicy → Std.TreeMap κ (List TimedLimits) → ScopedRiskPolicy)
    (hset : ∀ p k r, admitted k → validateLimits r.limits = .ok () →
      set p k r = .ok (put p (upsertAt (get p) k r)))
    (hget : ∀ p m, get (put p m) = m) (hput : ∀ p m m', put (put p m) m' = put p m')
    (hself : ∀ p, put p (get p) = p) {entries : List (κ × List TimedLimits)}
    (hentries : ∀ e ∈ entries, admitted e.1 ∧ ∀ r ∈ e.2, validateLimits r.limits = .ok ())
    (p : ScopedRiskPolicy) :
    entries.foldlM (fun p e => e.2.foldlM (set · e.1) p) p =
      .ok (put p (restoreScopes entries (get p))) := by
  have hscope : ∀ (k : κ) (revisions : List TimedLimits), admitted k →
      (∀ r ∈ revisions, validateLimits r.limits = .ok ()) → ∀ p, revisions.foldlM (set · k) p =
        .ok (put p (revisions.foldl (upsertAt · k) (get p))) := by
    intro k revisions hk
    induction revisions with
    | nil => exact fun _ p => by rw [List.foldl_nil, hself]; rfl
    | cons r revisions ih =>
      intro hvalid p
      obtain ⟨hr, hvalid⟩ := List.forall_mem_cons.mp hvalid
      rw [List.foldlM_cons, hset p k r hk hr]
      show revisions.foldlM (set · k) _ = _
      rw [ih hvalid, hget, hput, List.foldl_cons]
  induction entries generalizing p with
  | nil => rw [restoreScopes, List.foldl_nil, hself]; rfl
  | cons e entries ih =>
    obtain ⟨⟨hk, hvalid⟩, hentries⟩ := List.forall_mem_cons.mp hentries
    rw [List.foldlM_cons, hscope e.1 e.2 hk hvalid]
    show entries.foldlM _ _ = _
    rw [ih hentries, hget, hput]
    rfl

theorem scopesLegal_empty [Std.TransOrd κ] : ScopesLegal admitted (∅ : Std.TreeMap κ (List TimedLimits)) := by
  intro k revisions h
  rw [Std.TreeMap.getElem?_emptyc] at h
  cases h

variable [Std.TransOrd κ] [Std.LawfulEqOrd κ]

theorem ScopesLegal.upsertAt (h : ScopesLegal admitted m) {r : TimedLimits}
    (hvalid : validateLimits r.limits = .ok ()) (hk : admitted k) :
    ScopesLegal admitted (upsertAt m k r) := by
  intro k' revisions hget
  rw [InsiderTrader.upsertAt, Std.TreeMap.getElem?_insert] at hget
  split at hget
  · next heq =>
    rw [Std.LawfulEqCmp.compare_eq_iff_eq] at heq
    cases hget
    refine ⟨RevisionsLegal.upsert ?_ hvalid, upsertRevision_ne_nil, heq ▸ hk⟩
    cases hold : m[k]? with
    | none => exact revisionsLegal_nil
    | some old => exact (h k old hold).1
  · exact h k' revisions hget

variable [DecidableEq κ]

/-- The revisions of one scope, installed in time order where there were none. -/
theorem foldl_upsertAt {revisions : List TimedLimits}
    (hsorted : revisions.Pairwise fun r r' => r.effectiveMonoNs < r'.effectiveMonoNs)
    (hne : revisions ≠ []) (hnone : m[k]? = none) (k' : κ) :
    (revisions.foldl (InsiderTrader.upsertAt · k) m)[k']? =
      if k = k' then some revisions else m[k']? := by
  have hfold : ∀ (rest done : List TimedLimits) (m : Std.TreeMap κ (List TimedLimits)),
      (m[k]?).getD [] = done → rest ≠ [] →
      (rest.foldl (InsiderTrader.upsertAt · k) m)[k']? =
        if k = k' then some (rest.foldl upsertRevision done) else m[k']? := by
    intro rest
    induction rest with
    | nil => exact fun _ _ _ h => absurd rfl h
    | cons r rest ih =>
      intro done m hdone _
      have hself : (InsiderTrader.upsertAt m k r)[k']? =
          if k = k' then some (upsertRevision done r) else m[k']? := by
        rw [InsiderTrader.upsertAt, hdone, Std.TreeMap.getElem?_insert]
        simp only [Std.LawfulEqCmp.compare_eq_iff_eq]
      rw [List.foldl_cons, List.foldl_cons]
      by_cases hrest : rest = []
      · rw [hrest]
        exact hself
      · rw [ih (upsertRevision done r) _ ?_ hrest, hself]
        · split <;> rfl
        · rw [InsiderTrader.upsertAt, Std.TreeMap.getElem?_insert_self, Option.getD_some, hdone]
  rw [hfold revisions [] m (by rw [hnone]; rfl) hne, foldl_upsertRevision revisions (by simpa)]
  rfl

/-- **The restored scopes** are the saved ones. -/
theorem getElem?_restoreScopes {entries : List (κ × List TimedLimits)}
    (hdistinct : entries.Pairwise fun e e' => e.1 ≠ e'.1)
    (hlegal : ∀ e ∈ entries, RevisionsLegal e.2 ∧ e.2 ≠ []) (hnone : ∀ e ∈ entries, m[e.1]? = none)
    {revisions : List TimedLimits} :
    (restoreScopes entries m)[k]? = some revisions ↔
      (k, revisions) ∈ entries ∨ m[k]? = some revisions := by
  induction entries generalizing m with
  | nil => simp [restoreScopes]
  | cons e entries ih =>
    obtain ⟨hfirst, hdistinct⟩ := List.pairwise_cons.mp hdistinct
    obtain ⟨⟨hhead, hne⟩, hlegal⟩ := List.forall_mem_cons.mp hlegal
    obtain ⟨hmissing, hnone⟩ := List.forall_mem_cons.mp hnone
    have hstep := foldl_upsertAt hhead.sorted hne hmissing
    rw [restoreScopes, List.foldl_cons, ← restoreScopes, ih hdistinct hlegal, hstep, List.mem_cons]
    · by_cases hk : e.1 = k
      · subst hk
        have hnot : (e.1, revisions) ∉ entries := fun hmem => hfirst _ hmem rfl
        rw [if_pos rfl, hmissing]
        simp [hnot, Prod.ext_iff, eq_comm]
      · rw [if_neg hk]
        have hnot : (k, revisions) ≠ e := fun heq => hk (congrArg Prod.fst heq).symm
        simp [hnot]
    · intro e' he'
      rw [hstep, if_neg (hfirst e' he')]
      exact hnone e' he'

/-- Restoring all entries of a legal map gives a map with the same entries. -/
theorem ScopesLegal.restoreScopes_equiv (h : ScopesLegal admitted m) :
    (restoreScopes m.toList ∅).Equiv m := by
  refine Std.TreeMap.Equiv.of_forall_constGet?_eq fun k => Option.ext fun revisions => ?_
  rw [getElem?_restoreScopes]
  · rw [Std.TreeMap.getElem?_emptyc, Std.TreeMap.mem_toList_iff_getElem?_eq_some]
    simp
  · exact Std.TreeMap.distinct_keys_toList.imp fun hne heq => hne (by
      rw [heq]
      exact Std.ReflCmp.compare_self)
  · intro e he
    obtain ⟨hlegal, hne, -⟩ := h e.1 e.2 (Std.TreeMap.mem_toList_iff_getElem?_eq_some.mp he)
    exact ⟨hlegal, hne⟩
  · exact fun e _ => Std.TreeMap.getElem?_emptyc

end Scopes

-- Reachable policies

instance : Std.TransOrd AssetClass where
  eq_swap {a b} := by cases a <;> cases b <;> rfl
  isLE_trans {a b c} := by cases a <;> cases b <;> cases c <;> decide

instance : Std.LawfulEqOrd AssetClass where
  eq_of_compare {a b} := by cases a <;> cases b <;> decide

/-- A call of a setter. -/
inductive PolicyCall where
  | setSystem (revision : TimedLimits)
  | setAccount (account : String) (revision : TimedLimits)
  | setStrategy (strategy : String) (revision : TimedLimits)
  | setAsset (asset : AssetClass) (revision : TimedLimits)
  | setInstrument (instrument : InstrumentId) (revision : TimedLimits)

namespace ScopedRiskPolicy

/-- Make a call of a setter. -/
def perform (p : ScopedRiskPolicy) : PolicyCall → Except PolicyError ScopedRiskPolicy
  | .setSystem revision => p.setSystem revision
  | .setAccount account revision => p.setAccount account revision
  | .setStrategy strategy revision => p.setStrategy strategy revision
  | .setAsset asset revision => p.setAsset asset revision
  | .setInstrument instrument revision => p.setInstrument instrument revision

/-- The policies that successful setters make of a new one. -/
inductive Reachable : ScopedRiskPolicy → Prop
  | new {limits : Limits} {p : ScopedRiskPolicy} : new limits = .ok p → Reachable p
  | call {p q : ScopedRiskPolicy} (c : PolicyCall) :
      Reachable p → p.perform c = .ok q → Reachable q

/-- The journaled form of a policy: a copy of its revisions. -/
def snapshot (p : ScopedRiskPolicy) : ScopedRiskPolicy :=
  ⟨p.system, p.accounts, p.strategies, p.assets, p.instruments⟩

/-- Two policies are equal: they have the same revisions, scope by scope. -/
structure Same (p q : ScopedRiskPolicy) : Prop where
  system : p.system = q.system
  accounts : p.accounts.Equiv q.accounts
  strategies : p.strategies.Equiv q.strategies
  assets : p.assets.Equiv q.assets
  instruments : p.instruments.Equiv q.instruments

/-- The numbers of scopes and of revisions in a scope that a restoration admits. -/
structure WithinBounds (p : ScopedRiskPolicy) : Prop where
  system : p.system.length ≤ 256
  accounts : p.accounts.size ≤ 1024
  strategies : p.strategies.size ≤ 1024
  instruments : p.instruments.size ≤ 16384
  revisions : ∀ revisions ∈ p.accounts.values ++ p.strategies.values ++ p.assets.values ++
    p.instruments.values, revisions.length ≤ 256

/-- The invariant of the setters. -/
structure Legal (p : ScopedRiskPolicy) : Prop where
  system_ne : p.system ≠ []
  system : RevisionsLegal p.system
  accounts : ScopesLegal (¬Text.isBlank · = true) p.accounts
  strategies : ScopesLegal (¬Text.isBlank · = true) p.strategies
  assets : ScopesLegal (fun _ => True) p.assets
  instruments : ScopesLegal (fun _ => True) p.instruments

section Setters

variable {p q : ScopedRiskPolicy} {r : TimedLimits}

theorem validateLimits_cases (limits : Limits) :
    validateLimits limits = .ok () ∨ validateLimits limits = .error .invalidLimits := by
  unfold validateLimits
  split
  · exact .inl rfl
  · exact .inr rfl

theorem setSystem_eq (hr : validateLimits r.limits = .ok ()) :
    p.setSystem r = .ok { p with system := upsertRevision p.system r } := by
  rw [setSystem, hr]
  rfl

theorem setAccount_eq {account : String} (ha : ¬Text.isBlank account = true)
    (hr : validateLimits r.limits = .ok ()) :
    p.setAccount account r = .ok { p with accounts := upsertAt p.accounts account r } := by
  rw [setAccount, if_neg ha, hr]
  rfl

theorem setStrategy_eq {strategy : String} (hs : ¬Text.isBlank strategy = true)
    (hr : validateLimits r.limits = .ok ()) :
    p.setStrategy strategy r = .ok { p with strategies := upsertAt p.strategies strategy r } := by
  rw [setStrategy, if_neg hs, hr]
  rfl

theorem setAsset_eq {asset : AssetClass} (hr : validateLimits r.limits = .ok ()) :
    p.setAsset asset r = .ok { p with assets := upsertAt p.assets asset r } := by
  rw [setAsset, hr]
  rfl

theorem setInstrument_eq {instrument : InstrumentId} (hr : validateLimits r.limits = .ok ()) :
    p.setInstrument instrument r =
      .ok { p with instruments := upsertAt p.instruments instrument r } := by
  rw [setInstrument, hr]
  rfl

/-- **A successful setter keeps the invariant.** -/
theorem Legal.perform (h : p.Legal) (c : PolicyCall) (hq : p.perform c = .ok q) : q.Legal := by
  cases c with
  | setSystem r =>
    rcases validateLimits_cases r.limits with hr | hr
    · rw [ScopedRiskPolicy.perform, setSystem_eq hr] at hq
      cases hq
      exact { h with system_ne := upsertRevision_ne_nil, system := h.system.upsert hr }
    · rw [ScopedRiskPolicy.perform, setSystem, hr] at hq
      cases hq
  | setAccount account r =>
    rcases validateLimits_cases r.limits with hr | hr <;>
      by_cases ha : Text.isBlank account = true
    · rw [ScopedRiskPolicy.perform, setAccount, if_pos ha] at hq
      cases hq
    · rw [ScopedRiskPolicy.perform, setAccount_eq ha hr] at hq
      cases hq
      exact { h with accounts := h.accounts.upsertAt hr ha }
    · rw [ScopedRiskPolicy.perform, setAccount, if_pos ha] at hq
      cases hq
    · rw [ScopedRiskPolicy.perform, setAccount, if_neg ha, hr] at hq
      cases hq
  | setStrategy strategy r =>
    rcases validateLimits_cases r.limits with hr | hr <;>
      by_cases hs : Text.isBlank strategy = true
    · rw [ScopedRiskPolicy.perform, setStrategy, if_pos hs] at hq
      cases hq
    · rw [ScopedRiskPolicy.perform, setStrategy_eq hs hr] at hq
      cases hq
      exact { h with strategies := h.strategies.upsertAt hr hs }
    · rw [ScopedRiskPolicy.perform, setStrategy, if_pos hs] at hq
      cases hq
    · rw [ScopedRiskPolicy.perform, setStrategy, if_neg hs, hr] at hq
      cases hq
  | setAsset asset r =>
    rcases validateLimits_cases r.limits with hr | hr
    · rw [ScopedRiskPolicy.perform, setAsset_eq hr] at hq
      cases hq
      exact { h with assets := h.assets.upsertAt hr trivial }
    · rw [ScopedRiskPolicy.perform, setAsset, hr] at hq
      cases hq
  | setInstrument instrument r =>
    rcases validateLimits_cases r.limits with hr | hr
    · rw [ScopedRiskPolicy.perform, setInstrument_eq hr] at hq
      cases hq
      exact { h with instruments := h.instruments.upsertAt hr trivial }
    · rw [ScopedRiskPolicy.perform, setInstrument, hr] at hq
      cases hq

theorem legal_new {limits : Limits} (hp : ScopedRiskPolicy.new limits = .ok p) : p.Legal := by
  rcases validateLimits_cases limits with hr | hr
  · rw [ScopedRiskPolicy.new, hr] at hp
    cases hp
    exact {
      system_ne := List.cons_ne_nil _ _
      system := ⟨List.pairwise_singleton _ _, List.forall_mem_singleton.mpr hr⟩
      accounts := scopesLegal_empty
      strategies := scopesLegal_empty
      assets := scopesLegal_empty
      instruments := scopesLegal_empty }
  · rw [ScopedRiskPolicy.new, hr] at hp
    cases hp

/-- **The revisions of every reachable policy are legal.** -/
theorem Reachable.legal (h : p.Reachable) : p.Legal := by
  induction h with
  | new hp => exact legal_new hp
  | call c _ hq ih => exact ih.perform c hq

end Setters

section Restoration

variable {p : ScopedRiskPolicy}

/-- There are six asset classes. -/
theorem size_assets_le (assets : Std.TreeMap AssetClass (List TimedLimits)) : assets.size ≤ 6 := by
  have hnodup : assets.keys.Nodup :=
    Std.TreeMap.distinct_keys.imp fun hne heq => hne (Std.LawfulEqCmp.compare_eq_iff_eq.mpr heq)
  have hsubset : assets.keys ⊆ [.equity, .etf, .option, .future, .fx, .crypto] := by
    intro asset _
    cases asset <;> decide
  rw [← Std.TreeMap.length_keys]
  exact (List.subperm_of_subset hnodup hsubset).length_le

/-- The entries of legal scopes pass the setters' checks. -/
theorem entries_valid {κ : Type} [Ord κ] [Std.TransOrd κ] [Std.LawfulEqOrd κ] {admitted : κ → Prop}
    {m : Std.TreeMap κ (List TimedLimits)} (h : ScopesLegal admitted m) :
    ∀ e ∈ m.toList, admitted e.1 ∧ ∀ r ∈ e.2, validateLimits r.limits = .ok () := by
  intro e he
  obtain ⟨hlegal, -, hk⟩ := h e.1 e.2 (Std.TreeMap.mem_toList_iff_getElem?_eq_some.mp he)
  exact ⟨hk, hlegal.valid⟩

theorem foldlM_setSystem {revisions : List TimedLimits}
    (hvalid : ∀ r ∈ revisions, validateLimits r.limits = .ok ()) (p : ScopedRiskPolicy) :
    revisions.foldlM setSystem p =
      .ok { p with system := revisions.foldl upsertRevision p.system } := by
  induction revisions generalizing p with
  | nil => rfl
  | cons r revisions ih =>
    obtain ⟨hr, hvalid⟩ := List.forall_mem_cons.mp hvalid
    rw [List.foldlM_cons, setSystem_eq hr]
    exact ih hvalid _

/-- **Restoring a legal policy** within the bounds gives its revisions back. -/
theorem Legal.fromSnapshot_ok (h : p.Legal) (hbounds : p.WithinBounds) :
    fromSnapshot p = .ok ⟨p.system, restoreScopes p.accounts.toList ∅,
      restoreScopes p.strategies.toList ∅, restoreScopes p.assets.toList ∅,
      restoreScopes p.instruments.toList ∅⟩ := by
  have hassets := size_assets_le p.assets
  have hsizes : ¬(p.system.isEmpty = true ∨ 256 < p.system.length ∨ 1024 < p.accounts.size
      ∨ 1024 < p.strategies.size ∨ 16 < p.assets.size ∨ 16384 < p.instruments.size) := by
    have hsystem := hbounds.system
    have haccounts := hbounds.accounts
    have hstrategies := hbounds.strategies
    have hinstruments := hbounds.instruments
    have hne : ¬p.system.isEmpty = true := by
      rw [List.isEmpty_iff]
      exact h.system_ne
    rintro (hcase | hcase | hcase | hcase | hcase | hcase)
    · exact hne hcase
    all_goals omega
  have hrevisions : ¬(p.accounts.values ++ p.strategies.values ++ p.assets.values ++
      p.instruments.values).any (256 < ·.length) = true := by
    rw [List.any_eq_true]
    rintro ⟨revisions, hmem, hlt⟩
    exact absurd (of_decide_eq_true hlt) (Nat.not_lt.mpr (hbounds.revisions revisions hmem))
  have hsystem := foldlM_setSystem h.system.valid empty
  rw [show empty.system = [] from rfl, foldl_upsertRevision _ (by simpa using h.system.sorted),
    List.nil_append] at hsystem
  rw [fromSnapshot, if_neg hsizes, if_neg hrevisions, hsystem]
  show (p.accounts.toList.foldlM (fun p e => e.2.foldlM (setAccount · e.1) p) _ >>= _) = _
  rw [foldlM_set setAccount (·.accounts) (fun p m => { p with accounts := m })
    (fun _ _ _ => setAccount_eq) (fun _ _ => rfl) (fun _ _ _ => rfl) (fun _ => rfl)
    (entries_valid h.accounts)]
  show (p.strategies.toList.foldlM (fun p e => e.2.foldlM (setStrategy · e.1) p) _ >>= _) = _
  rw [foldlM_set setStrategy (·.strategies) (fun p m => { p with strategies := m })
    (fun _ _ _ => setStrategy_eq) (fun _ _ => rfl) (fun _ _ _ => rfl) (fun _ => rfl)
    (entries_valid h.strategies)]
  show (p.assets.toList.foldlM (fun p e => e.2.foldlM (setAsset · e.1) p) _ >>= _) = _
  rw [foldlM_set setAsset (·.assets) (fun p m => { p with assets := m })
    (fun _ _ _ _ => setAsset_eq) (fun _ _ => rfl) (fun _ _ _ => rfl) (fun _ => rfl)
    (entries_valid h.assets)]
  show p.instruments.toList.foldlM (fun p e => e.2.foldlM (setInstrument · e.1) p) _ = _
  rw [foldlM_set setInstrument (·.instruments) (fun p m => { p with instruments := m })
    (fun _ _ _ _ => setInstrument_eq) (fun _ _ => rfl) (fun _ _ _ => rfl) (fun _ => rfl)
    (entries_valid h.instruments)]
  rfl

/-- A restoration that succeeds was within the bounds. -/
theorem withinBounds_of_fromSnapshot {q : ScopedRiskPolicy} (h : fromSnapshot p = .ok q) :
    p.WithinBounds := by
  by_cases hsizes : p.system.isEmpty = true ∨ 256 < p.system.length ∨ 1024 < p.accounts.size
      ∨ 1024 < p.strategies.size ∨ 16 < p.assets.size ∨ 16384 < p.instruments.size
  · rw [fromSnapshot, if_pos hsizes] at h
    cases h
  by_cases hrevisions : (p.accounts.values ++ p.strategies.values ++ p.assets.values ++
      p.instruments.values).any (256 < ·.length) = true
  · rw [fromSnapshot, if_neg hsizes, if_pos hrevisions] at h
    cases h
  · push Not at hsizes
    obtain ⟨-, hsystem, haccounts, hstrategies, -, hinstruments⟩ := hsizes
    refine ⟨hsystem, haccounts, hstrategies, hinstruments, fun revisions hmem => ?_⟩
    by_contra hlt
    exact hrevisions (List.any_eq_true.mpr ⟨revisions, hmem, decide_eq_true (by omega)⟩)

end Restoration

end ScopedRiskPolicy

open ScopedRiskPolicy

/-- The reachable policies that the restoration of their snapshots gives back: those whose
setters were not called for more scopes, or more times in a scope, than it admits. -/
theorem policy_recovered_iff {p : ScopedRiskPolicy} (h : p.Reachable) :
    (∃ q, fromSnapshot p.snapshot = .ok q ∧ q.Same p) ↔ p.WithinBounds := by
  constructor
  · rintro ⟨q, hq, -⟩
    exact withinBounds_of_fromSnapshot hq
  · intro hbounds
    have hlegal := h.legal
    exact ⟨_, hlegal.fromSnapshot_ok hbounds, rfl, hlegal.accounts.restoreScopes_equiv,
      hlegal.strategies.restoreScopes_equiv, hlegal.assets.restoreScopes_equiv,
      hlegal.instruments.restoreScopes_equiv⟩

namespace Sample

/-- The hard limits of the sample policies. -/
def policyLimits : Limits := ⟨1000, 100, 100000⟩

/-- A policy with one revision of the system and one of an account. -/
def accountPolicy : ScopedRiskPolicy :=
  { system := [⟨0, policyLimits⟩]
    accounts := upsertAt ∅ "paper" ⟨5, ⟨500, 50, 50000⟩⟩
    strategies := ∅, assets := ∅, instruments := ∅ }

theorem accountPolicy_reachable : accountPolicy.Reachable := by
  have hnew : Reachable { empty with system := [⟨0, policyLimits⟩] } :=
    .new (by rfl : new policyLimits = _)
  refine .call (.setAccount "paper" ⟨5, ⟨500, 50, 50000⟩⟩) hnew ?_
  rw [perform, setAccount_eq (by decide) (by rfl)]
  rfl

/-- A policy with one revision of the system for each of the first times. -/
def systemPolicy (n : ℕ) : ScopedRiskPolicy :=
  { empty with system := (List.range (n + 1)).map fun time => ⟨time, policyLimits⟩ }

theorem systemPolicy_reachable (n : ℕ) : (systemPolicy n).Reachable := by
  induction n with
  | zero => exact .new (by rfl : new policyLimits = _)
  | succ n ih =>
    refine .call (.setSystem ⟨n + 1, policyLimits⟩) ih ?_
    have hlater : ∀ r ∈ (systemPolicy n).system, r.effectiveMonoNs < n + 1 := by
      intro r hr
      obtain ⟨time, htime, rfl⟩ := List.mem_map.mp hr
      exact List.mem_range.mp htime
    rw [perform, setSystem_eq (by rfl), upsertRevision_of_later hlater]
    simp only [systemPolicy, List.range_succ (n := n + 1), List.map_append, List.map_singleton]

end Sample

theorem policy_recovered_account :
    ∃ q, fromSnapshot Sample.accountPolicy.snapshot = .ok q ∧ q.Same Sample.accountPolicy :=
  (policy_recovered_iff Sample.accountPolicy_reachable).mpr
    ⟨by decide, by decide, by decide, by decide, by decide⟩

/-- A policy of 257 system revisions is reachable, and its snapshot is refused. -/
theorem policy_refused_systemPolicy :
    (Sample.systemPolicy 256).Reachable ∧
      fromSnapshot (Sample.systemPolicy 256).snapshot = .error .invalidIdentity := by
  have hlength : 256 < (Sample.systemPolicy 256).system.length := by
    rw [Sample.systemPolicy, List.length_map, List.length_range]
    omega
  refine ⟨Sample.systemPolicy_reachable 256, ?_⟩
  rw [fromSnapshot, if_pos (.inr (.inl hlength))]
  rfl

end InsiderTrader
