import InsiderTrader.ControlRequests
import InsiderTrader.Library.MapFilter
import InsiderTrader.Library.Runs
import Mathlib.Data.List.Destutter

/-!
# The model registry

The versions of the models, what their artifacts came from, and the version of
each model in production. A version is registered for research and promoted
step by step; the version that it replaces in production is retired.

## Main definitions

- `Registry` — the records, the manifests and the active versions
- `Registry.Call`, `Registry.step` — a call of the registry
- `Registry.Coupled` — the active versions are those in production
- `Registry.history` — the states of a version along a run

## Main results

- `Registry.step_wellFormed` — what every call keeps
- `Registry.restoreSnapshot_snapshot` — an image restores the registry it was taken of
- `Registry.step_status` — every call leaves a version where it is, or moves it on
- `lifecycle_along` — coupling, restoring and the path to production along every run
-/

namespace InsiderTrader

/-- Why the registry refuses a change. -/
inductive RegistryError where
  | invalidMetadata
  | duplicate
  | notFound
  | invalidTransition
  | authorizationRequired
  deriving DecidableEq

/-- The versions by model and name, and the version of each model in production. -/
structure Registry where
  records : Std.TreeMap (String × String) ModelRecord lexOrd.compare
  manifests : Std.TreeMap (String × String) ArtifactManifest lexOrd.compare
  active : Std.TreeMap String String

/-- Durable image of a registry. -/
structure RegistrySnapshot where
  records : List ModelRecord
  manifests : List ((String × String) × ArtifactManifest)
  active : List (String × String)

namespace ModelRecord

def key (record : ModelRecord) : String × String := (record.modelId, record.version)

/-- Every identity is there, and the feature vector is not empty. -/
def validMetadata (record : ModelRecord) : Bool :=
  !(Text.isBlank record.modelId || Text.isBlank record.version ||
    Text.isBlank record.artifactHash || Text.isBlank record.inputSchemaHash ||
    Text.isBlank record.outputSchemaHash || record.inputWidth == 0)

/-- The record as it was registered. -/
def registered (record : ModelRecord) : ModelRecord := { record with status := .research }

end ModelRecord

/-- Every provenance component is there, and the artifact is the record's. -/
def ArtifactManifest.validateFor (manifest : ArtifactManifest) (record : ModelRecord) :
    Except RegistryError Unit :=
  if manifest.artifactHash ≠ record.artifactHash ∨
      [manifest.codeHash, manifest.trainingDataHash, manifest.configHash, manifest.featureHash,
        manifest.calibrationHash, manifest.artifactHash].any Text.isBlank then
    .error .invalidMetadata
  else .ok ()

namespace Registry

def new : Registry := ⟨∅, ∅, ∅⟩

/-- The image, in the order of the keys. -/
def snapshot (r : Registry) : RegistrySnapshot where
  records := r.records.values
  manifests := r.manifests.toList
  active := r.active.toList

/-- The state of a version. -/
def status (key : String × String) (r : Registry) : Option ModelStatus :=
  r.records[key]?.map ModelRecord.status

/-- Write the state of a version, where there is one. -/
def setStatus (key : String × String) (status : ModelStatus) (r : Registry) : Registry :=
  { r with records := r.records.modify key fun record => { record with status := status } }

def register (record : ModelRecord) : Fallible Registry RegistryError Unit := do
  Fallible.require (record.validMetadata = true) .invalidMetadata
  Fallible.require (record.status = .research) .invalidTransition
  let stored ← Fallible.reads (·.records[record.key]?)
  Fallible.require (stored = none) .duplicate
  Fallible.modify fun r => { r with records := r.records.insert record.key record }

/-- Register a version together with what its artifact came from. -/
def registerVerified (record : ModelRecord) (manifest : ArtifactManifest) :
    Fallible Registry RegistryError Unit := do
  Fallible.ofExcept (manifest.validateFor record)
  register record
  Fallible.modify fun r => { r with manifests := r.manifests.insert record.key manifest }

/-- Move a version on from one state to another. -/
def advance (key : String × String) (source target : ModelStatus) :
    Fallible Registry RegistryError Unit := do
  let stored ← Fallible.reads (·.records[key]?)
  let record ← Fallible.orFail stored .notFound
  Fallible.require (record.status = source) .invalidTransition
  Fallible.modify (setStatus key target)

def validate (modelId version evidenceId : String) : Fallible Registry RegistryError Unit := do
  Fallible.require (¬Text.isBlank evidenceId) .authorizationRequired
  advance (modelId, version) .research .validated

def startShadow (modelId version : String) : Fallible Registry RegistryError Unit :=
  advance (modelId, version) .validated .shadow

def startCanary (modelId version evidenceId : String) : Fallible Registry RegistryError Unit := do
  Fallible.require (¬Text.isBlank evidenceId) .authorizationRequired
  advance (modelId, version) .shadow .canary

def startChallenger (modelId version : String) : Fallible Registry RegistryError Unit := do
  validate modelId version "legacy-validation"
  startShadow modelId version

/-- Promote a version and retire the active one. -/
def promote (modelId version : String) : Fallible Registry RegistryError Unit := do
  let stored ← Fallible.reads (·.records[(modelId, version)]?)
  let record ← Fallible.orFail stored .notFound
  Fallible.require (record.status = .canary) .invalidTransition
  let manifest ← Fallible.reads (·.manifests[(modelId, version)]?)
  Fallible.require (manifest ≠ none) .invalidMetadata
  let previous ← Fallible.reads (·.active[modelId]?)
  Fallible.modify fun r => { r with active := r.active.insert modelId version }
  Fallible.modify fun r => previous.elim r fun version => r.setStatus (modelId, version) .retired
  let stored ← Fallible.reads (·.records[(modelId, version)]?)
  Fallible.require (stored ≠ none) .notFound
  Fallible.modify (setStatus (modelId, version) .production)

-- Restoring an image

/-- Register a record of an image for research, then write the state that it has there. -/
def restoreRecord (record : ModelRecord) : Fallible Registry RegistryError Unit := do
  register { record with status := .research }
  Fallible.modify (setStatus record.key record.status)

def restoreManifest (entry : (String × String) × ArtifactManifest) :
    Fallible Registry RegistryError Unit := do
  let stored ← Fallible.reads (·.records[entry.1]?)
  let record ← Fallible.orFail stored .notFound
  Fallible.ofExcept (entry.2.validateFor record)
  let manifest ← Fallible.reads (·.manifests[entry.1]?)
  Fallible.modify fun r => { r with manifests := r.manifests.insert entry.1 entry.2 }
  Fallible.require (manifest = none) .duplicate

def restoreActive (entry : String × String) : Fallible Registry RegistryError Unit := do
  let stored ← Fallible.reads (·.records[entry]?)
  let record ← Fallible.orFail stored .notFound
  Fallible.require (record.status = .production) .invalidTransition
  let version ← Fallible.reads (·.active[entry.1]?)
  Fallible.modify fun r => { r with active := r.active.insert entry.1 entry.2 }
  Fallible.require (version = none) .duplicate

/-- Some version in production has no manifest. -/
def unproven (r : Registry) : Bool :=
  r.records.toList.any fun entry =>
    entry.2.status = .production && (r.manifests[entry.1]?).isNone

/-- Put the image into an empty registry. -/
def fill (image : RegistrySnapshot) : Fallible Registry RegistryError Unit := do
  Fallible.forEach restoreRecord image.records
  Fallible.forEach restoreManifest image.manifests
  let missing ← Fallible.reads unproven
  Fallible.require (missing = false) .invalidMetadata
  Fallible.forEach restoreActive image.active

/-- Replace the registry by an image of one; a failure leaves it as it was. -/
def restoreSnapshot (image : RegistrySnapshot) : Fallible Registry RegistryError Unit := fun r =>
  match fill image new with
  | (.ok _, candidate) => (.ok (), candidate)
  | (.error e, _) => (.error e, r)

-- Runs of calls

/-- A call of the registry; `restore` hands the registry its own image. -/
inductive Call where
  | register (record : ModelRecord)
  | registerVerified (record : ModelRecord) (manifest : ArtifactManifest)
  | validate (modelId version evidenceId : String)
  | startShadow (modelId version : String)
  | startCanary (modelId version evidenceId : String)
  | promote (modelId version : String)
  | startChallenger (modelId version : String)
  | restore

def Call.run : Call → Fallible Registry RegistryError Unit
  | .register record => Registry.register record
  | .registerVerified record manifest => Registry.registerVerified record manifest
  | .validate modelId version evidenceId => Registry.validate modelId version evidenceId
  | .startShadow modelId version => Registry.startShadow modelId version
  | .startCanary modelId version evidenceId => Registry.startCanary modelId version evidenceId
  | .promote modelId version => Registry.promote modelId version
  | .startChallenger modelId version => Registry.startChallenger modelId version
  | .restore => fun r => restoreSnapshot r.snapshot r

def step (call : Call) (r : Registry) : Registry := (call.run r).2

/-- The registries that a call passes through before its last write. -/
def Call.passes : Call → Registry → List Registry
  | .startChallenger modelId version, r =>
    [(Registry.validate modelId version "legacy-validation" r).2]
  | _, _ => []

/-- The states of a version, from a registry on: before each call, within it, and at the end. -/
def history (key : String × String) : Registry → List Call → List (Option ModelStatus)
  | r, [] => [r.status key]
  | r, call :: calls => (r :: call.passes r).map (status key) ++ history key (step call r) calls

/-- The states of a version in their order; before it is registered it has none. -/
def lifecycle : List (Option ModelStatus) :=
  [none, some .research, some .validated, some .shadow, some .canary, some .production,
    some .retired]

/-- The place of a state in the lifecycle. -/
def rank : Option ModelStatus → ℕ
  | none => 0
  | some .research => 1
  | some .validated => 2
  | some .shadow => 3
  | some .canary => 4
  | some .production => 5
  | some .retired => 6

/-- The second state is the first one, or the one after it in the lifecycle. -/
def Moves (s s' : Option ModelStatus) : Prop := s' = s ∨ rank s' = rank s + 1

/-- A model has at most one version in production, which is its active one, with a manifest. -/
structure Coupled (r : Registry) : Prop where
  unique : ∀ modelId v v' : String, r.status (modelId, v) = some .production →
    r.status (modelId, v') = some .production → v = v'
  active : ∀ modelId v : String, r.active[modelId]? = some v ↔ r.status (modelId, v) = some .production
  manifest : ∀ modelId v : String, r.active[modelId]? = some v → (r.manifests[(modelId, v)]?).isSome

/-- The registries have the same entries. -/
structure Same (r r' : Registry) : Prop where
  records : ∀ key : String × String, r'.records[key]? = r.records[key]?
  manifests : ∀ key : String × String, r'.manifests[key]? = r.manifests[key]?
  active : ∀ modelId : String, r'.active[modelId]? = r.active[modelId]?

/-- What every call keeps: records under their own keys, manifests of records, and coupling. -/
structure WellFormed (r : Registry) : Prop extends Coupled r where
  keyed : ∀ (key : String × String) record, r.records[key]? = some record →
    record.key = key ∧ record.validMetadata = true
  matched : ∀ (key : String × String) manifest, r.manifests[key]? = some manifest →
    ∃ record, r.records[key]? = some record ∧ manifest.validateFor record = .ok ()

variable {r r' : Registry} {record : ModelRecord} {key key' : String × String}
  {modelId version : String} {source target : ModelStatus}

-- What a call can do

theorem records_setStatus : (r.setStatus key target).records[key']? =
    if key = key' then (r.records[key']?).map fun record => { record with status := target }
    else r.records[key']? := by
  rw [setStatus, Std.TreeMap.getElem?_modify]
  simp only [Std.LawfulEqCmp.compare_eq_iff_eq]
  split
  · next heq => rw [heq]
  · rfl

theorem status_setStatus : (r.setStatus key target).status key' =
    if key = key' then (r.status key').map fun _ => target else r.status key' := by
  rw [status, records_setStatus, status]
  split
  · rw [Option.map_map, Option.map_map]
    rfl
  · rfl

theorem register_cases (record : ModelRecord) (r : Registry) :
    (∃ e, register record r = (.error e, r)) ∨
      record.validMetadata = true ∧ record.status = .research ∧ r.records[record.key]? = none ∧
        register record r = (.ok (), { r with records := r.records.insert record.key record }) := by
  unfold register
  rw [Fallible.require_bind]
  by_cases hvalid : record.validMetadata = true
  swap
  · rw [if_neg hvalid]
    exact .inl ⟨_, rfl⟩
  rw [if_pos hvalid, Fallible.require_bind]
  by_cases hstatus : record.status = .research
  swap
  · rw [if_neg hstatus]
    exact .inl ⟨_, rfl⟩
  rw [if_pos hstatus, Fallible.reads_bind, Fallible.require_bind]
  by_cases hfresh : r.records[record.key]? = none
  · rw [if_pos hfresh]
    exact .inr ⟨hvalid, hstatus, hfresh, rfl⟩
  · rw [if_neg hfresh]
    exact .inl ⟨_, rfl⟩

theorem advance_cases (key : String × String) (source target : ModelStatus) (r : Registry) :
    (∃ e, advance key source target r = (.error e, r)) ∨
      r.status key = some source ∧
        advance key source target r = (.ok (), r.setStatus key target) := by
  unfold advance
  rw [Fallible.reads_bind]
  cases hrecord : r.records[key]? with
  | none => exact .inl ⟨_, rfl⟩
  | some record =>
    rw [Fallible.orFail_bind_some rfl, Fallible.require_bind]
    by_cases hstatus : record.status = source
    · rw [if_pos hstatus]
      exact .inr ⟨by rw [status, hrecord, Option.map_some, hstatus], rfl⟩
    · rw [if_neg hstatus]
      exact .inl ⟨_, rfl⟩

/-- What a successful promotion writes. -/
theorem promote_cases (modelId version : String) (r : Registry) :
    (∃ e, promote modelId version r = (.error e, r)) ∨
      r.status (modelId, version) = some .canary ∧ r.manifests[(modelId, version)]? ≠ none ∧
        promote modelId version r = (.ok (),
          ((r.active[modelId]?).elim { r with active := r.active.insert modelId version }
            fun previous => { r with active := r.active.insert modelId version }.setStatus
              (modelId, previous) .retired).setStatus (modelId, version) .production) := by
  unfold promote
  rw [Fallible.reads_bind]
  cases hrecord : r.records[(modelId, version)]? with
  | none => exact .inl ⟨_, rfl⟩
  | some record =>
    rw [Fallible.orFail_bind_some rfl, Fallible.require_bind]
    by_cases hstatus : record.status = .canary
    swap
    · rw [if_neg hstatus]
      exact .inl ⟨_, rfl⟩
    rw [if_pos hstatus, Fallible.reads_bind, Fallible.require_bind]
    by_cases hmanifest : r.manifests[(modelId, version)]? ≠ none
    swap
    · rw [if_neg hmanifest]
      exact .inl ⟨_, rfl⟩
    rw [if_pos hmanifest, Fallible.reads_bind, Fallible.modify_bind, Fallible.modify_bind,
      Fallible.reads_bind, Fallible.require_bind, if_pos]
    · exact .inr ⟨by rw [status, hrecord, Option.map_some, hstatus], hmanifest, rfl⟩
    · cases r.active[modelId]? with
      | none => exact hrecord ▸ Option.some_ne_none record
      | some previous =>
        show ((setStatus _ _ _).records[(modelId, version)]?) ≠ none
        rw [records_setStatus, hrecord]
        split <;> exact Option.some_ne_none _

-- What is kept of the records and the manifests

/-- The same records are registered, and the same manifests. -/
structure Keeps (r r' : Registry) : Prop where
  records : ∀ key : String × String,
    (r'.records[key]?).map ModelRecord.registered = (r.records[key]?).map ModelRecord.registered
  manifests : ∀ key : String × String, r'.manifests[key]? = r.manifests[key]?

theorem Keeps.refl (r : Registry) : Keeps r r := ⟨fun _ => rfl, fun _ => rfl⟩

theorem Keeps.trans {r'' : Registry} (h : Keeps r r') (h' : Keeps r' r'') : Keeps r r'' :=
  ⟨fun key => (h'.records key).trans (h.records key),
    fun key => (h'.manifests key).trans (h.manifests key)⟩

theorem keeps_setStatus : Keeps r (r.setStatus key target) where
  records key' := by
    rw [records_setStatus]
    split
    · rw [Option.map_map]
      rfl
    · rfl
  manifests _ := rfl

/-- Records and manifests stay well formed where they are kept. -/
theorem WellFormed.of_keeps (h : WellFormed r) (hkeeps : Keeps r r') (hcoupled : Coupled r') :
    WellFormed r' where
  toCoupled := hcoupled
  keyed key record hrecord := by
    have hregistered := hkeeps.records key
    rw [hrecord, Option.map_some] at hregistered
    obtain ⟨record', hrecord', heq⟩ := Option.map_eq_some_iff.mp hregistered.symm
    obtain ⟨hkey, hvalid⟩ := h.keyed key record' hrecord'
    have hsame : record = { record' with status := record.status } := by
      cases record
      cases record'
      simp only [ModelRecord.registered, ModelRecord.mk.injEq] at heq ⊢
      simp [heq]
    rw [hsame]
    exact ⟨hkey, hvalid⟩
  matched key manifest hmanifest := by
    rw [hkeeps.manifests] at hmanifest
    obtain ⟨record, hrecord, hmatched⟩ := h.matched key manifest hmanifest
    have hregistered := hkeeps.records key
    rw [hrecord, Option.map_some] at hregistered
    obtain ⟨record', hrecord', heq⟩ := Option.map_eq_some_iff.mp hregistered
    refine ⟨record', hrecord', ?_⟩
    have hhash := congrArg ModelRecord.artifactHash heq
    change record'.artifactHash = record.artifactHash at hhash
    rw [ArtifactManifest.validateFor] at hmatched ⊢
    rwa [hhash]

-- Coupling

/-- Writes that put nothing into production, and nothing out of it, keep the coupling. -/
theorem Coupled.of_status (h : Coupled r)
    (hstatus : ∀ key, r'.status key = some .production ↔ r.status key = some .production)
    (hactive : ∀ modelId : String, r'.active[modelId]? = r.active[modelId]?)
    (hmanifest : ∀ key : String × String,
      (r.manifests[key]?).isSome → (r'.manifests[key]?).isSome) : Coupled r' where
  unique modelId v v' hv hv' := h.unique modelId v v' ((hstatus _).mp hv) ((hstatus _).mp hv')
  active modelId v := by rw [hactive, h.active, hstatus]
  manifest modelId v hv := hmanifest _ (h.manifest modelId v (hactive modelId ▸ hv))

/-- The states after a promotion. -/
theorem status_promoted (modelId version : String) (r : Registry) (key : String × String) :
    (((r.active[modelId]?).elim { r with active := r.active.insert modelId version }
      fun previous => { r with active := r.active.insert modelId version }.setStatus
        (modelId, previous) .retired).setStatus (modelId, version) .production).status key =
      if (modelId, version) = key then (r.status key).map fun _ => .production
      else if key.1 = modelId ∧ r.active[modelId]? = some key.2 then
        (r.status key).map fun _ => .retired
      else r.status key := by
  rw [status_setStatus]
  cases hactive : r.active[modelId]? with
  | none => simp only [Option.elim_none, reduceCtorEq, and_false, if_false]; rfl
  | some previous =>
    rw [Option.elim_some, status_setStatus]
    have hkey : (modelId, previous) = key ↔ key.1 = modelId ∧ some previous = some key.2 := by
      rw [Prod.ext_iff, Option.some.injEq]
      exact and_congr_left' eq_comm
    simp only [hkey]
    split
    · split
      · exact Option.map_map ..
      · rfl
    · rfl

/-- **A promotion puts one version in production** and the active one out of it. -/
theorem Coupled.promoted (h : Coupled r) (hstatus : r.status (modelId, version) = some .canary)
    (hmanifest : r.manifests[(modelId, version)]? ≠ none)
    (hpromoted : ∀ key, r'.status key =
      if (modelId, version) = key then (r.status key).map fun _ => .production
      else if key.1 = modelId ∧ r.active[modelId]? = some key.2 then
        (r.status key).map fun _ => .retired
      else r.status key)
    (hactive : r'.active = r.active.insert modelId version)
    (hmanifests : r'.manifests = r.manifests) : Coupled r' := by
  -- The versions of the model in production are the promoted one alone.
  have hproduction : ∀ m v, r'.status (m, v) = some .production ↔
      if modelId = m then version = v else r.status (m, v) = some .production := by
    intro m v
    rw [hpromoted]
    simp only [Prod.mk.injEq]
    by_cases hm : modelId = m
    · subst hm
      by_cases hv : version = v
      · subst hv
        simp [hstatus]
      · simp only [hv, and_false, if_false, if_true, true_and, iff_false]
        split
        · cases r.status (modelId, v) <;> simp
        · next hinactive => exact fun hprod => hinactive ((h.active modelId v).mpr hprod)
    · rw [if_neg fun heq => hm heq.1, if_neg fun heq => hm heq.1.symm, if_neg hm]
  have hget : ∀ m v, r'.active[m]? = some v ↔
      if modelId = m then version = v else r.active[m]? = some v := by
    intro m v
    rw [hactive, Std.TreeMap.getElem?_insert]
    simp only [Std.LawfulEqCmp.compare_eq_iff_eq]
    split
    · rw [Option.some.injEq]
    · rfl
  refine ⟨fun m v v' hv hv' => ?_, fun m v => ?_, fun m v hv => ?_⟩
  · rw [hproduction] at hv hv'
    split at hv
    · rw [if_pos ‹_›] at hv'
      exact hv.symm.trans hv'
    · rw [if_neg ‹_›] at hv'
      exact h.unique m v v' hv hv'
  · rw [hget, hproduction, h.active]
  · rw [hmanifests]
    rw [hget] at hv
    split at hv
    · next hm =>
      rw [← hm, ← hv]
      exact Option.isSome_iff_ne_none.mpr hmanifest
    · exact h.manifest m v hv

-- Restoring the image of a registry

theorem restoreRecord_fresh {c : Registry} (hvalid : record.validMetadata = true)
    (hfresh : c.records[record.key]? = none) :
    restoreRecord record c = (.ok (), { c with
      records := c.records.insert record.key record.registered }.setStatus record.key
        record.status) := by
  have hregistered : register record.registered c =
      (.ok (), { c with records := c.records.insert record.key record.registered }) := by
    unfold register
    rw [Fallible.require_bind, if_pos (show record.registered.validMetadata = true from hvalid),
      Fallible.require_bind, if_pos (show record.registered.status = .research from rfl),
      Fallible.reads_bind, Fallible.require_bind, if_pos (show c.records[record.registered.key]? = none from hfresh)]
    rfl
  exact Fallible.bind_of_ok hregistered

/-- The records of a registry are put in as they are there. -/
theorem fill_records (h : WellFormed r) :
    ∃ c, Fallible.forEach restoreRecord r.records.values new = (.ok (), c) ∧
      (c.manifests = ∅ ∧ c.active = ∅) ∧
      ∀ key : String × String, c.records[key]? = r.records[key]? := by
  refine Fallible.forEach_fill_eq (fun (c : Registry) key => c.records[key]?) ModelRecord.key id
    (fun c => c.manifests = ∅ ∧ c.active = ∅) ?_ ⟨rfl, rfl⟩
    (MapFilter.nodup_values fun key record hrecord => (h.keyed key record hrecord).1)
    (fun _ => Std.TreeMap.getElem?_emptyc) ?_
  · intro record hmem c hempty hfresh
    obtain ⟨key, hrecord⟩ := MapFilter.mem_values.mp hmem
    refine ⟨_, restoreRecord_fresh (h.keyed key record hrecord).2 hfresh, hempty, fun key' => ?_⟩
    show (setStatus _ _ _).records[key']? = _
    rw [records_setStatus]
    simp only [Std.TreeMap.getElem?_insert, Std.LawfulEqCmp.compare_eq_iff_eq]
    split <;> rfl
  · intro key record
    constructor
    · exact fun hrecord =>
        ⟨record, MapFilter.mem_values.mpr ⟨key, hrecord⟩, (h.keyed key record hrecord).1, rfl⟩
    · rintro ⟨record', hmem, rfl, rfl⟩
      obtain ⟨key, hrecord⟩ := MapFilter.mem_values.mp hmem
      rwa [(h.keyed key record' hrecord).1]

/-- The manifests of a registry are put in next to its records. -/
theorem fill_manifests (h : WellFormed r) {c : Registry}
    (hrecords : ∀ key : String × String, c.records[key]? = r.records[key]?)
    (hempty : c.manifests = ∅) :
    ∃ c', Fallible.forEach restoreManifest r.manifests.toList c = (.ok (), c') ∧
      (c'.records = c.records ∧ c'.active = c.active) ∧
      ∀ key : String × String, c'.manifests[key]? = r.manifests[key]? := by
  refine Fallible.forEach_fill_eq (fun (c : Registry) key => c.manifests[key]?) Prod.fst Prod.snd
    (fun c' => c'.records = c.records ∧ c'.active = c.active) ?_ ⟨rfl, rfl⟩
    (Std.TreeMap.map_fst_toList_eq_keys ▸ Std.TreeMap.nodup_keys)
    (fun _ => by rw [hempty, Std.TreeMap.getElem?_emptyc]) ?_
  · rintro ⟨key, manifest⟩ hmem c' hsame hfresh
    obtain ⟨record, hrecord, hmatched⟩ :=
      h.matched key manifest (Std.TreeMap.mem_toList_iff_getElem?_eq_some.mp hmem)
    have hstored : c'.records[key]? = some record := by rw [hsame.1, hrecords, hrecord]
    refine ⟨{ c' with manifests := c'.manifests.insert key manifest }, ?_, hsame, fun key' => ?_⟩
    · unfold restoreManifest
      rw [Fallible.reads_bind, hstored, Fallible.orFail_bind_some rfl,
        Fallible.ofExcept_bind_ok hmatched, Fallible.reads_bind, Fallible.modify_bind, hfresh]
      rfl
    · simp only [Std.TreeMap.getElem?_insert, Std.LawfulEqCmp.compare_eq_iff_eq]
  · intro key manifest
    rw [← Std.TreeMap.mem_toList_iff_getElem?_eq_some]
    constructor
    · exact fun hmem => ⟨(key, manifest), hmem, rfl, rfl⟩
    · rintro ⟨entry, hmem, rfl, rfl⟩
      exact hmem

/-- The active versions of a registry are put in when its records and manifests are there. -/
theorem fill_active (h : WellFormed r) {c : Registry}
    (hrecords : ∀ key : String × String, c.records[key]? = r.records[key]?)
    (hempty : c.active = ∅) :
    ∃ c', Fallible.forEach restoreActive r.active.toList c = (.ok (), c') ∧
      (c'.records = c.records ∧ c'.manifests = c.manifests) ∧
      ∀ modelId : String, c'.active[modelId]? = r.active[modelId]? := by
  refine Fallible.forEach_fill_eq (fun (c : Registry) modelId => c.active[modelId]?) Prod.fst
    Prod.snd (fun c' => c'.records = c.records ∧ c'.manifests = c.manifests) ?_ ⟨rfl, rfl⟩
    (Std.TreeMap.map_fst_toList_eq_keys ▸ Std.TreeMap.nodup_keys)
    (fun _ => by rw [hempty, Std.TreeMap.getElem?_emptyc]) ?_
  · rintro ⟨modelId, version⟩ hmem c' hsame hfresh
    have hstatus := (h.active modelId version).mp
      (Std.TreeMap.mem_toList_iff_getElem?_eq_some.mp hmem)
    obtain ⟨record, hrecord, hproduction⟩ := Option.map_eq_some_iff.mp hstatus
    have hstored : c'.records[(modelId, version)]? = some record := by
      rw [hsame.1, hrecords, hrecord]
    refine ⟨{ c' with active := c'.active.insert modelId version }, ?_, hsame, fun modelId' => ?_⟩
    · unfold restoreActive
      rw [Fallible.reads_bind, hstored, Fallible.orFail_bind_some rfl,
        Fallible.require_bind, if_pos hproduction, Fallible.reads_bind, Fallible.modify_bind, hfresh]
      rfl
    · simp only [Std.TreeMap.getElem?_insert, Std.LawfulEqCmp.compare_eq_iff_eq]
  · intro modelId version
    rw [← Std.TreeMap.mem_toList_iff_getElem?_eq_some]
    constructor
    · exact fun hmem => ⟨(modelId, version), hmem, rfl, rfl⟩
    · rintro ⟨entry, hmem, rfl, rfl⟩
      exact hmem

/-- **The image of a registry restores it**, whatever it is restored into. -/
theorem restoreSnapshot_snapshot (h : WellFormed r) (old : Registry) :
    ∃ r', restoreSnapshot r.snapshot old = (.ok (), r') ∧ Same r r' := by
  obtain ⟨c₁, hrun₁, ⟨hnone, hidle⟩, hrecords⟩ := fill_records h
  obtain ⟨c₂, hrun₂, ⟨hkept, hstill⟩, hmanifests⟩ := fill_manifests h hrecords hnone
  obtain ⟨c₃, hrun₃, ⟨hkept', hproven⟩, hactive⟩ :=
    fill_active h (fun key => hkept ▸ hrecords key) (hstill.trans hidle)
  have hmissing : c₂.unproven = false := by
    rw [unproven, List.any_eq_false]
    rintro ⟨⟨modelId, version⟩, record⟩ hmem
    have hrecord := Std.TreeMap.mem_toList_iff_getElem?_eq_some.mp hmem
    rw [hkept, hrecords] at hrecord
    rw [Bool.and_eq_true, decide_eq_true_iff, hmanifests]
    rintro ⟨hproduction, hunproven⟩
    have hstatus : r.status (modelId, version) = some .production := by
      rw [status, hrecord, Option.map_some, hproduction]
    have hmanifest := h.manifest modelId version ((h.active modelId version).mpr hstatus)
    rw [Option.isNone_iff_eq_none] at hunproven
    rw [hunproven] at hmanifest
    cases hmanifest
  have hfill : fill r.snapshot new = (.ok (), c₃) := by
    refine (Fallible.bind_of_ok hrun₁).trans ((Fallible.bind_of_ok hrun₂).trans ?_)
    rw [Fallible.reads_bind, Fallible.require_bind, if_pos hmissing]
    exact hrun₃
  refine ⟨c₃, by rw [restoreSnapshot, hfill], fun key => ?_, fun key => ?_, hactive⟩
  · rw [hkept', hkept, hrecords]
  · rw [hproven, hmanifests]

-- What one call keeps, and how it moves a version

theorem Same.status (h : Same r r') : r'.status key = r.status key := by
  rw [Registry.status, h.records, Registry.status]

theorem Same.wellFormed (h : Same r r') (hr : WellFormed r) : WellFormed r' :=
  hr.of_keeps ⟨fun key => by rw [h.records], h.manifests⟩
    (hr.toCoupled.of_status (fun _ => by rw [h.status]) h.active fun key hsome => by
      rwa [h.manifests])

/-- A call keeps the registry well formed and moves no version further than one state on. -/
def Proceeds (p : Fallible Registry RegistryError Unit) : Prop :=
  ∀ r, WellFormed r → WellFormed (p r).2 ∧ ∀ key, Moves (r.status key) ((p r).2.status key)

theorem Proceeds.of_error {p : Fallible Registry RegistryError Unit} {e : RegistryError}
    (hr : WellFormed r) (h : p r = (.error e, r)) :
    WellFormed (p r).2 ∧ ∀ key, Moves (r.status key) ((p r).2.status key) := by
  rw [h]
  exact ⟨hr, fun _ => .inl rfl⟩

theorem status_insert :
    { r with records := r.records.insert record.key record }.status key =
      if record.key = key then some record.status else r.status key := by
  rw [status, Std.TreeMap.getElem?_insert]
  simp only [Std.LawfulEqCmp.compare_eq_iff_eq]
  split <;> rfl

/-- A new record is for research, and has no manifest yet. -/
theorem wellFormed_insert (hr : WellFormed r) (hvalid : record.validMetadata = true)
    (hstatus : record.status = .research) (hfresh : r.records[record.key]? = none) :
    WellFormed { r with records := r.records.insert record.key record } where
  toCoupled := by
    refine hr.toCoupled.of_status (fun key => ?_) (fun _ => rfl) fun _ h => h
    rw [status_insert, hstatus]
    split
    · next hkey => simp [status, ← hkey, hfresh]
    · rfl
  keyed key stored hstored := by
    rw [Std.TreeMap.getElem?_insert] at hstored
    simp only [Std.LawfulEqCmp.compare_eq_iff_eq] at hstored
    split at hstored
    · next hkey =>
      obtain rfl := Option.some.inj hstored
      exact ⟨hkey, hvalid⟩
    · exact hr.keyed key stored hstored
  matched key manifest hmanifest := by
    obtain ⟨stored, hstored, hmatched⟩ := hr.matched key manifest hmanifest
    refine ⟨stored, ?_, hmatched⟩
    rw [Std.TreeMap.getElem?_insert]
    simp only [Std.LawfulEqCmp.compare_eq_iff_eq]
    rw [if_neg, hstored]
    rintro rfl
    rw [hfresh] at hstored
    cases hstored

theorem proceeds_register : Proceeds (register record) := by
  intro r hr
  obtain ⟨e, hfail⟩ | ⟨hvalid, hstatus, hfresh, hrun⟩ := register_cases record r
  · exact Proceeds.of_error hr hfail
  · rw [hrun]
    refine ⟨wellFormed_insert hr hvalid hstatus hfresh, fun key => ?_⟩
    rw [status_insert, hstatus]
    split
    · next hkey => exact .inr (by simp [status, ← hkey, hfresh, rank])
    · exact .inl rfl

theorem proceeds_registerVerified {manifest : ArtifactManifest} :
    Proceeds (registerVerified record manifest) := by
  intro r hr
  unfold registerVerified
  cases hmatched : manifest.validateFor record with
  | error e => exact Proceeds.of_error hr rfl
  | ok u =>
    rw [Fallible.ofExcept_bind_ok rfl]
    have hregister : Proceeds (register record) := proceeds_register
    obtain ⟨hwell, hmoves⟩ := hregister r hr
    obtain ⟨e, hfail⟩ | ⟨-, -, hfresh, hrun⟩ := register_cases record r
    · rw [Fallible.bind_of_error hfail]
      exact ⟨hr, fun _ => .inl rfl⟩
    · rw [Fallible.bind_of_ok hrun]
      rw [hrun] at hwell hmoves
      refine ⟨⟨hwell.toCoupled.of_status (fun _ => Iff.rfl) (fun _ => rfl) fun key hsome => ?_,
        hwell.keyed, fun key stored hstored => ?_⟩, hmoves⟩
      · show (((r.manifests.insert record.key manifest)[key]?).isSome) = true
        rw [Std.TreeMap.getElem?_insert]
        split
        · rfl
        · exact hsome
      · change (r.manifests.insert record.key manifest)[key]? = some stored at hstored
        rw [Std.TreeMap.getElem?_insert] at hstored
        simp only [Std.LawfulEqCmp.compare_eq_iff_eq] at hstored
        split at hstored
        · next hkey =>
          obtain rfl := Option.some.inj hstored
          refine ⟨record, ?_, hmatched⟩
          show (r.records.insert record.key record)[key]? = some record
          rw [← hkey, Std.TreeMap.getElem?_insert_self]
        · exact hwell.matched key stored hstored

/-- A step towards production ends before it. -/
theorem proceeds_advance (hrank : rank (some target) = rank (some source) + 1)
    (hsource : source ≠ .production) (htarget : target ≠ .production) :
    Proceeds (advance key source target) := by
  intro r hr
  obtain ⟨e, hfail⟩ | ⟨hstatus, hrun⟩ := advance_cases key source target r
  · exact Proceeds.of_error hr hfail
  · rw [hrun]
    refine ⟨hr.of_keeps keeps_setStatus (hr.toCoupled.of_status (fun key' => ?_) (fun _ => rfl)
      fun _ h => h), fun key' => ?_⟩
    · rw [status_setStatus]
      split
      · next hkey => simp [← hkey, hstatus, hsource, htarget]
      · rfl
    · rw [status_setStatus]
      split
      · next hkey =>
        rw [← hkey, hstatus]
        exact .inr hrank
      · exact .inl rfl

/-- A blank identity is refused before anything is read. -/
theorem proceeds_require {c : Prop} [Decidable c] {e : RegistryError}
    {p : Fallible Registry RegistryError Unit} (h : Proceeds p) :
    Proceeds (Fallible.require c e >>= fun _ => p) := by
  intro r hr
  rw [Fallible.require_bind]
  split
  · exact h r hr
  · exact ⟨hr, fun _ => .inl rfl⟩

theorem proceeds_promote : Proceeds (promote modelId version) := by
  intro r hr
  obtain ⟨e, hfail⟩ | ⟨hstatus, hmanifest, hrun⟩ := promote_cases modelId version r
  · exact Proceeds.of_error hr hfail
  rw [hrun]
  have hwrites := status_promoted modelId version r
  refine ⟨hr.of_keeps ?_ (hr.toCoupled.promoted hstatus hmanifest hwrites ?_ ?_), fun key => ?_⟩
  · have hactive : Keeps r { r with active := r.active.insert modelId version } :=
      ⟨fun _ => rfl, fun _ => rfl⟩
    refine Keeps.trans ?_ keeps_setStatus
    cases r.active[modelId]? with
    | none => exact hactive
    | some previous => exact hactive.trans keeps_setStatus
  · cases r.active[modelId]? <;> rfl
  · cases r.active[modelId]? <;> rfl
  · show Moves _ (status key _)
    rw [hwrites]
    split
    · next hkey =>
      rw [← hkey, hstatus]
      exact .inr rfl
    split
    · next hactive =>
      obtain ⟨rfl, hprevious⟩ := hactive
      rw [show r.status key = some .production from (hr.active _ _).mp hprevious]
      exact .inr rfl
    · exact .inl rfl

-- Runs

/-- A call that passes through no other registry. -/
theorem chain_of_proceeds {p : Fallible Registry RegistryError Unit} (h : Proceeds p)
    (hr : WellFormed r) : WellFormed (p r).2 ∧
      ∀ key, ([r, (p r).2].map (status key)).IsChain Moves :=
  ⟨(h r hr).1, fun key => .cons_cons ((h r hr).2 key) (.singleton _)⟩

/-- A challenger is validated on the way; where that fails, nothing is written. -/
theorem chain_startChallenger (hr : WellFormed r) :
    WellFormed (startChallenger modelId version r).2 ∧ ∀ key,
      ([r, (validate modelId version "legacy-validation" r).2,
        (startChallenger modelId version r).2].map (status key)).IsChain Moves := by
  have hvalidate : Proceeds (validate modelId version "legacy-validation") :=
    proceeds_require (proceeds_advance rfl (by decide) (by decide))
  have hshadow : Proceeds (startShadow modelId version) :=
    proceeds_advance rfl (by decide) (by decide)
  obtain ⟨hwell, hmoves⟩ := hvalidate r hr
  unfold startChallenger
  rcases hrun : validate modelId version "legacy-validation" r with ⟨e | u, p⟩
  · rw [hrun] at hwell hmoves
    rw [Fallible.bind_of_error hrun]
    exact ⟨hwell, fun key => .cons_cons (hmoves key) (.cons_cons (.inl rfl) (.singleton _))⟩
  · rw [hrun] at hwell hmoves
    rw [Fallible.bind_of_ok hrun]
    obtain ⟨hwell', hmoves'⟩ := hshadow p hwell
    exact ⟨hwell', fun key =>
      .cons_cons (hmoves key) (.cons_cons (hmoves' key) (.singleton _))⟩

/-- **Every call keeps the registry well formed**, and moves its version on, state by state. -/
theorem step_wellFormed (call : Call) (hr : WellFormed r) : WellFormed (step call r) ∧
    ∀ key, ((r :: call.passes r ++ [step call r]).map (status key)).IsChain Moves := by
  have hvalidate : ∀ {key source target evidenceId},
      rank (some target) = rank (some source) + 1 → source ≠ .production → target ≠ .production →
      Proceeds (Fallible.require (¬Text.isBlank evidenceId) RegistryError.authorizationRequired >>=
        fun _ => advance key source target) :=
    fun hrank hsource htarget => proceeds_require (proceeds_advance hrank hsource htarget)
  cases call with
  | register record => exact chain_of_proceeds proceeds_register hr
  | registerVerified record manifest => exact chain_of_proceeds proceeds_registerVerified hr
  | validate modelId version evidenceId =>
    exact chain_of_proceeds (hvalidate rfl (by decide) (by decide)) hr
  | startShadow modelId version =>
    exact chain_of_proceeds (proceeds_advance rfl (by decide) (by decide)) hr
  | startCanary modelId version evidenceId =>
    exact chain_of_proceeds (hvalidate rfl (by decide) (by decide)) hr
  | promote modelId version => exact chain_of_proceeds proceeds_promote hr
  | startChallenger modelId version => exact chain_startChallenger hr
  | restore =>
    refine chain_of_proceeds (p := Call.restore.run) (fun r hr => ?_) hr
    obtain ⟨r', hrestore, hsame⟩ := restoreSnapshot_snapshot hr r
    have hrun : Call.restore.run r = (.ok (), r') := hrestore
    rw [hrun]
    exact ⟨hsame.wellFormed hr, fun key => .inl hsame.status⟩

theorem wellFormed_new : WellFormed new where
  unique _ _ _ h := by cases h
  active _ _ := by
    refine iff_of_false ?_ ?_
    · intro h
      cases h
    · intro h
      cases h
  manifest _ _ h := by cases h
  keyed _ _ h := by cases h
  matched _ _ h := by cases h

/-- A history begins with the state of its version. -/
theorem history_eq_cons (key : String × String) (r : Registry) (calls : List Call) :
    ∃ rest, history key r calls = r.status key :: rest := by
  cases calls with
  | nil => exact ⟨[], rfl⟩
  | cons call calls => exact ⟨_, rfl⟩

/-- Along a history every state is the one before it, or the next one of the lifecycle. -/
theorem chain_history (key : String × String) (hr : WellFormed r) (calls : List Call) :
    (history key r calls).IsChain Moves := by
  induction calls generalizing r with
  | nil => exact .singleton _
  | cons call calls ih =>
    obtain ⟨hwell, hchain⟩ := step_wellFormed call hr
    have hrest := ih hwell
    have hcall := hchain key
    obtain ⟨rest, hhistory⟩ := history_eq_cons key (step call r) calls
    rw [history, hhistory]
    rw [hhistory] at hrest
    rw [List.map_append] at hcall
    have hwhole := hcall.append_overlap hrest (List.cons_ne_nil _ _)
    rwa [List.append_assoc] at hwhole

theorem drop_rank (s : Option ModelStatus) :
    lifecycle.drop (rank s) = s :: lifecycle.drop (rank s + 1) := by
  rcases s with _ | s
  · rfl
  · cases s <;> rfl

/-- A chain of moves goes through the lifecycle without leaving a state out. -/
theorem destutter_prefix {states : List (Option ModelStatus)} {s : Option ModelStatus}
    (h : (s :: states).IsChain Moves) :
    states.destutter' (· ≠ ·) s <+: lifecycle.drop (rank s) := by
  induction states generalizing s with
  | nil =>
    rw [drop_rank]
    exact ⟨_, rfl⟩
  | cons s' states ih =>
    obtain ⟨hmove, hchain⟩ := List.isChain_cons_cons.mp h
    by_cases hsame : s' = s
    · rw [List.destutter'_cons_neg _ (not_not.mpr hsame.symm), ← hsame]
      exact ih hchain
    · rw [List.destutter'_cons_pos _ (Ne.symm hsame), drop_rank,
        ← hmove.resolve_left hsame]
      exact List.cons_prefix_cons.mpr ⟨rfl, ih hchain⟩

end Registry

/-- **Along every run** of calls a model has one version in production at most, its active one;
the image of the registry restores it; and a version goes through its states in their order. -/
theorem lifecycle_along (calls : List Registry.Call) :
    (∀ r ∈ Runs.states Registry.step Registry.new calls, r.Coupled ∧
        ∀ old, ∃ r', Registry.restoreSnapshot r.snapshot old = (.ok (), r') ∧ r.Same r') ∧
      ∀ key, (Registry.history key Registry.new calls).destutter (· ≠ ·) <+: Registry.lifecycle := by
  constructor
  · intro r hr
    have hwell : r.WellFormed := Runs.states_of_step (A := fun _ => True)
      (I := Registry.WellFormed) (G := fun _ _ => True)
      (fun call r _ h _ => (Registry.step_wellFormed call h).1) Registry.wellFormed_new
      (fun _ _ => trivial) (fun _ _ => trivial) r hr
    exact ⟨hwell.toCoupled, fun old => Registry.restoreSnapshot_snapshot hwell old⟩
  · intro key
    have hchain := Registry.chain_history key Registry.wellFormed_new calls
    obtain ⟨rest, hhistory⟩ := Registry.history_eq_cons key Registry.new calls
    rw [hhistory] at hchain ⊢
    exact Registry.destutter_prefix hchain

end InsiderTrader
