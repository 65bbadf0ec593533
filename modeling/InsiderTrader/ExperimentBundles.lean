import Std.Data.String.ToNat
import InsiderTrader.Library.Lines
import InsiderTrader.Library.Text
import Mathlib.Data.String.Basic

/-!
# Experiment bundles

The provenance of a research run is written as lines of a key and a value, and
the hash of the text is the address of the run. The keys of the maps are free
text, so that a line may be read in more than one way.

## Main definitions

- `ExperimentBundle.canonicalBytes` — the manifest of a bundle
- `TextMap.Firm` — no line of a map can be read as another entry in its place

## Main results

- `ExperimentBundle.address_injective_iff` — which bundles are told by their manifest
-/

namespace InsiderTrader

/-- The control characters of Unicode. -/
def isControl (c : Char) : Bool := c.toNat < 0x20 ∨ (0x7F ≤ c.toNat ∧ c.toNat ≤ 0x9F)

/-- A bounded text that is not blank and has no control character. -/
def validText (value : String) : Bool :=
  !Text.isBlank value && decide (value.utf8ByteSize ≤ 4096) && !value.toList.any isControl

/-- A map from texts to texts, by increasing keys. -/
@[ext] structure TextMap where
  entries : List (String × String)
  sorted : entries.Pairwise (·.1 < ·.1)
  deriving DecidableEq

namespace TextMap

/-- A map of valid texts with a bounded number of entries. -/
def Valid (m : TextMap) : Prop :=
  m.entries.length ≤ 2048 ∧ ∀ e ∈ m.entries, validText e.1 = true ∧ validText e.2 = true

instance : DecidablePred Valid := fun _ => inferInstanceAs (Decidable (_ ∧ _))

/-- The text of an entry in its line. -/
def cut (e : String × String) : List Char := e.1.toList ++ '=' :: e.2.toList

/-- The new key stands where the old one stood: every other key is on the same side of both. -/
def InPlace (es : List (String × String)) (e e' : String × String) : Prop :=
  ∀ other ∈ es, other ≠ e → (other.1 < e.1 ↔ other.1 < e'.1) ∧ other.1 ≠ e'.1

/-- No line of the map can be cut into another valid entry that would stand in the same place. -/
def Firm (m : TextMap) : Prop :=
  ∀ e ∈ m.entries, ∀ e' : String × String, validText e'.1 = true → validText e'.2 = true →
    cut e' = cut e → InPlace m.entries e e' → e' = e

section Cuts

variable {es es' : List (String × String)} {e e' : String × String}

/-- The key decides how a line is cut. -/
theorem eq_of_key_eq (hkey : e.1 = e'.1) (hcut : cut e = cut e') : e = e' := by
  rw [cut, cut, hkey] at hcut
  have hvalue := (List.cons.inj (List.append_cancel_left hcut)).2
  exact Prod.ext hkey (String.toList_inj.mp hvalue)

theorem value_eq {key value value' : String} (h : cut (key, value') = cut (key, value)) :
    value' = value := by
  have hsame : (key, value') = (key, value) := eq_of_key_eq rfl h
  exact (Prod.mk.inj hsame).2

/-- Lists of the same lines pair their entries. -/
theorem exists_mem_zip (hcuts : es'.map cut = es.map cut) (he : e ∈ es) :
    ∃ e', (e, e') ∈ es.zip es' := by
  have hlength : es.length = es'.length := by simpa using congrArg List.length hcuts.symm
  obtain ⟨i, hi, rfl⟩ := List.mem_iff_getElem.mp he
  refine ⟨es'[i], List.mem_iff_getElem.mpr ⟨i, ?_, List.getElem_zip⟩⟩
  rw [List.length_zip]
  omega

theorem cut_eq_of_mem_zip (hcuts : es'.map cut = es.map cut) (h : (e, e') ∈ es.zip es') :
    cut e' = cut e := by
  obtain ⟨i, hi, heq⟩ := List.mem_iff_getElem.mp h
  rw [List.getElem_zip, Prod.mk.injEq] at heq
  rw [List.length_zip] at hi
  have hline := congrArg (·[i]?) hcuts
  simp only [List.getElem?_map, List.getElem?_eq_getElem (show i < es.length by omega),
    List.getElem?_eq_getElem (show i < es'.length by omega), heq.1, heq.2] at hline
  exact Option.some.inj hline

/-- Entries whose lines are cut further on somewhere: the last of them keeps its place with the
longer key. -/
theorem exists_later_cut (hsorted : es.Pairwise (·.1 < ·.1)) (hsorted' : es'.Pairwise (·.1 < ·.1))
    (hcuts : es'.map cut = es.map cut) (hlater : ∃ p ∈ es.zip es', p.1.1 < p.2.1) :
    ∃ p ∈ es.zip es', p.1.1 < p.2.1 ∧ InPlace es p.1 p.2 := by
  induction es generalizing es' with
  | nil => simp at hlater
  | cons e es ih =>
    obtain ⟨e', es', rfl, hcut, hcuts⟩ := List.map_eq_cons_iff.mp hcuts
    obtain ⟨hfirst, hsorted⟩ := List.pairwise_cons.mp hsorted
    obtain ⟨hfirst', hsorted'⟩ := List.pairwise_cons.mp hsorted'
    by_cases hrest : ∃ p ∈ es.zip es', p.1.1 < p.2.1
    · obtain ⟨p, hp, hlonger, hplace⟩ := ih hsorted hsorted' hcuts hrest
      refine ⟨p, List.mem_cons_of_mem _ hp, hlonger,
        List.forall_mem_cons.mpr ⟨fun _ => ?_, hplace⟩⟩
      have hbefore : e.1 < p.1.1 := hfirst _ (List.of_mem_zip hp).1
      have hbefore' := hbefore.trans hlonger
      exact ⟨iff_of_true hbefore hbefore', hbefore'.ne⟩
    · obtain ⟨p, hp, hlonger⟩ := hlater
      rcases List.mem_cons.mp hp with rfl | hp
      · refine ⟨_, List.mem_cons_self, hlonger,
          List.forall_mem_cons.mpr ⟨fun h => absurd rfl h, fun other hother _ => ?_⟩⟩
        -- no later key is cut further on, so that the next one is above the longer key
        obtain ⟨other', hpair⟩ := exists_mem_zip hcuts hother
        have hshorter : other'.1 ≤ other.1 := not_lt.mp fun h => hrest ⟨_, hpair, h⟩
        have hafter' : e'.1 < other.1 :=
          (hfirst' _ (List.of_mem_zip hpair).2).trans_le hshorter
        exact ⟨iff_of_false (hfirst _ hother).asymm hafter'.asymm, hafter'.ne'⟩
      · exact absurd ⟨p, hp, hlonger⟩ hrest

/-- Entries whose lines are cut earlier somewhere and nowhere further on: the first of them keeps
its place with the shorter key. -/
theorem exists_earlier_cut (hsorted : es.Pairwise (·.1 < ·.1))
    (hsorted' : es'.Pairwise (·.1 < ·.1)) (hcuts : es'.map cut = es.map cut) (hne : es' ≠ es)
    (hnone : ¬∃ p ∈ es.zip es', p.1.1 < p.2.1) :
    ∃ p ∈ es.zip es', p.2.1 < p.1.1 ∧ InPlace es p.1 p.2 := by
  induction es generalizing es' with
  | nil => exact absurd (List.map_eq_nil_iff.mp hcuts) hne
  | cons e es ih =>
    obtain ⟨e', es', rfl, hcut, hrest⟩ := List.map_eq_cons_iff.mp hcuts
    obtain ⟨hfirst, hes⟩ := List.pairwise_cons.mp hsorted
    obtain ⟨hfirst', hes'⟩ := List.pairwise_cons.mp hsorted'
    have hle : e'.1 ≤ e.1 := not_lt.mp fun h => hnone ⟨_, List.mem_cons_self, h⟩
    rcases hle.lt_or_eq with hshorter | hkey
    · refine ⟨_, List.mem_cons_self, hshorter,
        List.forall_mem_cons.mpr ⟨fun h => absurd rfl h, fun other hother _ => ?_⟩⟩
      have hafter := hfirst _ hother
      have hafter' := hshorter.trans hafter
      exact ⟨iff_of_false hafter.asymm hafter'.asymm, hafter'.ne'⟩
    · obtain rfl := eq_of_key_eq hkey hcut
      obtain ⟨p, hp, hshorter, hplace⟩ := ih hes hes' hrest
        (fun h => hne (congrArg _ h)) fun ⟨p, hp, h⟩ => hnone ⟨p, List.mem_cons_of_mem _ hp, h⟩
      refine ⟨p, List.mem_cons_of_mem _ hp, hshorter,
        List.forall_mem_cons.mpr ⟨fun _ => ?_, hplace⟩⟩
      have hbefore := hfirst _ (List.of_mem_zip hp).1
      have hbefore' := hfirst' _ (List.of_mem_zip hp).2
      exact ⟨iff_of_true hbefore hbefore', hbefore'.ne⟩

/-- **A firm map** is told from every other valid one by its lines. -/
theorem Firm.eq_of_cuts {m m' : TextMap} (h : m.Firm) (hvalid : m'.Valid)
    (hcuts : m'.entries.map cut = m.entries.map cut) : m' = m := by
  by_contra hne
  have hentries : m'.entries ≠ m.entries := fun heq => hne (TextMap.ext heq)
  have hmoved : ∃ p ∈ m.entries.zip m'.entries, p.2.1 ≠ p.1.1 ∧ InPlace m.entries p.1 p.2 := by
    by_cases hlater : ∃ p ∈ m.entries.zip m'.entries, p.1.1 < p.2.1
    · obtain ⟨p, hp, hlonger, hplace⟩ := exists_later_cut m.sorted m'.sorted hcuts hlater
      exact ⟨p, hp, hlonger.ne', hplace⟩
    · obtain ⟨p, hp, hshorter, hplace⟩ :=
        exists_earlier_cut m.sorted m'.sorted hcuts hentries hlater
      exact ⟨p, hp, hshorter.ne, hplace⟩
  obtain ⟨⟨e, e'⟩, hp, hkey, hplace⟩ := hmoved
  obtain ⟨he, he'⟩ := List.of_mem_zip hp
  obtain ⟨hkeyValid, hvalueValid⟩ := hvalid.2 e' he'
  have hsame := h e he e' hkeyValid hvalueValid (cut_eq_of_mem_zip hcuts hp) hplace
  exact hkey (congrArg Prod.fst hsame)

/-- An entry of a map that can be cut in another way makes another map with the same lines. -/
theorem exists_recut {m : TextMap} (hm : m.Valid) (he : e ∈ m.entries)
    (hkey : validText e'.1 = true) (hvalue : validText e'.2 = true) (hcut : cut e' = cut e)
    (hplace : InPlace m.entries e e') :
    ∃ m' : TextMap, m'.Valid ∧ m'.entries.map cut = m.entries.map cut ∧ (m' = m → e' = e) := by
  have hsorted : (m.entries.map fun x => if x = e then e' else x).Pairwise (·.1 < ·.1) := by
    refine List.pairwise_map.mpr (m.sorted.imp_of_mem fun {x y} hx hy hxy => ?_)
    by_cases hxe : x = e
    · subst hxe
      have hye : y ≠ x := fun h => hxy.ne (congrArg Prod.fst h.symm)
      obtain ⟨hside, hother⟩ := hplace y hy hye
      rw [if_pos rfl, if_neg hye]
      exact lt_of_le_of_ne (not_lt.mp fun h => hxy.asymm (hside.mpr h)) hother.symm
    · rw [if_neg hxe]
      split
      · next hye => exact ((hplace x hx hxe).1).mp (hye ▸ hxy)
      · exact hxy
  refine ⟨⟨_, hsorted⟩, ⟨?_, fun x hx => ?_⟩, ?_, fun hsame => ?_⟩
  · rw [List.length_map]
    exact hm.1
  · obtain ⟨y, hy, rfl⟩ := List.mem_map.mp hx
    split
    · exact ⟨hkey, hvalue⟩
    · exact hm.2 y hy
  · rw [List.map_map]
    refine List.map_congr_left fun x _ => ?_
    by_cases hxe : x = e
    · rw [Function.comp_apply, if_pos hxe, hcut, hxe]
    · rw [Function.comp_apply, if_neg hxe]
  · have hentries : m.entries.map (fun x => if x = e then e' else x) = m.entries.map id := by
      rw [List.map_id]
      exact congrArg entries hsame
    simpa using List.map_inj_left.mp hentries e he

end Cuts

end TextMap

/-- An artifact of a run, addressed by its hash. -/
structure ExperimentArtifact where
  kind : String
  hash : String
  path : String
  deriving DecidableEq

/-- Complete immutable provenance for a research run. -/
structure ExperimentBundle where
  runId : String
  codeHash : String
  configHash : String
  datasetHash : String
  schemaHashes : TextMap
  modelHashes : TextMap
  promptHashes : TextMap
  environment : TextMap
  command : List String
  seed : ℕ
  artifacts : List ExperimentArtifact
  reportHash : String
  deriving DecidableEq

/-- Failure of the bundle store. -/
inductive BundleError where
  | invalidMetadata
  deriving DecidableEq

/-- The maps of a bundle. -/
inductive BundleMap where
  | schema
  | model
  | prompt
  | environment
  deriving DecidableEq

namespace ExperimentBundle

/-- One of the maps. -/
def map (b : ExperimentBundle) : BundleMap → TextMap
  | .schema => b.schemaHashes
  | .model => b.modelHashes
  | .prompt => b.promptHashes
  | .environment => b.environment

/-- Required provenance is present and bounded. -/
def Valid (b : ExperimentBundle) : Prop :=
  (∀ value ∈ [b.runId, b.codeHash, b.configHash, b.datasetHash, b.reportHash],
    validText value = true) ∧
  (b.command ≠ [] ∧ b.command.length ≤ 512 ∧ ∀ value ∈ b.command, validText value = true) ∧
  (b.schemaHashes.Valid ∧ b.modelHashes.Valid ∧ b.promptHashes.Valid ∧ b.environment.Valid) ∧
  (b.artifacts.length ≤ 4096 ∧ ∀ a ∈ b.artifacts,
    validText a.kind = true ∧ validText a.hash = true ∧ validText a.path = true)

instance : DecidablePred Valid := fun _ => inferInstanceAs (Decidable (_ ∧ _))

def validate (b : ExperimentBundle) : Except BundleError Unit :=
  if b.Valid then .ok () else .error .invalidMetadata

/-- One line of the manifest. -/
def line (entry : String × String) : String := entry.1 ++ "=" ++ entry.2 ++ "\n"

/-- The entries that every manifest begins with. -/
def header (b : ExperimentBundle) : List (String × String) :=
  [("format", "insidertrader-experiment-bundle-v1"), ("run_id", b.runId),
    ("code_hash", b.codeHash), ("config_hash", b.configHash), ("dataset_hash", b.datasetHash),
    ("seed", toString b.seed), ("report_hash", b.reportHash)]

/-- The entries of a map under the prefix of its keys. -/
def mapEntries (lead : String) (m : TextMap) : List (String × String) :=
  m.entries.map fun e => (lead ++ e.1, e.2)

/-- The entries of a command, from an index on. -/
def commandEntries : ℕ → List String → List (String × String)
  | _, [] => []
  | i, argument :: command => ("command." ++ toString i, argument) :: commandEntries (i + 1) command

/-- The entries of the artifacts, from an index on. -/
def artifactEntries : ℕ → List ExperimentArtifact → List (String × String)
  | _, [] => []
  | i, artifact :: artifacts =>
    ("artifact." ++ toString i ++ ".kind", artifact.kind) ::
      ("artifact." ++ toString i ++ ".hash", artifact.hash) ::
      ("artifact." ++ toString i ++ ".path", artifact.path) :: artifactEntries (i + 1) artifacts

/-- The entries that follow the header: the maps, the command and the artifacts. -/
def body (b : ExperimentBundle) : List (String × String) :=
  mapEntries "schema." b.schemaHashes ++ (mapEntries "model." b.modelHashes ++
    (mapEntries "prompt." b.promptHashes ++ (mapEntries "environment." b.environment ++
      (commandEntries 0 b.command ++ artifactEntries 0 b.artifacts))))

/-- The entries of the manifest in order. -/
def entries (b : ExperimentBundle) : List (String × String) := b.header ++ b.body

/-- The deterministic, line-oriented manifest of a bundle. -/
def canonicalBytes (b : ExperimentBundle) : Except BundleError ByteArray := do
  b.validate
  pure (String.join (b.entries.map line)).toUTF8

-- The manifest as lines

theorem toList_line (e : String × String) : (line e).toList = TextMap.cut e ++ ['\n'] := by
  simp [line, TextMap.cut]

theorem toList_manifest (es : List (String × String)) :
    (String.join (es.map line)).toList = Lines.unlines '\n' (es.map TextMap.cut) := by
  rw [String.toList_join, Lines.unlines, List.flatMap_map, List.flatMap_map]
  exact List.flatMap_congr fun e _ => toList_line e

/-- A text without a line feed. -/
def OneLine (value : String) : Prop := '\n' ∉ value.toList

instance : DecidablePred OneLine := fun _ => inferInstanceAs (Decidable (¬_))

theorem oneLine_of_validText {value : String} (h : validText value = true) : OneLine value := by
  intro hmem
  simp only [validText, Bool.and_eq_true, Bool.not_eq_true', List.any_eq_false] at h
  exact h.2 _ hmem (by decide)

theorem oneLine_append {s t : String} (hs : OneLine s) (ht : OneLine t) : OneLine (s ++ t) := by
  rw [OneLine, String.toList_append, List.mem_append, not_or]
  exact ⟨hs, ht⟩

theorem oneLine_toString (n : ℕ) : OneLine (toString n) := by
  intro hmem
  have hdigit : '\n'.isDigit = true := by
    rw [show toString n = Nat.repr n from rfl, Nat.repr, String.toList_ofList] at hmem
    exact Nat.isDigit_of_mem_toDigits (by decide) (by decide) hmem
  exact absurd hdigit (by decide)

theorem not_mem_cut {e : String × String} (hkey : OneLine e.1) (hvalue : OneLine e.2) :
    '\n' ∉ TextMap.cut e := by
  rw [TextMap.cut, List.mem_append, List.mem_cons]
  rintro (h | h | h)
  · exact hkey h
  · exact absurd h (by decide)
  · exact hvalue h

theorem oneLine_mapEntries {lead : String} {m : TextMap} (hlead : OneLine lead) (hm : m.Valid) :
    ∀ e ∈ mapEntries lead m, OneLine e.1 ∧ OneLine e.2 := by
  intro e he
  obtain ⟨x, hx, rfl⟩ := List.mem_map.mp he
  obtain ⟨hkey, hvalue⟩ := hm.2 x hx
  exact ⟨oneLine_append hlead (oneLine_of_validText hkey), oneLine_of_validText hvalue⟩

theorem oneLine_commandEntries {command : List String}
    (h : ∀ value ∈ command, validText value = true) (i : ℕ) :
    ∀ e ∈ commandEntries i command, OneLine e.1 ∧ OneLine e.2 := by
  induction command generalizing i with
  | nil => exact fun e he => absurd he List.not_mem_nil
  | cons argument command ih =>
    obtain ⟨hargument, hrest⟩ := List.forall_mem_cons.mp h
    exact List.forall_mem_cons.mpr ⟨⟨oneLine_append (by decide) (oneLine_toString i),
      oneLine_of_validText hargument⟩, ih hrest (i + 1)⟩

theorem oneLine_artifactEntries {artifacts : List ExperimentArtifact}
    (h : ∀ a ∈ artifacts,
      validText a.kind = true ∧ validText a.hash = true ∧ validText a.path = true) (i : ℕ) :
    ∀ e ∈ artifactEntries i artifacts, OneLine e.1 ∧ OneLine e.2 := by
  induction artifacts generalizing i with
  | nil => exact fun e he => absurd he List.not_mem_nil
  | cons artifact artifacts ih =>
    obtain ⟨⟨hkind, hhash, hpath⟩, hrest⟩ := List.forall_mem_cons.mp h
    have hkey : ∀ field : String, OneLine field →
        OneLine ("artifact." ++ toString i ++ field) := fun field hfield =>
      oneLine_append (oneLine_append (by decide) (oneLine_toString i)) hfield
    exact List.forall_mem_cons.mpr ⟨⟨hkey _ (by decide), oneLine_of_validText hkind⟩,
      List.forall_mem_cons.mpr ⟨⟨hkey _ (by decide), oneLine_of_validText hhash⟩,
        List.forall_mem_cons.mpr ⟨⟨hkey _ (by decide), oneLine_of_validText hpath⟩,
          ih hrest (i + 1)⟩⟩⟩

theorem oneLine_entries {b : ExperimentBundle} (h : b.Valid) :
    ∀ e ∈ b.entries, OneLine e.1 ∧ OneLine e.2 := by
  obtain ⟨hrequired, hcommand, ⟨hschema, hmodel, hprompt, henvironment⟩, hartifacts⟩ := h
  intro e he
  simp only [entries, body, List.mem_append] at he
  rcases he with he | he | he | he | he | he | he
  · have hvalue : ∀ value ∈ [b.runId, b.codeHash, b.configHash, b.datasetHash, b.reportHash],
        OneLine value := fun value hmem => oneLine_of_validText (hrequired value hmem)
    have hheader : ∀ e ∈ b.header, OneLine e.1 ∧ OneLine e.2 := by
      simp only [header, List.forall_mem_cons]
      refine ⟨⟨by decide, by decide⟩, ⟨by decide, hvalue _ (by simp)⟩, ⟨by decide, hvalue _ (by simp)⟩,
        ⟨by decide, hvalue _ (by simp)⟩, ⟨by decide, hvalue _ (by simp)⟩,
        ⟨by decide, oneLine_toString b.seed⟩, ⟨by decide, hvalue _ (by simp)⟩,
        fun e he => absurd he List.not_mem_nil⟩
    exact hheader e he
  · exact oneLine_mapEntries (by decide) hschema e he
  · exact oneLine_mapEntries (by decide) hmodel e he
  · exact oneLine_mapEntries (by decide) hprompt e he
  · exact oneLine_mapEntries (by decide) henvironment e he
  · exact oneLine_commandEntries hcommand.2.2 0 e he
  · exact oneLine_artifactEntries hartifacts.2 0 e he

theorem canonicalBytes_of_valid {b : ExperimentBundle} (h : b.Valid) :
    b.canonicalBytes = .ok (String.join (b.entries.map line)).toUTF8 := by
  rw [canonicalBytes, validate, if_pos h]
  rfl

/-- **Manifests that agree** have the same lines. -/
theorem lines_eq_of_canonicalBytes {b b' : ExperimentBundle} (hb : b.Valid) (hb' : b'.Valid) :
    b'.canonicalBytes = b.canonicalBytes ↔
      b'.entries.map TextMap.cut = b.entries.map TextMap.cut := by
  have hlines : ∀ {c : ExperimentBundle}, c.Valid → ∀ l ∈ c.entries.map TextMap.cut, '\n' ∉ l := by
    intro c hc l hl
    obtain ⟨e, he, rfl⟩ := List.mem_map.mp hl
    obtain ⟨hkey, hvalue⟩ := oneLine_entries hc e he
    exact not_mem_cut hkey hvalue
  rw [canonicalBytes_of_valid hb, canonicalBytes_of_valid hb', Except.ok.injEq,
    String.toUTF8_eq_toByteArray, String.toUTF8_eq_toByteArray, String.toByteArray_inj,
    ← String.toList_inj, toList_manifest, toList_manifest]
  exact ⟨Lines.unlines_inj (hlines hb') (hlines hb), congrArg _⟩

-- The sections of the manifest

/-- The lines of some entries begin with one of some characters. -/
def LedBy (cs : List Char) (es : List (String × String)) : Prop :=
  ∀ e ∈ es, ∃ c ∈ cs, (TextMap.cut e).head? = some c

theorem LedBy.append {cs cs' : List Char} {es es' : List (String × String)} (h : LedBy cs es)
    (h' : LedBy cs' es') : LedBy (cs ++ cs') (es ++ es') := by
  intro e he
  rcases List.mem_append.mp he with he | he
  · obtain ⟨c, hc, hhead⟩ := h e he
    exact ⟨c, List.mem_append_left _ hc, hhead⟩
  · obtain ⟨c, hc, hhead⟩ := h' e he
    exact ⟨c, List.mem_append_right _ hc, hhead⟩

theorem head?_cut {c : Char} {key value : String} (h : key.toList.head? = some c) :
    (TextMap.cut (key, value)).head? = some c := by
  rw [TextMap.cut, List.head?_append, h]
  rfl

theorem ledBy_mapEntries {c : Char} (lead : String) (m : TextMap)
    (h : lead.toList.head? = some c) : LedBy [c] (mapEntries lead m) := by
  intro e he
  obtain ⟨x, -, rfl⟩ := List.mem_map.mp he
  refine ⟨c, List.mem_singleton_self c, head?_cut ?_⟩
  rw [String.toList_append, List.head?_append, h]
  rfl

theorem ledBy_commandEntries (command : List String) (i : ℕ) :
    LedBy ['c'] (commandEntries i command) := by
  induction command generalizing i with
  | nil => exact fun e he => absurd he List.not_mem_nil
  | cons argument command ih =>
    refine List.forall_mem_cons.mpr ⟨⟨'c', List.mem_singleton_self _, ?_⟩, ih (i + 1)⟩
    refine head?_cut ?_
    rw [String.toList_append]
    rfl

theorem ledBy_artifactEntries (artifacts : List ExperimentArtifact) (i : ℕ) :
    LedBy ['a'] (artifactEntries i artifacts) := by
  induction artifacts generalizing i with
  | nil => exact fun e he => absurd he List.not_mem_nil
  | cons artifact artifacts ih =>
    have hkey : ∀ field value : String,
        ∃ c ∈ ['a'], (TextMap.cut ("artifact." ++ toString i ++ field, value)).head? = some c := by
      intro field value
      refine ⟨'a', List.mem_singleton_self _, head?_cut ?_⟩
      rw [String.toList_append, String.toList_append]
      rfl
    exact List.forall_mem_cons.mpr ⟨hkey _ _, List.forall_mem_cons.mpr ⟨hkey _ _,
      List.forall_mem_cons.mpr ⟨hkey _ _, ih (i + 1)⟩⟩⟩

/-- A section is told from what follows by the characters that the lines begin with. -/
theorem cuts_append_inj {c : Char} {cs : List Char} {es es' rest rest' : List (String × String)}
    (hes : LedBy [c] es) (hes' : LedBy [c] es') (hrest : LedBy cs rest) (hrest' : LedBy cs rest')
    (hc : c ∉ cs) (h : (es' ++ rest').map TextMap.cut = (es ++ rest).map TextMap.cut) :
    es'.map TextMap.cut = es.map TextMap.cut ∧ rest'.map TextMap.cut = rest.map TextMap.cut := by
  rw [List.map_append, List.map_append] at h
  have hled : ∀ {zs : List (String × String)}, LedBy [c] zs →
      ∀ l ∈ zs.map TextMap.cut, (l.head? == some c) = true := by
    intro zs hzs l hl
    obtain ⟨e, he, rfl⟩ := List.mem_map.mp hl
    obtain ⟨d, hd, hhead⟩ := hzs e he
    rw [hhead, List.mem_singleton.mp hd, beq_self_eq_true]
  have hother : ∀ {zs : List (String × String)}, LedBy cs zs →
      ∀ l ∈ zs.map TextMap.cut, (l.head? == some c) = false := by
    intro zs hzs l hl
    obtain ⟨e, he, rfl⟩ := List.mem_map.mp hl
    obtain ⟨d, hd, hhead⟩ := hzs e he
    rw [hhead, beq_eq_false_iff_ne]
    rintro ⟨⟩
    exact hc hd
  exact Lines.append_inj_of_forall (fun l => l.head? == some c) (hled hes') (hled hes)
    (hother hrest') (hother hrest) h

theorem cuts_mapEntries_iff {lead : String} {m m' : TextMap} :
    (mapEntries lead m').map TextMap.cut = (mapEntries lead m).map TextMap.cut ↔
      m'.entries.map TextMap.cut = m.entries.map TextMap.cut := by
  have hlead : ∀ m : TextMap, (mapEntries lead m).map TextMap.cut =
      (m.entries.map TextMap.cut).map (lead.toList ++ ·) := by
    intro m
    rw [mapEntries, List.map_map, List.map_map]
    refine List.map_congr_left fun e _ => ?_
    simp [TextMap.cut]
  rw [hlead, hlead]
  exact ⟨fun h => List.map_injective_iff.mpr (fun _ _ => List.append_cancel_left) h, congrArg _⟩

theorem command_eq_of_cuts {command command' : List String} {i : ℕ}
    (h : (commandEntries i command').map TextMap.cut = (commandEntries i command).map TextMap.cut) :
    command' = command := by
  induction command generalizing command' i with
  | nil =>
    cases command' with
    | nil => rfl
    | cons argument' command' => cases h
  | cons argument command ih =>
    cases command' with
    | nil => cases h
    | cons argument' command' =>
      obtain ⟨hcut, hrest⟩ := List.cons.inj h
      rw [ih hrest, TextMap.value_eq hcut]

theorem artifacts_eq_of_cuts {artifacts artifacts' : List ExperimentArtifact} {i : ℕ}
    (h : (artifactEntries i artifacts').map TextMap.cut =
      (artifactEntries i artifacts).map TextMap.cut) : artifacts' = artifacts := by
  induction artifacts generalizing artifacts' i with
  | nil =>
    cases artifacts' with
    | nil => rfl
    | cons artifact' artifacts' => cases h
  | cons artifact artifacts ih =>
    cases artifacts' with
    | nil => cases h
    | cons artifact' artifacts' =>
      obtain ⟨hkind, h⟩ := List.cons.inj h
      obtain ⟨hhash, h⟩ := List.cons.inj h
      obtain ⟨hpath, hrest⟩ := List.cons.inj h
      have hsame : artifact' = artifact := by
        obtain ⟨kind, hash, path⟩ := artifact
        obtain ⟨kind', hash', path'⟩ := artifact'
        rw [ExperimentArtifact.mk.injEq]
        exact ⟨TextMap.value_eq hkind, TextMap.value_eq hhash, TextMap.value_eq hpath⟩
      rw [ih hrest, hsame]

/-- The fields that the header of a manifest names agree. -/
structure SameHeader (b b' : ExperimentBundle) : Prop where
  runId : b'.runId = b.runId
  codeHash : b'.codeHash = b.codeHash
  configHash : b'.configHash = b.configHash
  datasetHash : b'.datasetHash = b.datasetHash
  seed : b'.seed = b.seed
  reportHash : b'.reportHash = b.reportHash

theorem sameHeader_of_cuts {b b' : ExperimentBundle}
    (h : b'.header.map TextMap.cut = b.header.map TextMap.cut) : SameHeader b b' := by
  simp only [header, List.map_cons, List.map_nil, List.cons.injEq] at h
  obtain ⟨-, hrun, hcode, hconfig, hdataset, hseed, hreport, -⟩ := h
  exact ⟨TextMap.value_eq hrun, TextMap.value_eq hcode, TextMap.value_eq hconfig,
    TextMap.value_eq hdataset, Nat.repr_injective (TextMap.value_eq hseed),
    TextMap.value_eq hreport⟩

/-- **The manifest tells** everything but how the lines of its maps are cut. -/
theorem same_of_cuts {b b' : ExperimentBundle}
    (h : b'.entries.map TextMap.cut = b.entries.map TextMap.cut) :
    SameHeader b b' ∧ b'.command = b.command ∧ b'.artifacts = b.artifacts ∧
      ∀ field, (b'.map field).entries.map TextMap.cut = (b.map field).entries.map TextMap.cut := by
  have hcommand : ∀ c : ExperimentBundle, LedBy ['c', 'a'] _ := fun c =>
    (ledBy_commandEntries c.command 0).append (ledBy_artifactEntries c.artifacts 0)
  have henvironment : ∀ c : ExperimentBundle, LedBy ['e', 'c', 'a'] _ := fun c =>
    (ledBy_mapEntries "environment." c.environment rfl).append (hcommand c)
  have hprompt : ∀ c : ExperimentBundle, LedBy ['p', 'e', 'c', 'a'] _ := fun c =>
    (ledBy_mapEntries "prompt." c.promptHashes rfl).append (henvironment c)
  have hmodel : ∀ c : ExperimentBundle, LedBy ['m', 'p', 'e', 'c', 'a'] _ := fun c =>
    (ledBy_mapEntries "model." c.modelHashes rfl).append (hprompt c)
  rw [entries, entries, List.map_append, List.map_append] at h
  obtain ⟨hheader, h⟩ := List.append_inj h rfl
  obtain ⟨hschemas, h⟩ := cuts_append_inj (ledBy_mapEntries _ b.schemaHashes rfl)
    (ledBy_mapEntries _ b'.schemaHashes rfl) (hmodel b) (hmodel b') (by decide) h
  obtain ⟨hmodels, h⟩ := cuts_append_inj (ledBy_mapEntries _ b.modelHashes rfl)
    (ledBy_mapEntries _ b'.modelHashes rfl) (hprompt b) (hprompt b') (by decide) h
  obtain ⟨hprompts, h⟩ := cuts_append_inj (ledBy_mapEntries _ b.promptHashes rfl)
    (ledBy_mapEntries _ b'.promptHashes rfl) (henvironment b) (henvironment b') (by decide) h
  obtain ⟨henvironments, h⟩ := cuts_append_inj (ledBy_mapEntries _ b.environment rfl)
    (ledBy_mapEntries _ b'.environment rfl) (hcommand b) (hcommand b') (by decide) h
  obtain ⟨hcommands, hartifacts⟩ := cuts_append_inj (ledBy_commandEntries b.command 0)
    (ledBy_commandEntries b'.command 0) (ledBy_artifactEntries b.artifacts 0)
    (ledBy_artifactEntries b'.artifacts 0) (by decide) h
  refine ⟨sameHeader_of_cuts hheader, command_eq_of_cuts hcommands,
    artifacts_eq_of_cuts hartifacts, ?_⟩
  rintro (_ | _ | _ | _)
  · exact cuts_mapEntries_iff.mp hschemas
  · exact cuts_mapEntries_iff.mp hmodels
  · exact cuts_mapEntries_iff.mp hprompts
  · exact cuts_mapEntries_iff.mp henvironments

/-- A bundle with another map in the place of one. -/
def withMap (b : ExperimentBundle) (m : TextMap) : BundleMap → ExperimentBundle
  | .schema => { b with schemaHashes := m }
  | .model => { b with modelHashes := m }
  | .prompt => { b with promptHashes := m }
  | .environment => { b with environment := m }

theorem map_withMap (b : ExperimentBundle) (m : TextMap) (field : BundleMap) :
    (b.withMap m field).map field = m := by
  cases field <;> rfl

theorem valid_withMap {b : ExperimentBundle} {m : TextMap} (hb : b.Valid) (hm : m.Valid)
    (field : BundleMap) : (b.withMap m field).Valid := by
  obtain ⟨hrequired, hcommand, ⟨hschema, hmodel, hprompt, henvironment⟩, hartifacts⟩ := hb
  cases field with
  | schema => exact ⟨hrequired, hcommand, ⟨hm, hmodel, hprompt, henvironment⟩, hartifacts⟩
  | model => exact ⟨hrequired, hcommand, ⟨hschema, hm, hprompt, henvironment⟩, hartifacts⟩
  | prompt => exact ⟨hrequired, hcommand, ⟨hschema, hmodel, hm, henvironment⟩, hartifacts⟩
  | environment => exact ⟨hrequired, hcommand, ⟨hschema, hmodel, hprompt, hm⟩, hartifacts⟩

theorem map_valid {b : ExperimentBundle} (hb : b.Valid) (field : BundleMap) :
    (b.map field).Valid := by
  obtain ⟨-, -, ⟨hschema, hmodel, hprompt, henvironment⟩, -⟩ := hb
  cases field with
  | schema => exact hschema
  | model => exact hmodel
  | prompt => exact hprompt
  | environment => exact henvironment

/-- A map with the same lines leaves the lines of the manifest. -/
theorem cuts_withMap {b : ExperimentBundle} {m : TextMap} {field : BundleMap}
    (h : m.entries.map TextMap.cut = (b.map field).entries.map TextMap.cut) :
    (b.withMap m field).entries.map TextMap.cut = b.entries.map TextMap.cut := by
  cases field <;>
    simp only [entries, body, header, withMap, List.map_append, cuts_mapEntries_iff.mpr h] <;>
    rfl

/-- **Which bundles are told by their manifest**: exactly those in whose maps no line can be cut
into another valid entry that would stand in the same place. -/
theorem address_injective_iff (b : ExperimentBundle) (hb : b.Valid) :
    (∀ b', b'.Valid → b'.canonicalBytes = b.canonicalBytes → b' = b) ↔
      ∀ field, (b.map field).Firm := by
  constructor
  · intro hinjective field e he e' hkey hvalue hcut hplace
    obtain ⟨m, hm, hcuts, hsame⟩ :=
      TextMap.exists_recut (map_valid hb field) he hkey hvalue hcut hplace
    have hvalid := valid_withMap hb hm field
    have hbundle := hinjective _ hvalid
      ((lines_eq_of_canonicalBytes hb hvalid).mpr (cuts_withMap hcuts))
    exact hsame ((map_withMap b m field).symm.trans (congrArg (·.map field) hbundle))
  · intro hfirm b' hb' hbytes
    obtain ⟨hheader, hcommand, hartifacts, hmaps⟩ :=
      same_of_cuts ((lines_eq_of_canonicalBytes hb hb').mp hbytes)
    have hmap : ∀ field, b'.map field = b.map field := fun field =>
      (hfirm field).eq_of_cuts (map_valid hb' field) (hmaps field)
    have hschema := hmap .schema
    have hmodel := hmap .model
    have hprompt := hmap .prompt
    have henvironment := hmap .environment
    obtain ⟨hrun, hcode, hconfig, hdataset, hseed, hreport⟩ := hheader
    cases b
    cases b'
    simp_all [ExperimentBundle.map]

namespace Sample

/-- A run with one schema hash. -/
def bundle (key value : String) : ExperimentBundle :=
  { runId := "run"
    codeHash := "c"
    configHash := "f"
    datasetHash := "d"
    schemaHashes := ⟨[(key, value)], List.pairwise_singleton _ _⟩
    modelHashes := ⟨[], .nil⟩
    promptHashes := ⟨[], .nil⟩
    environment := ⟨[], .nil⟩
    command := ["run"]
    seed := 7
    artifacts := []
    reportHash := "r" }

end Sample

/-- A bundle whose keys and values have no equals sign. -/
theorem address_injective_plain :
    (∀ b', b'.Valid → b'.canonicalBytes = (Sample.bundle "a" "b").canonicalBytes →
        b' = Sample.bundle "a" "b") ↔
      ∀ field, ((Sample.bundle "a" "b").map field).Firm :=
  address_injective_iff _ (by decide)

/-- An equals sign may stand in the key or in the value. -/
theorem address_not_injective :
    (Sample.bundle "a" "b=c").Valid ∧ (Sample.bundle "a=b" "c").Valid ∧
      (Sample.bundle "a=b" "c").canonicalBytes = (Sample.bundle "a" "b=c").canonicalBytes ∧
      Sample.bundle "a=b" "c" ≠ Sample.bundle "a" "b=c" := by
  have hfirst : (Sample.bundle "a" "b=c").Valid := by decide
  have hsecond : (Sample.bundle "a=b" "c").Valid := by decide
  exact ⟨hfirst, hsecond, (lines_eq_of_canonicalBytes hfirst hsecond).mpr (by decide), by decide⟩

end ExperimentBundle

end InsiderTrader
