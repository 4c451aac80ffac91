import ArtifactFlow.Project.Validation
import ArtifactFlow.Proofs.Except

/-!
The check of a project against its loading. Each part that is checked adds errors of its own exactly
when its verdict is not favourable, and the parts that are in order are those from which a session
is loaded; so the check finds nothing exactly if the project can be loaded and all that is defined
in it can be used.
-/

namespace ArtifactFlow

theorem Result.context_eq_ok {context : String} {x : Result α} {a : α} :
    Result.context context x = .ok a ↔ x = .ok a := by
  cases x <;> simp [Result.context]

/-- All sets of the project expand. -/
def ParameterSets.Expandable (sets : ParameterSets) : Prop :=
  ∀ name ∈ Fields.keys sets, ∃ m, sets.expand name = .ok m

/-- Every definition builds from the crafts, which is not asked where there are no crafts at all. -/
def Definitions.BuildableFrom (ds : Definitions) (crafts : CraftRegistry) : Prop :=
  (crafts = [] ∧ ds ≠ []) ∨ ∀ name ∈ Fields.keys ds, ∃ p, ds.build crafts name = .ok p

namespace Session

variable {d : Disk} {path : Path} {s : Session}

/-- All parts of a session were read from the places that the manifest names. -/
theorem load_eq_ok : load d path = .ok s ↔
    d.isFile path = true ∧ Manifest.read d path = .ok s.manifest ∧ s.root = rootOf path ∧
      ∃ config, Project.loadStaticConfig d (s.root.join s.manifest.configuration) = .ok config ∧
        Project.loadCatalog d (s.root.join s.manifest.catalog) config = .ok s.catalog ∧
        ParameterSets.load d (s.root.join s.manifest.parameters) = .ok s.parameters ∧
        Definitions.load d (s.root.join s.manifest.pipelines) = .ok s.definitions := by
  rw [load]
  by_cases hfile : d.isFile path
  · simp only [hfile, Bool.not_true, Bool.false_eq_true, if_false, bind_eq_ok, pure_eq_ok,
      Result.context_eq_ok, Except.ok.injEq, true_and]
    constructor
    · intro ⟨manifest, hmanifest, config, hconfig, catalog, hcatalog, parameters, hparameters,
        definitions, hdefinitions, hs⟩
      subst hs
      exact ⟨hmanifest, rfl, config, hconfig, hcatalog, hparameters, hdefinitions⟩
    · intro ⟨hmanifest, hroot, config, hconfig, hcatalog, hparameters, hdefinitions⟩
      rw [hroot] at hconfig hcatalog hparameters hdefinitions
      exact ⟨_, hmanifest, config, hconfig, _, hcatalog, _, hparameters, _, hdefinitions,
        hroot ▸ rfl⟩
  · simp [hfile, Fault.throw]

/-- Behind the manifest, whether a session is loaded and whether it is of use is up to one part
after another. -/
theorem exists_load {m : Manifest} (hfile : d.isFile path = true)
    (hm : Manifest.read d path = .ok m) {crafts : CraftRegistry} :
    (∃ s, load d path = .ok s ∧ s.parameters.Expandable ∧ s.definitions.BuildableFrom crafts) ↔
      (∃ config, Project.loadStaticConfig d ((rootOf path).join m.configuration) = .ok config ∧
        ∃ catalog, Project.loadCatalog d ((rootOf path).join m.catalog) config = .ok catalog) ∧
      (∃ sets, ParameterSets.load d ((rootOf path).join m.parameters) = .ok sets ∧
        sets.Expandable) ∧
      ∃ ds, Definitions.load d ((rootOf path).join m.pipelines) = .ok ds ∧
        ds.BuildableFrom crafts := by
  constructor
  · intro ⟨s, hs, hsets, hds⟩
    obtain ⟨-, hread, hroot, config, hconfig, hcatalog, hparameters, hdefinitions⟩ :=
      load_eq_ok.1 hs
    obtain rfl : m = s.manifest := Except.ok.inj (hm.symm.trans hread)
    rw [hroot] at hconfig hcatalog hparameters hdefinitions
    exact ⟨⟨config, hconfig, s.catalog, hcatalog⟩, ⟨s.parameters, hparameters, hsets⟩,
      ⟨s.definitions, hdefinitions, hds⟩⟩
  · intro ⟨⟨config, hconfig, catalog, hcatalog⟩, ⟨sets, hparameters, hsets⟩,
      ⟨ds, hdefinitions, hds⟩⟩
    exact ⟨⟨rootOf path, m, catalog, sets, ds⟩, load_eq_ok.2
      ⟨hfile, hm, rfl, config, hconfig, hcatalog, hparameters, hdefinitions⟩, hsets, hds⟩

end Session

namespace Validation

theorem exists_checkAdapters_eq (v : Validation) (c : Catalog) :
    ∃ warnings, v.checkAdapters c = { v with warnings } := by
  rw [checkAdapters]
  induction c.declarations generalizing v with
  | nil => exact ⟨v.warnings, rfl⟩
  | cons entry rest ih =>
      obtain ⟨_, d⟩ := entry
      by_cases h : Fields.contains d.artifactType c.adapters
      · simp only [List.foldl_cons, h, if_true]
        exact ih v
      · simp only [List.foldl_cons, h, if_false, Bool.false_eq_true]
        exact ih (v.addWarning _)

def addErrors (v : Validation) (found : List String) : Validation :=
  { v with errors := v.errors ++ found }

theorem addErrors_nil (v : Validation) : v.addErrors [] = v := by
  rw [addErrors, List.append_nil]

theorem addErrors_addErrors (v : Validation) (found more : List String) :
    (v.addErrors found).addErrors more = v.addErrors (found ++ more) := by
  simp only [addErrors, List.append_assoc]

/-- The errors of those names that do not pass a check. -/
def rejections (check : String → Except Fault α) (label : String → String)
    (names : List String) : List String :=
  names.filterMap fun name =>
    match check name with
    | .ok _ => none
    | .error e => some (label name ++ ": " ++ e.message)

section Rejections

variable {check : String → Except Fault α} {label : String → String} {names : List String}

theorem rejections_eq_nil :
    rejections check label names = [] ↔ ∀ name ∈ names, ∃ a, check name = .ok a := by
  rw [rejections, List.filterMap_eq_nil_iff]
  refine forall₂_congr fun name _ => ?_
  cases check name <;> simp

theorem rejections_cons_ok {name : String} {a : α} (h : check name = .ok a) :
    rejections check label (name :: names) = rejections check label names := by
  simp only [rejections, List.filterMap_cons, h]

theorem rejections_cons_error {name : String} {e : Fault} (h : check name = .error e) :
    rejections check label (name :: names) =
      (label name ++ ": " ++ e.message) :: rejections check label names := by
  simp only [rejections, List.filterMap_cons, h]

/-- A loop that withdraws a favourable verdict at each name that does not pass. -/
theorem foldl_rejecting (check : String → Except Fault α) (label : String → String)
    (decree : Bool → Validation → Validation) {step : Validation → String → Validation}
    (hok : ∀ v name a, check name = .ok a → step v name = v)
    (herror : ∀ v name e, check name = .error e →
      step v name = (decree false v).addError (label name) e.message)
    (hdecree : ∀ b c v found, decree b ((decree c v).addErrors found) =
      (decree b v).addErrors found) (v : Validation) :
    names.foldl step (decree true v) =
      (decree (rejections check label names).isEmpty v).addErrors
        (rejections check label names) := by
  -- The loop is taken up after errors of earlier names.
  suffices general : ∀ b found, names.foldl step ((decree b v).addErrors found) =
      (decree (b && (rejections check label names).isEmpty) v).addErrors
        (found ++ rejections check label names) by
    rw [← addErrors_nil (decree true v), general true [], Bool.true_and, List.nil_append]
  induction names with
  | nil =>
      intro b found
      rw [List.foldl_nil, rejections, List.filterMap_nil, List.isEmpty_nil, Bool.and_true,
        List.append_nil]
  | cons name rest ih =>
      intro b found
      rw [List.foldl_cons]
      cases h : check name with
      | ok a => rw [hok _ name a h, ih, rejections_cons_ok h]
      | error e =>
          have hstep : step ((decree b v).addErrors found) name =
              (decree false v).addErrors (found ++ [label name ++ ": " ++ e.message]) := by
            rw [herror _ name e h, hdecree, ← addErrors_addErrors]
            rfl
          rw [hstep, ih, rejections_cons_error h, List.isEmpty_cons, Bool.and_false,
            Bool.false_and, List.append_assoc, List.singleton_append]

end Rejections

/-! What each part adds to a check that has no verdict on it yet: a favourable one exactly if it
adds no error, which is exactly if the part is in order. -/

variable {v : Validation}

theorem exists_checkCatalog_eq (hv : v.catalogValid = false)
    (catalog : StaticConfig → Result Catalog) (config : StaticConfig) :
    ∃ found count warnings, v.checkCatalog catalog (some config) =
        { v.addErrors found with catalogValid := found.isEmpty, artifacts := count, warnings } ∧
      (found = [] ↔ ∃ c, catalog config = .ok c) := by
  cases h : catalog config with
  | ok c =>
      obtain ⟨warnings, hwarnings⟩ := exists_checkAdapters_eq
        { v with catalogValid := true, artifacts := c.names.length } c
      refine ⟨[], c.names.length, warnings, ?_, by simp⟩
      simp only [checkCatalog, h, hwarnings, addErrors, List.append_nil, List.isEmpty_nil]
  | error e =>
      refine ⟨["catalog" ++ ": " ++ e.finding], v.artifacts, v.warnings, ?_, by simp⟩
      simp only [checkCatalog, h, fail, addError, addErrors, List.isEmpty_cons, ← hv]

theorem exists_checkParameters_eq (hv : v.parametersValid = false) (r : Result ParameterSets) :
    ∃ found count, v.checkParameters r =
        { v.addErrors found with parametersValid := found.isEmpty, parameterSets := count } ∧
      (found = [] ↔ ∃ sets, r = .ok sets ∧ sets.Expandable) := by
  cases r with
  | ok sets =>
      refine ⟨rejections sets.expand (fun name => "parameter set '" ++ name ++ "'")
        (Fields.keys sets), sets.length, ?_,
        by simp [rejections_eq_nil, ParameterSets.Expandable]⟩
      exact foldl_rejecting sets.expand (fun name => "parameter set '" ++ name ++ "'")
        (fun b v => { v with parametersValid := b }) (fun _ _ _ h => by rw [h])
        (fun _ _ _ h => by rw [h]) (fun _ _ _ _ => rfl) { v with parameterSets := sets.length }
  | error e =>
      refine ⟨["parameters" ++ ": " ++ e.finding], v.parameterSets, ?_, by simp⟩
      simp only [checkParameters, fail, addError, addErrors, List.isEmpty_cons, ← hv]

theorem exists_checkPipelines_eq (hv : v.pipelinesValid = false) (crafts : CraftRegistry)
    (r : Result Definitions) :
    ∃ found count warnings, v.checkPipelines crafts r =
        { v.addErrors found with pipelinesValid := found.isEmpty, pipelines := count, warnings } ∧
      (found = [] ↔ ∃ ds, r = .ok ds ∧ ds.BuildableFrom crafts) := by
  cases r with
  | ok ds =>
      by_cases hnone : crafts.isEmpty && !ds.isEmpty
      · refine ⟨[], ds.length,
          v.warnings ++ ["no crafts registered, pipeline definitions were not built"], ?_, ?_⟩
        · simp only [checkPipelines, hnone, if_true, addWarning, addErrors, List.append_nil,
            List.isEmpty_nil]
        · have hpair : crafts = [] ∧ ds ≠ [] := by simpa using hnone
          simp [Definitions.BuildableFrom, hpair]
      · refine ⟨rejections (ds.build crafts) (fun name => "pipeline '" ++ name ++ "'")
          (Fields.keys ds), ds.length, v.warnings, ?_, ?_⟩
        · simp only [checkPipelines, hnone, if_false, Bool.false_eq_true]
          exact foldl_rejecting (ds.build crafts) (fun name => "pipeline '" ++ name ++ "'")
            (fun b v => { v with pipelinesValid := b }) (fun _ _ _ h => by rw [h])
            (fun _ _ _ h => by rw [h]) (fun _ _ _ _ => rfl) { v with pipelines := ds.length }
        · have hpair : ¬ (crafts = [] ∧ ds ≠ []) := by simpa using hnone
          simp [rejections_eq_nil, Definitions.BuildableFrom, hpair]
  | error e =>
      refine ⟨["pipelines" ++ ": " ++ e.finding], v.pipelines, v.warnings, ?_, by simp⟩
      simp only [checkPipelines, fail, addError, addErrors, List.isEmpty_cons, ← hv]

/-- The last two parts are checked whatever became of the others. -/
theorem exists_checkParameters_checkPipelines_eq (hparameters : v.parametersValid = false)
    (hpipelines : v.pipelinesValid = false) (crafts : CraftRegistry) (r : Result ParameterSets)
    (r' : Result Definitions) :
    ∃ found, ((v.checkParameters r).checkPipelines crafts r').errors = v.errors ++ found ∧
      ((v.checkParameters r).checkPipelines crafts r').valid =
        (v.manifestValid && v.configurationValid && v.catalogValid && found.isEmpty) ∧
      (found = [] ↔ (∃ sets, r = .ok sets ∧ sets.Expandable) ∧
        ∃ ds, r' = .ok ds ∧ ds.BuildableFrom crafts) := by
  obtain ⟨found, _, hcheck, hfound⟩ := exists_checkParameters_eq hparameters r
  generalize v.checkParameters r = w at hcheck
  obtain ⟨more, _, _, hcheck', hmore⟩ :=
    exists_checkPipelines_eq (v := w) (by rw [hcheck]; exact hpipelines) crafts r'
  refine ⟨found ++ more, ?_, ?_, ?_⟩
  · rw [hcheck', hcheck]
    simp only [addErrors, List.append_assoc]
  · have hempty : (found ++ more).isEmpty = (found.isEmpty && more.isEmpty) := by
      cases found <;> rfl
    rw [hcheck', hcheck, hempty]
    simp only [valid, addErrors, Bool.and_assoc]
  · rw [List.append_eq_nil_iff, hfound, hmore]

theorem checkParts_verdict (d : Disk) (crafts : CraftRegistry) (root : Path) (m : Manifest) :
    ((checkParts d crafts root m).valid = true ↔ (checkParts d crafts root m).errors = []) ∧
      ((checkParts d crafts root m).errors = [] ↔
        (∃ config, Project.loadStaticConfig d (root.join m.configuration) = .ok config ∧
          ∃ catalog, Project.loadCatalog d (root.join m.catalog) config = .ok catalog) ∧
        (∃ sets, ParameterSets.load d (root.join m.parameters) = .ok sets ∧ sets.Expandable) ∧
        ∃ ds, Definitions.load d (root.join m.pipelines) = .ok ds ∧ ds.BuildableFrom crafts) := by
  simp only [checkParts]
  cases Project.loadStaticConfig d (root.join m.configuration) with
  | ok config =>
      obtain ⟨found, _, _, hcheck, hcatalog⟩ := exists_checkCatalog_eq
        (v := { empty with
          manifestValid := true
          configurationValid := true
          globalKeys := config.base.length
          localKeys := config.overrides.length }) rfl
        (Project.loadCatalog d (root.join m.catalog)) config
      generalize checkCatalog _ _ _ = v at hcheck
      obtain ⟨rest, herrors, hvalid, hrest⟩ := exists_checkParameters_checkPipelines_eq (v := v)
        (by rw [hcheck]; rfl) (by rw [hcheck]; rfl) crafts
        (ParameterSets.load d (root.join m.parameters))
        (Definitions.load d (root.join m.pipelines))
      rw [herrors, hvalid, hcheck]
      refine ⟨?_, ?_⟩
      · simp only [addErrors, empty, List.nil_append, Bool.true_and, Bool.and_eq_true,
          List.isEmpty_iff, List.append_eq_nil_iff]
      · simp only [addErrors, empty, List.nil_append, List.append_eq_nil_iff, hcatalog, hrest,
          Except.ok.injEq, exists_eq_left']
  | error e =>
      generalize hv : checkCatalog _ _ _ = v
      obtain ⟨rest, herrors, hvalid, -⟩ := exists_checkParameters_checkPipelines_eq (v := v)
        (by rw [← hv]; rfl) (by rw [← hv]; rfl) crafts
        (ParameterSets.load d (root.join m.parameters))
        (Definitions.load d (root.join m.pipelines))
      rw [herrors, hvalid, ← hv]
      simp [checkCatalog, fail, addError, addWarning, empty]

/-- The check finds nothing exactly where a session is loaded in which all that is defined can be
used. -/
theorem valid_ofProject (d : Disk) (path : Path) (crafts : CraftRegistry) :
    ((ofProject d crafts (some path)).valid = true ↔
      (ofProject d crafts (some path)).errors = []) ∧
    ((ofProject d crafts (some path)).valid = true ↔
      ∃ s, Session.load d path = .ok s ∧ s.parameters.Expandable ∧
        s.definitions.BuildableFrom crafts) := by
  by_cases hfile : d.isFile path
  · cases hm : Manifest.read d path with
    | ok m =>
        have hproject : ofProject d crafts (some path) =
            checkParts d crafts (Session.rootOf path) m := by
          simp only [ofProject, Manifest.locate, hfile, if_true, hm]
        obtain ⟨hvalid, herrors⟩ := checkParts_verdict d crafts (Session.rootOf path) m
        rw [hproject]
        exact ⟨hvalid, hvalid.trans (herrors.trans (Session.exists_load hfile hm).symm)⟩
    | error e =>
        have hload : ∀ s, Session.load d path ≠ .ok s := by
          intro s hs
          have hread := (Session.load_eq_ok.1 hs).2.1
          rw [hm] at hread
          cases hread
        simp [ofProject, Manifest.locate, hfile, hm, fail, addError, empty, valid, hload]
  · have hload : ∀ s, Session.load d path ≠ .ok s :=
      fun s hs => hfile (Session.load_eq_ok.1 hs).1
    simp [ofProject, Manifest.locate, hfile, fail, addError, empty, valid, hload]

end Validation
end ArtifactFlow
