import ArtifactFlow.Project.Session

/-!
A check of all parts of a project, which goes on after a part has failed and gathers everything
that is wrong.
-/

namespace ArtifactFlow

/-- What a check has found. -/
structure Validation where
  manifestValid : Bool
  configurationValid : Bool
  globalKeys : Nat
  localKeys : Nat
  catalogValid : Bool
  artifacts : Nat
  parametersValid : Bool
  parameterSets : Nat
  pipelinesValid : Bool
  pipelines : Nat
  errors : List String
  warnings : List String

namespace Failure

/-- All messages in one line. Text that is not of its format is reported alike for all formats of
configuration files. -/
def finding (f : Failure) : String :=
  match f.root with
  | .unreadable .json => f.oneLine
  | .unreadable _ => Text.joinWith ": " (f.chain.dropLast ++ ["<parser error>"])
  | _ => f.oneLine

end Failure

namespace Validation

def empty : Validation :=
  ⟨false, false, 0, 0, false, 0, false, 0, false, 0, [], []⟩

/-- A project is valid if all its parts are. -/
def valid (v : Validation) : Bool :=
  v.manifestValid && v.configurationValid && v.catalogValid && v.parametersValid &&
    v.pipelinesValid

def addError (v : Validation) (component text : String) : Validation :=
  { v with errors := v.errors ++ [component ++ ": " ++ text] }

def addWarning (v : Validation) (text : String) : Validation :=
  { v with warnings := v.warnings ++ [text] }

def fail (v : Validation) (component : String) (f : Failure) : Validation :=
  v.addError component f.finding

/-- Warns of artifacts of a type that has no adapter. -/
def checkAdapters (v : Validation) (c : Catalog) : Validation :=
  c.declarations.foldl (fun v (_, d) =>
    if Fields.contains d.artifactType c.adapters then v
    else v.addWarning ("artifact '" ++ d.name ++ "' uses type '" ++ d.artifactType ++
      "' which has no registered adapter")) v

/-- Checks the catalog, for which the configuration must be there. -/
def checkCatalog (v : Validation) (catalog : StaticConfig → Result Catalog) :
    Option StaticConfig → Validation
  | none => v.addWarning "catalog not checked: configuration failed to load"
  | some config =>
      match catalog config with
      | .ok c => { v with catalogValid := true, artifacts := c.names.length }.checkAdapters c
      | .error e => v.fail "catalog" e

def checkParameters (v : Validation) : Result ParameterSets → Validation
  | .error e => v.fail "parameters" e
  | .ok sets =>
      (Fields.keys sets).foldl (fun v name =>
        match sets.expand name with
        | .ok _ => v
        | .error e =>
            { v with parametersValid := false }.addError
              ("parameter set '" ++ name ++ "'") e.message)
        { v with parametersValid := true, parameterSets := sets.length }

/-- Checks that every definition builds. Where there are no crafts at all none is built. -/
def checkPipelines (v : Validation) (crafts : CraftRegistry) : Result Definitions → Validation
  | .error e => v.fail "pipelines" e
  | .ok ds =>
      let v := { v with pipelinesValid := true, pipelines := ds.length }
      if crafts.isEmpty && !ds.isEmpty then
        v.addWarning "no crafts registered, pipeline definitions were not built"
      else
        (Fields.keys ds).foldl (fun v name =>
          match ds.build crafts name with
          | .ok _ => v
          | .error e =>
              { v with pipelinesValid := false }.addError ("pipeline '" ++ name ++ "'") e.message)
          v

def checkParts (d : Disk) (crafts : CraftRegistry) (root : Path) (m : Manifest) : Validation :=
  let v := { empty with manifestValid := true }
  let (v, config) :=
    match Project.loadStaticConfig d (root.join m.configuration) with
    | .ok config =>
        ({ v with
            configurationValid := true
            globalKeys := config.base.length
            localKeys := config.overrides.length }, some config)
    | .error e => (v.fail "configuration" e, none)
  let v := v.checkCatalog (Project.loadCatalog d (root.join m.catalog)) config
  let v := v.checkParameters (ParameterSets.load d (root.join m.parameters))
  v.checkPipelines crafts (Definitions.load d (root.join m.pipelines))

/-- Checks the project of the manifest that was asked for, or of the nearest one. -/
def ofProject (d : Disk) (crafts : CraftRegistry) (manifest : Option Path) : Validation :=
  match Manifest.locate d manifest with
  | .error e => empty.fail "manifest" (.fault e)
  | .ok path =>
      match Manifest.read d path with
      | .error e => empty.fail "manifest" e
      | .ok m => checkParts d crafts (Session.rootOf path) m

def toValue (v : Validation) : Value :=
  .mapping [("valid", .bool v.valid), ("manifest_valid", .bool v.manifestValid),
    ("configuration_valid", .bool v.configurationValid), ("global_keys", .int v.globalKeys),
    ("local_keys", .int v.localKeys), ("catalog_valid", .bool v.catalogValid),
    ("artifacts", .int v.artifacts), ("parameters_valid", .bool v.parametersValid),
    ("parameter_sets", .int v.parameterSets), ("pipelines_valid", .bool v.pipelinesValid),
    ("pipelines", .int v.pipelines), ("errors", .list (v.errors.map .string)),
    ("warnings", .list (v.warnings.map .string))]

end Validation
end ArtifactFlow
