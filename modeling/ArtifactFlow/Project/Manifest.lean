import ArtifactFlow.Project.ConfigFile

/-!
The manifest of a project: its name and where its parts are. A directory with a manifest is the
root of a project.
-/

namespace ArtifactFlow

/-- Paths are relative to the root of the project. -/
structure Manifest where
  name : String
  configuration : Path
  catalog : Path
  parameters : Path
  pipelines : Path
  data : Path

namespace Manifest

def fileName : String := "craftline.toml"

/-- A section of a manifest, in which none of the names may stand twice. In YAML one without
anything in it is there and has no entries. -/
def section? (format : Format) (names : List String) (v : Value) : Option Mapping := do
  let fields ← match format, v with
    | .yaml, .string "" => some []
    | _, v => ConfigFile.record? names v
  if names.any fun name => 1 < (Fields.keys fields).count name then none else fields

def path? (fields : Mapping) (key default : String) : Option Path :=
  ConfigFile.optional? key ⟨default⟩ (fun v => v.asString?.map Path.mk) fields

/-- The manifest that a value describes. Entries of other names do not count. -/
def ofValue? (format : Format) (v : Value) : Option Manifest := do
  let sections ← section? format ["project", "paths"] v
  let project ← section? format ["name"] (← Fields.get? "project" sections)
  let name ← Fields.get? "name" project >>= Value.asString?
  let paths ← ConfigFile.optional? "paths" []
    (section? format ["configuration", "catalog", "parameters", "pipelines", "data"]) sections
  return {
    name
    configuration := ← path? paths "configuration" "lib/configuration"
    catalog := ← path? paths "catalog" "lib/catalog"
    parameters := ← path? paths "parameters" "lib/parameters"
    pipelines := ← path? paths "pipelines" "lib/pipelines"
    data := ← path? paths "data" "data" }

/-- The manifest that a text describes. In YAML the text of a scalar counts, not its kind. -/
def parse (format : Format) (text : String) : Result Manifest := do
  let v ←
    match format with
    | .yaml => ConfigFile.shaped .yaml (Yaml.parseTexts? text)
    | _ => format.parse text
  ConfigFile.shaped format (ofValue? format v)

def read (d : Disk) (p : Path) : Result Manifest :=
  ConfigFile.readWith d p parse

def toValue (m : Manifest) : Value :=
  .mapping [("project", .mapping [("name", .string m.name)]),
    ("paths", .mapping [("configuration", .string m.configuration.text),
      ("catalog", .string m.catalog.text), ("parameters", .string m.parameters.text),
      ("pipelines", .string m.pipelines.text), ("data", .string m.data.text)])]

/-- The manifest of the nearest directory that has one, from a directory on upwards. -/
def findFrom (d : Disk) (start : Path) : Except Fault Path :=
  match (start.ancestors.map (·.join ⟨fileName⟩)).find? d.isFile with
  | some p => .ok p
  | none => .error .manifestNotFound

/-- The directory that a disk's relative paths start from. -/
def currentDirectory (d : Disk) : Path :=
  ⟨"/" ++ Text.joinWith "/" d.workingDirectory⟩

/-- The manifest that was asked for, or the nearest one above the working directory. -/
def locate (d : Disk) : Option Path → Except Fault Path
  | some p => if d.isFile p then .ok p else .error .manifestNotFound
  | none => findFrom d (currentDirectory d)

end Manifest
end ArtifactFlow
