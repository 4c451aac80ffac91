import ArtifactFlow.Catalog.Codec
import ArtifactFlow.Storage.Glob

/-!
Files of a project's configuration. The extension of a file tells its format, and the files of a
directory are read in the order of their paths.
-/

namespace ArtifactFlow.ConfigFile

def readText (d : Disk) (p : Path) : Result String :=
  Result.context ("Failed to read config file: " ++ p.text)
    (match d.read p with
    | .error trouble => .error trouble.failure
    | .ok bytes =>
        match String.fromUTF8? bytes with
        | some text => .ok text
        | none => .error (.file .invalidData "stream did not contain valid UTF-8"))

/-- Files are YAML if their extension says so, else TOML. -/
def formatOf (p : Path) : Format :=
  match p.extension? with
  | some "yaml" | some "yml" => .yaml
  | _ => .toml

def readWith (d : Disk) (p : Path) (reader : Format → String → Result α) : Result α := do
  let text ← readText d p
  Result.context ("Failed to parse config file: " ++ p.text) (reader (formatOf p) text)

/-- The mapping that a file holds. An empty file holds an empty one. -/
def readMapping (d : Disk) (p : Path) : Result Mapping := do
  match ← readWith d p Format.parse with
  | .null => .ok []
  | .mapping fields => .ok fields
  | _ => .error (.message ("Top level of " ++ p.text ++ " must be a mapping"))

def filesMatching (d : Disk) (dir : Path) (pattern : String) : Result (List Path) :=
  let pattern := (dir.join ⟨pattern⟩).text
  match Glob.find? d pattern with
  | some paths => .ok (paths.filter d.isFile)
  | none => .error (.within ("Invalid glob pattern: " ++ pattern) (.message "<glob error>"))

/-- The YAML files below a directory whose names without extension fit a pattern, in the order of
paths. -/
def yamlFiles (d : Disk) (dir : Path) (stem : String) : Result (List Path) := do
  let long ← filesMatching d dir (stem ++ ".yaml")
  let short ← filesMatching d dir (stem ++ ".yml")
  return Path.sort (long ++ short)

/-- Runs over the entries of all YAML files below a directory. A directory that is missing has
none. -/
def foldEntries (d : Disk) (dir : Path) (add : α → Path → String → Value → Result α) (start : α) :
    Result α := do
  if !d.isDirectory dir then return start
  (← yamlFiles d dir "**/*").foldlM (fun acc path => do
    (← readMapping d path).foldlM (fun acc (name, entry) => add acc path name entry) acc) start

def strings? : Value → Option (List String)
  | .list items => items.mapM Value.asString?
  | _ => none

/-- An entry that may be left out, in the shape that `read` asks for. -/
def optional? (key : String) (default : α) (read : Value → Option α) (fields : Mapping) :
    Option α :=
  match Fields.get? key fields with
  | some v => read v
  | none => some default

/-- The entries of a record, which may also be written as the list of its values. -/
def record? (names : List String) : Value → Option Mapping
  | .mapping fields => some fields
  | .list items => some (names.zip items)
  | _ => none

/-- A record that was read from a file, which has the wrong shape if there is none. -/
def shaped (format : Format) : Option α → Result α
  | some a => .ok a
  | none => .error (.unreadable format)

end ArtifactFlow.ConfigFile
