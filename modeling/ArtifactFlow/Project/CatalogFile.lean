import ArtifactFlow.Catalog.Basic
import ArtifactFlow.Project.ConfigFile

/-!
Declarations in files. Static placeholders are bound when a declaration is read, so that what is
missing in the configuration comes to light before anything is loaded or saved.
-/

namespace ArtifactFlow.Project

/-- Names of artifacts: a letter or underscore, then letters, digits and `_`, `.`, `-`. -/
def isArtifactName (name : String) : Bool :=
  match name.toList with
  | [] => false
  | c :: rest =>
      (c.isAlpha || c = '_') && rest.all fun c => c.isAlphanum || c = '_' || c = '.' || c = '-'

/-- The keys of a declaration that are not fields of the artifact. -/
def declarationKeys : List String :=
  ["type", "load_options", "save_options", "nullable", "expressions"]

/-- The declaration of an entry, with its placeholders as they are written. -/
def declarationOf? (name : String) (entry : Value) : Option Declaration := do
  let fields ← entry.asMapping?
  return {
    name
    artifactType := ← Fields.get? "type" fields >>= Value.asString?
    extra := fields.filter fun (key, _) => !declarationKeys.contains key
    loadOptions := ← ConfigFile.optional? "load_options" [] Value.asMapping? fields
    saveOptions := ← ConfigFile.optional? "save_options" [] Value.asMapping? fields
    nullable := sortedNames (← ConfigFile.optional? "nullable" [] ConfigFile.strings? fields)
    expressions :=
      sortedNames (← ConfigFile.optional? "expressions" [] ConfigFile.strings? fields) }

def readDeclaration (config : StaticConfig) (name : String) (entry : Value) :
    Result Declaration := do
  let d ← ConfigFile.shaped .json (declarationOf? name entry)
  let extra ← Result.ofFault (renderFields ⟨config, [], name⟩ .staticOnly d.extra)
  return { d with extra }

def addDeclaration (c : Catalog) (path : Path) (name : String) (entry : Value) :
    Result Catalog := do
  if !isArtifactName name then
    Fault.throw (.configuration ("invalid artifact name '" ++ name ++ "' in " ++ path.text))
  else
    let d ← Result.context ("Invalid declaration '" ++ name ++ "' in " ++ path.text)
      (readDeclaration c.config name entry)
    Result.ofFault (c.insert d)

def loadCatalog (d : Disk) (dir : Path) (config : StaticConfig) : Result Catalog :=
  ConfigFile.foldEntries d dir addDeclaration (.empty config)

end ArtifactFlow.Project
