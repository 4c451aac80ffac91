import ArtifactFlow.Pipeline.Definitions
import ArtifactFlow.Project.ConfigFile

/-!
Pipeline definitions in files. A name is defined once.
-/

namespace ArtifactFlow.Definitions

/-- The operators that an entry lists. An entry that is a list has the operators as its only
item. -/
def operators? (entry : Value) : Option (List String) := do
  if let .list items := entry then
    if items.length ≠ 1 then none
  Fields.get? "operators" (← ConfigFile.record? ["operators"] entry) >>= ConfigFile.strings?

def addEntry (ds : Definitions) (path : Path) (name : String) (entry : Value) :
    Result Definitions := do
  let operators ← Result.context ("Invalid pipeline '" ++ name ++ "' in " ++ path.text)
    (ConfigFile.shaped .json (operators? entry))
  if Fields.contains name ds then
    Fault.throw (.configuration ("pipeline '" ++ name ++ "' is defined more than once"))
  else return ds.define name operators

def load (d : Disk) (dir : Path) : Result Definitions :=
  ConfigFile.foldEntries d dir addEntry []

end ArtifactFlow.Definitions
