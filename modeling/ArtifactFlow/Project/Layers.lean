import ArtifactFlow.Project.ConfigFile
import ArtifactFlow.StaticConfig

/-!
The static configuration of a project: `globals` files make up the base, `locals` files override
it. Within a layer a later file is merged over the earlier ones.
-/

namespace ArtifactFlow.Project

def loadLayer (d : Disk) (dir : Path) (stem : String) : Result Mapping := do
  (← ConfigFile.yamlFiles d dir (stem ++ "*")).foldlM (fun layer path => do
    return Mapping.merge layer (← ConfigFile.readMapping d path)) []

/-- Both layers of a directory. A directory that is missing has none. -/
def loadStaticConfig (d : Disk) (dir : Path) : Result StaticConfig := do
  if !d.isDirectory dir then return .empty
  let base ← loadLayer d dir "globals"
  let overrides ← loadLayer d dir "locals"
  return ⟨base, overrides⟩

end ArtifactFlow.Project
