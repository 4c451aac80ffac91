import ArtifactFlow.Project.CatalogFile
import ArtifactFlow.Project.DefinitionFile
import ArtifactFlow.Project.Layers
import ArtifactFlow.Project.Manifest
import ArtifactFlow.Project.ParameterSets

/-!
A project that has been read as a whole.
-/

namespace ArtifactFlow

structure Session where
  root : Path
  manifest : Manifest
  catalog : Catalog
  parameters : ParameterSets
  definitions : Definitions

namespace Session

def dataRoot (s : Session) : Path :=
  s.root.join s.manifest.data

/-- The store of a session that has not run anything yet. -/
def store (s : Session) (d : Disk) : Store :=
  ⟨d, Backend.defaults s.dataRoot⟩

def rootOf (manifest : Path) : Path :=
  manifest.parent?.getD ⟨"."⟩

def load (d : Disk) (path : Path) : Result Session := do
  if !d.isFile path then Fault.throw .manifestNotFound
  else
    let manifest ← Manifest.read d path
    let root := rootOf path
    let config ← Result.context "Failed to load static configuration"
      (Project.loadStaticConfig d (root.join manifest.configuration))
    let catalog ← Result.context "Failed to load catalog"
      (Project.loadCatalog d (root.join manifest.catalog) config)
    let parameters ← Result.context "Failed to load parameter sets"
      (ParameterSets.load d (root.join manifest.parameters))
    let definitions ← Result.context "Failed to load pipeline definitions"
      (Definitions.load d (root.join manifest.pipelines))
    return { root, manifest, catalog, parameters, definitions }

def discover (d : Disk) (start : Path) : Result Session := do
  load d (← Result.ofFault (Manifest.findFrom d start))

def pipeline (s : Session) (crafts : CraftRegistry) (name : String) : Except Fault Pipeline :=
  s.definitions.build crafts name

def runPipeline (s : Session) (crafts : CraftRegistry) (name : String) (args : Mapping)
    (store : Store) : Report Outcome :=
  match s.pipeline crafts name with
  | .ok p => p.run s.catalog args store
  | .error e => ⟨.error e, store, []⟩

end Session
end ArtifactFlow
