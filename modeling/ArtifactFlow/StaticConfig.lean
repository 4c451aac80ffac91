import ArtifactFlow.Failure.Basic
import ArtifactFlow.Value.Lookup
import ArtifactFlow.Value.Merge

/-!
The layered configuration that static placeholders refer to, and the arguments that dynamic ones
refer to. The override layer wins, key by key. A key that is set to `null` is there.
-/

namespace ArtifactFlow

/-- A base layer and the layer that overrides it. -/
structure StaticConfig where
  base : Mapping
  overrides : Mapping

namespace StaticConfig

def empty : StaticConfig := ⟨[], []⟩

def merged (config : StaticConfig) : Mapping :=
  Mapping.merge config.base config.overrides

def get? (config : StaticConfig) (path : String) : Option Value :=
  Mapping.lookup? config.merged path

def resolve (config : StaticConfig) (path artifact : String) : Except Fault Value :=
  match config.get? path with
  | some v => .ok v
  | none => .error (.unresolvedStatic path artifact)

end StaticConfig

/-- The value of a dynamic placeholder of an artifact. Dotted names go down into arguments that
are mappings. -/
def resolveArgument (args : Mapping) (name artifact : String) : Except Fault Value :=
  match Mapping.lookup? args name with
  | some v => .ok v
  | none => .error (.unresolvedDynamic name artifact)

/-- All that placeholders of one artifact are resolved from. -/
structure Scope where
  config : StaticConfig
  args : Mapping
  artifact : String

end ArtifactFlow
