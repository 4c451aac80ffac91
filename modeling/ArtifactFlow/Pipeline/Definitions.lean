import ArtifactFlow.Pipeline.Basic

/-!
Pipelines by name. A definition lists operators, which are other definitions or, where there is
no definition of the name, crafts; a pipeline is built by combining them from left to right.
-/

namespace ArtifactFlow

/-- Operators by the name that they define, in ascending order of names. -/
abbrev Definitions := Fields (List String)

namespace Definitions

/-- Adds a definition, in place of one of the same name. -/
def define (ds : Definitions) (name : String) (operators : List String) : Definitions :=
  Fields.insertSorted name operators ds

/-- The definitions from the first one of a name on, and that name again. `stack` is kept latest
first. -/
def cycleOf (stack : List String) (name : String) : List String :=
  (stack.takeWhile (· ≠ name) ++ [name]).reverse ++ [name]

/-- Builds the pipeline of a name, inside the definitions on the stack. A name never stands on the
stack twice, so the number of definitions bounds the levels that are needed. -/
def buildWithin (ds : Definitions) (crafts : CraftRegistry) :
    Nat → List String → String → Except Fault Pipeline
  | 0, stack, name => .error (.cyclicDependency (cycleOf stack name))
  | levels + 1, stack, name =>
      if stack.contains name then .error (.cyclicDependency (cycleOf stack name))
      else
        match Fields.get? name ds with
        | none => .error (.unknownPipeline name)
        | some operators =>
            operators.foldlM (fun pipeline operator => do
              let operand ←
                if Fields.contains operator ds then
                  ds.buildWithin crafts levels (name :: stack) operator
                else
                  match Fields.get? operator crafts with
                  | some craft => .ok (Pipeline.ofCraft craft)
                  | none => .error (.unknownCraft name operator)
              pipeline.combine operand) (Pipeline.empty name)

def build (ds : Definitions) (crafts : CraftRegistry) (name : String) : Except Fault Pipeline :=
  ds.buildWithin crafts (ds.length + 1) [] name

end Definitions
end ArtifactFlow
