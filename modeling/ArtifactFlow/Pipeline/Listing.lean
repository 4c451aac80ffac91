import ArtifactFlow.Pipeline.Basic
import ArtifactFlow.Pipeline.Drawing

/-!
Pipelines shown to a reader: as a list of steps and dependencies, or as a drawing.
-/

namespace ArtifactFlow.Pipeline

/-- The steps of a pipeline, its dependencies, and the inputs that no craft makes. -/
def listing (p : Pipeline) : Except Fault String := do
  let graph ← p.graph
  let steps := p.orderedNames.zipIdx.map fun (name, i) =>
    "  " ++ toString (i + 1) ++ ". " ++ name
  let links := graph.links.map fun (producer, consumer, name) =>
    "  " ++ producer ++ " → " ++ consumer ++ " (" ++ name ++ ")"
  let lines :=
    ["Pipeline '" ++ p.name ++ "' (" ++ toString p.size ++ " crafts)"] ++ steps ++
      (if links.isEmpty then [] else "Dependencies:" :: links) ++
      (if graph.externalInputs.isEmpty then []
        else ["External inputs: " ++ Text.joinWith ", " graph.externalInputs])
  return String.join (lines.map (· ++ "\n"))

def drawing (p : Pipeline) : Except Fault String :=
  p.graph.map Graph.drawing

end ArtifactFlow.Pipeline
