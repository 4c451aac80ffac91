import ArtifactFlow.Pipeline.Graph

/-!
Graphs as DOT text: a numbered node for each craft, and an arrow with a name for each edge.
-/

namespace ArtifactFlow.Graph

/-- A character inside a label. A line break becomes the mark for a line that is set flush left. -/
def labelChar (c : Char) : List Char :=
  if c = '"' || c = '\\' then ['\\', c]
  else if c = '\n' then ['\\', 'l']
  else [c]

def label (text : String) : String :=
  "[ label = \"" ++ String.ofList (text.toList.flatMap labelChar) ++ "\" ]"

def nodeLine (position : Nat) (name : String) : String :=
  "    " ++ toString position ++ " " ++ label name ++ "\n"

def edgeLine (e : Edge) : String :=
  "    " ++ toString e.producer ++ " -> " ++ toString e.consumer ++ " " ++ label e.name ++ "\n"

/-- The graph as DOT text. -/
def drawing (g : Graph) : String :=
  "digraph \x7b\n" ++ String.join (g.names.zipIdx.map fun (name, i) => nodeLine i name) ++
    String.join (g.edges.map edgeLine) ++ "\x7d\n"

end ArtifactFlow.Graph
