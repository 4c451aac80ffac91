import ArtifactFlow.Craft.Basic

/-!
Which craft of a list needs what another one makes. Crafts are referred to by their position in
the list. Names that are needed and not made by any craft are the inputs of the whole.
-/

namespace ArtifactFlow

structure Edge where
  producer : Nat
  consumer : Nat
  name : String
  deriving DecidableEq, Repr

/-- The dependencies of a list of crafts. -/
structure Graph where
  /-- The names of the crafts, by position. -/
  names : List String
  /-- At most one for each ordered pair of crafts, consumers in order, the requirements of each in
  order. -/
  edges : List Edge
  /-- Needed by some craft and made by none; ascending. -/
  externalInputs : List String

namespace Graph

/-- The producers of the names made so far. -/
abbrev Producers := Fields Nat

/-- Adds what the craft at a position makes. A name has one producer only; `nameOf` names the crafts
for the fault. -/
def addProducer (nameOf : Nat → String) (position : Nat) (producers : Producers)
    (p : Production) : Except Fault Producers :=
  match Fields.get? p.name producers with
  | some first => .error (.ambiguousProducer p.name (nameOf first) (nameOf position))
  | none => .ok (Fields.insert p.name position producers)

def producersOf (crafts : List Craft) : Except Fault Producers :=
  let nameOf (i : Nat) : String := (crafts[i]?.map Craft.name).getD ""
  crafts.zipIdx.foldlM (fun producers (craft, position) =>
    craft.contract.produced.foldlM (addProducer nameOf position) producers) []

/-- Whether one craft depends on another directly. -/
def hasEdge (edges : List Edge) (producer consumer : Nat) : Bool :=
  edges.any fun e => e.producer = producer && e.consumer = consumer

/-- Adds the edge for a name that the craft at a position needs, unless there is one for the same
two crafts. A craft that makes what it needs itself does not depend on itself. -/
def addEdge (producers : Producers) (consumer : Nat) (edges : List Edge) (name : String) :
    List Edge :=
  match Fields.get? name producers with
  | some producer =>
      if producer = consumer || hasEdge edges producer consumer then edges
      else edges ++ [⟨producer, consumer, name⟩]
  | none => edges

/-- The names that a craft needs from the catalog or from other crafts, in order. -/
def needs (craft : Craft) : List String :=
  craft.contract.dependencies.map (·.name)

def edgesOf (producers : Producers) (crafts : List Craft) : List Edge :=
  crafts.zipIdx.foldl (fun edges (craft, consumer) =>
    (needs craft).foldl (addEdge producers consumer) edges) []

/-- The graph of a list of crafts, in which no name may be made twice. -/
def ofCrafts (crafts : List Craft) : Except Fault Graph := do
  let producers ← producersOf crafts
  return {
    names := crafts.map (·.name)
    edges := edgesOf producers crafts
    externalInputs := sortedNames
      ((crafts.flatMap needs).filter fun name => !Fields.contains name producers) }

def size (g : Graph) : Nat :=
  g.names.length

/-- The name of the craft at a position. -/
def nameAt (g : Graph) (position : Nat) : String :=
  g.names[position]?.getD ""

/-- The crafts that need something from the one at a position, the latest edge first. -/
def consumers (g : Graph) (position : Nat) : List Nat :=
  ((g.edges.filter (·.producer = position)).map (·.consumer)).reverse

def suppliers (g : Graph) (position : Nat) : List Nat :=
  (g.edges.filter (·.consumer = position)).map (·.producer)

/-- The names of producer and consumer and the name between them, for every edge. -/
def links (g : Graph) : List (String × String × String) :=
  g.edges.map fun e => (g.nameAt e.producer, g.nameAt e.consumer, e.name)

end Graph
end ArtifactFlow
