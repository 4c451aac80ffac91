import ArtifactFlow.Craft.Invoke
import ArtifactFlow.Pipeline.Order

/-!
Pipelines: crafts, no two of one name, with the order in which they run. Every way of making a
pipeline computes the order anew and fails when there is none, so that nothing runs before the
whole is known to fit together.
-/

namespace ArtifactFlow

structure Pipeline where
  name : String
  crafts : List Craft
  /-- Positions in `crafts`. -/
  order : List Nat
  hooks : List Hook

namespace Pipeline

def empty (name : String) : Pipeline := ⟨name, [], [], []⟩

def ofCraft (craft : Craft) : Pipeline := ⟨craft.name, [craft], [0], []⟩

def withHook (p : Pipeline) (hook : Hook) : Pipeline :=
  { p with hooks := p.hooks ++ [hook] }

/-- Adds a craft to others. The same craft is added once; another one of its name is refused. -/
def addCraft (crafts : List Craft) (craft : Craft) : Except Fault (List Craft) :=
  match crafts.find? (·.name = craft.name) with
  | some present =>
      if present.id = craft.id then .ok crafts else .error (.duplicateCraft craft.name)
  | none => .ok (crafts ++ [craft])

/-- The pipeline of crafts in their order of insertion, with the order in which they run. -/
def assemble (name : String) (crafts : List Craft) (hooks : List Hook) :
    Except Fault Pipeline := do
  let crafts ← crafts.foldlM addCraft []
  let graph ← Graph.ofCrafts crafts
  return ⟨name, crafts, ← graph.order, hooks⟩

def ofCrafts (name : String) (crafts : List Craft) : Except Fault Pipeline :=
  assemble name crafts []

def ordered (p : Pipeline) : List Craft :=
  p.order.filterMap (p.crafts[·]?)

def members (p : Pipeline) : List String :=
  sortedNames (p.crafts.map (·.name))

/-- The names of the crafts in the order in which they run. -/
def orderedNames (p : Pipeline) : List String :=
  p.ordered.map (·.name)

def size (p : Pipeline) : Nat :=
  p.crafts.length

def graph (p : Pipeline) : Except Fault Graph :=
  Graph.ofCrafts p.crafts

/-- The crafts of both pipelines, under the name of the left one and with the hooks of both. -/
def combine (left right : Pipeline) : Except Fault Pipeline :=
  assemble left.name (left.ordered ++ right.ordered) (left.hooks ++ right.hooks)

/-- Runs crafts one after another. When one fails, the hooks of the pipeline are told. -/
def runCrafts (p : Pipeline) (catalog : Catalog) : List Craft → Run Unit
  | [] => pure ()
  | craft :: rest => do
      tryCatch (craft.invoke catalog []) fun e => do
        Hook.callFailed p.name e p.hooks
        throw e
      p.runCrafts catalog rest

def perform (p : Pipeline) (catalog : Catalog) : Run Unit := do
  Hook.callBefore p.name p.hooks
  p.runCrafts catalog p.ordered
  Hook.callAfter p.name p.hooks

/-- Runs all crafts in order from a fresh context. Nothing happens if the arguments are refused. -/
def run (p : Pipeline) (catalog : Catalog) (args : Mapping) (store : Store) : Report Outcome :=
  match Context.ofArgs args (p.crafts.map (·.name)) with
  | .error e => ⟨.error e, store, []⟩
  | .ok context =>
      match ((p.perform catalog).run).run ⟨context, store, []⟩ with
      | (.ok (), s) => ⟨.ok s.context.outcome, s.store, s.trace⟩
      | (.error e, s) => ⟨.error e, s.store, s.trace⟩

end Pipeline
end ArtifactFlow
