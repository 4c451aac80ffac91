import ArtifactFlow.Failure.Basic
import ArtifactFlow.Value.Basic

/-!
What a run knows and has made so far: arguments for all crafts, arguments for single crafts,
volatiles, and the names of the artifacts that were written. Volatiles are never overwritten, and
an artifact is recorded once.
-/

namespace ArtifactFlow

structure Outcome where
  volatiles : Mapping
  /-- In the order in which they were first written. -/
  artifacts : List String

structure Context where
  shared : Mapping
  /-- Arguments under the name of the craft that they are for. -/
  blocks : Fields Mapping
  volatiles : Mapping
  artifacts : List String

namespace Context

def empty : Context := ⟨[], [], [], []⟩

/-- Sorts an argument: under the name of a craft stands a mapping of arguments for that craft, all
else is shared. -/
def addArgument (crafts : List String) (c : Context) (key : String) (value : Value) :
    Except Fault Context :=
  if crafts.contains key then
    match value with
    | .mapping fields => .ok { c with blocks := Fields.insert key fields c.blocks }
    | _ => .error (.invalidBlock key)
  else .ok { c with shared := Fields.insert key value c.shared }

def ofArgs (args : Mapping) (crafts : List String) : Except Fault Context :=
  args.foldlM (fun c (key, value) => c.addArgument crafts key value) empty

def block? (c : Context) (craft : String) : Option Mapping :=
  Fields.get? craft c.blocks

def volatile? (c : Context) (name : String) : Option Value :=
  Fields.get? name c.volatiles

/-- A craft may make a volatile that is not there yet. -/
def checkFree (c : Context) (craft name : String) : Except Fault Unit :=
  if Fields.contains name c.volatiles then .error (.volatileCollision craft name) else .ok ()

/-- Adds a volatile that a craft has made. -/
def insertVolatile (c : Context) (craft name : String) (value : Value) : Except Fault Context := do
  c.checkFree craft name
  return { c with volatiles := Fields.insert name value c.volatiles }

def recordArtifact (c : Context) (name : String) : Context :=
  if c.artifacts.contains name then c else { c with artifacts := c.artifacts ++ [name] }

def outcome (c : Context) : Outcome :=
  ⟨c.volatiles, c.artifacts⟩

end Context

def Outcome.toValue (o : Outcome) : Value :=
  .mapping [("volatiles", .mapping o.volatiles), ("artifacts", .list (o.artifacts.map .string))]

end ArtifactFlow
