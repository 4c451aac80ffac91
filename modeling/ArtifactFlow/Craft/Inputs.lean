import ArtifactFlow.Craft.Contract
import ArtifactFlow.Failure.Basic

/-!
What the function of a craft is called with: the values of its requirements by name, and the kinds
that the names were declared with.
-/

namespace ArtifactFlow

structure Inputs where
  craft : String
  values : Mapping
  kinds : Fields InputKind

namespace Inputs

def empty (craft : String) : Inputs :=
  ⟨craft, [], []⟩

/-- Adds the value of a requirement. Of two requirements of one name the later one counts. -/
def add (i : Inputs) (r : Requirement) (v : Value) : Inputs :=
  { i with values := Fields.insert r.name v i.values, kinds := Fields.insert r.name r.kind i.kinds }

def contains (i : Inputs) (name : String) : Bool :=
  Fields.contains name i.values

def get (i : Inputs) (name : String) : Result Value :=
  match Fields.get? name i.values with
  | some v => .ok v
  | none =>
      .error (.message ("craft '" ++ i.craft ++ "' has no input named '" ++ name ++ "'"))

/-- The input of a name, which must be declared with a kind if it is declared at all. -/
def getKind (i : Inputs) (kind : InputKind) (name : String) : Result Value :=
  match Fields.get? name i.kinds with
  | some declared =>
      if declared = kind then i.get name
      else .error (.message ("input '" ++ name ++ "' of craft '" ++ i.craft ++ "' is declared as " ++
        declared.label ++ ", not " ++ kind.label))
  | none => i.get name

/-- The input of a name in the shape that `read` asks for. -/
def getAs (i : Inputs) (read : Value → Option α) (name : String) : Result α := do
  match read (← i.get name) with
  | some a => .ok a
  | none => .error (.within
      ("input '" ++ name ++ "' of craft '" ++ i.craft ++ "' has an unexpected shape")
      (.unreadable .json))

end Inputs
end ArtifactFlow
