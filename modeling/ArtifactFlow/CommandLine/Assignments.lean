import ArtifactFlow.Failure.Basic
import ArtifactFlow.Text.Blank
import ArtifactFlow.Value.Text

/-!
Arguments written as assignments. `key=value` sets an argument; `craft.name=value` sets an argument
for one craft. A key cannot be both, and an argument is not lost without notice: a value never
replaces arguments that were set for a craft, unless it is a mapping itself.
-/

namespace ArtifactFlow.Assignments

/-- The key of an assignment, without blanks around it, and the text of its value. -/
def parse (assignment : String) : Result (List Char × String) :=
  match Text.cutAt? ['='] assignment.toList with
  | none => .error (.message ("Invalid argument '" ++ assignment ++ "': expected key=value"))
  | some (key, value) =>
      let key := Text.trim key
      if key.isEmpty then .error (.message ("Invalid argument '" ++ assignment ++ "': empty key"))
      else .ok (key, String.ofList value)

def scope? (key : List Char) : Option (String × String) :=
  match Text.cutAt? ['.'] key with
  | some (craft, name) =>
      if craft.isEmpty || name.isEmpty then none
      else some (String.ofList craft, String.ofList name)
  | none => none

def conflict (key : String) : Failure :=
  .message ("Argument '" ++ key ++ "' is set both as a value and as a craft namespace")

def setScoped (args : Mapping) (craft name : String) (value : Value) : Result Mapping :=
  match (Fields.get? craft args).getD (.mapping []) with
  | .mapping fields => .ok (Fields.insert craft (.mapping (Fields.insert name value fields)) args)
  | _ => .error (conflict craft)

def setPlain (args : Mapping) (key : String) (value : Value) : Result Mapping :=
  match Fields.get? key args, value with
  | some (.mapping _), .mapping _ => .ok (Fields.insert key value args)
  | some (.mapping _), _ => .error (conflict key)
  | _, _ => .ok (Fields.insert key value args)

def add (args : Mapping) (assignment : String) : Result Mapping := do
  let (key, text) ← parse assignment
  let value := Value.ofWord text
  match scope? key with
  | some (craft, name) => setScoped args craft name value
  | none => setPlain args (String.ofList key) value

def toArgs (assignments : List String) : Result Mapping :=
  assignments.foldlM add []

end ArtifactFlow.Assignments
