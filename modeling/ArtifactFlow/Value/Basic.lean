import ArtifactFlow.Fields
import ArtifactFlow.Number.Double

/-!
The values that flow through catalogs, crafts and pipelines: configuration, arguments, payloads.
Mappings are ordered. `null` under a key means that the key is there without a value, which is not
the same as a missing key.
-/

namespace ArtifactFlow

inductive Value where
  | null
  | bool (b : Bool)
  | int (n : Int)
  | float (d : Double)
  | string (s : String)
  | list (items : List Value)
  | mapping (fields : List (String × Value))
  deriving Repr, Inhabited

/-- An ordered mapping from names to values. -/
abbrev Mapping := Fields Value

namespace Value

/-- What an error calls a value of this kind. -/
def kindName : Value → String
  | .null => "null"
  | .bool _ => "a boolean"
  | .int _ | .float _ => "a number"
  | .string _ => "a string"
  | .list _ => "a list"
  | .mapping _ => "a mapping"

def isNull : Value → Bool
  | .null => true
  | _ => false

def asString? : Value → Option String
  | .string s => some s
  | _ => none

def asMapping? : Value → Option Mapping
  | .mapping fields => some fields
  | _ => none

def asList? : Value → Option (List Value)
  | .list items => some items
  | _ => none

def asBool? : Value → Option Bool
  | .bool b => some b
  | _ => none

end Value
end ArtifactFlow
