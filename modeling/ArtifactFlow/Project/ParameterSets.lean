import ArtifactFlow.Project.ConfigFile
import ArtifactFlow.Value.Merge

/-!
Named sets of arguments. A set can build on others: what these expand to is merged in order, and
the set's own values are merged over that by the set's own method. Of several sets of one name
the one with the least precedence is kept, and of those the first.
-/

namespace ArtifactFlow

inductive MergeMethod where
  | recursive
  | override
  deriving DecidableEq, Repr

namespace MergeMethod

def label : MergeMethod → String
  | .recursive => "recursive"
  | .override => "override"

/-- Lays the right mapping over the left one. -/
def apply : MergeMethod → Mapping → Mapping → Mapping
  | .recursive => Mapping.merge
  | .override => Mapping.replace

def ofLabel? : String → Option MergeMethod
  | "recursive" => some .recursive
  | "override" => some .override
  | _ => none

/-- A method is written by its name, or as the one key of a mapping without a value. -/
def ofValue? : Value → Option MergeMethod
  | .string s => ofLabel? s
  | .mapping [(key, .null)] => ofLabel? key
  | _ => none

end MergeMethod

structure ParameterSet where
  /-- The sets that this one builds on. -/
  parents : List String
  method : MergeMethod
  precedence : Int
  values : Mapping

namespace ParameterSet

/-- Whole numbers of 64 bits with a sign. -/
def precedence? : Value → Option Int
  | .int n => if -(Nat.pow 2 63) ≤ n ∧ n < Nat.pow 2 63 then some n else none
  | _ => none

/-- The keys of a set that are not values of its own. -/
def reservedKeys : List String :=
  ["from", "merge", "precedence"]

def ofValue? (v : Value) : Option ParameterSet := do
  let fields ← v.asMapping?
  return {
    parents := ← ConfigFile.optional? "from" [] ConfigFile.strings? fields
    method := ← ConfigFile.optional? "merge" .recursive MergeMethod.ofValue? fields
    precedence := ← ConfigFile.optional? "precedence" 0 precedence? fields
    values := fields.filter fun (key, _) => !reservedKeys.contains key }

def toValue (s : ParameterSet) : Value :=
  .mapping ([("from", .list (s.parents.map .string)), ("merge", .string s.method.label),
    ("precedence", .int s.precedence)] ++ s.values)

end ParameterSet

abbrev ParameterSets := Fields ParameterSet

namespace ParameterSets

/-- Adds a set, unless one of its name is there whose precedence is as low. -/
def add (sets : ParameterSets) (name : String) (set : ParameterSet) : ParameterSets :=
  match Fields.get? name sets with
  | some present =>
      if present.precedence ≤ set.precedence then sets else Fields.insertSorted name set sets
  | none => Fields.insertSorted name set sets

/-- The fault of a set that builds on itself. `stack` holds the sets that lead there, latest
first. -/
def cyclic (stack : List String) (name : String) : Fault :=
  .configuration ("cyclic parameter set inheritance: " ++
    Text.joinWith " → " (name :: stack).reverse)

/-- What a set expands to inside the sets on the stack. A name never stands on the stack twice, so
the number of sets bounds the levels that are needed. -/
def expandWithin (sets : ParameterSets) : Nat → List String → String → Except Fault Mapping
  | 0, stack, name => .error (cyclic stack name)
  | levels + 1, stack, name =>
      if stack.contains name then .error (cyclic stack name)
      else
        match Fields.get? name sets with
        | none => .error (.unknownParameterSet name)
        | some set => do
            let inherited ← set.parents.foldlM (fun acc parent => do
              return Mapping.merge acc (← sets.expandWithin levels (name :: stack) parent)) []
            return set.method.apply inherited set.values

def expand (sets : ParameterSets) (name : String) : Except Fault Mapping :=
  sets.expandWithin (sets.length + 1) [] name

def addEntry (sets : ParameterSets) (path : Path) (name : String) (entry : Value) :
    Result ParameterSets := do
  let set ← Result.context ("Invalid parameter set '" ++ name ++ "' in " ++ path.text)
    (ConfigFile.shaped .json (ParameterSet.ofValue? entry))
  return sets.add name set

/-- The sets of a directory. -/
def load (d : Disk) (dir : Path) : Result ParameterSets :=
  ConfigFile.foldEntries d dir addEntry []

end ParameterSets
end ArtifactFlow
