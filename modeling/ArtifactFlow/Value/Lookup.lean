import ArtifactFlow.Text.Split
import ArtifactFlow.Value.Basic

/-!
Dotted paths such as `database.hosts.0.name` into nested mappings and lists.
-/

namespace ArtifactFlow

/-- The bound that positions stay below: the number of addressable bytes. -/
def positionBound : Nat := Nat.pow 2 64

def decimalNumber? (digits : List Char) : Option Nat :=
  if digits.isEmpty || !digits.all Char.isDigit then none
  else some (digits.foldl (fun n c => 10 * n + (c.toNat - 48)) 0)

/-- A list position: decimal digits, after a plus sign at most, below the bound. -/
def listPosition? (text : String) : Option Nat := do
  let digits := match text.toList with
    | '+' :: rest => rest
    | cs => cs
  let n ← decimalNumber? digits
  if n < positionBound then some n else none

namespace Value

/-- The value under one segment of a path: a key of a mapping or a position in a list. -/
def child? (segment : String) : Value → Option Value
  | .mapping fields => Fields.get? segment fields
  | .list items => do items[← listPosition? segment]?
  | _ => none

def descend? : List String → Value → Option Value
  | [], v => some v
  | segment :: rest, v => child? segment v >>= descend? rest

end Value

/-- The value at a dotted path of a mapping. A path that ends on `null` is found. -/
def Mapping.lookup? (root : Mapping) (path : String) : Option Value :=
  match Text.splitString '.' path with
  | [] => none
  | first :: rest => Fields.get? first root >>= Value.descend? rest

end ArtifactFlow
