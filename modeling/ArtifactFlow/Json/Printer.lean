import ArtifactFlow.Json.Text
import ArtifactFlow.Number.Layout
import ArtifactFlow.Value.Basic

/-!
Values as JSON text: compact, without any blank, and pretty, with two blanks a level.
-/

namespace ArtifactFlow.Json

/-- Doubles are positional from `1e-5` up to, but not including, `1e16`; exponents carry a sign. -/
def numberLayout : Layout := ⟨-5, 15, true⟩

mutual

def compact : Value → List Char
  | .null => "null".toList
  | .bool b => (if b then "true" else "false").toList
  | .int n => intText n
  | .float d => numberLayout.write d
  | .string s => quote s
  | .list items => '[' :: compactItems items ++ [']']
  | .mapping fields => '\x7b' :: compactFields fields ++ ['\x7d']
  termination_by structural v => v

def compactItems : List Value → List Char
  | [] => []
  | [v] => compact v
  | v :: rest => compact v ++ ',' :: compactItems rest
  termination_by structural items => items

def compactFields : List (String × Value) → List Char
  | [] => []
  | [(k, v)] => quote k ++ ':' :: compact v
  | (k, v) :: rest => quote k ++ ':' :: compact v ++ ',' :: compactFields rest
  termination_by structural fields => fields

end

/-- A new line at a nesting level. -/
def newLine (level : Nat) : List Char :=
  '\n' :: List.replicate (2 * level) ' '

mutual

def pretty (level : Nat) : Value → List Char
  | .list [] => ['[', ']']
  | .list items => '[' :: prettyItems (level + 1) items ++ newLine level ++ [']']
  | .mapping [] => ['\x7b', '\x7d']
  | .mapping fields => '\x7b' :: prettyFields (level + 1) fields ++ newLine level ++ ['\x7d']
  | .null => "null".toList
  | .bool b => (if b then "true" else "false").toList
  | .int n => intText n
  | .float d => numberLayout.write d
  | .string s => quote s
  termination_by structural v => v

def prettyItems (level : Nat) : List Value → List Char
  | [] => []
  | [v] => newLine level ++ pretty level v
  | v :: rest => newLine level ++ pretty level v ++ ',' :: prettyItems level rest
  termination_by structural items => items

def prettyFields (level : Nat) : List (String × Value) → List Char
  | [] => []
  | [(k, v)] => newLine level ++ quote k ++ ':' :: ' ' :: pretty level v
  | (k, v) :: rest =>
      newLine level ++ quote k ++ ':' :: ' ' :: pretty level v ++ ',' :: prettyFields level rest
  termination_by structural fields => fields

end

def compactString (v : Value) : String :=
  String.ofList (compact v)

def prettyString (v : Value) : String :=
  String.ofList (pretty 0 v)

end ArtifactFlow.Json
