import ArtifactFlow.Json.Printer
import ArtifactFlow.Json.Reader

/-!
Values inside other text, and text that stands for a value.
-/

namespace ArtifactFlow.Value

/-- A value as part of a text: strings stand without quotation marks, `null` is `None`, and all
else is compact JSON. -/
def stringify : Value → String
  | .string s => s
  | .null => "None"
  | v => Json.compactString v

/-- The value that a word on a command line stands for: JSON if it reads as JSON, else the word
itself. -/
def ofWord (raw : String) : Value :=
  (Json.parseString? raw).getD (.string raw)

end ArtifactFlow.Value
