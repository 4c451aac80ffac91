import ArtifactFlow.Failure.Basic

/-!
What a user is told about a failure: the fault, what explains it and what to do about it.
-/

namespace ArtifactFlow

structure Advice where
  fault : Fault
  suggestion : Option String
  details : Option String

namespace Advice

def ofFault (f : Fault) : Advice :=
  ⟨f, none, none⟩

def withSuggestion (a : Advice) (text : String) : Advice :=
  { a with suggestion := some text }

def withDetails (a : Advice) (text : String) : Advice :=
  { a with details := some text }

/-- The fault's message, with labelled lines for the details and the suggestion that are there. -/
def lines (detailsLabel suggestionLabel : String) (a : Advice) : List String :=
  (a.details.toList.map (detailsLabel ++ ·)) ++ (a.suggestion.toList.map (suggestionLabel ++ ·))

def text (a : Advice) : String :=
  Text.joinWith "\n" (a.fault.message :: a.lines "Details: " "Suggestion: ")

/-- The advice as it is shown on a terminal, each line ended. -/
def display (a : Advice) : String :=
  String.join ((("error: " ++ a.fault.message) :: a.lines "details: " "suggestion: ").map (· ++ "\n"))

end Advice

namespace Fault

def suggestion? : Fault → Option String
  | .malformedPlaceholder .. =>
      some ("Placeholders use '\x7b\x7b path \x7d\x7d' for configuration, '!\x7b name \x7d' for " ++
        "call-time arguments and '+\x7b expr \x7d+' for expressions")
  | .unresolvedStatic path _ =>
      some ("Define '" ++ path ++
        "' in a globals*.yaml or locals*.yaml file of the configuration directory")
  | .unresolvedDynamic name _ =>
      some ("Pass '" ++ name ++ "' as an argument (e.g. --arg " ++ name ++
        "=...) or list the field under 'nullable'")
  | .unknownArtifact _ (some close) => some ("Did you mean '" ++ close ++ "'?")
  | .unknownArtifact _ none => some "Run 'craftline catalog list' to see the declared artifacts"
  | .ambiguousProducer name _ _ =>
      some ("Keep a single producer of '" ++ name ++
        "' in the pipeline, or rename one of the outputs")
  | .cyclicDependency _ =>
      some "Break the cycle by removing one of the inputs or outputs on the path"
  | .missingParameter craft param =>
      some ("Pass '" ++ param ++ "' as a shared argument, or under the '" ++ craft ++
        "' namespace, or give it a default")
  | .unresolvedVolatile _ name =>
      some ("Add a craft producing volatile '" ++ name ++ "' to the pipeline")
  | .volatileCollision _ name =>
      some ("Rename one of the volatile outputs named '" ++ name ++ "'")
  | .unknownAdapter .. =>
      some "Built-in types are json, yaml, toml and text. Register custom adapters on the catalog"
  | .unknownBackend .. =>
      some "Use a plain path, file:// or memory://, or register a backend for this scheme"
  | .unknownCraft .. =>
      some "Register the craft in the CraftRegistry passed to the CLI, or fix the operator name"
  | .manifestNotFound =>
      some "Create a craftline.toml file at the project root, or pass --manifest-path"
  | _ => none

def details? : Fault → Option String
  | .adapter _ _ source | .craftFailed _ source => some source.oneLine
  | .unresolvedExpression .. =>
      some ("Expressions are re-evaluated until their text stops changing, " ++
        "up to a fixed number of rounds")
  | .ambiguousProducer .. | .cyclicDependency _ =>
      some "Pipeline construction failed before any craft was executed"
  | .duplicateOutput .. => some "Each output name may be declared once per craft"
  | .manifestNotFound =>
      some "craftline looks for craftline.toml in the current directory and parent directories"
  | _ => none

def advice (f : Fault) : Advice :=
  ⟨f, f.suggestion?, f.details?⟩

end Fault

namespace Failure

def report (f : Failure) : String :=
  match f.chain with
  | [] => ""
  | first :: [] => first
  | first :: causes =>
      first ++ "\n\nCaused by:" ++ String.join (causes.zipIdx.map fun (cause, i) =>
        "\n  " ++ toString (i + 1) ++ ": " ++ cause)

/-- What a user is told about a failure. A fault is told without its contexts; anything else is
reported with all its causes. -/
def advice (f : Failure) : Advice :=
  match f.root with
  | .fault g => g.advice
  | .file .notFound _ =>
      ⟨.other f.report,
        some "Check that the file or directory exists and the path is spelled correctly",
        some "Relative artifact paths are resolved from the project's data directory"⟩
  | .unreadable .toml =>
      ⟨.configuration f.report,
        some ("Check the TOML syntax in craftline.toml. " ++
          "Verify quotes, brackets, and key names"), none⟩
  | .unreadable .yaml =>
      ⟨.configuration f.report,
        some "Check the YAML syntax and indentation of the file named above", none⟩
  | _ => .ofFault (.other f.report)

end Failure
end ArtifactFlow
