import ArtifactFlow.Text.Split

/-!
What can go wrong. A `Fault` is a cause that this library knows by name, and a `Failure` is a
fault, or an error from outside, inside the contexts in which it was met. `Failure.chain` lists the
messages from the outermost context to the innermost cause.
-/

namespace ArtifactFlow

/-- The ways in which a file operation is refused. -/
inductive FileTrouble where
  | notFound
  | isADirectory
  | notADirectory
  | alreadyExists
  | permissionDenied
  | directoryNotEmpty
  | invalidInput
  | invalidData
  | invalidFilename
  | other
  deriving DecidableEq, Repr

namespace FileTrouble

def label : FileTrouble → String
  | .notFound => "NotFound"
  | .isADirectory => "IsADirectory"
  | .notADirectory => "NotADirectory"
  | .alreadyExists => "AlreadyExists"
  | .permissionDenied => "PermissionDenied"
  | .directoryNotEmpty => "DirectoryNotEmpty"
  | .invalidInput => "InvalidInput"
  | .invalidData => "InvalidData"
  | .invalidFilename => "InvalidFilename"
  | .other => "Other"

def message (t : FileTrouble) : String :=
  "<io error: " ++ t.label ++ ">"

end FileTrouble

inductive Format where
  | json
  | yaml
  | toml
  deriving DecidableEq, Repr

namespace Format

def label : Format → String
  | .json => "JSON"
  | .yaml => "YAML"
  | .toml => "TOML"

/-- The message for text that is not of the format, or not of the shape that is wanted. Positions
inside the text are not reported. -/
def marker : Format → String
  | .json => "<json error>"
  | .yaml => "<yaml error>"
  | .toml => "<toml error>"

end Format

mutual

/-- A cause with a name of its own. -/
inductive Fault where
  /-- A placeholder at a byte position of a text is not closed or is empty. -/
  | malformedPlaceholder (input : String) (position : Nat) (reason : String)
  /-- A configuration path is in neither layer. -/
  | unresolvedStatic (path artifact : String)
  /-- No argument of that name was given. -/
  | unresolvedDynamic (name artifact : String)
  /-- A lookup expression has no value. -/
  | unresolvedExpression (expression reason : String)
  /-- No artifact is declared under the name; the closest declared name comes with it. -/
  | unknownArtifact (name : String) (suggestion : Option String)
  /-- Two crafts of one graph produce the same name. -/
  | ambiguousProducer (name first second : String)
  /-- The crafts of a cycle, the first one again at the end. -/
  | cyclicDependency (crafts : List String)
  | missingParameter (craft param : String)
  | unresolvedVolatile (craft name : String)
  | volatileCollision (craft name : String)
  /-- Loading or saving an artifact failed. -/
  | adapter (artifact artifactType : String) (source : Failure)
  /-- The function of a craft, or a hook around it, failed. -/
  | craftFailed (craft : String) (source : Failure)
  | outputMismatch (craft reason : String)
  | duplicateCraft (name : String)
  | duplicateOutput (craft name : String)
  /-- The arguments under a craft's name are not a mapping. -/
  | invalidBlock (craft : String)
  | unknownAdapter (artifact artifactType : String)
  | unknownBackend (scheme location : String)
  | unknownParameterSet (name : String)
  | unknownPipeline (name : String)
  | unknownCraft (pipeline name : String)
  | manifestNotFound
  | configuration (message : String)
  /-- A refused file operation, with its message. -/
  | file (trouble : FileTrouble) (text : String)
  /-- A text that is not of its format. -/
  | unreadable (format : Format)
  | other (message : String)

/-- A cause inside the contexts in which it was met. -/
inductive Failure where
  | fault (f : Fault)
  /-- A refused file operation, with its message. -/
  | file (trouble : FileTrouble) (text : String)
  /-- A text that is not of its format. -/
  | unreadable (format : Format)
  | message (text : String)
  | within (context : String) (cause : Failure)

end

instance : Inhabited Failure := ⟨.message ""⟩
instance : Inhabited Fault := ⟨.manifestNotFound⟩

namespace Fault

def message : Fault → String
  | .malformedPlaceholder input position reason =>
      "Malformed placeholder in '" ++ input ++ "' at position " ++ toString position ++ ": " ++ reason
  | .unresolvedStatic path artifact =>
      "Unresolved static placeholder '\x7b\x7b " ++ path ++ " \x7d\x7d' in artifact '" ++ artifact ++ "'"
  | .unresolvedDynamic name artifact =>
      "Unresolved dynamic placeholder '!\x7b " ++ name ++ " \x7d' in artifact '" ++ artifact ++ "'"
  | .unresolvedExpression expression reason =>
      "Cannot evaluate expression '+\x7b " ++ expression ++ " \x7d+': " ++ reason
  | .unknownArtifact name _ => "Unknown artifact '" ++ name ++ "'"
  | .ambiguousProducer name first second =>
      "'" ++ name ++ "' is produced by both '" ++ first ++ "' and '" ++ second ++ "'"
  | .cyclicDependency crafts =>
      "Cyclic dependency between crafts: " ++ Text.joinWith " → " crafts
  | .missingParameter craft param => "Craft '" ++ craft ++ "' is missing parameter '" ++ param ++ "'"
  | .unresolvedVolatile craft name =>
      "Craft '" ++ craft ++ "' requires volatile '" ++ name ++ "' which no earlier craft produced"
  | .volatileCollision craft name =>
      "Craft '" ++ craft ++ "' would overwrite existing volatile '" ++ name ++ "'"
  | .adapter artifact artifactType _ =>
      "Adapter '" ++ artifactType ++ "' failed for artifact '" ++ artifact ++ "'"
  | .craftFailed craft _ => "Craft '" ++ craft ++ "' failed"
  | .outputMismatch craft reason =>
      "Craft '" ++ craft ++ "' returned outputs that do not match its declaration: " ++ reason
  | .duplicateCraft name => "Pipeline already contains a different craft named '" ++ name ++ "'"
  | .duplicateOutput craft name =>
      "Craft '" ++ craft ++ "' declares output '" ++ name ++ "' more than once"
  | .invalidBlock craft => "Parameters for craft '" ++ craft ++ "' must be a mapping"
  | .unknownAdapter artifact artifactType =>
      "No adapter registered for type '" ++ artifactType ++ "' (artifact '" ++ artifact ++ "')"
  | .unknownBackend scheme location =>
      "No backend registered for scheme '" ++ scheme ++ "' in '" ++ location ++ "'"
  | .unknownParameterSet name => "Unknown parameter set '" ++ name ++ "'"
  | .unknownPipeline name => "Unknown pipeline '" ++ name ++ "'"
  | .unknownCraft pipeline name =>
      "Pipeline '" ++ pipeline ++ "' references unknown craft '" ++ name ++ "'"
  | .manifestNotFound => "No craftline.toml found in current directory or any parent directory"
  | .configuration message => "Configuration error: " ++ message
  | .file _ text => "IO error: " ++ text
  | .unreadable format =>
      match format with
      | .json => "JSON error: " ++ format.marker
      | _ => format.label ++ " parsing error: " ++ format.marker
  | .other message => message

/-- The craft or artifact that a fault is attributed to. -/
def subject? : Fault → Option String
  | .unresolvedStatic _ artifact | .unresolvedDynamic _ artifact | .adapter artifact _ _
  | .unknownAdapter artifact _ | .unknownArtifact artifact _ => some artifact
  | .missingParameter craft _ | .unresolvedVolatile craft _ | .volatileCollision craft _
  | .craftFailed craft _ | .outputMismatch craft _ | .duplicateOutput craft _
  | .invalidBlock craft => some craft
  | _ => none

end Fault

mutual

/-- The messages below a fault's own, outermost first. -/
def Fault.causes : Fault → List String
  | .adapter _ _ source => source.chain
  | .craftFailed _ source => source.chain
  | .file _ text => [text]
  | .unreadable format => [format.marker]
  | _ => []
  termination_by structural f => f

def Failure.chain : Failure → List String
  | .fault f => f.message :: f.causes
  | .file _ text => [text]
  | .unreadable format => [format.marker]
  | .message text => [text]
  | .within context cause => context :: cause.chain
  termination_by structural f => f

end

namespace Failure

def root : Failure → Failure
  | .within _ cause => cause.root
  | f => f

def fault? (f : Failure) : Option Fault :=
  match f.root with
  | .fault g => some g
  | _ => none

def summary (f : Failure) : String :=
  f.chain.headD ""

def oneLine (f : Failure) : String :=
  Text.joinWith ": " f.chain

/-- Wraps contexts around a failure, the last one outermost. -/
def withinAll (f : Failure) (contexts : List String) : Failure :=
  contexts.foldl (fun g context => .within context g) f

end Failure

/-- The outcome of something that can fail. -/
abbrev Result (α : Type u) := Except Failure α

def FileTrouble.failure (t : FileTrouble) : Failure :=
  .file t t.message

def Result.context (context : String) : Result α → Result α
  | .ok a => .ok a
  | .error f => .error (.within context f)

def Result.ofFault : Except Fault α → Result α
  | .ok a => .ok a
  | .error f => .error (.fault f)

/-- The fault is a failure of its own. -/
def Fault.throw (f : Fault) : Result α :=
  .error (.fault f)

end ArtifactFlow
