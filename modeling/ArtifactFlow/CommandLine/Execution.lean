import ArtifactFlow.CommandLine.Assignments
import ArtifactFlow.CommandLine.Invocation
import ArtifactFlow.Failure.Advice
import ArtifactFlow.Pipeline.Listing
import ArtifactFlow.Project.Validation

/-!
What commands do and print. A command works on a file system and gives the new one; nothing is
printed to the error stream but what is told about a failure.
-/

namespace ArtifactFlow.CommandLine

/-- What is left of a command. -/
structure Execution where
  output : String
  failure : Option Failure
  disk : Disk
  trace : List Notice

namespace Execution

def status (e : Execution) : Nat :=
  if e.failure.isSome then 1 else 0

def errorOutput (e : Execution) : String :=
  match e.failure with
  | some f => f.advice.display
  | none => ""

def ofResult (d : Disk) : Result String → Execution
  | .ok output => ⟨output, none, d, []⟩
  | .error e => ⟨"", some e, d, []⟩

end Execution

def lines (ls : List String) : String :=
  String.join (ls.map (· ++ "\n"))

/-- The session of the manifest that was asked for, or of the nearest one. -/
def openSession (d : Disk) (manifest : Option Path) : Result Session := do
  Session.load d (← Result.ofFault (Manifest.locate d manifest))

/-- A line that tells whether a part of a project is in order. -/
def checkLine (ok : Bool) (label : String) : String :=
  (if ok then "✓ " else "✗ ") ++ label

def validationText (v : Validation) : String :=
  let count (n : Nat) (label : String) : String := toString n ++ label
  lines ([checkLine v.manifestValid "Manifest"] ++
    (if v.manifestValid then [
      checkLine v.configurationValid ("Static configuration (" ++
        count v.globalKeys " global keys, " ++ count v.localKeys " local keys)"),
      checkLine v.catalogValid ("Catalog (" ++ count v.artifacts " artifacts)"),
      checkLine v.parametersValid ("Parameter sets (" ++ count v.parameterSets ")"),
      checkLine v.pipelinesValid ("Pipelines (" ++ count v.pipelines ")")] else []) ++
    v.errors.map ("  ✗ " ++ ·) ++ v.warnings.map ("  ⚠ " ++ ·) ++
    (if v.valid then ["✓ Project is valid"] else []))

/-- Prints the findings of a check, and fails if there are errors. -/
def executeValidate (d : Disk) (crafts : CraftRegistry) (manifest : Option Path)
    (format : ReportFormat) : Execution :=
  let v := Validation.ofProject d crafts manifest
  let output := match format with
    | .json => Json.prettyString v.toValue ++ "\n"
    | .text => validationText v
  let failure :=
    if v.valid then none
    else some (.message ("Validation failed with " ++ toString v.errors.length ++ " error(s)"))
  ⟨output, failure, d, []⟩

/-- A text with blanks behind it up to a number of characters. -/
def padTo (width : Nat) (s : String) : String :=
  s ++ String.ofList (List.replicate (width - s.length) ' ')

/-- The declared artifacts, with their types in a column unless only names are wanted. The column
starts behind the longest name, which is measured in bytes. -/
def catalogText (c : Catalog) (namesOnly : Bool) : String :=
  if c.declarations.isEmpty then lines ["No artifacts declared."]
  else
    let width := (c.names.map String.utf8ByteSize).foldl max 0
    lines (c.declarations.map fun (_, d) =>
      if namesOnly then d.name else padTo width d.name ++ "  " ++ d.artifactType)

def definitionsText (ds : Definitions) : String :=
  if ds.isEmpty then lines ["No pipelines defined."]
  else lines (ds.map fun (name, operators) => name ++ "  " ++ Text.joinWith " + " operators)

def outcomeText (pipeline : String) (size : Nat) (o : Outcome) : String :=
  lines (["✓ Pipeline '" ++ pipeline ++ "' completed (" ++ toString size ++ " crafts)"] ++
    o.artifacts.map ("  wrote " ++ ·) ++
    (if o.volatiles.isEmpty then []
      else ["  volatiles: " ++ Text.joinWith ", " (Fields.keys o.volatiles)]))

def runArguments (s : Session) (parameters : Option String) (assignments : List String) :
    Result Mapping := do
  let base ←
    match parameters with
    | some name => Result.ofFault (s.parameters.expand name)
    | none => .ok []
  return Mapping.merge base (← Assignments.toArgs assignments)

/-- Runs a pipeline of a session and prints what it has made. -/
def executeRun (d : Disk) (crafts : CraftRegistry) (manifest : Option Path) (pipeline : String)
    (parameters : Option String) (assignments : List String) (format : ReportFormat) : Execution :=
  let prepared : Result (Session × Mapping × Pipeline) := do
    let s ← openSession d manifest
    let args ← runArguments s parameters assignments
    let p ← Result.ofFault (s.pipeline crafts pipeline)
    return (s, args, p.withHook (.observer "logging"))
  match prepared with
  | .error e => ⟨"", some e, d, []⟩
  | .ok (s, args, p) =>
      let report := p.run s.catalog args (s.store d)
      match report.result with
      | .error e => ⟨"", some (.fault e), report.store.disk, report.trace⟩
      | .ok o =>
          let output := match format with
            | .json => Json.prettyString o.toValue ++ "\n"
            | .text => outcomeText pipeline p.size o
          ⟨output, none, report.store.disk, report.trace⟩

def execute (d : Disk) (crafts : CraftRegistry) (i : Invocation) : Execution :=
  match i.command with
  | .validate format => executeValidate d crafts i.manifest format
  | .listCatalog namesOnly => .ofResult d do
      return catalogText (← openSession d i.manifest).catalog namesOnly
  | .resolve artifact assignments => .ofResult d do
      let s ← openSession d i.manifest
      let args ← Assignments.toArgs assignments
      let resolved ← Result.ofFault (s.catalog.resolve artifact args)
      return Json.prettyString resolved.toValue ++ "\n"
  | .listPipelines => .ofResult d do
      return definitionsText (← openSession d i.manifest).definitions
  | .showPipeline name drawn => .ofResult d do
      let s ← openSession d i.manifest
      let p ← Result.ofFault (s.pipeline crafts name)
      Result.ofFault (if drawn then p.drawing else p.listing)
  | .run pipeline parameters assignments format =>
      executeRun d crafts i.manifest pipeline parameters assignments format

end ArtifactFlow.CommandLine
