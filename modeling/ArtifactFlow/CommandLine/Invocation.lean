import ArtifactFlow.CommandLine.Arguments
import ArtifactFlow.Storage.Path

/-!
What the words of a command line ask for.
-/

namespace ArtifactFlow.CommandLine

inductive ReportFormat where
  | text
  | json
  deriving DecidableEq, Repr

inductive Command where
  | validate (format : ReportFormat)
  | listCatalog (namesOnly : Bool)
  | resolve (artifact : String) (assignments : List String)
  | listPipelines
  /-- As a list of steps, or as a drawing. -/
  | showPipeline (name : String) (drawn : Bool)
  | run (pipeline : String) (parameters : Option String) (assignments : List String)
      (format : ReportFormat)
  deriving DecidableEq, Repr

inductive LogLevel where
  | debug
  | info
  deriving DecidableEq, Repr

def LogLevel.label : LogLevel → String
  | .debug => "debug"
  | .info => "info"

structure Invocation where
  command : Command
  /-- `none` where nothing is logged. -/
  logLevel : Option LogLevel
  manifest : Option Path

/-! The grammar -/

def flagOption (name : String) (short : Option Char) : OptionSpec :=
  ⟨name, short, false, false, fun _ => true⟩

def valueOption (name : String) (short : Option Char) (accepts : String → Bool) : OptionSpec :=
  ⟨name, short, true, false, accepts⟩

/-- Assignments may be given any number of times. -/
def assignmentOption : OptionSpec :=
  ⟨"arg", none, true, true, fun _ => true⟩

def formatOption (formats : List String) : OptionSpec :=
  valueOption "format" none formats.contains

def globalOptions : List OptionSpec :=
  [flagOption "verbose" (some 'v'), flagOption "quiet" (some 'q'),
    valueOption "manifest-path" none (fun s => !s.isEmpty)]

def command (name : String) (options : List OptionSpec) (words : List String) : CommandSpec :=
  .mk name false (globalOptions ++ options) words []

def commandGroup (name : String) (subcommands : List CommandSpec) : CommandSpec :=
  .mk name false globalOptions [] subcommands

def grammar : CommandSpec :=
  .mk "craftline" true globalOptions [] [
    command "validate" [formatOption ["text", "json"]] [],
    commandGroup "catalog" [
      command "list" [flagOption "names-only" none] [],
      command "resolve" [assignmentOption] ["name"]],
    commandGroup "pipeline" [
      command "list" [] [],
      command "show" [formatOption ["text", "dot"]] ["name"]],
    command "run" [valueOption "parameters" (some 'p') (fun _ => true), assignmentOption,
      formatOption ["text", "json"]] ["pipeline"]]

/-! From words to commands -/

def single? (values : Fields (List String)) (name : String) : Option String :=
  Fields.get? name values >>= List.head?

def reportFormat (values : Fields (List String)) : ReportFormat :=
  if single? values "format" = some "json" then .json else .text

def commandOf? (names : List String) (values : Fields (List String)) : Option Command := do
  let assignments := (Fields.get? "arg" values).getD []
  match names with
  | ["validate"] => return .validate (reportFormat values)
  | ["catalog", "list"] => return .listCatalog (Fields.contains "names-only" values)
  | ["catalog", "resolve"] => return .resolve (← single? values "name") assignments
  | ["pipeline", "list"] => return .listPipelines
  | ["pipeline", "show"] =>
      return .showPipeline (← single? values "name") (single? values "format" = some "dot")
  | ["run"] =>
      return .run (← single? values "pipeline") (single? values "parameters") assignments
        (reportFormat values)
  | _ => none

def Invocation.ofWords (words : List String) : Except UsageError Invocation := do
  let (names, values) ← readWords [("quiet", "verbose")] grammar (.start grammar) words
  match commandOf? names values with
  | none => throw .missingSubcommand
  | some command =>
      return {
        command
        logLevel :=
          if Fields.contains "verbose" values then some .debug
          else if Fields.contains "quiet" values then none
          else some .info
        manifest := (single? values "manifest-path").map Path.mk }

end ArtifactFlow.CommandLine
