import ArtifactFlow.Fields
import ArtifactFlow.Text.Split

/-!
Reading the words of a command line by a grammar of commands, options and named words. Options may
stand before and behind a subcommand; `--` ends them. A value that an option waits for is the next
word that does not look like an option.
-/

namespace ArtifactFlow.CommandLine

/-- Why a command line is not carried out. -/
inductive UsageError where
  | displayHelp
  | displayVersion
  | displayHelpOnMissingArgumentOrSubcommand
  | missingSubcommand
  | missingRequiredArgument
  | invalidSubcommand
  | unknownArgument
  | invalidValue
  | argumentConflict
  | tooManyValues
  deriving DecidableEq, Repr

namespace UsageError

def message : UsageError → String
  | .displayHelp | .displayHelpOnMissingArgumentOrSubcommand =>
      "usage: craftline [-v | -q] [--manifest-path PATH] <validate | catalog | pipeline | run> ..."
  | .displayVersion => "craftline"
  | .missingSubcommand => "error: a subcommand is required"
  | .missingRequiredArgument => "error: a required argument is missing"
  | .invalidSubcommand => "error: unrecognized subcommand"
  | .unknownArgument => "error: unexpected argument"
  | .invalidValue => "error: a value is missing or not possible"
  | .argumentConflict => "error: arguments cannot be used together"
  | .tooManyValues => "error: a value was given where none is taken"

/-- Asking for help or for the version is no error. -/
def status : UsageError → UInt32
  | .displayHelp | .displayVersion => 0
  | _ => 2

end UsageError

structure OptionSpec where
  name : String
  short : Option Char
  takesValue : Bool
  repeatable : Bool
  accepts : String → Bool

/-- A command with its options, the names of the words that it requires, and its subcommands.
`versioned` commands tell their version. -/
inductive CommandSpec where
  | mk (name : String) (versioned : Bool) (options : List OptionSpec) (words : List String)
      (subcommands : List CommandSpec)

namespace CommandSpec

def name : CommandSpec → String
  | .mk name _ _ _ _ => name

def versioned : CommandSpec → Bool
  | .mk _ versioned _ _ _ => versioned

def options : CommandSpec → List OptionSpec
  | .mk _ _ options _ _ => options

def words : CommandSpec → List String
  | .mk _ _ _ words _ => words

def subcommands : CommandSpec → List CommandSpec
  | .mk _ _ _ _ subcommands => subcommands

def subcommand? (c : CommandSpec) (name : String) : Option CommandSpec :=
  c.subcommands.find? (·.name = name)

end CommandSpec

/-- What has been read of one command. -/
structure Reading where
  /-- Values by the name of the option or word; a flag has none. -/
  values : Fields (List String)
  /-- An option with the value that it has got, if any, which are checked when the next option
  comes. -/
  pending : Option (OptionSpec × Option String)
  /-- The words that are still to come. -/
  missing : List String
  /-- Whether `--` has been read. -/
  trailing : Bool

namespace Reading

def start (c : CommandSpec) : Reading := ⟨[], none, c.words, false⟩

/-- Whether the last option waits for its value. -/
def isWaiting (r : Reading) : Bool :=
  match r.pending with
  | some (_, none) => true
  | _ => false

/-- Adds an option with its values. Only repeatable options may come twice. -/
def addOption (r : Reading) (o : OptionSpec) (values : List String) :
    Except UsageError Reading :=
  if Fields.contains o.name r.values && !o.repeatable then .error .argumentConflict
  else if !values.all o.accepts then .error .invalidValue
  else .ok { r with
    values := Fields.insert o.name ((Fields.get? o.name r.values).getD [] ++ values) r.values }

/-- Adds the pending option, which must have its value. -/
def settle (r : Reading) : Except UsageError Reading :=
  match r.pending with
  | none => .ok r
  | some (_, none) => .error .invalidValue
  | some (o, some value) => { r with pending := none }.addOption o [value]

/-- Passes an option, with the value that is attached to it, if any. -/
def passOption (r : Reading) (o : OptionSpec) (attached : Option String) :
    Except UsageError Reading :=
  match o.takesValue, attached with
  | true, some value => do (← r.settle).addOption o [value]
  | true, none => do return { (← r.settle) with pending := some (o, none) }
  | false, some _ => .error .tooManyValues
  | false, none => do (← r.settle).addOption o []

/-- Passes an option that shows something instead of running a command. -/
def display (r : Reading) (shown : UsageError) (attached : Bool) : Except UsageError Reading :=
  if attached then .error .tooManyValues
  else do
    let _ ← r.settle
    throw shown

def passLong (c : CommandSpec) (r : Reading) (body : List Char) : Except UsageError Reading :=
  let (name, attached) := match Text.cutAt? ['='] body with
    | some (name, value) => (String.ofList name, some (String.ofList value))
    | none => (String.ofList body, none)
  match c.options.find? (·.name = name) with
  | some o => r.passOption o attached
  | none =>
      if name = "help" then r.display .displayHelp attached.isSome
      else if name = "version" && c.versioned then r.display .displayVersion attached.isSome
      else .error .unknownArgument

/-- Passes `-abc`: short options in a row, the last of which may have the rest as its value. -/
def passShort (c : CommandSpec) (r : Reading) : List Char → Except UsageError Reading
  | [] => .ok r
  | ch :: rest =>
      match c.options.find? (·.short = some ch) with
      | some o =>
          if o.takesValue then
            match rest with
            | [] => r.passOption o none
            | '=' :: value => r.passOption o (some (String.ofList value))
            | value => r.passOption o (some (String.ofList value))
          else do passShort c (← r.passOption o none) rest
      | none =>
          if ch = 'h' then r.display .displayHelp false
          else if ch = 'V' && c.versioned then r.display .displayVersion false
          else .error .unknownArgument

def passWord (c : CommandSpec) (r : Reading) (word : String) : Except UsageError Reading :=
  match r.missing with
  | name :: missing => do
      let r ← r.settle
      return { r with values := Fields.insert name [word] r.values, missing }
  | [] =>
      if c.subcommands.isEmpty || (r.trailing && (c.subcommand? word).isSome) then
        .error .unknownArgument
      else .error .invalidSubcommand

def pass (c : CommandSpec) (r : Reading) (word : String) : Except UsageError Reading :=
  if r.trailing then r.passWord c word
  else
    match word.toList with
    | '-' :: '-' :: [] => .ok { r with trailing := true }
    | '-' :: '-' :: body => r.passLong c body
    | '-' :: ch :: rest => r.passShort c (ch :: rest)
    | _ =>
        match r.pending with
        | some (o, none) => .ok { r with pending := some (o, some word) }
        | _ => r.passWord c word

/-- What must hold at the end of a command. `conflicts` are pairs of options that exclude each
other. -/
def finish (conflicts : List (String × String)) (c : CommandSpec) (hasSubcommand : Bool)
    (r : Reading) : Except UsageError (Fields (List String)) := do
  let r ← r.settle
  if !hasSubcommand && !c.subcommands.isEmpty then
    throw (if r.values.isEmpty then .displayHelpOnMissingArgumentOrSubcommand
      else .missingSubcommand)
  if conflicts.any fun (a, b) => Fields.contains a r.values && Fields.contains b r.values then
    throw .argumentConflict
  if !r.missing.isEmpty then throw .missingRequiredArgument
  return r.values

end Reading

/-- What is left of asking for help about a chain of subcommands. -/
def helpAbout (c : CommandSpec) : List String → UsageError
  | [] => .displayHelp
  | word :: rest =>
      match c.subcommand? word with
      | some sub => helpAbout sub rest
      | none =>
          if word = "help" && !c.subcommands.isEmpty && rest.isEmpty then .displayHelp
          else .invalidSubcommand

/-- Reads words by the grammar of a command: the subcommands that are named, and the values of
options and words. Of an option that stands on several levels the innermost value counts. -/
def readWords (conflicts : List (String × String)) (c : CommandSpec) (r : Reading) :
    List String → Except UsageError (List String × Fields (List String))
  | [] => do return ([], ← r.finish conflicts c false)
  | word :: rest =>
      if r.trailing || r.isWaiting then do readWords conflicts c (← r.pass c word) rest
      else
        match c.subcommand? word with
        | some sub => do
            let (names, inner) ← readWords conflicts sub (.start sub) rest
            let outer ← r.finish conflicts c true
            return (sub.name :: names, Fields.insertAll outer inner)
        | none =>
            if word = "help" && !c.subcommands.isEmpty then .error (helpAbout c rest)
            else do readWords conflicts c (← r.pass c word) rest

end ArtifactFlow.CommandLine
