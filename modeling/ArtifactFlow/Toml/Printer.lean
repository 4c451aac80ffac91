import ArtifactFlow.Number.Layout
import ArtifactFlow.Toml.Reader

/-!
Mappings as TOML text. Mappings under a key become tables with headers of their own, and lists of
mappings become arrays of tables; below other lists, mappings are written inline. Null has no TOML
form.
-/

namespace ArtifactFlow.Toml

/-- Doubles are always positional. -/
def numberLayout : Layout := ⟨-400, 400, false⟩

def longestRun (c : Char) (s : List Char) : Nat :=
  (s.foldl (fun (current, best) d =>
    let current := if d = c then current + 1 else 0
    (current, max best current)) (0, 0)).2

/-- Control characters that have to be escaped even where line breaks are allowed. -/
def needsCode (c : Char) : Bool :=
  c != '\t' && c != '\n' && (c.toNat < 0x20 || c.toNat == 0x7F)

def escapeChar (lines : Bool) (c : Char) : List Char :=
  if c = '\x08' then ['\\', 'b']
  else if c = '\t' then ['\\', 't']
  else if c = '\n' then (if lines then [c] else ['\\', 'n'])
  else if c = '\x0c' then ['\\', 'f']
  else if c = '\r' then ['\\', 'r']
  else if c = '\\' then ['\\', '\\']
  else if needsCode c then
    ['\\', 'u', '0', '0', (Nat.digitChar (c.toNat / 16)).toUpper,
      (Nat.digitChar (c.toNat % 16)).toUpper]
  else [c]

/-- The inside of a basic string. Up to `free` quotation marks in a row stand as they are; each
further one is escaped. -/
def escapeText (lines : Bool) (free run : Nat) : List Char → List Char
  | [] => []
  | c :: rest =>
      if c = '"' then
        (if run < free then [c] else ['\\', c]) ++ escapeText lines free (run + 1) rest
      else escapeChar lines c ++ escapeText lines free 0 rest

def basic (s : List Char) : List Char :=
  '"' :: escapeText false 0 0 s ++ ['"']

def basicLines (s : List Char) : List Char :=
  ['"', '"', '"', '\n'] ++ escapeText true 2 0 s ++ ['"', '"', '"']

def literal (s : List Char) : List Char :=
  '\'' :: s ++ ['\'']

def literalLines (s : List Char) : List Char :=
  ['\'', '\'', '\'', '\n'] ++ s ++ ['\'', '\'', '\'']

/-- A string, in the first form that needs no escape: basic, literal, or one of the two over
several lines; else basic with escapes. -/
def writeString (s : List Char) : List Char :=
  let coded := s.any needsCode
  let lines := s.contains '\n'
  let slash := s.contains '\\'
  let double := longestRun '"' s
  let single := longestRun '\'' s
  if !coded && !slash && double = 0 && !lines then basic s
  else if !coded && single = 0 && !lines then literal s
  else if !coded && !slash && double ≤ 2 then basicLines s
  else if !coded && single ≤ 2 then literalLines s
  else if lines then basicLines s
  else basic s

/-- A key: a bare word, a basic or literal string without escapes, or a basic string. -/
def writeKey (key : String) : List Char :=
  let s := key.toList
  let coded := s.any needsCode || s.contains '\n'
  if !s.isEmpty && s.all isBareKeyChar then s
  else if !coded && !s.contains '\\' && !s.contains '"' then basic s
  else if !coded && !s.contains '\'' then literal s
  else basic s

def writePath (path : List String) : List Char :=
  (Text.joinWith "." (path.map fun key => String.ofList (writeKey key))).toList

mutual

/-- A value on the right of an equals sign; `none` when it has no TOML form. -/
def write? : Value → Option (List Char)
  | .null => none
  | .bool b => some (if b then "true" else "false").toList
  | .int n => if n < Nat.pow 2 63 then some (intText n) else none
  | .float d => some (numberLayout.write d)
  | .string s => some (writeString s.toList)
  | .list items => (writeItems? items).map fun s => '[' :: s ++ [']']
  | .mapping [] => some ['\x7b', '\x7d']
  | .mapping fields => (writeFields? fields).map fun s => ['\x7b', ' '] ++ s ++ [' ', '\x7d']
  termination_by structural v => v

def writeItems? : List Value → Option (List Char)
  | [] => some []
  | [v] => write? v
  | v :: rest => do return (← write? v) ++ ',' :: ' ' :: (← writeItems? rest)
  termination_by structural items => items

def writeFields? : List (String × Value) → Option (List Char)
  | [] => some []
  | [(key, v)] => do return writeKey key ++ " = ".toList ++ (← write? v)
  | (key, v) :: rest => do
      return writeKey key ++ " = ".toList ++ (← write? v) ++ ',' :: ' ' :: (← writeFields? rest)
  termination_by structural fields => fields

end

/-- A table as it is written: its path, whether it belongs to an array of tables, its lines, and
whether tables follow that make it known without a header. -/
structure Section where
  path : List String
  array : Bool
  lines : List Char
  hasTables : Bool

def Section.isNeeded (s : Section) : Bool :=
  if s.path.isEmpty then !s.lines.isEmpty
  else s.array || !s.lines.isEmpty || !s.hasTables

def Section.write (s : Section) : List Char :=
  if s.path.isEmpty then s.lines
  else if s.array then ['[', '['] ++ writePath s.path ++ [']', ']', '\n'] ++ s.lines
  else '[' :: writePath s.path ++ [']', '\n'] ++ s.lines

def isMapping : Value → Bool
  | .mapping _ => true
  | _ => false

/-- Lists of mappings are arrays of tables. -/
def isTables (items : List Value) : Bool :=
  !items.isEmpty && items.all isMapping

/-- Lines of a table with what is known so far of its own lines and of the tables inside it. -/
structure Content where
  lines : List Char
  hasTables : Bool
  inner : List Section

mutual

def sections? (path : List String) (array : Bool) : Value → Option (List Section)
  | .mapping fields => do
      let content ← contents? path fields
      return ⟨path, array, content.lines, content.hasTables⟩ :: content.inner
  | _ => none
  termination_by structural v => v

def elements? (path : List String) : List Value → Option (List Section)
  | [] => some []
  | v :: rest => do return (← sections? path true v) ++ (← elements? path rest)
  termination_by structural items => items

def contents? (path : List String) : List (String × Value) → Option Content
  | [] => some ⟨[], false, []⟩
  | (key, v) :: rest => do
      let inner ← match v with
        | .mapping fields => do
            let content ← contents? (path ++ [key]) fields
            pure (some (⟨path ++ [key], false, content.lines, content.hasTables⟩ :: content.inner))
        | .list items =>
            if isTables items then (elements? (path ++ [key]) items).map some else pure none
        | _ => pure none
      let line ← match inner with
        | some _ => pure []
        | none => do pure (writeKey key ++ " = ".toList ++ (← write? v) ++ ['\n'])
      let more ← contents? path rest
      return ⟨line ++ more.lines, inner.isSome || more.hasTables, inner.getD [] ++ more.inner⟩
  termination_by structural fields => fields

end

/-- The text of a mapping as a document; `none` when it has no TOML form. -/
def print? (fields : Mapping) : Option (List Char) := do
  let sections ← sections? [] false (.mapping fields)
  let texts := (sections.filter Section.isNeeded).map fun s => String.ofList s.write
  return (Text.joinWith "\n" texts).toList

def printString? (fields : Mapping) : Option String :=
  (print? fields).map String.ofList

end ArtifactFlow.Toml
