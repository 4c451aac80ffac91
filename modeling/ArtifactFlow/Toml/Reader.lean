import ArtifactFlow.Toml.Scalar
import ArtifactFlow.Toml.Table

/-!
TOML text to mappings, with the keys of every table in ascending order.
-/

namespace ArtifactFlow.Toml

/-- Arrays and inline tables may be nested to this depth. -/
def maxNesting : Nat := 80

def skipSpace : Nat → List Char → List Char
  | 0, s => s
  | fuel + 1, s =>
      let s := s.dropWhile isBlankChar
      let s := match s with
        | '#' :: rest => rest.dropWhile isPlainChar
        | s => s
      match newLine? s with
      | some rest => skipSpace fuel rest
      | none => s

/-- Ends a line: blanks, perhaps a comment, and a line break or the end of the text. -/
def endLine? (s : List Char) : Option (List Char) :=
  let s := s.dropWhile isBlankChar
  let s := match s with
    | '#' :: rest => rest.dropWhile isPlainChar
    | s => s
  match s with
  | [] => some []
  | s => newLine? s

def isBareKeyChar (c : Char) : Bool :=
  c.isAlphanum || c == '_' || c == '-'

/-- One part of a key: a bare word or a string on one line. -/
def keyPart? (s : List Char) : Option (String × List Char) :=
  match s with
  | c :: rest =>
      if c = '"' ∨ c = '\'' then
        (lineString? c (s.length + 1) [] rest).map fun (t, rest) => (String.ofList t, rest)
      else
        let word := s.takeWhile isBareKeyChar
        if word.isEmpty then none else some (String.ofList word, s.drop word.length)
  | [] => none

/-- A key: parts with points between them, and blanks around the points. -/
def key? : Nat → List Char → Option (List String × List Char)
  | 0, _ => none
  | fuel + 1, s => do
      let (part, s) ← keyPart? (s.dropWhile isBlankChar)
      match s.dropWhile isBlankChar with
      | '.' :: rest =>
          let (parts, rest) ← key? fuel rest
          return (part :: parts, rest)
      | rest => return ([part], rest)

def splitKey? (parts : List String) : Option (List String × String) := do
  return (parts.dropLast, ← parts.getLast?)

/-- Characters that end a word. -/
def endsWord (c : Char) : Bool :=
  isBlankChar c || c == '\n' || c == '\r' || c == ',' || c == ']' || c == '\x7d' || c == '#'

/-- A word at the front of a text. A time may follow a date behind one blank. -/
def takeWord (s : List Char) : List Char × List Char :=
  let word := s.takeWhile (!endsWord ·)
  let rest := s.drop word.length
  match (date? word).isSome && word.length = 10, rest with
  | true, ' ' :: d :: more =>
      if d.isDigit then
        let time := (d :: more).takeWhile (!endsWord ·)
        (word ++ ' ' :: time, (d :: more).drop time.length)
      else (word, rest)
  | _, rest => (word, rest)

mutual

/-- A value at the front of a text; `depth` is how deep collections may still be nested. -/
def value? : (fuel depth : Nat) → List Char → Option (Value × List Char)
  | 0, _, _ => none
  | fuel + 1, depth, s =>
      match s with
      | [] => none
      | c :: rest =>
          if c = '"' ∨ c = '\'' then
            (string? c s).map fun (t, rest) => (.string (String.ofList t), rest)
          else if c = '[' then
            match depth with
            | 0 => none
            | depth + 1 =>
                (items? fuel depth rest).map fun (items, rest) => (.list items, rest)
          else if c = '\x7b' then
            match depth with
            | 0 => none
            | depth + 1 =>
                (inlineEntries? fuel depth [] rest).map fun (entries, rest) =>
                  ((Item.table .header entries).toValue, rest)
          else
            let (word, rest) := takeWord s
            (word? word).map (·, rest)
  termination_by structural fuel => fuel

def items? : (fuel depth : Nat) → List Char → Option (List Value × List Char)
  | 0, _, _ => none
  | fuel + 1, depth, s =>
      match skipSpace s.length s with
      | ']' :: rest => some ([], rest)
      | s => do
          let (v, s) ← value? fuel depth s
          match skipSpace s.length s with
          | ',' :: rest =>
              let (vs, rest) ← items? fuel depth rest
              return (v :: vs, rest)
          | ']' :: rest => return ([v], rest)
          | _ => none
  termination_by structural fuel => fuel

def inlineEntries? : (fuel depth : Nat) → Entries → List Char → Option (Entries × List Char)
  | 0, _, _, _ => none
  | fuel + 1, depth, done, s =>
      match skipSpace s.length s with
      | '\x7d' :: rest => some (done, rest)
      | s => do
          let (parts, s) ← key? (s.length + 1) s
          let (path, key) ← splitKey? parts
          match s with
          | '=' :: s =>
              let (v, s) ← value? fuel depth (s.dropWhile isBlankChar)
              let done ← assign? path key v .header done
              match skipSpace s.length s with
              | ',' :: rest => inlineEntries? fuel depth done rest
              | '\x7d' :: rest => return (done, rest)
              | _ => none
          | _ => none
  termination_by structural fuel => fuel

end

/-- A document that is being read: the root's entries and the path of the last header. -/
structure Document where
  root : Entries
  current : List String

def Document.assign? (d : Document) (parts : List String) (v : Value) : Option Document := do
  let (path, key) ← splitKey? parts
  let root ← atPath? false (Toml.assign? path key v) d.current .header d.root
  return { d with root }

def Document.open? (d : Document) (array : Bool) (parts : List String) : Option Document := do
  let (path, key) ← splitKey? parts
  let define := if array then addTable? key else defineTable? key
  let root ← atPath? false (fun _ entries => define entries) path .header d.root
  return ⟨root, parts⟩

def header? (d : Document) (s : List Char) : Option (Document × List Char) := do
  let (array, s) := match s with
    | '[' :: rest => (true, rest)
    | s => (false, s)
  let (parts, s) ← key? (s.length + 1) s
  let s ← match array, s with
    | true, ']' :: ']' :: rest => some rest
    | false, ']' :: rest => some rest
    | _, _ => none
  return (← d.open? array parts, s)

def lines? : Nat → Document → List Char → Option Document
  | 0, _, _ => none
  | fuel + 1, d, s =>
      match skipSpace s.length s with
      | [] => some d
      | '[' :: rest => do
          let (d, s) ← header? d rest
          lines? fuel d (← endLine? s)
      | s => do
          let (parts, s) ← key? (s.length + 1) s
          match s with
          | '=' :: s =>
              let s := s.dropWhile isBlankChar
              let (v, s) ← value? (s.length + 1) maxNesting s
              lines? fuel (← d.assign? parts v) (← endLine? s)
          | _ => none

/-- The mapping of a whole text. A byte order mark at the front is passed over. -/
def parse? (s : List Char) : Option Mapping := do
  let s := if s.head? == some '\ufeff' then s.drop 1 else s
  let d ← lines? (s.length + 1) ⟨[], []⟩ s
  return entriesToMapping [] d.root

def parseString? (s : String) : Option Mapping :=
  parse? s.toList

end ArtifactFlow.Toml
