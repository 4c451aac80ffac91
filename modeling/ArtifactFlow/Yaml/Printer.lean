import ArtifactFlow.Number.Layout
import ArtifactFlow.Text.Split
import ArtifactFlow.Yaml.Style

/-!
Values as YAML text in block style, two blanks a level; lists under a key stand at the key's own
indentation. Empty collections are written with brackets.
-/

namespace ArtifactFlow.Yaml

/-- Doubles are positional from `1e-5` up to, but not including, `1e16`. -/
def numberLayout : Layout := ⟨-5, 15, false⟩

/-- The text written so far, in reverse, and where the writer stands: the column, whether a blank
is behind it, and whether the line holds nothing but indentation and list marks. -/
structure Writer where
  written : List Char
  column : Nat
  spaced : Bool
  indented : Bool

namespace Writer

def start : Writer := ⟨[], 0, true, true⟩

def put (w : Writer) (c : Char) : Writer :=
  { w with written := c :: w.written, column := w.column + 1 }

def putAll (w : Writer) (s : List Char) : Writer :=
  s.foldl put w

def putBreak (w : Writer) (c : Char) : Writer :=
  { w with written := c :: w.written, column := 0 }

/-- Goes to an indentation, on a new line unless this line can still be used. -/
def indentTo (w : Writer) (indent : Nat) : Writer :=
  let w :=
    if !w.indented || indent < w.column || (w.column = indent && !w.spaced) then w.putBreak '\n'
    else w
  { w.putAll (List.replicate (indent - w.column) ' ') with spaced := true, indented := true }

def mark (w : Writer) (s : List Char) (needsSpace leavesSpace keepsIndentation : Bool) : Writer :=
  let w := if needsSpace && !w.spaced then w.put ' ' else w
  { w.putAll s with spaced := leavesSpace, indented := w.indented && keepsIndentation }

def inLine (w : Writer) : Writer :=
  { w with spaced := false, indented := false }

end Writer

def writePlain (w : Writer) (s : List Char) : Writer :=
  ((if w.spaced then w else w.put ' ').putAll s).inLine

/-- Writes the inside of a single-quoted scalar. `broken` holds behind a line break. -/
def writeSingleText (indent : Nat) (broken : Bool) (w : Writer) : List Char → Writer
  | [] => if broken then w.indentTo indent else w
  | c :: rest =>
      if c == ' ' then writeSingleText indent broken (w.put c) rest
      else if isBreak c then
        writeSingleText indent true { w.putBreak c with indented := true } rest
      else
        let w := if broken then w.indentTo indent else w
        let w := if c == '\'' then w.put c else w
        writeSingleText indent false { w.put c with indented := false } rest

def writeSingle (indent : Nat) (w : Writer) (s : List Char) : Writer :=
  let w := w.mark ['\''] true false false
  ((writeSingleText indent false w s).mark ['\''] false false false).inLine

def upperHex (n code : Nat) : List Char :=
  (List.range n).map fun i => (Nat.digitChar (code / Nat.pow 16 (n - 1 - i) % 16)).toUpper

def escapeChar (c : Char) : List Char :=
  let code := c.toNat
  if code = 0 then ['\\', '0']
  else if code = 7 then ['\\', 'a']
  else if code = 8 then ['\\', 'b']
  else if code = 9 then ['\\', 't']
  else if code = 10 then ['\\', 'n']
  else if code = 11 then ['\\', 'v']
  else if code = 12 then ['\\', 'f']
  else if code = 13 then ['\\', 'r']
  else if code = 27 then ['\\', 'e']
  else if c = '"' then ['\\', '"']
  else if c = '\\' then ['\\', '\\']
  else if code = 0x85 then ['\\', 'N']
  else if code = 0x2028 then ['\\', 'L']
  else if code = 0x2029 then ['\\', 'P']
  else if code ≤ 0xFF then '\\' :: 'x' :: upperHex 2 code
  else if code ≤ 0xFFFF then '\\' :: 'u' :: upperHex 4 code
  else '\\' :: 'U' :: upperHex 8 code

def doubleChar (c : Char) : List Char :=
  if !isPrintable c || isBreak c || c == '"' || c == '\\' then escapeChar c else [c]

def writeDouble (w : Writer) (s : List Char) : Writer :=
  ((w.mark ['"'] true false false).putAll (s.flatMap doubleChar)).mark ['"'] false false false
    |>.inLine

/-- The marks behind the bar of a literal scalar: the indentation, if the text does not show it,
and how its end differs from one line break. -/
def literalHints (s : List Char) : List Char :=
  let startsBlank := match s with
    | c :: _ => c == ' ' || isBreak c
    | [] => false
  let chomp := match s.reverse with
    | [] => ['-']
    | c :: before =>
        if !isBreak c then ['-']
        else
          match before with
          | [] => ['+']
          | d :: _ => if isBreak d then ['+'] else []
  (if startsBlank then ['2'] else []) ++ chomp

/-- Writes the lines of a literal scalar. `broken` holds behind a line break. -/
def writeLiteralText (indent : Nat) (broken : Bool) (w : Writer) : List Char → Writer
  | [] => w
  | c :: rest =>
      if isBreak c then writeLiteralText indent true { w.putBreak c with indented := true } rest
      else
        let w := if broken then w.indentTo indent else w
        writeLiteralText indent false { w.put c with indented := false } rest

def writeLiteral (indent : Nat) (w : Writer) (s : List Char) : Writer :=
  let w := w.mark ('|' :: literalHints s) true false false
  writeLiteralText indent true { w.putBreak '\n' with spaced := true, indented := true } s

def writeStyled (style : Style) (indent : Nat) (w : Writer) (s : List Char) : Writer :=
  match style with
  | .plain => writePlain w s
  | .single => writeSingle indent w s
  | .double => writeDouble w s
  | .literal => writeLiteral indent w s

/-- Whether a key is short enough to stand on one line with its value. -/
def isSimpleKey (s : List Char) : Bool :=
  !(analyze s).multiline && Text.byteLength s ≤ 128

def writeKey (indent : Nat) (w : Writer) (key : String) : Writer :=
  let s := key.toList
  let w := w.indentTo indent
  if isSimpleKey s then
    (writeStyled (styleOf true s) (indent + 2) w s).mark [':'] false false false
  else
    let w := w.mark ['?'] true false true
    let w := writeStyled (styleOf false s) (indent + 2) w s
    (w.indentTo indent).mark [':'] true false true

mutual

/-- Writes a value inside a collection at an indentation, or the root where there is none. -/
def write (indent : Option Nat) (underKey : Bool) (w : Writer) : Value → Writer
  | .null => writePlain w "null".toList
  | .bool b => writePlain w (if b then "true" else "false").toList
  | .int n => writePlain w (intText n)
  | .float d => writePlain w (numberLayout.write d)
  | .string s =>
      let s := s.toList
      writeStyled (styleOf false s) ((indent.getD 0) + 2) w s
  | .list [] => (w.mark ['['] true true false).mark [']'] false false false
  | .list items =>
      let inner := match indent with
        | none => 0
        | some n => if underKey && !w.indented then n else n + 2
      writeItems inner w items
  | .mapping [] => (w.mark ['\x7b'] true true false).mark ['\x7d'] false false false
  | .mapping fields =>
      let inner := match indent with
        | none => 0
        | some n => n + 2
      writeFields inner w fields
  termination_by structural v => v

def writeItems (indent : Nat) (w : Writer) : List Value → Writer
  | [] => w
  | v :: rest =>
      let w := (w.indentTo indent).mark ['-'] true false true
      writeItems indent (write (some indent) false w v) rest
  termination_by structural items => items

def writeFields (indent : Nat) (w : Writer) : List (String × Value) → Writer
  | [] => w
  | (key, v) :: rest =>
      writeFields indent (write (some indent) true (writeKey indent w key) v) rest
  termination_by structural fields => fields

end

def print (v : Value) : List Char :=
  ((write none false .start v).indentTo 0).written.reverse

def printString (v : Value) : String :=
  String.ofList (print v)

end ArtifactFlow.Yaml
