/-!
Positions in YAML text. A cursor holds what is left to read together with the line and the column
that have been reached; line breaks of all five kinds are passed as one step.
-/

namespace ArtifactFlow.Yaml

/-- Characters that end a line. -/
def isBreak (c : Char) : Bool :=
  c == '\n' || c == '\r' || c == '\x85' || c == '\u2028' || c == '\u2029'

def isSpaceOrTab (c : Char) : Bool :=
  c == ' ' || c == '\t'

/-- Characters of anchors, tag handles and directive names. -/
def isNameChar (c : Char) : Bool :=
  c.isAlphanum || c == '_' || c == '-'

/-- Characters that may stand in YAML text. -/
def isAllowed (c : Char) : Bool :=
  let n := c.toNat
  n == 0x09 || n == 0x0A || n == 0x0D || (0x20 ≤ n && n ≤ 0x7E) || n == 0x85 ||
    (0xA0 ≤ n && n ≤ 0xD7FF) || (0xE000 ≤ n && n ≤ 0xFFFD) || 0x10000 ≤ n

/-- Whether a text is at its end or starts with a blank or a line break. -/
def startsBlank : List Char → Bool
  | [] => true
  | c :: _ => isSpaceOrTab c || isBreak c

/-- Whether a text starts with a document indicator: three dashes or dots and a blank. -/
def startsIndicator : List Char → Bool
  | '-' :: '-' :: '-' :: rest => startsBlank rest
  | '.' :: '.' :: '.' :: rest => startsBlank rest
  | _ => false

/-- The text that a line break stands for inside a scalar: Unicode separators are kept, all other
breaks are line feeds. -/
def breakText (c : Char) : List Char :=
  if c == '\u2028' || c == '\u2029' then [c] else ['\n']

/-- A position in a text. `index` counts characters. -/
structure Cursor where
  rest : List Char
  index : Nat
  line : Nat
  column : Nat

namespace Cursor

def ofText (s : List Char) : Cursor := ⟨s, 0, 0, 0⟩

/-- Passes one character, or one line break. -/
def advance (c : Cursor) : Cursor :=
  match c.rest with
  | [] => c
  | '\r' :: '\n' :: rest => ⟨rest, c.index + 2, c.line + 1, 0⟩
  | ch :: rest =>
      if isBreak ch then ⟨rest, c.index + 1, c.line + 1, 0⟩
      else ⟨rest, c.index + 1, c.line, c.column + 1⟩

def advanceBy : Nat → Cursor → Cursor
  | 0, c => c
  | n + 1, c => advanceBy n c.advance

/-- Passes characters of one line for as long as a test holds. -/
def skipWhile (p : Char → Bool) (c : Cursor) : Cursor :=
  let passed := (c.rest.takeWhile p).length
  ⟨c.rest.drop passed, c.index + passed, c.line, c.column + passed⟩

/-- The characters of one line for which a test holds, and the position behind them. -/
def takeWhile (p : Char → Bool) (c : Cursor) : List Char × Cursor :=
  (c.rest.takeWhile p, c.skipWhile p)

def skipLine (c : Cursor) : Cursor :=
  c.skipWhile fun ch => !isBreak ch

def atEnd (c : Cursor) : Bool := c.rest.isEmpty

def atBreak (c : Cursor) : Bool :=
  match c.rest with
  | [] => false
  | ch :: _ => isBreak ch

/-- Whether a document indicator stands at the start of the line. -/
def atIndicator (c : Cursor) : Bool :=
  c.column == 0 && startsIndicator c.rest

/-- Passes blanks, a comment and the line break behind them; nothing else may be on the line. -/
def finishLine? (c : Cursor) : Option Cursor :=
  let c := c.skipWhile isSpaceOrTab
  let c := if c.rest.head? == some '#' then c.skipLine else c
  if c.atEnd then some c
  else if c.atBreak then some c.advance
  else none

end Cursor
end ArtifactFlow.Yaml
