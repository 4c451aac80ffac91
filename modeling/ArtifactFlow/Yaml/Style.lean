import ArtifactFlow.Yaml.Cursor
import ArtifactFlow.Yaml.Schema

/-!
How a string is written in YAML. A string that would read back as something else is quoted; the
kinds of quoting that are possible depend on blanks, line breaks and characters without a printed
form.
-/

namespace ArtifactFlow.Yaml

inductive Style where
  | plain
  | single
  | double
  | literal
  deriving DecidableEq, Repr

/-- Characters that are written as they are. -/
def isPrintable (c : Char) : Bool :=
  let n := c.toNat
  n == 0x0A || (0x20 ≤ n && n ≤ 0x7E) || (0xA0 ≤ n && n ≤ 0xD7FF) ||
    (0xE000 ≤ n && n ≤ 0xFFFD && n != 0xFEFF) || 0x10000 ≤ n

/-- Whether two neighbours meet two tests somewhere in a text. -/
def anyPair (p q : Char → Bool) : List Char → Bool
  | c :: d :: rest => (p c && q d) || anyPair p q (d :: rest)
  | _ => false

def isBlankOrBreak (c : Char) : Bool :=
  isSpaceOrTab c || isBreak c

/-- Characters that may not start a plain scalar. -/
def isIndicator (c : Char) : Bool :=
  "#,[]\x7b\x7d&*!|>'\"%@\x60".toList.contains c

/-- Whether a text cannot be a plain scalar because of its indicators: an indicator at the front, a
document indicator, a colon before a blank or a number sign behind one. -/
def hasIndicators (s : List Char) : Bool :=
  (match s with
    | c :: next => isIndicator c || ((c == '?' || c == ':' || c == '-') && startsBlank next)
    | [] => false) ||
  ['-', '-', '-'].isPrefixOf s || ['.', '.', '.'].isPrefixOf s ||
  (s.getLast? == some ':') ||
  anyPair (· == ':') isBlankOrBreak s || anyPair isBlankOrBreak (· == '#') s

/-- What can be seen of a text before it is written. -/
structure Analysis where
  multiline : Bool
  plainAllowed : Bool
  singleAllowed : Bool
  literalAllowed : Bool

def analyze (s : List Char) : Analysis :=
  let isSpace (c : Char) := c == ' '
  let edge (c : Option Char) := match c with
    | some c => isSpace c || isBreak c
    | none => false
  let multiline := s.any isBreak
  let special := s.any (!isPrintable ·) || anyPair isSpace isBreak s
  { multiline
    plainAllowed := !(edge s.head? || edge s.getLast? || multiline || special || hasIndicators s)
    singleAllowed := !(special || anyPair isBreak isSpace s)
    literalAllowed := !(special || s.getLast? == some ' ' || s.isEmpty) }

/-- Whether a plain scalar of this text would not read back as a string, or not everywhere. -/
def looksTyped (s : List Char) : Bool :=
  match plainValue? s with
  | some (.string _) => isZeroPadded s
  | _ => true

/-- The style of a string as a value, or as a key on one line with its value. -/
def styleOf (simpleKey : Bool) (s : List Char) : Style :=
  let a := analyze s
  if s.contains '\n' then
    if a.literalAllowed && !simpleKey then .literal else .double
  else if !looksTyped s && a.plainAllowed then .plain
  else if simpleKey && a.multiline then .double
  else if a.singleAllowed then .single
  else .double

end ArtifactFlow.Yaml
