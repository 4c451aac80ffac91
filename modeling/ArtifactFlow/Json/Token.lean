import ArtifactFlow.Json.Numeral
import ArtifactFlow.Json.Text

/-!
The tokens of JSON text. The text is read by a machine that takes one character at a time;
`tokens?` fails where something starts no token, a string does not end or holds a bad escape, or a
numeral is malformed or too large.
-/

namespace ArtifactFlow.Json

inductive Token where
  | listOpen
  | listClose
  | mappingOpen
  | mappingClose
  | comma
  | colon
  | scalar (v : Value)
  deriving Repr, Inhabited

def isSpace (c : Char) : Bool :=
  c == ' ' || c == '\n' || c == '\t' || c == '\r'

def punctuation? : Char → Option Token
  | '[' => some .listOpen
  | ']' => some .listClose
  | '\x7b' => some .mappingOpen
  | '\x7d' => some .mappingClose
  | ',' => some .comma
  | ':' => some .colon
  | _ => none

/-- Characters of names and numerals. -/
def isWordChar (c : Char) : Bool :=
  c.isAlphanum || c == '-' || c == '+' || c == '.'

/-- The value of a bare word: a name of a constant or a numeral. -/
def word? (word : List Char) : Option Value :=
  if word = ['n', 'u', 'l', 'l'] then some .null
  else if word = ['t', 'r', 'u', 'e'] then some (.bool true)
  else if word = ['f', 'a', 'l', 's', 'e'] then some (.bool false)
  else numeral? word >>= Numeral.toValue?

/-- The token that is being read, with its characters in reverse. -/
inductive Pending where
  | nothing
  | word (chars : List Char)
  | text (chars : List Char)
  /-- Inside a string, behind a backslash. -/
  | escaped (chars : List Char)

/-- The machine's state: the token under way and the finished tokens in reverse. -/
structure Lexer where
  pending : Pending
  done : List Token

namespace Lexer

def start : Lexer := ⟨.nothing, []⟩

def begin? (done : List Token) (c : Char) : Option Lexer :=
  if isSpace c then some ⟨.nothing, done⟩
  else if c = '"' then some ⟨.text [], done⟩
  else if isWordChar c then some ⟨.word [c], done⟩
  else (punctuation? c).map fun t => ⟨.nothing, t :: done⟩

def endWord? (done : List Token) (chars : List Char) : Option (List Token) :=
  (word? chars.reverse).map fun v => .scalar v :: done

/-- Takes one character. -/
def step? (l : Lexer) (c : Char) : Option Lexer :=
  match l.pending with
  | .nothing => begin? l.done c
  | .word chars =>
      if isWordChar c then some ⟨.word (c :: chars), l.done⟩
      else do begin? (← endWord? l.done chars) c
  | .text chars =>
      if c = '"' then do
        return ⟨.nothing, .scalar (.string (String.ofList (← unescape? chars.reverse))) :: l.done⟩
      else if c = '\\' then some ⟨.escaped (c :: chars), l.done⟩
      else some ⟨.text (c :: chars), l.done⟩
  | .escaped chars => some ⟨.text (c :: chars), l.done⟩

def finish? (l : Lexer) : Option (List Token) :=
  match l.pending with
  | .nothing => some l.done.reverse
  | .word chars => (endWord? l.done chars).map List.reverse
  | .text _ | .escaped _ => none

end Lexer

def tokens? (s : List Char) : Option (List Token) :=
  s.foldlM Lexer.step? Lexer.start >>= Lexer.finish?

end ArtifactFlow.Json
