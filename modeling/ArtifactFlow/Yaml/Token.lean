import ArtifactFlow.Yaml.Scalar
import ArtifactFlow.Yaml.Tag

/-!
The tokens of YAML text. Block structure is made visible: where the indentation grows a block
starts, and where it shrinks blocks end. A key that is not announced by a question mark is found
only at the colon behind it, so that its token is put in at a place that has been remembered.
-/

namespace ArtifactFlow.Yaml

inductive Token where
  | versionDirective (major minor : Nat)
  | tagDirective (handle address : List Char)
  | documentStart
  | documentEnd
  | blockListStart
  | blockMappingStart
  | blockEnd
  | flowListStart
  | flowListEnd
  | flowMappingStart
  | flowMappingEnd
  | blockEntry
  | flowEntry
  | key
  | value
  | alias (name : List Char)
  | anchor (name : List Char)
  | tag (handle suffix : List Char)
  | scalar (text : List Char) (plain : Bool)
  deriving DecidableEq, Repr

/-- A place where a key may have started: its position, the number of tokens before it, and whether
a key has to stand there. -/
structure KeyPlace where
  required : Bool
  tokenNumber : Nat
  index : Nat
  line : Nat
  column : Nat

/-- The state of the scanner. `tokens` holds the tokens in reverse, and `places` a possible key for
each open flow collection and one for the block around them all, innermost first. -/
structure Scanner where
  cursor : Cursor
  tokens : List Token
  places : List (Option KeyPlace)
  indent : Int
  outerIndents : List Int
  keyAllowed : Bool

namespace Scanner

def start (s : List Char) : Scanner :=
  ⟨.ofText s, [], [none], -1, [], true⟩

def inFlow (s : Scanner) : Bool :=
  match s.places with
  | _ :: _ :: _ => true
  | _ => false

def emit (s : Scanner) (t : Token) : Scanner :=
  { s with tokens := t :: s.tokens }

/-- Puts a token in behind the first `number` tokens. -/
def insertAt (s : Scanner) (number : Nat) (t : Token) : Scanner :=
  let later := s.tokens.length - number
  { s with tokens := s.tokens.take later ++ t :: s.tokens.drop later }

def moveTo (s : Scanner) (c : Cursor) : Scanner :=
  { s with cursor := c }

/-- Whether a possible key can no longer become one: keys end on their line and within 1024
characters. -/
def isStale (c : Cursor) (k : KeyPlace) : Bool :=
  k.line < c.line || k.index + 1024 < c.index

/-- Forgets the possible keys that can no longer become keys; a required one may not be lost. -/
def dropStale? (s : Scanner) : Option Scanner := do
  let places ← s.places.mapM fun place =>
    match place with
    | some k =>
        if isStale s.cursor k then (if k.required then none else some none) else some (some k)
    | none => some none
  return { s with places }

/-- Forgets the innermost possible key; a required one may not be lost. -/
def dropKey? (s : Scanner) : Option Scanner :=
  match s.places with
  | some k :: outer => if k.required then none else some { s with places := none :: outer }
  | _ => some s

/-- Remembers the position as a possible key, where keys are allowed. -/
def markKey? (s : Scanner) : Option Scanner :=
  if s.keyAllowed then do
    let required := !s.inFlow && s.indent == (s.cursor.column : Int)
    let s ← s.dropKey?
    let c := s.cursor
    return { s with
      places := some ⟨required, s.tokens.length, c.index, c.line, c.column⟩ :: s.places.drop 1 }
  else some s

/-- Opens a block at a column that is deeper than the current indentation. The token stands behind
the first `number` tokens. -/
def roll (s : Scanner) (column : Nat) (number : Nat) (t : Token) : Scanner :=
  if s.inFlow then s
  else if s.indent < (column : Int) then
    { s with indent := column, outerIndents := s.indent :: s.outerIndents }.insertAt number t
  else s

def unrollFrom (column : Int) : List Int → Scanner → Scanner
  | [], s => s
  | outer :: more, s =>
      if column < s.indent then
        unrollFrom column more { s.emit .blockEnd with indent := outer, outerIndents := more }
      else s

def unroll (s : Scanner) (column : Int) : Scanner :=
  if s.inFlow then s else unrollFrom column s.outerIndents s

/-- Passes blanks, comments and line breaks. Tabs count as blanks only where no key can start. -/
def skipBlanks : Nat → Scanner → Scanner
  | 0, s => s
  | fuel + 1, s =>
      let tabs := s.inFlow || !s.keyAllowed
      let c := s.cursor.skipWhile fun ch => ch == ' ' || (tabs && ch == '\t')
      let c := if c.rest.head? == some '#' then c.skipLine else c
      if c.atBreak then
        skipBlanks fuel { s with cursor := c.advance, keyAllowed := s.keyAllowed || !s.inFlow }
      else s.moveTo c

def versionNumber? (c : Cursor) : Option (Nat × Cursor) :=
  let (digits, c) := c.takeWhile Char.isDigit
  if digits.isEmpty || 9 < digits.length then none
  else some (digits.foldl (fun n d => 10 * n + (d.toNat - 48)) 0, c)

def version? (c : Cursor) : Option (Token × Cursor) := do
  let (major, c) ← versionNumber? (c.skipWhile isSpaceOrTab)
  if c.rest.head? == some '.' then
    let (minor, c) ← versionNumber? c.advance
    return (.versionDirective major minor, c)
  else none

def tagBinding? (c : Cursor) : Option (Token × Cursor) := do
  let (handle, c) ← handle? (c.skipWhile isSpaceOrTab)
  if handle ≠ ['!'] ∧ (handle.length = 1 ∨ handle.getLast? ≠ some '!') then none
  else if (match c.rest with
      | ch :: _ => !isSpaceOrTab ch
      | [] => true) then none
  else
    let (address, c) ← address? true [] (c.skipWhile isSpaceOrTab)
    if startsBlank c.rest then return (.tagDirective handle address, c) else none

def directive? (c : Cursor) : Option (Token × Cursor) := do
  let (name, c) := c.advance.takeWhile isNameChar
  if name.isEmpty || !startsBlank c.rest then none
  else
    let (t, c) ←
      if name = "YAML".toList then version? c
      else if name = "TAG".toList then tagBinding? c
      else none
    return (t, ← c.finishLine?)

def anchorName? (c : Cursor) : Option (List Char × Cursor) :=
  let (name, c) := c.advance.takeWhile isNameChar
  let ends := startsBlank c.rest || (match c.rest with
    | ch :: _ => "?:,]\x7d%@\x60".toList.contains ch
    | [] => true)
  if name.isEmpty || !ends then none else some (name, c)

/-- Ends all blocks in front of a directive or a document indicator. -/
def leaveBlocks? (s : Scanner) : Option Scanner := do
  return { ← (s.unroll (-1)).dropKey? with keyAllowed := false }

/-- A token of one or more characters, after which a key may or may not start. -/
def pass (s : Scanner) (n : Nat) (t : Token) (keyAllowed : Bool) : Scanner :=
  { s.emit t with cursor := s.cursor.advanceBy n, keyAllowed }

/-- A list entry in block style, or a stray dash between flow brackets. -/
def blockEntry? (s : Scanner) : Option Scanner := do
  if !s.inFlow && !s.keyAllowed then none
  else
    let s := s.roll s.cursor.column s.tokens.length .blockListStart
    return (← s.dropKey?).pass 1 .blockEntry true

def announcedKey? (s : Scanner) : Option Scanner := do
  if !s.inFlow && !s.keyAllowed then none
  else
    let s := s.roll s.cursor.column s.tokens.length .blockMappingStart
    return (← s.dropKey?).pass 1 .key (!s.inFlow)

/-- A value. When a possible key stands before it, it becomes a key. -/
def value? (s : Scanner) : Option Scanner :=
  match s.places with
  | some k :: outer =>
      let s := s.insertAt k.tokenNumber .key
      let s := s.roll k.column k.tokenNumber .blockMappingStart
      some ({ s with places := none :: outer }.pass 1 .value false)
  | _ =>
      if !s.inFlow && !s.keyAllowed then none
      else
        let s := s.roll s.cursor.column s.tokens.length .blockMappingStart
        some (s.pass 1 .value (!s.inFlow))

def openFlow? (s : Scanner) (t : Token) : Option Scanner := do
  let s ← s.markKey?
  return { s with places := none :: s.places }.pass 1 t true

def closeFlow? (s : Scanner) (t : Token) : Option Scanner := do
  let s ← s.dropKey?
  let places := if s.inFlow then s.places.drop 1 else s.places
  return { s with places }.pass 1 t false

/-- A token that may start a key, read by a function from its position. -/
def keyed? (s : Scanner) (read : Cursor → Option (Token × Cursor)) : Option Scanner := do
  let s ← s.markKey?
  let (t, c) ← read s.cursor
  return { s.emit t with cursor := c, keyAllowed := false }

/-- A plain scalar. A key may start behind it if it ends with a line break. -/
def plain? (s : Scanner) : Option Scanner := do
  let s ← s.markKey?
  let (text, broken, c) ← plainScalar? s.inFlow (s.indent + 1) s.cursor
  return { s.emit (.scalar text true) with cursor := c, keyAllowed := broken }

def block? (s : Scanner) (literal : Bool) : Option Scanner := do
  let s ← s.dropKey?
  let (text, c) ← blockScalar? literal s.indent s.cursor
  return { s.emit (.scalar text false) with cursor := c, keyAllowed := true }

/-- Whether a plain scalar may start with a character: with any but blanks and those that have a
meaning of their own, and with some of these where the next character takes the meaning away. -/
def startsPlain (flow : Bool) (c : Char) (next : List Char) : Bool :=
  if c == '-' then
    match next with
    | d :: _ => !isSpaceOrTab d
    | [] => true
  else if c == '?' || c == ':' then !flow && !startsBlank next
  else !startsBlank [c] && !(",[]\x7b\x7d#&*!|>'\"%@\x60".toList.contains c)

def token? (s : Scanner) (c : Char) (next : List Char) : Option Scanner :=
  let flow := s.inFlow
  if s.cursor.column = 0 && c == '%' then do
    let s ← s.leaveBlocks?
    let (t, c) ← directive? s.cursor
    return { s.emit t with cursor := c }
  else if s.cursor.atIndicator then do
    return (← s.leaveBlocks?).pass 3 (if c == '-' then .documentStart else .documentEnd) false
  else if c == '[' then s.openFlow? .flowListStart
  else if c == '\x7b' then s.openFlow? .flowMappingStart
  else if c == ']' then s.closeFlow? .flowListEnd
  else if c == '\x7d' then s.closeFlow? .flowMappingEnd
  else if c == ',' then do return (← s.dropKey?).pass 1 .flowEntry true
  else if c == '-' && startsBlank next then s.blockEntry?
  else if c == '?' && (flow || startsBlank next) then s.announcedKey?
  else if c == ':' && (flow || startsBlank next) then s.value?
  else if c == '*' then
    s.keyed? fun c => (anchorName? c).map fun (name, c) => (.alias name, c)
  else if c == '&' then
    s.keyed? fun c => (anchorName? c).map fun (name, c) => (.anchor name, c)
  else if c == '!' then
    s.keyed? fun c => (tag? flow c).map fun (handle, suffix, c) => (.tag handle suffix, c)
  else if c == '|' && !flow then s.block? true
  else if c == '>' && !flow then s.block? false
  else if c == '\'' || c == '"' then
    s.keyed? fun c' => (quotedScalar? c c').map fun (text, c') => (.scalar text false, c')
  else if startsPlain flow c next then s.plain?
  else none

def run? : Nat → Scanner → Option (List Token)
  | 0, _ => none
  | fuel + 1, s => do
      let s := skipBlanks (s.cursor.rest.length + 1) s
      let s ← s.dropStale?
      match s.cursor.rest with
      | [] =>
          let s ← (s.unroll (-1)).dropKey?
          return s.tokens.reverse
      | c :: next => run? fuel (← (s.unroll s.cursor.column).token? c next)

end Scanner

/-- The tokens of a text. A byte order mark at the front is passed over; a second one takes up a
column. -/
def tokens? (s : List Char) : Option (List Token) :=
  if s.all isAllowed then
    let mark := '\ufeff'
    let s := if s.head? == some mark then s.drop 1 else s
    let start := Scanner.start s
    let start := if s.head? == some mark then start.moveTo start.cursor.advance else start
    Scanner.run? (s.length + 1) start
  else none

end ArtifactFlow.Yaml
