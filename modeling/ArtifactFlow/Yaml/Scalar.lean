import ArtifactFlow.Json.Text
import ArtifactFlow.Yaml.Cursor

/-!
The scalars of YAML text: plain, quoted and block scalars. Each reader takes a position and gives
the scalar's text and the position behind it. All loops are bounded by the text that is left.
-/

namespace ArtifactFlow.Yaml

/-- What stands between two words of a scalar: blanks on one line, or line breaks. -/
structure Gap where
  broken : Bool
  spaces : List Char
  firstBreak : List Char
  moreBreaks : List Char

namespace Gap

def empty : Gap := ⟨false, [], [], []⟩

/-- The gap behind an escaped line break. -/
def escaped : Gap := ⟨true, [], [], []⟩

/-- The text that a gap stands for: one line feed folds into a blank, and one of several is
dropped. -/
def text (g : Gap) : List Char :=
  if !g.broken then g.spaces
  else if g.firstBreak = ['\n'] then
    if g.moreBreaks.isEmpty then [' '] else g.moreBreaks
  else g.firstBreak ++ g.moreBreaks

/-- Reads the blanks and breaks at a position. On a line of its own, a tab before column `indent`
is refused. -/
def read? (indent : Int) : Nat → Gap → Cursor → Option (Gap × Cursor)
  | 0, g, c => some (g, c)
  | fuel + 1, g, c =>
      match c.rest with
      | [] => some (g, c)
      | ch :: _ =>
          if isSpaceOrTab ch then
            if g.broken then
              if ch == '\t' && (c.column : Int) < indent then none
              else read? indent fuel g c.advance
            else read? indent fuel { g with spaces := g.spaces ++ [ch] } c.advance
          else if isBreak ch then
            let g' :=
              if g.broken then { g with moreBreaks := g.moreBreaks ++ breakText ch }
              else ⟨true, [], breakText ch, []⟩
            read? indent fuel g' c.advance
          else some (g, c)

end Gap

/-- A plain scalar that is being read: its text in reverse and the gap behind its last word. -/
structure Plain where
  text : List Char
  gap : Gap
  cursor : Cursor

def isFlowIndicator (c : Char) : Bool :=
  c == ',' || c == '[' || c == ']' || c == '\x7b' || c == '\x7d'

/-- Reads on in a plain scalar. `fresh` holds at the first character of a word, where a comment or
a document indicator may end the scalar. -/
def Plain.read? (flow : Bool) (indent : Int) : Nat → Bool → Plain → Option Plain
  | 0, _, p => some p
  | fuel + 1, fresh, p =>
      match p.cursor.rest with
      | [] => some p
      | c :: next =>
          if fresh && (p.cursor.atIndicator || c == '#') then some p
          else if isSpaceOrTab c || isBreak c then do
            let (gap, cursor) ← Gap.read? indent (next.length + 1) .empty p.cursor
            let p' : Plain := ⟨p.text, gap, cursor⟩
            if !flow && (cursor.column : Int) < indent then return p'
            else read? flow indent fuel true p'
          else if flow && c == ':' &&
              (match next with
                | d :: _ => d == '?' || isFlowIndicator d
                | [] => false) then none
          else if (c == ':' && startsBlank next) || (flow && isFlowIndicator c) then some p
          else
            read? flow indent fuel false
              ⟨c :: (p.gap.text.reverse ++ p.text), .empty, p.cursor.advance⟩

/-- A plain scalar: its text, whether a line break follows it, and the position behind it. -/
def plainScalar? (flow : Bool) (indent : Int) (c : Cursor) :
    Option (List Char × Bool × Cursor) := do
  let p ← Plain.read? flow indent (c.rest.length + 1) true ⟨[], .empty, c⟩
  return (p.text.reverse, p.gap.broken, p.cursor)

/-- What a one-letter escape of a double-quoted scalar stands for. -/
def shortEscape? (c : Char) : Option Char :=
  match c with
  | '0' => some '\x00'
  | 'a' => some '\x07'
  | 'b' => some '\x08'
  | 't' | '\t' => some '\t'
  | 'n' => some '\n'
  | 'v' => some '\x0b'
  | 'f' => some '\x0c'
  | 'r' => some '\r'
  | 'e' => some '\x1b'
  | ' ' => some ' '
  | '"' => some '"'
  | '/' => some '/'
  | '\\' => some '\\'
  | 'N' => some '\x85'
  | '_' => some '\xa0'
  | 'L' => some '\u2028'
  | 'P' => some '\u2029'
  | _ => none

/-- The number of digits of a numeric escape. -/
def codeLength? (c : Char) : Option Nat :=
  match c with
  | 'x' => some 2
  | 'u' => some 4
  | 'U' => some 8
  | _ => none

/-- The character of an escape, given the text behind the backslash, and the number of characters
that the escape takes there. -/
def escape? : List Char → Option (Char × Nat)
  | [] => none
  | c :: rest =>
      match codeLength? c with
      | some n => do
          let digits := rest.take n
          let code ← Json.hexNumber? digits
          if digits.length = n ∧ code.isValidChar then return (Char.ofNat code, n + 1) else none
      | none => (shortEscape? c).map (·, 1)

/-- Reads on in a quoted scalar; `text` is what has been read, in reverse. -/
def quotedRest? (mark : Char) : Nat → List Char → Cursor → Option (List Char × Cursor)
  | 0, _, _ => none
  | fuel + 1, text, c =>
      if c.atIndicator then none
      else
        match c.rest with
        | [] => none
        | ch :: next =>
            if ch == mark then
              if mark == '\'' && next.head? == some mark then
                quotedRest? mark fuel (mark :: text) (c.advanceBy 2)
              else some (text.reverse, c.advance)
            else if mark == '"' && ch == '\\' then
              match next with
              | [] => none
              | d :: _ =>
                  if isBreak d then do
                    let (gap, c) ← Gap.read? 0 next.length .escaped (c.advanceBy 2)
                    quotedRest? mark fuel (gap.text.reverse ++ text) c
                  else do
                    let (e, n) ← escape? next
                    quotedRest? mark fuel (e :: text) (c.advanceBy (n + 1))
            else if isSpaceOrTab ch || isBreak ch then do
              let (gap, c) ← Gap.read? 0 (next.length + 1) .empty c
              quotedRest? mark fuel (gap.text.reverse ++ text) c
            else quotedRest? mark fuel (ch :: text) c.advance

def quotedScalar? (mark : Char) (c : Cursor) : Option (List Char × Cursor) :=
  quotedRest? mark (c.rest.length + 1) [] c.advance

/-- How the line breaks at the end of a block scalar are treated. -/
inductive Chomping where
  | strip
  | clip
  | keep
  deriving DecidableEq, Repr

def chomping? (c : Cursor) : Option (Chomping × Cursor) :=
  match c.rest with
  | '+' :: _ => some (.keep, c.advance)
  | '-' :: _ => some (.strip, c.advance)
  | _ => none

/-- The indentation indicator at a position, zero when there is none; a written zero is refused. -/
def increment? (c : Cursor) : Option (Nat × Cursor) :=
  match c.rest with
  | [] => some (0, c)
  | d :: _ =>
      if d == '0' then none
      else if d.isDigit then some (d.toNat - 48, c.advance)
      else some (0, c)

/-- The header of a block scalar: chomping and indentation indicators in either order. -/
def blockHeader? (c : Cursor) : Option (Chomping × Nat × Cursor) :=
  match chomping? c with
  | some (chomping, c) => do
      let (increment, c) ← increment? c
      return (chomping, increment, c)
  | none => do
      let (increment, c) ← increment? c
      if increment = 0 then return (.clip, 0, c)
      else
        match chomping? c with
        | some (chomping, c) => return (chomping, increment, c)
        | none => return (.clip, increment, c)

/-- Passes indentation and empty lines. `indent` is zero while the indentation is not known;
`widest` is the greatest column that has been reached. Gives the line breaks, the greatest column
and the position of the next line with content. A tab in place of indentation is refused. -/
def blockBreaks? (indent : Nat) : Nat → (widest : Nat) → (breaks : List Char) → Cursor →
    Option (List Char × Nat × Cursor)
  | 0, widest, breaks, c => some (breaks, widest, c)
  | fuel + 1, widest, breaks, c =>
      let spaces := (c.rest.takeWhile (· == ' ')).length
      let passed := if indent = 0 then spaces else min spaces (indent - c.column)
      let c := c.advanceBy passed
      let widest := max widest c.column
      match c.rest with
      | [] => some (breaks, widest, c)
      | ch :: _ =>
          if ch == '\t' && (indent = 0 || c.column < indent) then none
          else if isBreak ch then
            blockBreaks? indent fuel widest (breaks ++ breakText ch) c.advance
          else some (breaks, widest, c)

/-- A block scalar that is being read: its text in reverse, the break behind its last line, the
breaks of the empty lines behind that, and whether the last line starts with a blank. -/
structure Block where
  text : List Char
  lastBreak : List Char
  emptyLines : List Char
  startedBlank : Bool
  cursor : Cursor

/-- Reads the lines of a block scalar that stand at its indentation. -/
def Block.read? (literal : Bool) (indent : Nat) : Nat → Block → Option Block
  | 0, b => some b
  | fuel + 1, b =>
      if b.cursor.column ≠ indent || b.cursor.atEnd then some b
      else do
        let blank := match b.cursor.rest with
          | ch :: _ => isSpaceOrTab ch
          | [] => false
        let folds := !literal && b.lastBreak.head? == some '\n' && !b.startedBlank && !blank
        let joint :=
          if folds then (if b.emptyLines.isEmpty then [' '] else b.emptyLines)
          else b.lastBreak ++ b.emptyLines
        let (line, c) := b.cursor.takeWhile fun ch => !isBreak ch
        let lastBreak := match c.rest with
          | ch :: _ => breakText ch
          | [] => []
        let c := c.advance
        let (emptyLines, _, c) ← blockBreaks? indent (c.rest.length + 1) 0 [] c
        read? literal indent fuel
          ⟨line.reverse ++ (joint.reverse ++ b.text), lastBreak, emptyLines, blank, c⟩

/-- A block scalar, from its indicator on; `parent` is the indentation around it. -/
def blockScalar? (literal : Bool) (parent : Int) (c : Cursor) : Option (List Char × Cursor) := do
  let (chomping, increment, c) ← blockHeader? c.advance
  let c ← c.finishLine?
  let known : Nat := if increment = 0 then 0 else (max parent 0).toNat + increment
  let (emptyLines, widest, c) ← blockBreaks? known (c.rest.length + 1) 0 [] c
  let indent : Nat := if known = 0 then max (max widest (parent + 1).toNat) 1 else known
  let b ← Block.read? literal indent (c.rest.length + 1) ⟨[], [], emptyLines, false, c⟩
  let tail := match chomping with
    | .strip => []
    | .clip => b.lastBreak
    | .keep => b.lastBreak ++ b.emptyLines
  return (b.text.reverse ++ tail, b.cursor)

end ArtifactFlow.Yaml
