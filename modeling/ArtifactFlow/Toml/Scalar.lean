import ArtifactFlow.Json.Text
import ArtifactFlow.Toml.Datetime

/-!
The scalars of TOML text. Strings are read from their opening mark; numbers, booleans, dates and
times are read from the whole word that spells them.
-/

namespace ArtifactFlow.Toml

/-- Characters that may stand in strings and comments as they are. -/
def isPlainChar (c : Char) : Bool :=
  c == '\t' || (0x20 ≤ c.toNat && c.toNat != 0x7F)

def isBlankChar (c : Char) : Bool := c == ' ' || c == '\t'

def shortEscape? (c : Char) : Option Char :=
  match c with
  | 'b' => some '\x08'
  | 't' => some '\t'
  | 'n' => some '\n'
  | 'f' => some '\x0c'
  | 'r' => some '\r'
  | 'e' => some '\x1b'
  | '"' => some '"'
  | '\\' => some '\\'
  | _ => none

/-- The character of an escape, given the text behind the backslash, and the number of characters
that the escape takes there. -/
def escape? : List Char → Option (Char × Nat)
  | [] => none
  | c :: rest =>
      let length := match c with
        | 'x' => 2
        | 'u' => 4
        | 'U' => 8
        | _ => 0
      if length = 0 then (shortEscape? c).map (·, 1)
      else do
        let digits := rest.take length
        let code ← Json.hexNumber? digits
        if digits.length = length ∧ code.isValidChar then
          return (Char.ofNat code, length + 1)
        else none

/-- The inside of a string on one line, and what follows its closing mark. -/
def lineString? (mark : Char) : Nat → List Char → List Char → Option (List Char × List Char)
  | 0, _, _ => none
  | fuel + 1, done, s =>
      match s with
      | [] => none
      | c :: rest =>
          if c = mark then some (done.reverse, rest)
          else if mark = '"' ∧ c = '\\' then do
            let (e, n) ← escape? rest
            lineString? mark fuel (e :: done) (rest.drop n)
          else if isPlainChar c then lineString? mark fuel (c :: done) rest
          else none

/-- A line break at the front of a text, and what follows it. -/
def newLine? : List Char → Option (List Char)
  | '\n' :: rest => some rest
  | '\r' :: '\n' :: rest => some rest
  | _ => none

def skipLines : Nat → List Char → List Char
  | 0, s => s
  | fuel + 1, s =>
      match newLine? s with
      | some rest => skipLines fuel rest
      | none =>
          match s with
          | c :: rest => if isBlankChar c then skipLines fuel rest else c :: rest
          | [] => []

/-- What follows an escaped line break: blanks up to the end of the line, the break, and all blanks
and breaks behind it. -/
def escapedLine? (s : List Char) : Option (List Char) := do
  let rest ← newLine? (s.dropWhile isBlankChar)
  return skipLines rest.length rest

/-- The inside of a string over several lines, and what follows its closing marks. Up to two marks
may stand right in front of the closing ones. -/
def linesString? (mark : Char) : Nat → List Char → List Char → Option (List Char × List Char)
  | 0, _, _ => none
  | fuel + 1, done, s =>
      match s with
      | [] => none
      | c :: rest =>
          if c = mark then
            let marks := (s.takeWhile (· = mark)).length
            if marks < 3 then linesString? mark fuel (mark :: done) rest
            else if marks ≤ 5 then
              some (done.reverse ++ List.replicate (marks - 3) mark, s.drop marks)
            else none
          else if mark = '"' ∧ c = '\\' then
            match escapedLine? rest with
            | some rest => linesString? mark fuel done rest
            | none => do
                let (e, n) ← escape? rest
                linesString? mark fuel (e :: done) (rest.drop n)
          else
            match newLine? s with
            | some rest => linesString? mark fuel ('\n' :: done) rest
            | none => if isPlainChar c then linesString? mark fuel (c :: done) rest else none

/-- A string from its opening mark on; three marks open a string over several lines, whose first
line break does not count. -/
def string? (mark : Char) (s : List Char) : Option (List Char × List Char) :=
  match s with
  | a :: b :: c :: rest =>
      if a = mark ∧ b = mark ∧ c = mark then
        let rest := (newLine? rest).getD rest
        linesString? mark (rest.length + 1) [] rest
      else lineString? mark (s.length + 1) [] (s.drop 1)
  | s => lineString? mark (s.length + 1) [] (s.drop 1)

/-- Digits in which single underscores stand between digits, without the underscores. -/
def ungroup? (isDigit : Char → Bool) : List Char → Option (List Char)
  | [] => none
  | [c] => if isDigit c then some [c] else none
  | c :: '_' :: rest =>
      if isDigit c then (ungroup? isDigit rest).map (c :: ·) else none
  | c :: rest => if isDigit c then (ungroup? isDigit rest).map (c :: ·) else none

/-- The number of grouped digits in a base. -/
def based? (base : Nat) (s : List Char) : Option Nat := do
  let isDigit (c : Char) := match Json.hexDigit? c with
    | some d => d < base
    | none => false
  Json.numberIn? base (← ungroup? isDigit s)

/-- Grouped decimal digits without a zero in front of others. -/
def unpadded? (s : List Char) : Option (List Char) := do
  let digits ← ungroup? Char.isDigit s
  if digits.head? = some '0' ∧ 1 < digits.length then none else return digits

/-- An integer that fits 64 bits with its sign. -/
def fits? (n : Int) : Option Value :=
  if -(Nat.pow 2 63) ≤ n ∧ n < Nat.pow 2 63 then some (.int n) else none

/-- The parts of a number: whether it is negative, and its text without a sign. -/
def unsigned (s : List Char) : Bool × List Char :=
  match s with
  | '-' :: rest => (true, rest)
  | '+' :: rest => (false, rest)
  | s => (false, s)

def exponent? (s : List Char) : Option Int := do
  let (negative, s) := unsigned s
  let n ← decimalNumber? (← ungroup? Char.isDigit s)
  return if negative then -(n : Int) else n

/-- A double: a whole part, then a fraction or an exponent or both. Too large ones are refused. -/
def double? (s : List Char) : Option Value := do
  let (negative, s) := unsigned s
  let isMark (c : Char) := c == 'e' || c == 'E'
  let mantissa := s.takeWhile (!isMark ·)
  let power ← match s.dropWhile (!isMark ·) with
    | [] => some 0
    | _ :: rest => exponent? rest
  let whole ← unpadded? (mantissa.takeWhile (· != '.'))
  let fraction ← match mantissa.dropWhile (· != '.') with
    | [] => some []
    | _ :: rest => ungroup? Char.isDigit rest
  let digits ← decimalNumber? (whole ++ fraction)
  return .float (← Double.ofDecimal? negative digits (power - fraction.length))

def integer? (s : List Char) : Option Value :=
  match s with
  | '0' :: 'x' :: rest => based? 16 rest >>= fun n => fits? n
  | '0' :: 'o' :: rest => based? 8 rest >>= fun n => fits? n
  | '0' :: 'b' :: rest => based? 2 rest >>= fun n => fits? n
  | s => do
      let (negative, s) := unsigned s
      let n ← decimalNumber? (← unpadded? s)
      fits? (if negative then -(n : Int) else n)

/-- The value of a word that is not in quotation marks. Infinities and what is not a number have no
counterpart and stand for null. -/
def word? (s : List Char) : Option Value :=
  if s = "true".toList then some (.bool true)
  else if s = "false".toList then some (.bool false)
  else
    let body := (unsigned s).2
    if body = "inf".toList ∨ body = "nan".toList then some .null
    else
      match datetime? s with
      | some text => some (.mapping [(datetimeKey, .string (String.ofList text))])
      | none =>
          match integer? s with
          | some v => some v
          | none =>
              if s.any fun c => c == '.' || c == 'e' || c == 'E' then double? s else none

end ArtifactFlow.Toml
