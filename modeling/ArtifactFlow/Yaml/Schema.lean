import ArtifactFlow.Value.Lookup

/-!
What untagged scalars of YAML text stand for: null, booleans, integers in four bases, doubles, and
strings for all else. Digits behind a leading zero are a string, and so is a number too large for a
double. Integers between 64 and 128 bits are refused.
-/

namespace ArtifactFlow.Yaml

def isNullText (s : List Char) : Bool :=
  s = "null".toList || s = "Null".toList || s = "NULL".toList || s = ['~']

def bool? (s : List Char) : Option Bool :=
  if s = "true".toList || s = "True".toList || s = "TRUE".toList then some true
  else if s = "false".toList || s = "False".toList || s = "FALSE".toList then some false
  else none

def isSign (c : Char) : Bool := c == '+' || c == '-'

def dropSign : List Char → List Char
  | c :: rest => if isSign c then rest else c :: rest
  | [] => []

/-- A leading zero with further digits behind it. -/
def isZeroPadded (s : List Char) : Bool :=
  match dropSign s with
  | '0' :: d :: rest => (d :: rest).all Char.isDigit
  | _ => false

/-- The value of a digit in bases up to sixteen. -/
def digit? (base : Nat) (c : Char) : Option Nat :=
  let n := c.toNat
  let d :=
    if 48 ≤ n ∧ n ≤ 57 then n - 48
    else if 97 ≤ n ∧ n ≤ 102 then n - 87
    else if 65 ≤ n ∧ n ≤ 70 then n - 55
    else base
  if d < base then some d else none

def natural? (base : Nat) (s : List Char) : Option Nat :=
  if s.isEmpty then none else s.foldlM (fun n c => (digit? base c).map (base * n + ·)) 0

def base? : List Char → Option (Nat × List Char)
  | '0' :: 'x' :: rest => some (16, rest)
  | '0' :: 'o' :: rest => some (8, rest)
  | '0' :: 'b' :: rest => some (2, rest)
  | _ => none

def magnitude? (s : List Char) : Option Nat :=
  match base? s with
  | some (base, digits) => natural? base digits
  | none => if isZeroPadded s then none else natural? 10 s

def int? (s : List Char) : Option Int :=
  match s with
  | '-' :: rest => (magnitude? rest).map fun n => -(n : Int)
  | '+' :: rest => (magnitude? rest).map fun n => (n : Int)
  | s => (magnitude? s).map fun n => (n : Int)

/-- Digits with at most one point among them and at least one digit in all: the digits and the
power of ten that scales them. -/
def decimal? (s : List Char) : Option (Nat × Int) :=
  let whole := s.takeWhile Char.isDigit
  match s.dropWhile Char.isDigit with
  | [] => (natural? 10 whole).map (·, 0)
  | '.' :: fraction =>
      if fraction.all Char.isDigit then
        (natural? 10 (whole ++ fraction)).map (·, -(fraction.length : Int))
      else none
  | _ => none

def power? (s : List Char) : Option Int :=
  match s with
  | '-' :: rest => (natural? 10 rest).map fun n => -(n : Int)
  | '+' :: rest => (natural? 10 rest).map fun n => (n : Int)
  | s => (natural? 10 s).map fun n => (n : Int)

/-- The double that a text is written as, without its sign; `none` also when it is too large. -/
def unsignedDouble? (negative : Bool) (s : List Char) : Option Double := do
  let isMark (c : Char) := c == 'e' || c == 'E'
  let (digits, power) ← decimal? (s.takeWhile (!isMark ·))
  match s.dropWhile (!isMark ·) with
  | [] => Double.ofDecimal? negative digits power
  | _ :: exponent => do Double.ofDecimal? negative digits (power + (← power? exponent))

/-- The words for infinities and for what is not a number. They have no counterpart among values
and stand for null. -/
def isNonFinite (s : List Char) : Bool :=
  let infinite (s : List Char) := s = ".inf".toList || s = ".Inf".toList || s = ".INF".toList
  infinite s || infinite (dropSign s) || s = ".nan".toList || s = ".NaN".toList ||
    s = ".NAN".toList

def float? (s : List Char) : Option Value :=
  if isNonFinite s then some .null
  else
    match s with
    | '-' :: rest => (unsignedDouble? true rest).map .float
    | '+' :: rest => (unsignedDouble? false rest).map .float
    | s => (unsignedDouble? false s).map .float

/-- The value of an integer: `none` when it does not fit 64 bits. -/
def ofInt? (n : Int) : Option Value :=
  if -(Nat.pow 2 63) ≤ n ∧ n < Nat.pow 2 64 then some (.int n) else none

/-- Whether an integer fits 128 bits. Larger ones are read as doubles. -/
def fitsWide (n : Int) : Bool :=
  -(Nat.pow 2 127) ≤ n && n < Nat.pow 2 128

/-- The value of a plain scalar without a tag; `none` when it is refused. -/
def plainValue? (s : List Char) : Option Value :=
  if s.isEmpty || isNullText s then some .null
  else
    match bool? s with
    | some b => some (.bool b)
    | none =>
        match (int? s).filter fitsWide with
        | some n => ofInt? n
        | none =>
            match (if isZeroPadded s then none else float? s) with
            | some v => some v
            | none => some (.string (String.ofList s))

/-- The value of a scalar with one of the standard tags; any other tag leaves it a string. -/
def taggedValue? (tag s : List Char) : Option Value :=
  if tag = "tag:yaml.org,2002:bool".toList then (bool? s).map .bool
  else if tag = "tag:yaml.org,2002:int".toList then (int? s).filter fitsWide >>= ofInt?
  else if tag = "tag:yaml.org,2002:float".toList then float? s
  else if tag = "tag:yaml.org,2002:null".toList then if isNullText s then some .null else none
  else some (.string (String.ofList s))

end ArtifactFlow.Yaml
