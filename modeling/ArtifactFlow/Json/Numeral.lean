import ArtifactFlow.Value.Lookup

/-!
Numerals of JSON text. An integer numeral within 64 bits is an integer; any other numeral is a
double. Its digits are collected for as long as they fit 64 bits, that number is rounded to a
double, and the power of ten that is left over scales it with a second rounding.
-/

namespace ArtifactFlow.Json

/-- The parts of a numeral: digits before the point, digits after it if there is one, and the
exponent's sign and digits if there is one. -/
structure Numeral where
  negative : Bool
  whole : List Char
  fraction : Option (List Char)
  exponent : Option (Bool × List Char)

def spanDigits (s : List Char) : List Char × List Char :=
  (s.takeWhile Char.isDigit, s.dropWhile Char.isDigit)

def exponent? (s : List Char) : Option (Option (Bool × List Char)) :=
  match s with
  | [] => some none
  | mark :: rest =>
      if mark = 'e' ∨ mark = 'E' then
        let (negative, digits) := match rest with
          | '-' :: ds => (true, ds)
          | '+' :: ds => (false, ds)
          | ds => (false, ds)
        if digits.isEmpty || !digits.all Char.isDigit then none else some (some (negative, digits))
      else none

/-- Reads a whole text as a numeral: no zero before another digit, and digits on both sides of a
point. -/
def numeral? (s : List Char) : Option Numeral := do
  let (negative, s) := match s with
    | '-' :: rest => (true, rest)
    | _ => (false, s)
  let (whole, s) := spanDigits s
  if whole.isEmpty || (whole.head? == some '0' && 1 < whole.length) then none
  else
    match s with
    | '.' :: rest =>
        let (fraction, rest) := spanDigits rest
        if fraction.isEmpty then none
        else return ⟨negative, whole, some fraction, ← exponent? rest⟩
    | _ => return ⟨negative, whole, none, ← exponent? s⟩

/-- Collects digits behind a number while the result stays below `2 ^ 64`: the number reached and
how many digits went into it. -/
def collect (n : Nat) (taken : Nat) : List Char → Nat × Nat
  | [] => (n, taken)
  | c :: cs =>
      let next := 10 * n + (c.toNat - 48)
      if next < Nat.pow 2 64 then collect next (taken + 1) cs else (n, taken)

def tenTo? (k : Nat) : Option Double :=
  Double.ofDecimal? false 1 k

/-- Scales by a power of ten. Powers below the range of doubles are taken in steps of `1e308`;
after three of them nothing is left of a 64-bit number. A result past the largest double is
refused. -/
def scaleByTen? : Nat → Double → Int → Option Double
  | steps, d, power =>
      if d.isZero then some d
      else if 308 < power then none
      else if 0 ≤ power then do d.times? (← tenTo? power.toNat)
      else if -308 ≤ power then do d.over? (← tenTo? (-power).toNat)
      else
        match steps with
        | 0 => some (Double.zero d.negative)
        | steps + 1 => do scaleByTen? steps (← d.over? (← tenTo? 308)) (power + 308)

/-- Exponents from this bound on are not computed with. -/
def exponentBound : Nat := Nat.pow 2 31

def Numeral.toDouble? (n : Numeral) : Option Double :=
  let (significand, taken) := collect 0 0 n.whole
  let left : Int := (n.whole.length - taken : Nat)
  let (significand, taken) := collect significand 0 (n.fraction.getD [])
  let power := left - taken
  let scaled (power : Int) : Option Double := do
    return (← scaleByTen? 3 (← Double.ofRatio? false significand 1) power).withSign n.negative
  match n.exponent with
  | none => scaled power
  | some (negative, digits) =>
      match decimalNumber? digits with
      | none => none
      | some e =>
          if e < exponentBound then scaled (if negative then power - e else power + e)
          else if significand ≠ 0 ∧ ¬negative then none
          else some (Double.zero n.negative)

def Numeral.toValue? (n : Numeral) : Option Value :=
  let whole := (collect 0 0 n.whole)
  let integral := n.fraction.isNone && n.exponent.isNone && whole.2 == n.whole.length
  if integral && !n.negative then some (.int whole.1)
  else if integral && whole.1 ≠ 0 && whole.1 ≤ Nat.pow 2 63 then some (.int (-whole.1))
  else n.toDouble?.map .float

end ArtifactFlow.Json
