/-!
Finite double-precision numbers as exact dyadic fractions, and the one rounding rule through which
every decimal, product and quotient enters them: to the nearest double, a tie to the even mantissa.
-/

namespace ArtifactFlow

/-- The number `± mantissa * 2 ^ exponent`. The rounding functions below keep `mantissa < 2 ^ 53`
and `-1074 ≤ exponent ≤ 971`, and use the least exponent that the mantissa allows, so that equal
numbers of one sign are equal structures. Zero keeps its sign. -/
structure Double where
  negative : Bool
  mantissa : Nat
  exponent : Int
  deriving DecidableEq, Repr

namespace Double

/-- The quotient rounded to the nearest integer, a tie to the even one. -/
def roundQuotient (num den : Nat) : Nat :=
  let q := num / den
  let twice := 2 * (num % den)
  if twice < den then q
  else if den < twice then q + 1
  else q + q % 2

def zero (negative : Bool) : Double :=
  ⟨negative, 0, -1074⟩

/-- The exponent of the double grid on which `num / den` is rounded: the one that leaves a 53-bit
quotient, and never below the grid of the smallest doubles. -/
def gridExponent (num den : Nat) : Int :=
  let guess : Int := (Nat.log2 num : Int) - (Nat.log2 den : Int) - 53
  let scaled := num * Nat.pow 2 (-guess).toNat / (den * Nat.pow 2 guess.toNat)
  max (-1074) (if scaled < Nat.pow 2 53 then guess else guess + 1)

/-- The double nearest to `± num / den`, for a positive `den`; `none` when it lies past the
largest double. -/
def ofRatio? (negative : Bool) (num den : Nat) : Option Double :=
  if num = 0 then some (zero negative)
  else
    let q := gridExponent num den
    let m := roundQuotient (num * Nat.pow 2 (-q).toNat) (den * Nat.pow 2 q.toNat)
    let (m, q) := if m = Nat.pow 2 53 then (Nat.pow 2 52, q + 1) else (m, q)
    if q ≤ 971 then some ⟨negative, m, q⟩ else none

/-- The double nearest to `± digits * 10 ^ power`. A power far outside the range of doubles is
decided by the number of digits alone, so that the cost is bounded by the length of the numeral. -/
def ofDecimal? (negative : Bool) (digits : Nat) (power : Int) : Option Double :=
  if digits = 0 then some (zero negative)
  else
    let magnitude : Int := (Nat.toDigits 10 digits).length + power
    if magnitude < -400 then some (zero negative)
    else if 400 < magnitude then none
    else ofRatio? negative (digits * Nat.pow 10 power.toNat) (Nat.pow 10 (-power).toNat)

def ratio (d : Double) : Nat × Nat :=
  (d.mantissa * Nat.pow 2 d.exponent.toNat, Nat.pow 2 (-d.exponent).toNat)

/-- The rounded product of the magnitudes, with the sign of the first factor. -/
def times? (d e : Double) : Option Double :=
  ofRatio? d.negative (d.ratio.1 * e.ratio.1) (d.ratio.2 * e.ratio.2)

/-- The rounded quotient of the magnitudes, with the sign of the dividend; the divisor is not
zero. -/
def over? (d e : Double) : Option Double :=
  ofRatio? d.negative (d.ratio.1 * e.ratio.2) (d.ratio.2 * e.ratio.1)

def isZero (d : Double) : Bool :=
  d.mantissa == 0

/-- The same magnitude with the given sign. -/
def withSign (d : Double) (negative : Bool) : Double :=
  { d with negative := negative }

end Double
end ArtifactFlow
