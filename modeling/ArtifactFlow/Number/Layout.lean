import ArtifactFlow.Number.Shortest

/-!
Writing doubles. The digits are always the shortest ones; a `Layout` says when the point is placed
among them and how an exponent is written.
-/

namespace ArtifactFlow

/-- How a format writes doubles. -/
structure Layout where
  /-- Least decimal exponent that is written positionally. -/
  lowest : Int
  /-- Greatest decimal exponent that is written positionally. -/
  highest : Int
  /-- Whether a positive exponent carries a plus sign. -/
  plus : Bool

namespace Layout

/-- Digits with the point after the first `e + 1` of them, filled up with zeros, and at least one
digit on either side of the point. -/
def positional (digits : List Char) (e : Int) : List Char :=
  if e < 0 then '0' :: '.' :: List.replicate (-e - 1).toNat '0' ++ digits
  else
    let whole := (e + 1).toNat
    let digits := digits ++ List.replicate (whole - digits.length) '0'
    let fraction := digits.drop whole
    digits.take whole ++ '.' :: (if fraction.isEmpty then ['0'] else fraction)

/-- Digits with the point after the first one, then the exponent. -/
def scientific (plus : Bool) (digits : List Char) (e : Int) : List Char :=
  let fraction := digits.drop 1
  let sign := if e < 0 then ['-'] else if plus then ['+'] else []
  digits.take 1 ++ (if fraction.isEmpty then [] else '.' :: fraction) ++
    'e' :: sign ++ Nat.toDigits 10 e.natAbs

def write (layout : Layout) (d : Double) : List Char :=
  let sign := if d.negative then ['-'] else []
  if d.isZero then sign ++ ['0', '.', '0']
  else
    let s := d.shortest
    let digits := Nat.toDigits 10 s.digits
    let e := s.power + digits.length - 1
    sign ++
      if layout.lowest ≤ e ∧ e ≤ layout.highest then positional digits e
      else scientific layout.plus digits e

end Layout

/-- The text of an integer: decimal digits after a minus sign at most. -/
def intText (n : Int) : List Char :=
  if n < 0 then '-' :: Nat.toDigits 10 n.natAbs else Nat.toDigits 10 n.natAbs

end ArtifactFlow
