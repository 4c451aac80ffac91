import ArtifactFlow.Number.Double

/-!
The shortest decimal that reads back as a given double. Of the decimals with the fewest digits
inside the interval that rounds to the double, the nearest one is taken, and of two equally near
ones the even one.
-/

namespace ArtifactFlow

/-- A positive decimal `digits * 10 ^ power`; `digits` does not end in a zero. -/
structure Decimal where
  digits : Nat
  power : Int
  deriving DecidableEq, Repr

namespace Double

/-- Twice the numerator, half-gaps below and above, and the doubled denominator of a positive
double: all reals strictly between `value - below` and `value + above` read back as it. -/
structure Neighbourhood where
  value : Nat
  below : Nat
  above : Nat
  scale : Nat
  closed : Bool

/-- The reals that round to the double. Below a power of two the neighbour is twice as near, and
the ends themselves belong to it when its mantissa is even. -/
def neighbourhood (d : Double) : Neighbourhood :=
  let up := Nat.pow 2 d.exponent.toNat
  let down := Nat.pow 2 (-d.exponent).toNat
  let narrow := d.mantissa = Nat.pow 2 52 ∧ -1074 < d.exponent
  { value := 4 * d.mantissa * up
    below := if narrow then up else 2 * up
    above := 2 * up
    scale := 4 * down
    closed := d.mantissa % 2 == 0 }

/-- Whether the fraction `num / den` reads back as the double. -/
def Neighbourhood.contains (r : Neighbourhood) (num den : Nat) : Bool :=
  let x := num * r.scale
  let low := (r.value - r.below) * den
  let high := (r.value + r.above) * den
  if r.closed then low ≤ x && x ≤ high else low < x && x < high

/-- The decimal exponent `e` of a positive fraction: `10 ^ e ≤ num / den < 10 ^ (e + 1)`. -/
def decimalExponent (num den : Nat) : Int :=
  if den ≤ num then ((Nat.toDigits 10 (num / den)).length : Int) - 1
  else
    match (List.range 400).find? fun j => den ≤ num * Nat.pow 10 j with
    | some j => -(j : Int)
    | none => -400

/-- The candidate with `n` digits, if one of the two grid points around the value reads back. -/
def candidate? (r : Neighbourhood) (e : Int) (n : Nat) : Option Decimal :=
  let power : Int := e + 1 - n
  let up := Nat.pow 10 power.toNat
  let down := Nat.pow 10 (-power).toNat
  let num := r.value * down
  let den := r.scale * up
  let lower := num / den
  let hit (k : Nat) : Bool := r.contains (k * up) down
  let twice := 2 * (num % den)
  let nearest := if twice < den then lower else if den < twice then lower + 1 else lower + lower % 2
  let other := if nearest = lower then lower + 1 else lower
  if hit nearest then some ⟨nearest, power⟩
  else if hit other then some ⟨other, power⟩
  else none

/-- Drops trailing zeros of the digits into the power. -/
def Decimal.strip : Nat → Decimal → Decimal
  | 0, d => d
  | fuel + 1, d =>
      if d.digits ≠ 0 ∧ d.digits % 10 = 0 then strip fuel ⟨d.digits / 10, d.power + 1⟩ else d

/-- The shortest decimal of a positive double; seventeen digits always suffice. -/
def shortest (d : Double) : Decimal :=
  let r := d.neighbourhood
  let e := decimalExponent r.value r.scale
  let found := (List.range 17).findSome? fun n => candidate? r e (n + 1)
  Decimal.strip 20 (found.getD ⟨0, 0⟩)

end Double
end ArtifactFlow
