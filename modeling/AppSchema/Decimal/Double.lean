/-
**Double precision magnitudes.**

A `Double` is a number `significand · 2 ^ exponent` with a significand below `2 ^ 53` and an
exponent between `-1074` and `971`. Every operation computes the exact quotient and rounds it once,
to the nearest double, a half going to the even neighbour.

A number written in decimal becomes a double in at most three roundings: its digits as an integer,
the power of ten, and the product or quotient of the two. The result can therefore be one unit
away from the double nearest to the written number.
-/

namespace AppSchema

/-- The magnitude `significand · 2 ^ exponent`. -/
structure Double where
  significand : Nat
  exponent : Int
  deriving DecidableEq, Repr, Inhabited

namespace Double

/-- The exponent of the smallest double. -/
def leastExponent : Int := -1074

/-- The exponent of the largest double. -/
def greatestExponent : Int := 971

/-- Zero, with the least exponent. -/
def zero : Double := ⟨0, leastExponent⟩

/-- The quotient rounded to the nearest integer; a half goes to the even neighbour. -/
def divideToEven (numerator denominator : Nat) : Nat :=
  let quotient := numerator / denominator
  let twice := 2 * (numerator % denominator)
  if twice < denominator then quotient
  else if denominator < twice then quotient + 1
  else quotient + quotient % 2

/-- The double nearest to `numerator / denominator · 2 ^ exponent`, or `none` beyond the largest. -/
def nearest? (numerator denominator : Nat) (exponent : Int) : Option Double :=
  if numerator = 0 then some zero
  else
    let spread : Int := numerator.log2 - denominator.log2
    let reaches := denominator * Nat.pow 2 spread.toNat ≤ numerator * Nat.pow 2 (-spread).toNat
    let unit := max (spread + exponent - if reaches then 52 else 53) leastExponent
    let rounded := divideToEven (numerator * Nat.pow 2 (exponent - unit).toNat)
      (denominator * Nat.pow 2 (unit - exponent).toNat)
    let result : Double :=
      if rounded = Nat.pow 2 53 then ⟨Nat.pow 2 52, unit + 1⟩ else ⟨rounded, unit⟩
    if greatestExponent < result.exponent then none else some result

/-- The double nearest to `10 ^ power`; zero where there is none. -/
def powerOfTen (power : Nat) : Double :=
  (nearest? (Nat.pow 10 power) 1 0).getD zero

/-- The product with a power of ten. -/
def times? (value : Double) (power : Nat) : Option Double :=
  nearest? (value.significand * (powerOfTen power).significand) 1
    (value.exponent + (powerOfTen power).exponent)

/-- The quotient by a power of ten. -/
def dividedBy (value : Double) (power : Nat) : Double :=
  (nearest? value.significand (powerOfTen power).significand
    (value.exponent - (powerOfTen power).exponent)).getD zero

/-- The greatest power of ten that is a double. -/
def greatestPower : Nat := 308

/-- Divides by a power of ten of any size, by `10 ^ 308` at a time. -/
def dividedByAny (value : Double) (power : Nat) : Double :=
  if power ≤ greatestPower then value.dividedBy power
  else if value.significand = 0 then value
  else (value.dividedBy greatestPower).dividedByAny (power - greatestPower)
termination_by power
decreasing_by simp_all [greatestPower]; omega

/-- The double of `significand · 10 ^ exponent`, or `none` beyond the largest. -/
def ofDecimal? (significand : Nat) (exponent : Int) : Option Double := do
  let whole ← nearest? significand 1 0
  if exponent < 0 then some (whole.dividedByAny exponent.natAbs)
  else if exponent.natAbs ≤ greatestPower then whole.times? exponent.natAbs
  else if whole.significand = 0 then some whole
  else none

end Double

end AppSchema
