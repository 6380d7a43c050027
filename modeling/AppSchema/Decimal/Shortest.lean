/-
**The shortest decimal of a double.**

The reals that round to a double form an interval around it, which holds its ends when the
significand is even. The shortest decimal is a point of that interval on the coarsest grid of
decimal digits that has one: of the two grid points beside the double, the nearer, and of two
equally near ones the even.
-/

import AppSchema.Decimal.Double

namespace AppSchema

/-- The decimal `digits · 10 ^ exponent`. -/
structure Decimal where
  digits : Nat
  exponent : Int
  deriving DecidableEq, Repr, Inhabited

namespace Decimal

/-- Moves the trailing zeros of the digits into the exponent. -/
def normalize (value : Decimal) : Decimal :=
  if value.digits ≠ 0 ∧ value.digits % 10 = 0 then
    normalize ⟨value.digits / 10, value.exponent + 1⟩
  else value
termination_by value.digits
decreasing_by omega

end Decimal

namespace Double

/-- The exponent of the leading decimal digit of `numerator / denominator`. -/
def leadingExponent (numerator denominator : Nat) : Int :=
  if denominator ≤ numerator then ((Nat.toDigits 10 (numerator / denominator)).length : Int) - 1
  else
    let length := (Nat.toDigits 10 (denominator / numerator)).length
    if denominator ≤ numerator * Nat.pow 10 (length - 1) then 1 - (length : Int)
    else -(length : Int)

/-- Four times the double and the ends of its interval, in units of `2 ^ (exponent - 2)`. The
interval reaches half as far down from a power of two. -/
def interval (value : Double) : Nat × Nat × Nat :=
  let below :=
    if value.significand = Nat.pow 2 52 ∧ leastExponent < value.exponent then 1 else 2
  (4 * value.significand - below, 4 * value.significand, 4 * value.significand + 2)

/-- The decimal of at most `length` digits that rounds to the double, if there is one. -/
def decimalOfLength? (value : Double) (length : Nat) : Option Decimal :=
  let (low, middle, high) := value.interval
  let up := Nat.pow 2 (value.exponent - 2).toNat
  let down := Nat.pow 2 (2 - value.exponent).toNat
  let grid := leadingExponent (middle * up) down - (length - 1 : Nat)
  -- a point `n` of the grid is `n * step` beside `x * size` for `x` in units of the interval
  let size := up * Nat.pow 10 (-grid).toNat
  let step := down * Nat.pow 10 grid.toNat
  let beneath := middle * size / step
  let inside (point : Nat) : Bool :=
    if value.significand % 2 = 0 then low * size ≤ point * step && point * step ≤ high * size
    else low * size < point * step && point * step < high * size
  let chosen :=
    match inside beneath, inside (beneath + 1) with
    | false, false => none
    | true, false => some beneath
    | false, true => some (beneath + 1)
    | true, true => some (divideToEven (middle * size) step)
  chosen.map fun point => (⟨point, grid⟩ : Decimal).normalize

/-- The decimal of the fewest digits that rounds to the double. Seventeen digits always do. -/
def shortest (value : Double) : Decimal :=
  if value.significand = 0 then ⟨0, 0⟩
  else (((List.range 17).map (· + 1)).findSome? value.decimalOfLength?).getD ⟨0, 0⟩

end Double

end AppSchema
