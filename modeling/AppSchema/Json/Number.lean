/-
**Numbers of JSON.**

A number written without fraction and exponent is an integer if it fits 64 bits, with a sign or
without one. Every other number, minus zero among them, is a double. `Numeral` is the written form,
`Number` its value.

A double is written with the fewest digits that read back, and always with a point or an exponent:
positionally where the leading digit stands for `10 ^ -5` to `10 ^ 15`, otherwise with an exponent
that carries a sign.
-/

import AppSchema.Decimal.Shortest

namespace AppSchema

/-- The value of a number of JSON. -/
inductive Number
  | integer (value : Int)
  | real (negative : Bool) (magnitude : Double)
  deriving DecidableEq, Repr, Inhabited

/-- A number as JSON writes it: digits before the point, digits after it, exponent. -/
structure Numeral where
  negative : Bool
  whole : List Nat
  fraction : List Nat
  exponent : Option Int
  deriving DecidableEq, Repr, Inhabited

namespace Numeral

/-- Appends digits to a significand as long as it stays below `2 ^ 64`, and counts the digits left
over. -/
def absorb (significand : Nat) : List Nat → Nat × Nat
  | [] => (significand, 0)
  | digit :: rest =>
    if significand * 10 + digit < Nat.pow 2 64 then absorb (significand * 10 + digit) rest
    else (significand, rest.length + 1)

/-- The integer that a sign and a magnitude of 64 bits stand for, if it has a type of 64 bits. -/
def integer? (negative : Bool) (magnitude : Nat) : Option Int :=
  if negative then
    if 0 < magnitude ∧ magnitude ≤ Nat.pow 2 63 then some (-magnitude) else none
  else some magnitude

/-- The value of a written number, or `none` if it lies beyond the largest double. -/
def value? (numeral : Numeral) : Option Number :=
  let (whole, left) := absorb 0 numeral.whole
  let (significand, dropped) := absorb whole numeral.fraction
  let shift : Int := left - (numeral.fraction.length - dropped : Nat)
  let real := (Double.ofDecimal? significand (numeral.exponent.getD 0 + shift)).map
    (Number.real numeral.negative)
  match numeral.fraction, numeral.exponent, left with
  | [], none, 0 =>
    match integer? numeral.negative whole with
    | some value => some (.integer value)
    | none => real
  | _, _, _ => real

end Numeral

namespace Number

/-- The least exponent of a leading digit that is written positionally. -/
def leastPositional : Int := -5

/-- The greatest exponent of a leading digit that is written positionally. -/
def greatestPositional : Int := 15

/-- A decimal written positionally, with at least one digit on either side of the point. -/
def positional (digits : List Char) (exponent : Int) : List Char :=
  let point : Int := digits.length + exponent
  if 0 ≤ exponent then digits ++ List.replicate exponent.toNat '0' ++ ['.', '0']
  else if 0 < point then digits.take point.toNat ++ '.' :: digits.drop point.toNat
  else '0' :: '.' :: List.replicate (-point).toNat '0' ++ digits

/-- A decimal written with an exponent. -/
def scientific (digits : List Char) (leading : Int) : List Char :=
  digits.take 1 ++ (if digits.length ≤ 1 then [] else '.' :: digits.drop 1) ++
    'e' :: (if leading < 0 then '-' else '+') :: Nat.toDigits 10 leading.natAbs

/-- The text of a double. -/
def magnitudeText (magnitude : Double) : List Char :=
  let decimal := magnitude.shortest
  let digits := Nat.toDigits 10 decimal.digits
  let leading : Int := digits.length + decimal.exponent - 1
  if leastPositional ≤ leading ∧ leading ≤ greatestPositional then
    positional digits decimal.exponent
  else scientific digits leading

/-- The text of an integer. -/
def integerText (value : Int) : List Char :=
  (if value < 0 then ['-'] else []) ++ Nat.toDigits 10 value.natAbs

/-- The text of a number. -/
def text : Number → String
  | .integer value => String.ofList (integerText value)
  | .real negative magnitude =>
    String.ofList ((if negative then ['-'] else []) ++ magnitudeText magnitude)

end Number

end AppSchema
