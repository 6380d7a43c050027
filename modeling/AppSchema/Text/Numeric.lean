/-
**Texts that are numbers.**

A real number is a sign or none, then digits with at most one point among them and at least one
digit, then an exponent or none; or, behind the sign, one of three names in any case. An integer is
a sign or none and digits; it counts if it fits 64 bits.
-/

namespace AppSchema.Text

/-- A text without its sign, if it begins with one. -/
def unsigned : List Char → List Char
  | '+' :: rest => rest
  | '-' :: rest => rest
  | text => text

/-- Whether a text is one digit or more. -/
def isDigits (text : List Char) : Bool :=
  !text.isEmpty && text.all Char.isDigit

/-- Whether a text is an exponent or nothing. -/
def isExponent : List Char → Bool
  | [] => true
  | 'e' :: rest => isDigits (unsigned rest)
  | 'E' :: rest => isDigits (unsigned rest)
  | _ => false

/-- Whether what follows the digits at the start of a number ends it. `some` says that there were
digits. -/
def endsNumber (some : Bool) : List Char → Bool
  | '.' :: rest =>
    (some || !(rest.takeWhile Char.isDigit).isEmpty) && isExponent (rest.dropWhile Char.isDigit)
  | rest => some && isExponent rest

/-- Whether a text is a number without sign. -/
def isNumber (text : List Char) : Bool :=
  endsNumber (!(text.takeWhile Char.isDigit).isEmpty) (text.dropWhile Char.isDigit)

/-- The names of numbers that have no digits. -/
def namedNumbers : List String := ["inf", "infinity", "nan"]

/-- Whether a text is a real number. -/
def isReal (text : List Char) : Bool :=
  isNumber (unsigned text) ||
    namedNumbers.contains (String.ofList ((unsigned text).map Char.toLower))

/-- The value of digits. -/
def digitsValue (text : List Char) : Nat :=
  text.foldl (fun value digit => value * 10 + (digit.toNat - '0'.toNat)) 0

/-- Whether a text is an integer of 64 bits. -/
def isInteger (text : List Char) : Bool :=
  isDigits (unsigned text) &&
    digitsValue (unsigned text) < (if text.head? = some '-' then Nat.pow 2 63 + 1 else Nat.pow 2 63)

end AppSchema.Text
