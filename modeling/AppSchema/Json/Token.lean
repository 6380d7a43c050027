/-
**The tokens of a JSON text.**

A text is cut into brackets, separators, literals, numbers and strings; blanks between them are
dropped. A string keeps its escapes of UTF-16 units apart from its characters, because a unit that
is half of a pair is only wrong where the string is read.

* `Token.next?_length`: what follows a token is shorter than what the token was read from, so that
  scanning ends.
-/

import AppSchema.Json.Number

namespace AppSchema

/-- A character of a string, or an escape of one UTF-16 unit. -/
inductive RawUnit
  | char (char : Char)
  | unit (code : Nat)
  deriving DecidableEq, Repr

/-- A string as JSON writes it. -/
abbrev RawText := List RawUnit

namespace RawText

/-- The value of a hexadecimal digit. -/
def hexDigit? (char : Char) : Option Nat :=
  if '0' ≤ char ∧ char ≤ '9' then some (char.toNat - '0'.toNat)
  else if 'a' ≤ char ∧ char ≤ 'f' then some (char.toNat - 'a'.toNat + 10)
  else if 'A' ≤ char ∧ char ≤ 'F' then some (char.toNat - 'A'.toNat + 10)
  else none

/-- The value of four hexadecimal digits. -/
def unit? (first second third fourth : Char) : Option Nat := do
  let first ← hexDigit? first
  let second ← hexDigit? second
  let third ← hexDigit? third
  let fourth ← hexDigit? fourth
  some (((first * 16 + second) * 16 + third) * 16 + fourth)

/-- The character that a short escape stands for. -/
def shortEscape? : Char → Option Char
  | '"' => some '"'
  | '\\' => some '\\'
  | '/' => some '/'
  | 'b' => some '\x08'
  | 'f' => some '\x0c'
  | 'n' => some '\n'
  | 'r' => some '\r'
  | 't' => some '\t'
  | _ => none

/-- Reads a string up to its closing quote, and gives what follows the quote. -/
def scan? : List Char → Option (RawText × List Char)
  | [] => none
  | '"' :: rest => some ([], rest)
  | '\\' :: 'u' :: first :: second :: third :: fourth :: rest =>
    match unit? first second third fourth, scan? rest with
    | some code, some (text, after) => some (.unit code :: text, after)
    | _, _ => none
  | '\\' :: escape :: rest =>
    match shortEscape? escape, scan? rest with
    | some char, some (text, after) => some (.char char :: text, after)
    | _, _ => none
  | char :: rest =>
    if char.toNat < 0x20 then none
    else
      match scan? rest with
      | some (text, after) => some (.char char :: text, after)
      | none => none

theorem scan?_length {input : List Char} {text : RawText} {after : List Char}
    (scanned : scan? input = some (text, after)) : after.length < input.length := by
  fun_induction scan? input generalizing text after <;>
    simp only [Option.some.injEq, Prod.mk.injEq, reduceCtorEq] at scanned <;>
    obtain ⟨-, rfl⟩ := scanned
  case case2 => exact Nat.lt_succ_self _
  case case3 found _ shorter =>
    have := shorter found
    simp only [List.length_cons]
    omega
  case case5 found _ shorter =>
    have := shorter found
    simp only [List.length_cons]
    omega
  case case8 found shorter =>
    have := shorter found
    simp only [List.length_cons]
    omega

/-- Whether a unit is the first half of a pair. -/
def isLeading (code : Nat) : Bool := 0xD800 ≤ code && code < 0xDC00

/-- Whether a unit is the second half of a pair. -/
def isTrailing (code : Nat) : Bool := 0xDC00 ≤ code && code < 0xE000

/-- The characters of a string, or `none` if half of a pair stands alone. -/
def decode? : RawText → Option (List Char)
  | [] => some []
  | .char char :: rest => (decode? rest).map (char :: ·)
  | .unit code :: rest =>
    if isLeading code then
      match rest with
      | .unit next :: after =>
        if isTrailing next then
          (decode? after).map
            (Char.ofNat (0x10000 + (code - 0xD800) * 0x400 + (next - 0xDC00)) :: ·)
        else none
      | _ => none
    else if isTrailing code then none
    else (decode? rest).map (Char.ofNat code :: ·)

/-- The text of a string, or `none` if half of a pair stands alone. -/
def string? (text : RawText) : Option String :=
  (decode? text).map String.ofList

end RawText

namespace Numeral

/-- Whether a character is an ASCII digit. -/
def isDigit (char : Char) : Bool := '0' ≤ char && char ≤ '9'

/-- The value of a digit. -/
def digit (char : Char) : Nat := char.toNat - '0'.toNat

/-- The digits at the start of a text and what follows them. -/
def digits (input : List Char) : List Nat × List Char :=
  ((input.takeWhile isDigit).map digit, input.dropWhile isDigit)

/-- Digits without a leading zero that has no need to be there. -/
def isWhole : List Nat → Bool
  | [] => false
  | [_] => true
  | first :: _ => first != 0

/-- Reads a point and the digits after it, if there is a point. -/
def scanFraction? : List Char → Option (List Nat × List Char)
  | '.' :: rest => if (digits rest).1 = [] then none else some (digits rest)
  | input => some ([], input)

/-- Reads a sign, if there is one. -/
def scanSign : List Char → Bool × List Char
  | '-' :: rest => (true, rest)
  | '+' :: rest => (false, rest)
  | input => (false, input)

/-- Reads the exponent behind its letter. -/
def scanPower? (input : List Char) : Option (Option Int × List Char) :=
  let (negative, rest) := scanSign input
  let (power, after) := digits rest
  let size : Nat := power.foldl (fun size digit => size * 10 + digit) 0
  if power = [] then none else some (some (if negative then -size else size), after)

/-- Reads an exponent, if there is one. -/
def scanExponent? : List Char → Option (Option Int × List Char)
  | 'e' :: rest => scanPower? rest
  | 'E' :: rest => scanPower? rest
  | input => some (none, input)

/-- Reads a number behind its sign, and gives what follows it. -/
def scan? (negative : Bool) (input : List Char) : Option (Numeral × List Char) := do
  let (whole, rest) := digits input
  if isWhole whole then
    let (fraction, rest) ← scanFraction? rest
    let (exponent, rest) ← scanExponent? rest
    some (⟨negative, whole, fraction, exponent⟩, rest)
  else none

theorem length_digits (input : List Char) : (digits input).2.length ≤ input.length := by
  simpa [digits] using (List.dropWhile_sublist isDigit (l := input)).length_le

theorem length_digits_of_isWhole {input : List Char} (whole : isWhole (digits input).1 = true) :
    (digits input).2.length < input.length := by
  have split := congrArg List.length (List.takeWhile_append_dropWhile (p := isDigit) (l := input))
  have some : (digits input).1.length ≠ 0 := fun none => by
    simp [List.length_eq_zero_iff.mp none, isWhole] at whole
  simp only [digits, List.length_map, List.length_append] at *
  omega

theorem scanFraction?_length {input after : List Char} {fraction : List Nat}
    (scanned : scanFraction? input = some (fraction, after)) : after.length ≤ input.length := by
  unfold scanFraction? at scanned
  split at scanned
  · rename_i rest
    split at scanned
    · simp at scanned
    · have short := length_digits rest
      simp only [Option.some.injEq] at scanned
      simp only [scanned, List.length_cons] at *
      omega
  · simp only [Option.some.injEq, Prod.mk.injEq] at scanned
    exact Nat.le_of_eq (congrArg List.length scanned.2.symm)

theorem scanPower?_length {input after : List Char} {exponent : Option Int}
    (scanned : scanPower? input = some (exponent, after)) : after.length ≤ input.length := by
  have sign : (scanSign input).2.length ≤ input.length := by
    unfold scanSign
    split <;> simp
  have short := length_digits (scanSign input).2
  simp only [scanPower?] at scanned
  split at scanned
  · simp at scanned
  · simp only [Option.some.injEq, Prod.mk.injEq] at scanned
    rw [← scanned.2]
    omega

theorem scanExponent?_length {input after : List Char} {exponent : Option Int}
    (scanned : scanExponent? input = some (exponent, after)) : after.length ≤ input.length := by
  unfold scanExponent? at scanned
  split at scanned
  · exact Nat.le_succ_of_le (scanPower?_length scanned)
  · exact Nat.le_succ_of_le (scanPower?_length scanned)
  · simp only [Option.some.injEq, Prod.mk.injEq] at scanned
    exact Nat.le_of_eq (congrArg List.length scanned.2.symm)

theorem scan?_length {negative : Bool} {input after : List Char} {numeral : Numeral}
    (scanned : scan? negative input = some (numeral, after)) : after.length < input.length := by
  simp only [scan?] at scanned
  split at scanned
  · rename_i whole
    have short := length_digits_of_isWhole whole
    simp only [Option.bind_eq_bind, Option.bind_eq_some_iff] at scanned
    obtain ⟨⟨fraction, rest⟩, fractionScanned, ⟨exponent, last⟩, exponentScanned, equal⟩ := scanned
    have := scanFraction?_length fractionScanned
    have := scanExponent?_length exponentScanned
    simp only [Option.some.injEq, Prod.mk.injEq] at equal
    rw [← equal.2]
    simp only at *
    omega
  · simp at scanned

end Numeral

/-- A token of a JSON text. -/
inductive Token
  | openList
  | closeList
  | openRecord
  | closeRecord
  | comma
  | colon
  | null
  | boolean (value : Bool)
  | numeral (value : Numeral)
  | text (value : RawText)
  deriving DecidableEq, Repr

namespace Token

/-- Whether a character may stand between tokens. -/
def isGap (char : Char) : Bool :=
  char == ' ' || char == '\t' || char == '\n' || char == '\r'

/-- Reads the token that begins with a character, and gives what follows it. -/
def next? (first : Char) (rest : List Char) : Option (Token × List Char) :=
  match first, rest with
  | '[', rest => some (.openList, rest)
  | ']', rest => some (.closeList, rest)
  | '\x7b', rest => some (.openRecord, rest)
  | '\x7d', rest => some (.closeRecord, rest)
  | ',', rest => some (.comma, rest)
  | ':', rest => some (.colon, rest)
  | 'n', 'u' :: 'l' :: 'l' :: rest => some (.null, rest)
  | 't', 'r' :: 'u' :: 'e' :: rest => some (.boolean true, rest)
  | 'f', 'a' :: 'l' :: 's' :: 'e' :: rest => some (.boolean false, rest)
  | '"', rest => (RawText.scan? rest).map fun scanned => (.text scanned.1, scanned.2)
  | '-', rest => (Numeral.scan? true rest).map fun scanned => (.numeral scanned.1, scanned.2)
  | first, rest =>
    if Numeral.isDigit first then
      (Numeral.scan? false (first :: rest)).map fun scanned => (.numeral scanned.1, scanned.2)
    else none

theorem next?_length {first : Char} {rest after : List Char} {token : Token}
    (scanned : next? first rest = some (token, after)) : after.length < (first :: rest).length := by
  unfold next? at scanned
  split at scanned
  case h_12 =>
    split at scanned
    · simp only [Option.map_eq_some_iff, Prod.mk.injEq] at scanned
      obtain ⟨_, found, _, rfl⟩ := scanned
      exact Numeral.scan?_length found
    · simp at scanned
  all_goals
    simp only [Option.some.injEq, Prod.mk.injEq, Option.map_eq_some_iff] at scanned
  case h_10 =>
    obtain ⟨_, found, _, rfl⟩ := scanned
    exact Nat.lt_succ_of_lt (RawText.scan?_length found)
  case h_11 =>
    obtain ⟨_, found, _, rfl⟩ := scanned
    exact Nat.lt_succ_of_lt (Numeral.scan?_length found)
  case h_7 | h_8 | h_9 =>
    obtain ⟨_, rfl⟩ := scanned
    simp only [List.length_cons]
    omega
  all_goals
    obtain ⟨_, rfl⟩ := scanned
    exact Nat.lt_succ_self _

end Token

end AppSchema
