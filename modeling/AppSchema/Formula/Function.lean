/-
**The functions of formulas.**

Formulas call seventeen string functions by name. Each takes one argument or two; three of them take
a count second. Some have no counterpart in SQL and can be parsed but not compiled.
-/

namespace AppSchema

/-- A string function. -/
inductive Function
  | trim
  | trimLeft
  | trimRight
  | length
  | lower
  | upper
  | capitalize
  | random
  | numberToWords
  | getDateDayOfWeekName
  | getDateMonthOfYearName
  | left
  | right
  | mid
  | regexReplace
  | extractRegex
  | replace
  deriving DecidableEq, Repr, Inhabited

/-- How a call is written in SQL. -/
inductive Rendering
  /-- `NAME(arguments)` -/
  | call (name : String)
  /-- `to_char(argument, 'format')` -/
  | dateName (format : String)
  /-- `REPLACE(text, part, '')`: every occurrence is taken out. -/
  | remove
  /-- `SUBSTRING(text FROM pattern)`: the first match. -/
  | firstMatch
  deriving DecidableEq, Repr

namespace Function

/-- Every function. -/
def all : List Function :=
  [trim, trimLeft, trimRight, length, lower, upper, capitalize, random, numberToWords,
   getDateDayOfWeekName, getDateMonthOfYearName, left, right, mid, regexReplace, extractRegex,
   replace]

theorem mem_all (function : Function) : function ∈ all := by
  cases function <;> decide

/-- The name in formulas. -/
def name : Function → String
  | trim => "trim"
  | trimLeft => "trimLeft"
  | trimRight => "trimRight"
  | length => "length"
  | lower => "lower"
  | upper => "upper"
  | capitalize => "capitalize"
  | random => "random"
  | numberToWords => "numberToWords"
  | getDateDayOfWeekName => "getDateDayOfWeekName"
  | getDateMonthOfYearName => "getDateMonthOfYearName"
  | left => "left"
  | right => "right"
  | mid => "mid"
  | regexReplace => "regexReplace"
  | extractRegex => "extractRegex"
  | replace => "replace"

/-- The function of a name. -/
def ofName? (name : String) : Option Function :=
  all.find? (·.name == name)

theorem ofName?_name (function : Function) : ofName? function.name = some function := by
  cases function <;> decide

/-- How many arguments a call has. -/
def arity : Function → Nat
  | left | right | mid | regexReplace | extractRegex | replace => 2
  | _ => 1

theorem arity_pos (function : Function) : 0 < function.arity := by
  cases function <;> decide

theorem arity_le_two (function : Function) : function.arity ≤ 2 := by
  cases function <;> decide

/-- Whether the second argument is a count or a position. -/
def takesCount : Function → Bool
  | left | right | mid => true
  | _ => false

/-- The form of a call in SQL, if it has one. -/
def rendering? : Function → Option Rendering
  | trim => some (.call "TRIM")
  | trimLeft => some (.call "LTRIM")
  | trimRight => some (.call "RTRIM")
  | length => some (.call "CHAR_LENGTH")
  | lower => some (.call "LOWER")
  | upper => some (.call "UPPER")
  | capitalize => some (.call "INITCAP")
  | left => some (.call "LEFT")
  | right => some (.call "RIGHT")
  | mid => some (.call "SUBSTRING")
  | getDateDayOfWeekName => some (.dateName "Day")
  | getDateMonthOfYearName => some (.dateName "Month")
  | replace => some .remove
  | extractRegex => some .firstMatch
  | random | numberToWords | regexReplace => none

/-- Whether a call can be compiled. -/
def isSupported (function : Function) : Bool :=
  function.rendering?.isSome

end Function

end AppSchema
