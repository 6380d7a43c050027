/-
**Blank characters and trimming.**

A character is blank when it has the Unicode property White_Space. Trimming drops the blanks at one
end of a text or at both.

* `Text.isBlank_iff`: blank characters are those in the ranges of the class.
-/

import AppSchema.Text.Class

namespace AppSchema.Text

/-- The code points with the property White_Space. -/
def blankRanges : Ranges :=
  [(0x9, 0xD), (0x20, 0x20), (0x85, 0x85), (0xA0, 0xA0), (0x1680, 0x1680), (0x2000, 0x200A),
   (0x2028, 0x2029), (0x202F, 0x202F), (0x205F, 0x205F), (0x3000, 0x3000)]

/-- Whether a character is blank. -/
def isBlank (char : Char) : Bool :=
  inRanges char.toNat blankRanges

theorem isBlank_iff {char : Char} :
    isBlank char = true ↔ ∃ range ∈ blankRanges, range.1 ≤ char.toNat ∧ char.toNat ≤ range.2 := by
  have ascending : ascends 0 blankRanges = true := by decide
  exact inRanges_iff ascending

/-- Drops the blanks at the start. -/
def trimStart (text : List Char) : List Char :=
  text.dropWhile isBlank

/-- Drops the blanks at the end. -/
def trimEnd (text : List Char) : List Char :=
  (text.reverse.dropWhile isBlank).reverse

/-- Drops the blanks at both ends. -/
def trim (text : List Char) : List Char :=
  trimEnd (trimStart text)

end AppSchema.Text
