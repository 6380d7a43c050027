/-
**Names and numbers need no quotes.**

* `Ident.bare_of_isPlain`: a plain identifier has neither quotes nor semicolons;
* `Text.bare_of_isReal`, `Text.bare_of_isInteger`: nor has the spelling of a number.
-/

import AppSchema.Proofs.Ident
import AppSchema.Proofs.Sql.Sealed
import AppSchema.Proofs.Text.Numeric

namespace AppSchema

open Sql (Bare isBare)

/-! ### Identifiers -/

namespace Ident

theorem isBare_of_isTail {char : Char} (tail : isTail char = true) : isBare char = true := by
  have apart : ∀ other, isTail other = false → char ≠ other := by
    rintro other outside rfl
    rw [tail] at outside
    cases outside
  simpa [isBare] using ⟨apart '\'' rfl, apart ';' rfl⟩

/-- **A plain identifier is bare.** -/
theorem bare_of_isPlain {text : String} (plain : isPlain text = true) : Bare text := by
  have tail := List.all_eq_true.mp (all_isTail_of_isPlain plain)
  exact List.all_eq_true.mpr fun char member => isBare_of_isTail (tail char member)

end Ident

/-! ### Numbers -/

namespace Text

theorem isBare_of_isNumeric {char : Char} (numeric : isNumeric char = true) :
    isBare char = true := by
  rcases Bool.or_eq_true_iff.mp numeric with digit | mark
  · exact Ident.isBare_of_isTail (by simp [Ident.isTail, digit])
  · have each : ['+', '-', '.', 'e', 'E'].all isBare = true := by decide
    exact List.all_eq_true.mp each char (List.contains_iff_mem.mp mark)

theorem isBare_of_toLower {char : Char} (letter : char.toLower.isAlpha = true) :
    isBare char = true := by
  have apart : ∀ other : Char, other.toLower.isAlpha = false → char ≠ other := by
    rintro other outside rfl
    rw [letter] at outside
    cases outside
  simpa [isBare] using ⟨apart '\'' rfl, apart ';' rfl⟩

/-- **The spelling of a real number is bare.** -/
theorem bare_of_isReal {text : List Char} (real : isReal text = true) : text.all isBare = true := by
  refine List.all_eq_true.mpr ?_
  rcases isReal_iff.mp real with literal | ⟨signed, named⟩
  · exact fun char member => isBare_of_isNumeric (literal.isNumeric char member)
  · exact List.forall_mem_append.mpr
      ⟨fun char member => isBare_of_isNumeric (signed.isNumeric char member),
        fun char member => isBare_of_toLower ((exists_of_named named).1 char member)⟩

/-- **The spelling of an integer is bare.** -/
theorem bare_of_isInteger {text : List Char} (integer : isInteger text = true) :
    text.all isBare = true := by
  obtain ⟨sign, digits, signed, -, each, rfl⟩ :=
    isDigits_unsigned_iff.mp (Bool.and_eq_true_iff.mp integer).1
  exact List.all_eq_true.mpr (List.forall_mem_append.mpr
    ⟨fun char member => isBare_of_isNumeric (signed.isNumeric char member),
      fun char member => isBare_of_isNumeric (each.isNumeric char member)⟩)

end Text

end AppSchema
