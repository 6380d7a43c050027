/-
**Numeric literals.**

SQL takes a number for one if it is written with digits. Real numbers may also be written as one of
three names, which SQL takes for the names of columns.

* `Text.NumericLiteral`: a sign or none, digits with at most one point among them, an exponent or
  none;
* `Text.NamedNumber`: a sign or none, and one of the names, in any case;
* `Text.isReal_iff`: a real number is written in one of the two ways;
* `Text.NamedNumber.not_literal`: and never in both.
-/

import AppSchema.Text.Numeric
import Mathlib.Data.List.TakeWhile

namespace AppSchema.Text

/-- Digits, if any. -/
def Digits (text : List Char) : Prop :=
  ∀ char ∈ text, char.isDigit = true

/-- A sign, or none. -/
inductive Sign : List Char → Prop
  | none : Sign []
  | plus : Sign ['+']
  | minus : Sign ['-']

/-- Digits with at most one point among them, and at least one digit. -/
inductive Decimal : List Char → Prop
  | whole {digits : List Char} : digits ≠ [] → Digits digits → Decimal digits
  | pointed {whole fraction : List Char} : Digits whole → Digits fraction →
    whole ≠ [] ∨ fraction ≠ [] → Decimal (whole ++ '.' :: fraction)

/-- An exponent, or none. -/
inductive Exponent : List Char → Prop
  | none : Exponent []
  | some {mark : Char} {sign digits : List Char} : mark = 'e' ∨ mark = 'E' → Sign sign →
    digits ≠ [] → Digits digits → Exponent (mark :: (sign ++ digits))

/-- **A numeric literal of SQL.** -/
inductive NumericLiteral : List Char → Prop
  | mk {sign decimal exponent : List Char} : Sign sign → Decimal decimal → Exponent exponent →
    NumericLiteral (sign ++ (decimal ++ exponent))

/-- **A number that is written as a name.** -/
inductive NamedNumber : List Char → Prop
  | mk {sign name : List Char} : Sign sign →
    String.ofList (name.map Char.toLower) ∈ namedNumbers → NamedNumber (sign ++ name)

/-! ### Signs -/

theorem exists_sign (text : List Char) : ∃ sign, Sign sign ∧ text = sign ++ unsigned text := by
  unfold unsigned
  split
  · exact ⟨_, .plus, rfl⟩
  · exact ⟨_, .minus, rfl⟩
  · exact ⟨_, .none, rfl⟩

/-- What does not begin with a sign is left of a text with one. -/
theorem unsigned_append {sign rest : List Char} (signed : Sign sign)
    (bare : ∀ char ∈ rest.head?, char ≠ '+' ∧ char ≠ '-') : unsigned (sign ++ rest) = rest := by
  cases signed with
  | plus => rfl
  | minus => rfl
  | none =>
    cases rest with
    | nil => rfl
    | cons char rest =>
      obtain ⟨notPlus, notMinus⟩ := bare char rfl
      rw [List.nil_append, unsigned]
      · exact fun _ same => notPlus (List.cons.inj same).1
      · exact fun _ same => notMinus (List.cons.inj same).1

theorem isDigit_head {digits : List Char} (each : Digits digits) {char : Char}
    (first : char ∈ digits.head?) : char.isDigit = true :=
  each char (List.mem_of_mem_head? first)

theorem no_sign_of_isDigit {char : Char} (digit : char.isDigit = true) :
    char ≠ '+' ∧ char ≠ '-' := by
  constructor <;> rintro rfl <;> cases digit

/-! ### Digits and exponents -/

theorem isDigits_iff {text : List Char} : isDigits text = true ↔ text ≠ [] ∧ Digits text := by
  simp [isDigits, Digits]

theorem takeWhile_digits {digits rest : List Char} (each : Digits digits)
    (other : ∀ char ∈ rest.head?, char.isDigit = false) :
    (digits ++ rest).takeWhile Char.isDigit = digits := by
  rw [List.takeWhile_append_of_pos each]
  cases rest with
  | nil => rw [List.takeWhile_nil, List.append_nil]
  | cons char rest =>
    rw [List.takeWhile_cons_of_neg (by simp [other char rfl]), List.append_nil]

theorem dropWhile_digits {digits rest : List Char} (each : Digits digits)
    (other : ∀ char ∈ rest.head?, char.isDigit = false) :
    (digits ++ rest).dropWhile Char.isDigit = rest := by
  rw [List.dropWhile_append_of_pos each]
  cases rest with
  | nil => rfl
  | cons char rest => rw [List.dropWhile_cons_of_neg (by simp [other char rfl])]

theorem isDigits_unsigned_iff {text : List Char} : isDigits (unsigned text) = true ↔
    ∃ sign digits, Sign sign ∧ digits ≠ [] ∧ Digits digits ∧ text = sign ++ digits := by
  constructor
  · intro digits
    obtain ⟨some, each⟩ := isDigits_iff.mp digits
    obtain ⟨sign, signed, split⟩ := exists_sign text
    exact ⟨sign, _, signed, some, each, split⟩
  · rintro ⟨sign, digits, signed, some, each, rfl⟩
    rw [unsigned_append signed fun char first => no_sign_of_isDigit (isDigit_head each first)]
    exact isDigits_iff.mpr ⟨some, each⟩

theorem isExponent_iff {text : List Char} : isExponent text = true ↔ Exponent text := by
  constructor
  · intro exponent
    unfold isExponent at exponent
    split at exponent
    · exact .none
    · obtain ⟨sign, digits, signed, some, each, rfl⟩ := isDigits_unsigned_iff.mp exponent
      exact .some (.inl rfl) signed some each
    · obtain ⟨sign, digits, signed, some, each, rfl⟩ := isDigits_unsigned_iff.mp exponent
      exact .some (.inr rfl) signed some each
    · cases exponent
  · rintro (_ | ⟨mark, signed, some, each⟩)
    · rfl
    · rcases mark with rfl | rfl
      · exact isDigits_unsigned_iff.mpr ⟨_, _, signed, some, each, rfl⟩
      · exact isDigits_unsigned_iff.mpr ⟨_, _, signed, some, each, rfl⟩

theorem Exponent.head {text : List Char} (exponent : Exponent text) {char : Char}
    (first : char ∈ text.head?) : char = 'e' ∨ char = 'E' := by
  cases exponent with
  | none => cases first
  | some mark => exact Option.mem_some.mp first ▸ mark

theorem Exponent.no_digit {text : List Char} (exponent : Exponent text) :
    ∀ char ∈ text.head?, char.isDigit = false := by
  intro char first
  rcases exponent.head first with rfl | rfl <;> rfl

/-! ### Numbers -/

/-- A text that does not begin with a point ends a number if it is an exponent. -/
theorem endsNumber_of_no_point {some : Bool} {text : List Char}
    (other : ∀ char ∈ text.head?, char ≠ '.') :
    endsNumber some text = (some && isExponent text) := by
  unfold endsNumber
  split
  · exact absurd rfl (other '.' rfl)
  · rfl

/-- **A number without a sign** is a decimal and an exponent. -/
theorem isNumber_iff {text : List Char} : isNumber text = true ↔
    ∃ decimal exponent, Decimal decimal ∧ Exponent exponent ∧ text = decimal ++ exponent := by
  constructor
  · intro number
    have each : Digits (text.takeWhile Char.isDigit) := fun _ => List.mem_takeWhile_imp
    have split := List.takeWhile_append_dropWhile (p := Char.isDigit) (l := text)
    unfold isNumber endsNumber at number
    split at number
    · next rest same =>
      have eachRest : Digits (rest.takeWhile Char.isDigit) := fun _ => List.mem_takeWhile_imp
      obtain ⟨some, exponent⟩ := Bool.and_eq_true_iff.mp number
      refine ⟨_, _, .pointed each eachRest (by simpa using some), isExponent_iff.mp exponent, ?_⟩
      rw [List.append_assoc, List.cons_append, List.takeWhile_append_dropWhile, ← same, split]
    · obtain ⟨some, exponent⟩ := Bool.and_eq_true_iff.mp number
      exact ⟨_, _, .whole (by simpa using some) each, isExponent_iff.mp exponent, split.symm⟩
  · rintro ⟨decimal, exponent, digits, powers, rfl⟩
    unfold isNumber
    cases digits with
    | whole some each =>
      rw [takeWhile_digits each powers.no_digit, dropWhile_digits each powers.no_digit,
        endsNumber_of_no_point fun char first => ?_, isExponent_iff.mpr powers]
      · simpa using some
      · rcases powers.head first with rfl | rfl <;> decide
    | @pointed whole fraction eachWhole each some =>
      have point : ∀ char ∈ ('.' :: (fraction ++ exponent)).head?, char.isDigit = false := by
        rintro _ ⟨⟩
        rfl
      rw [List.append_assoc, List.cons_append, takeWhile_digits eachWhole point,
        dropWhile_digits eachWhole point, endsNumber, takeWhile_digits each powers.no_digit,
        dropWhile_digits each powers.no_digit, isExponent_iff.mpr powers]
      simpa using some

/-- A decimal begins with a digit or with the point. -/
theorem Decimal.head {text rest : List Char} (decimal : Decimal text) {char : Char}
    (first : char ∈ (text ++ rest).head?) : char.isDigit = true ∨ char = '.' := by
  cases decimal with
  | whole some each =>
    obtain ⟨digit, digits, rfl⟩ := List.exists_cons_of_ne_nil some
    obtain rfl := Option.some.inj first
    exact .inl (each digit List.mem_cons_self)
  | @pointed whole fraction each _ _ =>
    cases whole with
    | nil =>
      cases first
      exact .inr rfl
    | cons digit digits =>
      obtain rfl := Option.some.inj first
      exact .inl (each digit List.mem_cons_self)

/-- The names have letters only, and one of them is `n`. -/
theorem exists_of_named {name : List Char}
    (named : String.ofList (name.map Char.toLower) ∈ namedNumbers) :
    (∀ char ∈ name, char.toLower.isAlpha = true) ∧ ∃ char ∈ name, char.toLower = 'n' := by
  have letters : ∀ name ∈ namedNumbers, name.toList.all Char.isAlpha = true := by decide
  have some : ∀ name ∈ namedNumbers, 'n' ∈ name.toList := by decide
  have all := letters _ named
  have one := some _ named
  rw [String.toList_ofList] at all one
  exact ⟨fun char member => List.all_eq_true.mp all _ (List.mem_map_of_mem member),
    List.mem_map.mp one⟩

theorem no_sign_of_named {name : List Char}
    (named : String.ofList (name.map Char.toLower) ∈ namedNumbers) :
    ∀ char ∈ name.head?, char ≠ '+' ∧ char ≠ '-' := by
  intro char first
  have letter := (exists_of_named named).1 char (List.mem_of_mem_head? first)
  constructor <;> rintro rfl <;> cases letter

/-- **A real number is a numeric literal or is written as a name.** -/
theorem isReal_iff {text : List Char} :
    isReal text = true ↔ NumericLiteral text ∨ NamedNumber text := by
  constructor
  · intro real
    obtain ⟨sign, signed, split⟩ := exists_sign text
    rw [split]
    rcases Bool.or_eq_true_iff.mp real with number | named
    · obtain ⟨decimal, exponent, digits, powers, same⟩ := isNumber_iff.mp number
      rw [same]
      exact .inl ⟨signed, digits, powers⟩
    · exact .inr ⟨signed, List.contains_iff_mem.mp named⟩
  · rintro (⟨signed, digits, powers⟩ | ⟨signed, named⟩)
    · have number := isNumber_iff.mpr ⟨_, _, digits, powers, rfl⟩
      refine Bool.or_eq_true_iff.mpr (.inl ?_)
      rwa [unsigned_append signed fun char first => ?_]
      rcases digits.head first with digit | rfl
      · exact no_sign_of_isDigit digit
      · decide
    · refine Bool.or_eq_true_iff.mpr (.inr ?_)
      rw [unsigned_append signed (no_sign_of_named named)]
      exact List.contains_iff_mem.mpr named

/-! ### Characters -/

/-- Whether a character may stand in a numeric literal. -/
def isNumeric (char : Char) : Bool :=
  char.isDigit || ['+', '-', '.', 'e', 'E'].contains char

theorem Digits.isNumeric {digits : List Char} (each : Digits digits) :
    ∀ char ∈ digits, isNumeric char = true := by
  intro char member
  rw [Text.isNumeric, each char member, Bool.true_or]

theorem Sign.isNumeric {sign : List Char} (signed : Sign sign) :
    ∀ char ∈ sign, isNumeric char = true := by
  cases signed <;> simp [Text.isNumeric]

theorem NumericLiteral.isNumeric {text : List Char} (literal : NumericLiteral text) :
    ∀ char ∈ text, isNumeric char = true := by
  obtain ⟨signed, decimal, exponent⟩ := literal
  refine List.forall_mem_append.mpr ⟨signed.isNumeric, List.forall_mem_append.mpr ⟨?_, ?_⟩⟩
  · cases decimal with
    | whole _ each => exact each.isNumeric
    | pointed whole fraction =>
      exact List.forall_mem_append.mpr
        ⟨whole.isNumeric, List.forall_mem_cons.mpr ⟨rfl, fraction.isNumeric⟩⟩
  · cases exponent with
    | none => exact fun _ member => absurd member List.not_mem_nil
    | some mark signed _ each =>
      refine List.forall_mem_cons.mpr
        ⟨?_, List.forall_mem_append.mpr ⟨signed.isNumeric, each.isNumeric⟩⟩
      rcases mark with rfl | rfl <;> rfl

theorem toLower_ne_of_isNumeric {char : Char} (numeric : isNumeric char = true) :
    char.toLower ≠ 'n' := by
  rcases Bool.or_eq_true_iff.mp numeric with digit | mark
  · have below : '9'.toNat < 'A'.toNat := by decide
    have small : ¬ (char.val ≥ 'A'.val ∧ char.val ≤ 'Z'.val) := by
      simp only [Char.isDigit, Bool.and_eq_true, decide_eq_true_eq, ge_iff_le,
        UInt32.le_iff_toNat_le] at digit ⊢
      simp only [Char.toNat] at below
      omega
    have same : char.toLower = char := dif_neg small
    rw [same]
    rintro rfl
    cases digit
  · have each : ['+', '-', '.', 'e', 'E'].all (fun mark => mark.toLower != 'n') = true := by
      decide
    exact bne_iff_ne.mp (List.all_eq_true.mp each char (List.contains_iff_mem.mp mark))

/-- **A number that is written as a name has a letter** that no numeric literal has. -/
theorem NamedNumber.exists_not_isNumeric {text : List Char} (named : NamedNumber text) :
    ∃ char ∈ text, isNumeric char = false := by
  obtain ⟨_, named⟩ := named
  obtain ⟨char, member, lower⟩ := (exists_of_named named).2
  refine ⟨char, List.mem_append_right _ member, ?_⟩
  exact Bool.eq_false_iff.mpr fun numeric => toLower_ne_of_isNumeric numeric lower

/-- **A name is no numeric literal.** -/
theorem NamedNumber.not_literal {text : List Char} (named : NamedNumber text) :
    ¬ NumericLiteral text := by
  obtain ⟨char, member, other⟩ := named.exists_not_isNumeric
  intro literal
  rw [literal.isNumeric char member] at other
  cases other

end AppSchema.Text
