/-
**Literals of texts, written in two ways and read in one.**

Views write the literal of a text with every quote replaced by two, and statements write it character
by character. A literal is read from the quote that opens it, two quotes in it are one of the text,
and the first single quote closes it. So the end of a literal is found whatever quotes its text
begins with, ends with or consists of, unless another quote stands right behind.

* `Sql.readInside?`, `Sql.readLiteral?`: how a literal is read;
* `Sql.readInside?_flatMap`: what is written inside of a literal is read to its end;
* `Sql.eq_of_readInside?`: nothing else is read as the same text;
* `Sql.literal_eq_replace`: a literal is the text with every quote replaced, between quotes;
* `RowValue.read_literal`: both ways of writing agree, and are read as the text.
-/

import AppSchema.Proofs.Statement.Words
import AppSchema.Proofs.Text.Replaced

namespace AppSchema

namespace Sql

/-! ### Reading -/

/-- What a literal holds behind the quote that opens it, and what stands behind the literal. Two
quotes are one of the text, and a single one closes the literal. -/
def readInside? : List Char → Option (List Char × List Char)
  | [] => none
  | '\'' :: '\'' :: rest => (readInside? rest).map fun (text, behind) => ('\'' :: text, behind)
  | '\'' :: rest => some ([], rest)
  | char :: rest => (readInside? rest).map fun (text, behind) => (char :: text, behind)

/-- The text of the literal that a source begins with, and what stands behind the literal. -/
def readLiteral? : List Char → Option (List Char × List Char)
  | '\'' :: rest => readInside? rest
  | _ => none

variable {source text behind : List Char}

/-- A quote closes a literal, unless another follows. -/
theorem readInside?_close (closed : behind.head? ≠ some '\'') :
    readInside? ('\'' :: behind) = some ([], behind) := by
  rw [readInside?]
  rintro rest rfl
  exact closed rfl

/-- **One character of a text is read**, a quote from the two that are written for it. -/
theorem readInside?_literalChar (char : Char) (rest : List Char) :
    readInside? (literalChar char ++ rest) =
      (readInside? rest).map fun (text, behind) => (char :: text, behind) := by
  by_cases quote : char = '\''
  · subst quote
    rfl
  · rw [literalChar, if_neg quote]
    show readInside? (char :: rest) = _
    rw [readInside?]
    · exact fun _ same => absurd same quote
    · exact fun same => absurd same quote

/-- **What is written inside of a literal is read to its end.** -/
theorem readInside?_flatMap (text : List Char) (closed : behind.head? ≠ some '\'') :
    readInside? (text.flatMap literalChar ++ '\'' :: behind) = some (text, behind) := by
  induction text with
  | nil => exact readInside?_close closed
  | cons char rest ih =>
    rw [List.flatMap_cons, List.append_assoc, readInside?_literalChar, ih]
    rfl

/-- **Nothing else is read as the same text.** The induction is on how the source is read. -/
theorem eq_of_readInside? (read : readInside? source = some (text, behind)) :
    source = text.flatMap literalChar ++ '\'' :: behind ∧ behind.head? ≠ some '\'' := by
  fun_induction readInside? source generalizing text with
  | case1 => cases read
  | case2 rest ih =>
    obtain ⟨⟨inner, last⟩, inside, same⟩ := Option.map_eq_some_iff.mp read
    obtain ⟨rfl, rfl⟩ := Prod.mk.inj same
    obtain ⟨rfl, closed⟩ := ih inside
    exact ⟨rfl, closed⟩
  | case3 rest single =>
    obtain ⟨rfl, rfl⟩ := Prod.mk.inj (Option.some.inj read)
    refine ⟨rfl, fun doubled => ?_⟩
    obtain ⟨later, rfl⟩ := List.head?_eq_some_iff.mp doubled
    exact single later rfl
  | case4 char rest _ noQuote ih =>
    obtain ⟨⟨inner, last⟩, inside, same⟩ := Option.map_eq_some_iff.mp read
    obtain ⟨rfl, rfl⟩ := Prod.mk.inj same
    obtain ⟨rfl, closed⟩ := ih inside
    refine ⟨?_, closed⟩
    rw [List.flatMap_cons, literalChar, if_neg noQuote]
    rfl

/-- **What is read as a text**: its literal, with anything behind it that is not a quote. -/
theorem readLiteral?_eq_some_iff : readLiteral? source = some (text, behind) ↔
    source = (literal text).toList ++ behind ∧ behind.head? ≠ some '\'' := by
  rw [toList_literal, List.cons_append, List.append_assoc]
  constructor
  · intro read
    cases source with
    | nil => cases read
    | cons first rest =>
      by_cases quote : first = '\''
      · subst quote
        obtain ⟨rfl, closed⟩ := eq_of_readInside? read
        exact ⟨rfl, closed⟩
      · rw [readLiteral?] at read
        · cases read
        · exact fun _ same => absurd (List.cons.inj same).1 quote
  · rintro ⟨rfl, closed⟩
    exact readInside?_flatMap text closed

/-- The text is two quotes. -/
example : readLiteral? "'''''' || x".toList = some ("''".toList, " || x".toList) := by rfl

/-! ### Writing -/

/-- **A literal is its text with every quote replaced by two, between quotes.** -/
theorem literal_eq_replace (text : String) :
    literal text.toList = "'" ++ text.replace '\'' "''" ++ "'" := by
  refine String.toList_inj.mp ?_
  have chars : Text.replacedChar '\'' "''" = literalChar := rfl
  rw [toList_literal, String.toList_append, String.toList_append, Text.toList_replace, chars]
  rfl

end Sql

/-- **Both ways of writing the literal of a text agree, and it is read as the text.** Replacing every
quote in the text gives the same as going through it character by character. A source is read as the
text, with something behind, exactly if it begins with the literal and has that behind it, and no
quote comes next. -/
theorem RowValue.read_literal (text : String) :
    Sql.literal text.toList = "'" ++ text.replace '\'' "''" ++ "'" ∧
      RowValue.literal text = Sql.literal text.toList ∧
      ∀ source behind, Sql.readLiteral? source = some (text.toList, behind) ↔
        source = (RowValue.literal text).toList ++ behind ∧ behind.head? ≠ some '\'' := by
  refine ⟨Sql.literal_eq_replace text, literal_eq text, fun source behind => ?_⟩
  rw [literal_eq]
  exact Sql.readLiteral?_eq_some_iff

end AppSchema
