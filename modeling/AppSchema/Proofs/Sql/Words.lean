/-
**Expressions whose literals are closed.**

What an expression writes are the words that it has, the texts of its literals, and fixed SQL.

* `Expr.words`: the words of an expression, names and numbers; `Expr.literals`: what stands in its
  literals;
* `Expr.sealed_sql`: an expression of bare words is written as a sealed text;
* `Function.bare_apply`, `Formula.bare_single`: what formulas make of expressions of bare words.
-/

import AppSchema.Formula.Expression
import AppSchema.Proofs.Sql.Sealed

namespace AppSchema

namespace Sql

/-! ### Words and literals -/

/-- Words without quotes and semicolons. -/
def AllBare (words : List String) : Prop :=
  ∀ word ∈ words, Bare word

@[simp] theorem allBare_nil : AllBare [] := by
  simp [AllBare]

@[simp] theorem allBare_cons {word : String} {words : List String} :
    AllBare (word :: words) ↔ Bare word ∧ AllBare words := by
  simp [AllBare]

@[simp] theorem allBare_append {first second : List String} :
    AllBare (first ++ second) ↔ AllBare first ∧ AllBare second := by
  simp [AllBare, or_imp, forall_and]

@[simp] theorem allBare_flatMap {α : Type} {elements : List α} {words : α → List String} :
    AllBare (elements.flatMap words) ↔ ∀ element ∈ elements, AllBare (words element) := by
  simp only [AllBare, List.mem_flatMap]
  exact ⟨fun all element member word inside => all word ⟨element, member, inside⟩,
    fun all word ⟨element, member, inside⟩ => all element member word inside⟩

/-- The words of a column. -/
def ColumnRef.words (ref : ColumnRef) : List String :=
  [ref.qualifier, ref.column]

/-- The words of a condition. -/
def Condition.words : Condition → List String
  | raw sql => [sql]
  | equal left right => left.words ++ right.words
  | member left array => left.words ++ array.words
  | both first second => first.words ++ second.words

/-- The words of a source. -/
def FromItem.words (source : FromItem) : List String :=
  source.relation :: source.aliasName.toList

/-- The words of a filter. -/
def Filter.words : Filter → List String
  | onlyIf condition => condition.words
  | through association condition => association :: condition.words

/-- The words of rows. -/
def Rows.words (rows : Rows) : List String :=
  rows.source.words ++ rows.filter.words

/-- What stands in the literals of a summary. -/
def Summary.literals : Summary → List (List Char)
  | aggregate _ => []
  | joined => [", ".toList]

namespace Expr

mutual

/-- The words of an expression. -/
def words : Expr → List String
  | .raw sql => [sql]
  | .literal _ => []
  | .column ref => ref.words
  | .concat parts => wordsEach parts
  | .call name arguments => name :: wordsEach arguments
  | .dateName date format => format :: date.words
  | .remove text part => text.words ++ part.words
  | .firstMatch text pattern => text.words ++ pattern.words
  | .summary _ ref rows => ref.words ++ rows.words

/-- The words of several expressions. -/
def wordsEach : List Expr → List String
  | [] => []
  | first :: rest => first.words ++ wordsEach rest

end

mutual

/-- What stands in the literals of an expression. -/
def literals : Expr → List (List Char)
  | .raw _ => []
  | .literal text => [text]
  | .column _ => []
  | .concat [] => [[]]
  | .concat (first :: rest) => first.literals ++ literalsEach rest
  | .call _ arguments => literalsEach arguments
  | .dateName date format => date.literals ++ [format.toList]
  | .remove text part => text.literals ++ part.literals ++ [[]]
  | .firstMatch text pattern => text.literals ++ pattern.literals
  | .summary kind _ _ => kind.literals

/-- What stands in the literals of several expressions. -/
def literalsEach : List Expr → List (List Char)
  | [] => []
  | first :: rest => first.literals ++ literalsEach rest

end

theorem allBare_wordsEach {exprs : List Expr} :
    AllBare (wordsEach exprs) ↔ ∀ expr ∈ exprs, AllBare expr.words := by
  induction exprs with
  | nil => simp [wordsEach]
  | cons first rest ih => simp [wordsEach, ih]

end Expr

/-! ### Writing bare words -/

theorem ColumnRef.bare_sql {ref : ColumnRef} (bare : AllBare ref.words) : Bare ref.sql := by
  rw [words, allBare_cons, allBare_cons] at bare
  exact .append (.append bare.1 rfl) bare.2.1

theorem Condition.bare_sql {condition : Condition} (bare : AllBare condition.words) :
    Bare condition.sql := by
  induction condition with
  | raw sql => exact (allBare_cons.mp bare).1
  | equal left right =>
    obtain ⟨here, there⟩ := allBare_append.mp bare
    exact .append (.append (left.bare_sql here) rfl) (right.bare_sql there)
  | member left array =>
    obtain ⟨here, there⟩ := allBare_append.mp bare
    exact .append (.append (.append (left.bare_sql here) rfl) (array.bare_sql there)) rfl
  | both first second firstBare secondBare =>
    obtain ⟨here, there⟩ := allBare_append.mp bare
    exact .append (.append (firstBare here) rfl) (secondBare there)

theorem FromItem.bare_sql {source : FromItem} (bare : AllBare source.words) : Bare source.sql := by
  obtain ⟨relation, aliased⟩ := allBare_cons.mp bare
  unfold sql
  cases name : source.aliasName with
  | none => exact relation
  | some other =>
    rw [name, Option.toList_some, allBare_cons] at aliased
    exact .append (.append relation rfl) aliased.1

theorem Rows.bare_sql {rows : Rows} (bare : AllBare rows.words) : Bare rows.sql := by
  obtain ⟨source, filter⟩ := allBare_append.mp bare
  refine .append (.append rfl (rows.source.bare_sql source)) ?_
  cases picked : rows.filter with
  | onlyIf condition =>
    rw [picked] at filter
    exact .append rfl (condition.bare_sql filter)
  | through association condition =>
    rw [picked] at filter
    obtain ⟨named, holds⟩ := allBare_cons.mp filter
    exact .append (.append (.append rfl named) rfl) (condition.bare_sql holds)

/-! ### Writing expressions -/

theorem literal_of_bare {text : String} (bare : Bare text) :
    literal text.toList = "'" ++ text ++ "'" := by
  have same : text.toList.flatMap literalChar = text.toList := by
    unfold Bare at bare
    generalize text.toList = chars at bare
    induction chars with
    | nil => rfl
    | cons char rest ih =>
      rw [List.all_cons, Bool.and_eq_true] at bare
      obtain ⟨noQuote, _⟩ : char ≠ '\'' ∧ char ≠ ';' := by simpa [isBare] using bare.1
      rw [List.flatMap_cons, literalChar, if_neg noQuote, ih bare.2]
      rfl
  refine String.toList_inj.mp ?_
  rw [toList_literal, same]
  simp

theorem Summary.sealed_sql {ref : ColumnRef} (bare : AllBare ref.words) (summary : Summary) :
    Sealed (summary.sql ref) summary.literals := by
  cases summary with
  | aggregate method =>
    refine .bare (.append (.append (.append ?_ rfl) (ref.bare_sql bare)) rfl)
    cases method <;> rfl
  | joined =>
    have front := (Sealed.bare (ref.bare_sql bare)).bare_append (show Bare "STRING_AGG(" from rfl)
    have joined := front.join (show Bare "::text, " from rfl) (by decide) (.literal ", ".toList)
    have written := joined.append_bare (show Bare ")" from rfl)
    rw [literal_of_bare (show Bare ", " from rfl)] at written
    simpa [sql, literals, String.append_assoc] using written

namespace Expr

mutual

/-- **An expression of bare words is written as a sealed text**, with what stands in its
literals. -/
theorem sealed_sql : ∀ expr : Expr, AllBare expr.words → Sealed expr.sql expr.literals
  | .raw sql, bare => by
    rw [words, allBare_cons] at bare
    rw [Expr.sql]
    exact .bare bare.1
  | .literal text, _ => by
    rw [Expr.sql, literals]
    exact .literal text
  | .column ref, bare => by
    rw [words] at bare
    rw [Expr.sql]
    exact .bare (ref.bare_sql bare)
  | .concat [], _ => by
    rw [Expr.sql, literals]
    exact .literal []
  | .concat (first :: rest), bare => by
    rw [words] at bare
    have each := sealed_sqlEach (first :: rest) bare
    rw [Expr.sql]
    exact (each.bare_append (show Bare "CONCAT(" from rfl)).append_bare (show Bare ")" from rfl)
  | .call name arguments, bare => by
    rw [words, allBare_cons] at bare
    have each := sealed_sqlEach arguments bare.2
    have named : Bare (name ++ "(") := bare.1.append rfl
    rw [Expr.sql]
    exact (each.bare_append named).append_bare (show Bare ")" from rfl)
  | .dateName date format, bare => by
    rw [words, allBare_cons] at bare
    have front := (date.sealed_sql bare.2).bare_append (show Bare "to_char(" from rfl)
    have joined := front.join (show Bare ", " from rfl) (by decide) (.literal format.toList)
    have written := joined.append_bare (show Bare ")" from rfl)
    rw [literal_of_bare bare.1] at written
    rw [Expr.sql, literals, show ", '" = ", " ++ "'" from rfl, show "')" = "'" ++ ")" from rfl]
    simpa only [String.append_assoc] using written
  | .remove text part, bare => by
    rw [words, allBare_append] at bare
    have front := (text.sealed_sql bare.1).bare_append (show Bare "REPLACE(" from rfl)
    have joined := front.join (show Bare ", " from rfl) (by decide) (part.sealed_sql bare.2)
    have emptied := joined.join (show Bare ", " from rfl) (by decide) (.literal [])
    have written := emptied.append_bare (show Bare ")" from rfl)
    rw [Expr.sql, literals, show ", '')" = ", " ++ (Sql.literal [] ++ ")") from rfl]
    simpa only [String.append_assoc] using written
  | .firstMatch text pattern, bare => by
    rw [words, allBare_append] at bare
    have front := (text.sealed_sql bare.1).bare_append (show Bare "SUBSTRING(" from rfl)
    have joined := front.join (show Bare " FROM " from rfl) (by decide) (pattern.sealed_sql bare.2)
    rw [Expr.sql, literals]
    exact joined.append_bare (show Bare ")" from rfl)
  | .summary kind ref rows, bare => by
    rw [words, allBare_append] at bare
    have front := (kind.sealed_sql bare.1).bare_append (show Bare "(SELECT " from rfl)
    have spaced := front.append_bare (show Bare " " from rfl)
    rw [Expr.sql, literals]
    exact (spaced.append_bare (rows.bare_sql bare.2)).append_bare (show Bare ")" from rfl)

/-- Several expressions with commas between them. -/
theorem sealed_sqlEach : ∀ exprs : List Expr, AllBare (wordsEach exprs) →
    Sealed (String.intercalate ", " (sqlEach exprs)) (literalsEach exprs)
  | [], _ => .empty
  | [expr], bare => by
    rw [wordsEach, allBare_append] at bare
    have alone := expr.sealed_sql bare.1
    simpa [sqlEach, literalsEach] using alone
  | first :: second :: rest, bare => by
    rw [wordsEach, allBare_append] at bare
    have here := first.sealed_sql bare.1
    have others := sealed_sqlEach (second :: rest) bare.2
    rw [sqlEach, literalsEach, sqlEach, String.intercalate_cons_cons]
    exact here.join rfl (by decide) others

end

end Expr

end Sql

/-! ### What formulas make of expressions -/

open Sql (AllBare Bare Expr)

/-- The words of a rendering. -/
def Rendering.words : Rendering → List String
  | call name => [name]
  | dateName format => [format]
  | remove => []
  | firstMatch => []

theorem Function.bare_rendering {function : Function} {rendering : Rendering}
    (rendered : function.rendering? = some rendering) : AllBare rendering.words := by
  cases function <;> cases rendered <;> simp [Rendering.words, Bare, Sql.isBare]

/-- **A call of bare words**, if its arguments are. -/
theorem Function.bare_apply {function : Function} {arguments : List Expr} {expr : Expr}
    (applied : function.apply arguments = .ok expr)
    (bare : ∀ argument ∈ arguments, AllBare argument.words) : AllBare expr.words := by
  have ofArgument : ∀ position, AllBare (arguments.getD position (.concat [])).words := by
    intro position
    rw [List.getD_eq_getElem?_getD]
    cases found : arguments[position]? with
    | none => simp [Expr.words, Expr.wordsEach]
    | some argument => exact bare argument (List.mem_of_getElem? found)
  unfold Function.apply at applied
  cases rendered : function.rendering? with
  | none => simp [rendered] at applied
  | some rendering =>
    have fixed := bare_rendering rendered
    simp only [rendered] at applied
    cases rendering with
    | call name =>
      cases applied
      rw [Expr.words, Sql.allBare_cons, Expr.allBare_wordsEach]
      exact ⟨(Sql.allBare_cons.mp fixed).1, bare⟩
    | dateName format =>
      cases applied
      rw [Expr.words, Sql.allBare_cons]
      exact ⟨(Sql.allBare_cons.mp fixed).1, ofArgument 0⟩
    | remove =>
      cases applied
      rw [Expr.words, Sql.allBare_append]
      exact ⟨ofArgument 0, ofArgument 1⟩
    | firstMatch =>
      cases applied
      rw [Expr.words, Sql.allBare_append]
      exact ⟨ofArgument 0, ofArgument 1⟩

/-- One expression for several of bare words. -/
theorem Formula.bare_single {parts : List Expr} (bare : ∀ part ∈ parts, AllBare part.words) :
    AllBare (single parts).words := by
  unfold single
  split
  · next part => exact bare part (List.mem_singleton_self part)
  · rw [Expr.words]
    exact Expr.allBare_wordsEach.mpr bare

end AppSchema
