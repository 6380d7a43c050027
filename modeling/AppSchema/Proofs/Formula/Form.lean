/-
**How the calls of functions are written.**

A call is written as a call of SQL: under a name, with something between its arguments, and with
literals behind them. Two functions may share a name, such as those of the parts of a date, but then
they differ in what else is written, and take as many arguments.

* `Expr.Writes`: an expression is written as a term;
* `Function.form`: how the calls of a function are written; `Function.form_injective`: no two
  functions are written alike;
* `Function.term`: the term of a call; `Function.term_injective`: it tells the function and the
  arguments;
* `Function.writes_apply`: a call is written as its term.
-/

import AppSchema.Formula.Expression
import AppSchema.Proofs.Sql.Term
import Mathlib.Data.List.Forall2

namespace AppSchema

open Sql (Expr Joint Term Others isLetter)

/-! ### Expressions of several parts -/

namespace Sql

/-- **An expression is written as a term.** -/
def Expr.Writes (expr : Expr) (term : Term) : Prop :=
  expr.sql.toList = term.text

theorem writes_literal (chars : List Char) : (Expr.literal chars).Writes (.literal chars) := by
  rw [Expr.Writes, Expr.sql, toList_literal]
  rfl

theorem text_arguments {exprs : List Expr} {terms : List Term}
    (written : List.Forall₂ Expr.Writes exprs terms) {first : Expr} {term : Term}
    (here : first.Writes term) :
    (String.intercalate ", " (first.sql :: Expr.sqlEach exprs)).toList ++ [')'] =
      term.text ++ (Others.ofList .comma terms).text := by
  induction written generalizing first term with
  | nil =>
    rw [Expr.sqlEach, String.intercalate_singleton, here]
    rfl
  | cons next _ ih =>
    rw [Expr.sqlEach, String.intercalate_cons_cons, String.toList_append, String.toList_append,
      List.append_assoc, ih next, here, List.append_assoc]
    rfl

theorem writes_concat {exprs : List Expr} {terms : List Term}
    (written : List.Forall₂ Expr.Writes exprs terms) :
    (Expr.concat exprs).Writes (.concat terms) := by
  cases written with
  | nil =>
    rw [Expr.Writes, Expr.sql]
    rfl
  | cons here others =>
    rw [Expr.Writes, Expr.sql, String.toList_append, String.toList_append, List.append_assoc]
    exact congrArg ("CONCAT(".toList ++ ·) (text_arguments others here)

theorem writes_single {exprs : List Expr} {terms : List Term}
    (written : List.Forall₂ Expr.Writes exprs terms) :
    (Formula.single exprs).Writes (.single terms) := by
  match written with
  | .nil => exact writes_concat .nil
  | .cons here .nil => exact here
  | .cons here (.cons next others) => exact writes_concat (.cons here (.cons next others))

end Sql

open Sql

/-! ### Functions -/

namespace Function

/-- How the calls of a function are written: a name, what stands between the arguments, and literals
behind them. -/
@[ext]
structure Form where
  name : String
  joint : Joint
  behind : List (List Char)
  deriving DecidableEq

/-- The form of a function. One that has no form in SQL keeps its name. -/
def form (function : Function) : Form :=
  match function.rendering? with
  | some (.call name) => ⟨name, .comma, []⟩
  | some (.dateName format) => ⟨"to_char", .comma, [format.toList]⟩
  | some .remove => ⟨"REPLACE", .comma, [[]]⟩
  | some .firstMatch => ⟨"SUBSTRING", .pattern, []⟩
  | none => ⟨function.name, .comma, []⟩

/-- **No two functions are written alike.** -/
theorem form_injective {function other : Function} (same : function.form = other.form) :
    function = other := by
  have apart : ∀ function ∈ all, ∀ other ∈ all, function.form = other.form → function = other := by
    decide +kernel
  exact apart function (mem_all function) other (mem_all other) same

/-- Functions of one name have as many arguments, and commas between them if these are one. -/
theorem eq_of_formName {function other : Function} (same : function.form.name = other.form.name) :
    function.arity = other.arity ∧
      (function.arity = 1 → function.form.joint = other.form.joint) := by
  have alike : ∀ function ∈ all, ∀ other ∈ all, function.form.name = other.form.name →
      function.arity = other.arity ∧
        (function.arity = 1 → function.form.joint = other.form.joint) := by
    decide +kernel
  exact alike function (mem_all function) other (mem_all other) same

theorem isLetter_formName (function : Function) :
    function.form.name.toList.all isLetter = true := by
  cases function <;> decide

theorem formName_ne_concat (function : Function) : function.form.name ≠ "CONCAT" := by
  cases function <;> decide

/-- **The term of a call.** -/
def term (function : Function) (arguments : List Term) : Term :=
  .call function.form.name.toList (arguments.headD (.literal []))
    (.ofList function.form.joint (arguments.tail ++ function.form.behind.map .literal))

theorem not_isConcat_term (function : Function) (arguments : List Term) :
    ¬ (function.term arguments).IsConcat := by
  rintro ⟨first, others, same⟩
  have named := (Term.call.inj same).1
  exact function.formName_ne_concat (String.toList_inj.mp named)

theorem readable_term (function : Function) {arguments : List Term}
    (readable : ∀ term ∈ arguments, term.Readable) : (function.term arguments).Readable := by
  refine ⟨function.isLetter_formName, ?_, Others.readable_ofList ?_⟩
  · cases arguments with
    | nil => trivial
    | cons first rest => exact readable first List.mem_cons_self
  · refine List.forall_mem_append.mpr ⟨fun term member => ?_, ?_⟩
    · exact readable term (List.mem_of_mem_tail member)
    · exact List.forall_mem_map.mpr fun _ _ => trivial

/-- **A call is known from its term**, with its arguments. -/
theorem term_injective {function other : Function} {arguments arguments' : List Term}
    (count : arguments.length = function.arity) (count' : arguments'.length = other.arity)
    (same : function.term arguments = other.term arguments') :
    function = other ∧ arguments = arguments' := by
  have positive := function.arity_pos
  have positive' := other.arity_pos
  obtain ⟨first, rest, rfl⟩ := List.exists_cons_of_length_pos (count ▸ positive)
  obtain ⟨first', rest', rfl⟩ := List.exists_cons_of_length_pos (count' ▸ positive')
  obtain ⟨names, firsts, others⟩ := Term.call.inj same
  obtain rfl : first = first' := firsts
  have names := String.toList_inj.mp names
  obtain ⟨arities, joints⟩ := eq_of_formName names
  obtain ⟨all, joint⟩ := Others.ofList_injective others
  have lengths : rest.length = rest'.length := by
    simp only [List.length_cons] at count count'
    omega
  obtain ⟨rfl, behind⟩ := List.append_inj all lengths
  have literals : function.form.behind = other.form.behind :=
    List.map_injective_iff.mpr (fun _ _ => Term.literal.inj) behind
  have joint : function.form.joint = other.form.joint := by
    cases rest with
    | nil => exact joints count.symm
    | cons => exact joint (List.cons_ne_nil _ _)
  exact ⟨form_injective (Form.ext names joint literals), rfl⟩

/-- The name of a part of a date is taken of one argument, with a format that has no quotes. -/
theorem dateName_of_rendering? {function : Function} {format : String}
    (rendered : function.rendering? = some (.dateName format)) :
    function.arity = 1 ∧ format.toList.flatMap literalChar = format.toList := by
  cases function <;> cases rendered <;> decide

theorem arity_of_rendering? {function : Function} {rendering : Rendering}
    (rendered : function.rendering? = some rendering)
    (binary : rendering = .remove ∨ rendering = .firstMatch) : function.arity = 2 := by
  rcases binary with rfl | rfl <;> cases function <;> cases rendered <;> rfl

/-- **A call is written as its term.** -/
theorem writes_apply {function : Function} {exprs : List Expr} {terms : List Term} {expr : Expr}
    (applied : function.apply exprs = .ok expr) (written : List.Forall₂ Expr.Writes exprs terms)
    (count : terms.length = function.arity) : expr.Writes (function.term terms) := by
  unfold apply at applied
  cases rendered : function.rendering? with
  | none =>
    rw [rendered] at applied
    cases applied
  | some rendering =>
    rw [rendered] at applied
    cases rendering with
    | call name =>
      cases applied
      cases written with
      | nil => exact absurd count (Nat.ne_of_lt function.arity_pos)
      | cons here others =>
        have arguments := text_arguments others here
        have close : ")".toList = [')'] := rfl
        rw [Expr.Writes, Expr.sql, Expr.sqlEach, String.toList_append, String.toList_append,
          List.append_assoc, close, arguments, Function.term, form, rendered]
        simp [Term.text]
    | dateName format =>
      cases applied
      obtain ⟨arity, plain⟩ := dateName_of_rendering? rendered
      obtain ⟨first, rfl⟩ := List.length_eq_one_iff.mp (count.trans arity)
      obtain _ | ⟨here, _ | _⟩ := written
      rw [Expr.Writes] at here
      simp [Expr.Writes, Expr.sql, Function.term, form, rendered, Term.text, Others.ofList,
        Others.text, plain, here]
    | remove =>
      cases applied
      obtain ⟨first, second, rfl⟩ :=
        List.length_eq_two.mp (count.trans (arity_of_rendering? rendered (.inl rfl)))
      obtain _ | ⟨here, _ | ⟨next, _ | _⟩⟩ := written
      rw [Expr.Writes] at here next
      simp [Expr.Writes, Expr.sql, Function.term, form, rendered, Term.text, Others.ofList,
        Others.text, here, next]
    | firstMatch =>
      cases applied
      obtain ⟨first, second, rfl⟩ :=
        List.length_eq_two.mp (count.trans (arity_of_rendering? rendered (.inr rfl)))
      obtain _ | ⟨here, _ | ⟨next, _ | _⟩⟩ := written
      rw [Expr.Writes] at here next
      simp [Expr.Writes, Expr.sql, Function.term, form, rendered, Term.text, Others.ofList,
        Others.text, here, next]

end Function

end AppSchema
