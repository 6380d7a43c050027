/-
**The values of references in a formula.**

Evaluating pieces resolves their references one after the other, each in the state that the one
before it has left, and nothing of what they stand for is lost: the leaves of the expressions are
those of the values, in their order. A call has as many arguments as its form in SQL takes, so it
drops none of them.

* `Formula.Resolved`: references with their values, from a state to another;
* `Function.leaves_of_apply`, `Formula.leaves_of_single`: what is built from expressions has all of
  their leaves;
* `Formula.resolved_of_expressions`: the leaves of evaluated pieces are those of the values of their
  references.
-/

import AppSchema.Proofs.Formula.Form
import AppSchema.Proofs.Formula.Tree
import AppSchema.Proofs.Formula.Visit
import AppSchema.Proofs.Sql.Reads

namespace AppSchema

open Sql (Expr Leaf)

/-! ### Leaves -/

namespace Sql.Expr

theorem leavesEach_append (first second : List Expr) :
    leavesEach (first ++ second) = leavesEach first ++ leavesEach second := by
  induction first with
  | nil => rfl
  | cons expr rest ih => rw [List.cons_append, leavesEach, leavesEach, ih, List.append_assoc]

theorem leavesEach_pair (first second : Expr) :
    leavesEach [first, second] = first.leaves ++ second.leaves := by
  rw [leavesEach, leavesEach, leavesEach, List.append_nil]

theorem leavesEach_singleton (expr : Expr) : leavesEach [expr] = expr.leaves := by
  rw [leavesEach, leavesEach, List.append_nil]

end Sql.Expr

/-- **A call with all its arguments has all of their leaves.** -/
theorem Function.leaves_of_apply {function : Function} {arguments : List Expr} {expr : Expr}
    (applied : function.apply arguments = .ok expr) (count : arguments.length = function.arity) :
    expr.leaves = Expr.leavesEach arguments := by
  unfold apply at applied
  cases rendered : function.rendering? with
  | none =>
    rw [rendered] at applied
    cases applied
  | some rendering =>
    rw [rendered] at applied
    cases rendering with
    | call name =>
      cases applied
      rw [Expr.leaves]
    | dateName format =>
      cases applied
      obtain ⟨first, rfl⟩ :=
        List.length_eq_one_iff.mp (count.trans (dateName_of_rendering? rendered).1)
      exact (Expr.leavesEach_singleton first).symm
    | remove =>
      cases applied
      obtain ⟨first, second, rfl⟩ :=
        List.length_eq_two.mp (count.trans (arity_of_rendering? rendered (.inl rfl)))
      exact (Expr.leavesEach_pair first second).symm
    | firstMatch =>
      cases applied
      obtain ⟨first, second, rfl⟩ :=
        List.length_eq_two.mp (count.trans (arity_of_rendering? rendered (.inr rfl)))
      exact (Expr.leavesEach_pair first second).symm

namespace Formula

theorem leaves_of_single (parts : List Expr) : (single parts).leaves = Expr.leavesEach parts := by
  unfold single
  split
  · exact (Expr.leavesEach_singleton _).symm
  · rw [Expr.leaves]

/-! ### Values -/

variable {σ : Type} {resolve : Resolver σ}

/-- **References with their values**, each resolved in the state that the one before it leaves. -/
inductive Resolved (resolve : Resolver σ) : List FieldRef → σ → List Expr → σ → Prop
  | nil {state : σ} : Resolved resolve [] state [] state
  | cons {ref : FieldRef} {expr : Expr} {refs : List FieldRef} {exprs : List Expr}
    {first second last : σ} : resolve ref first = .ok (expr, second) →
    Resolved resolve refs second exprs last →
    Resolved resolve (ref :: refs) first (expr :: exprs) last

theorem Resolved.append {front back : List FieldRef} {values others : List Expr}
    {first second last : σ} (before : Resolved resolve front first values second)
    (behind : Resolved resolve back second others last) :
    Resolved resolve (front ++ back) first (values ++ others) last := by
  induction before with
  | nil => exact behind
  | cons resolved _ ih => exact .cons resolved (ih behind)

namespace Resolved

variable {refs : List FieldRef} {values : List Expr} {first last : σ}

/-- **A reference is resolved between those before it and those behind it.** -/
theorem exists_of_mem (resolved : Resolved resolve refs first values last) {ref : FieldRef}
    (member : ref ∈ refs) :
    ∃ before expr between behind others, resolve ref before = .ok (expr, between) ∧
      expr ∈ values ∧ Resolved resolve behind between others last := by
  induction resolved with
  | nil => cases member
  | cons here rest ih =>
    rcases List.mem_cons.mp member with rfl | member
    · exact ⟨_, _, _, _, _, here, List.mem_cons_self, rest⟩
    · obtain ⟨before, expr, between, behind, others, found, inside, after⟩ := ih member
      exact ⟨before, expr, between, behind, others, found, List.mem_cons_of_mem _ inside, after⟩

/-- A value is what some reference stands for. -/
theorem exists_of_mem_values (resolved : Resolved resolve refs first values last) {expr : Expr}
    (member : expr ∈ values) :
    ∃ ref ∈ refs, ∃ before after, resolve ref before = .ok (expr, after) := by
  induction resolved with
  | nil => cases member
  | cons here _ ih =>
    rcases List.mem_cons.mp member with rfl | member
    · exact ⟨_, List.mem_cons_self, _, _, here⟩
    · obtain ⟨ref, inside, found⟩ := ih member
      exact ⟨ref, List.mem_cons_of_mem _ inside, found⟩

/-- **What every resolution keeps** holds behind the last. -/
theorem keeps (resolved : Resolved resolve refs first values last) (holds : σ → Prop)
    (keep : ∀ ref before expr after, resolve ref before = .ok (expr, after) → holds before →
      holds after) (start : holds first) : holds last := by
  induction resolved with
  | nil => exact start
  | cons here _ ih => exact ih (keep _ _ _ _ here start)

/-- **What holds behind the last** held before, or some resolution made it hold. -/
theorem exists_of_holds (resolved : Resolved resolve refs first values last) (holds : σ → Prop)
    (finish : holds last) : holds first ∨ ∃ ref ∈ refs, ∃ before expr after,
      resolve ref before = .ok (expr, after) ∧ ¬ holds before ∧ holds after := by
  induction resolved with
  | nil => exact .inl finish
  | @cons ref expr refs exprs first second last here _ ih =>
    rcases ih finish with between | ⟨other, inside, rest⟩
    · by_cases start : holds first
      · exact .inl start
      · exact .inr ⟨ref, List.mem_cons_self, first, expr, second, here, start, between⟩
    · exact .inr ⟨other, List.mem_cons_of_mem _ inside, rest⟩

end Resolved

/-- Expressions have the leaves of the values of references. -/
def Gathers (resolve : Resolver σ) (refs : List FieldRef) (first : σ) (exprs : List Expr)
    (last : σ) : Prop :=
  ∃ values, Resolved resolve refs first values last ∧
    Expr.leavesEach exprs = Expr.leavesEach values

theorem Gathers.nil (resolve : Resolver σ) (state : σ) : Gathers resolve [] state [] state :=
  ⟨[], .nil, rfl⟩

/-- **One expression before others.** -/
theorem Gathers.cons {front back : List FieldRef} {parts exprs : List Expr} {expr : Expr}
    {first second last : σ} (before : Gathers resolve front first parts second)
    (same : expr.leaves = Expr.leavesEach parts)
    (behind : Gathers resolve back second exprs last) :
    Gathers resolve (front ++ back) first (expr :: exprs) last := by
  obtain ⟨values, resolved, equal⟩ := before
  obtain ⟨others, rest, equalRest⟩ := behind
  refine ⟨values ++ others, resolved.append rest, ?_⟩
  rw [Expr.leavesEach, same, equal, equalRest, Expr.leavesEach_append]

mutual

/-- **The leaves of evaluated pieces are those of the values of their references.** -/
theorem resolved_of_expressions (pieces : List Piece) (sound : ∀ piece ∈ pieces, piece.Sound)
    {first last : σ} {exprs : List Expr}
    (evaluated : expressions resolve pieces first = .ok (exprs, last)) :
    Gathers resolve (Piece.fieldRefs pieces) first exprs last := by
  match pieces with
  | [] =>
    rw [expressions] at evaluated
    cases evaluated
    rw [Piece.fieldRefs]
    exact .nil resolve first
  | .text chars :: rest =>
    obtain ⟨_, others⟩ := List.forall_mem_cons.mp sound
    rw [expressions, Evaluation.bind_eq_ok] at evaluated
    obtain ⟨exprs, between, evaluated, equal⟩ := evaluated
    cases equal
    have behind := resolved_of_expressions rest others evaluated
    rw [Piece.fieldRefs]
    by_cases empty : chars.isEmpty = true
    · rwa [if_pos empty]
    · rw [if_neg empty]
      exact Gathers.cons (.nil resolve first) rfl behind
  | .field ref :: rest =>
    obtain ⟨_, others⟩ := List.forall_mem_cons.mp sound
    rw [expressions, Evaluation.bind_eq_ok] at evaluated
    obtain ⟨expr, between, resolved, evaluated⟩ := evaluated
    obtain ⟨exprs, after, evaluated, equal⟩ := Evaluation.bind_eq_ok.mp evaluated
    cases equal
    rw [Piece.fieldRefs]
    have here : Gathers resolve [ref] first [expr] between := ⟨[expr], .cons resolved .nil, rfl⟩
    exact here.cons (Expr.leavesEach_singleton expr).symm
      (resolved_of_expressions rest others evaluated)
  | .call function arguments offset :: rest =>
    obtain ⟨call, others⟩ := List.forall_mem_cons.mp sound
    obtain ⟨arity, inside⟩ := call.arguments
    rw [expressions, Evaluation.bind_eq_ok] at evaluated
    obtain ⟨values, between, inner, evaluated⟩ := evaluated
    obtain ⟨_, same, applied, evaluated⟩ := Evaluation.bind_eq_ok.mp evaluated
    obtain ⟨expr, outcome, equal⟩ := Evaluation.lift_eq_ok.mp applied
    cases equal
    obtain ⟨exprs, after, evaluated, equal⟩ := Evaluation.bind_eq_ok.mp evaluated
    cases equal
    obtain ⟨gathers, count⟩ := resolved_of_argumentExpressions function.takesCount arguments
      (fun argument member => (inside argument member).inside) inner
    rw [Piece.fieldRefs]
    exact gathers.cons (function.leaves_of_apply outcome (count.trans arity))
      (resolved_of_expressions rest others evaluated)
termination_by sizeOf pieces

/-- The leaves of evaluated arguments. -/
theorem resolved_of_argumentExpressions (counted : Bool) (arguments : List (List Piece))
    (sound : ∀ argument ∈ arguments, ∀ piece ∈ argument, piece.Sound) {first last : σ}
    {exprs : List Expr}
    (evaluated : argumentExpressions resolve counted arguments first = .ok (exprs, last)) :
    Gathers resolve (Piece.argumentRefs arguments) first exprs last ∧
      exprs.length = arguments.length := by
  match arguments with
  | [] =>
    rw [argumentExpressions] at evaluated
    cases evaluated
    rw [Piece.argumentRefs]
    exact ⟨.nil resolve first, rfl⟩
  | argument :: rest =>
    obtain ⟨here, others⟩ := List.forall_mem_cons.mp sound
    rw [argumentExpressions, Evaluation.bind_eq_ok] at evaluated
    obtain ⟨parts, between, inner, evaluated⟩ := evaluated
    obtain ⟨exprs, after, evaluated, equal⟩ := Evaluation.bind_eq_ok.mp evaluated
    cases equal
    obtain ⟨behind, count⟩ := resolved_of_laterExpressions counted rest others evaluated
    have gathers := resolved_of_expressions argument here inner
    rw [Piece.argumentRefs]
    exact ⟨gathers.cons (leaves_of_single parts) behind, congrArg Nat.succ count⟩
termination_by sizeOf arguments

/-- The leaves of the evaluated arguments behind the first. -/
theorem resolved_of_laterExpressions (counted : Bool) (arguments : List (List Piece))
    (sound : ∀ argument ∈ arguments, ∀ piece ∈ argument, piece.Sound) {first last : σ}
    {exprs : List Expr}
    (evaluated : laterExpressions resolve counted arguments first = .ok (exprs, last)) :
    Gathers resolve (Piece.argumentRefs arguments) first exprs last ∧
      exprs.length = arguments.length := by
  match arguments with
  | [] =>
    rw [laterExpressions] at evaluated
    cases evaluated
    rw [Piece.argumentRefs]
    exact ⟨.nil resolve first, rfl⟩
  | argument :: rest =>
    obtain ⟨here, others⟩ := List.forall_mem_cons.mp sound
    rw [laterExpressions] at evaluated
    rw [Piece.argumentRefs]
    cases counts : (if counted then count? argument else none) with
    | some count =>
      simp only [counts] at evaluated
      obtain ⟨expr, between, inner, evaluated⟩ := Evaluation.bind_eq_ok.mp evaluated
      obtain ⟨exprs, after, evaluated, equal⟩ := Evaluation.bind_eq_ok.mp evaluated
      cases inner
      cases equal
      obtain ⟨behind, count⟩ := resolved_of_laterExpressions false rest others evaluated
      rw [← filterMap_visits, visits_of_counts counts]
      exact ⟨Gathers.cons (.nil resolve first) rfl behind, congrArg Nat.succ count⟩
    | none =>
      simp only [counts, map_eq_pure_bind] at evaluated
      obtain ⟨expr, between, inner, evaluated⟩ := Evaluation.bind_eq_ok.mp evaluated
      obtain ⟨parts, same, inner, equal⟩ := Evaluation.bind_eq_ok.mp inner
      cases equal
      obtain ⟨exprs, after, evaluated, equal⟩ := Evaluation.bind_eq_ok.mp evaluated
      cases equal
      obtain ⟨behind, count⟩ := resolved_of_laterExpressions false rest others evaluated
      have gathers := resolved_of_expressions argument here inner
      exact ⟨gathers.cons (leaves_of_single parts) behind, congrArg Nat.succ count⟩
termination_by sizeOf arguments

end

end Formula

end AppSchema
