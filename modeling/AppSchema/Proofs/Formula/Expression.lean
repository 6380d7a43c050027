/-
**What the expressions of pieces keep and have.**

Evaluating pieces only moves the state by resolving references, so what every resolution keeps is
kept by the evaluation. What holds of what references stand for, and of all that is built from it,
holds of the result.

* `Resolves`: what a resolver keeps of the state, and what holds of expressions;
* `Resolves.expressions`: the evaluation of pieces keeps and gives the same;
* `Resolves.ofLeaves`: what holds of the leaves that references stand for holds of all leaves.
-/

import AppSchema.Proofs.Sql.Reads
import AppSchema.Proofs.Success

namespace AppSchema.Formula

open Sql (Expr Leaf)

variable {σ : Type} {resolve : Resolver σ} {step : σ → σ → Prop} {holds : σ → Expr → Prop}

/-- **What a resolver keeps and gives.** What holds of an expression holds in all later states, and
of the texts, counts, calls and concatenations that are built from references. -/
structure Resolves (resolve : Resolver σ) (step : σ → σ → Prop) (holds : σ → Expr → Prop) :
    Prop where
  refl : ∀ state, step state state
  trans : ∀ first second third, step first second → step second third → step first third
  mono : ∀ first second expr, step first second → holds first expr → holds second expr
  literal : ∀ state chars, holds state (.literal chars)
  count : ∀ state argument count, count? argument = some count → holds state (.raw count)
  single : ∀ state parts, (∀ part ∈ parts, holds state part) → holds state (single parts)
  apply : ∀ state (function : Function) arguments expr, function.apply arguments = .ok expr →
    (∀ argument ∈ arguments, holds state argument) → holds state expr
  resolved : ∀ ref state expr result, resolve ref state = .ok (expr, result) →
    step state result ∧ holds result expr

/-- What an evaluation keeps and gives. -/
def Evaluated (step : σ → σ → Prop) (holds : σ → Expr → Prop) (state : σ) (exprs : List Expr)
    (result : σ) : Prop :=
  step state result ∧ ∀ expr ∈ exprs, holds result expr

namespace Resolves

theorem nil (sound : Resolves resolve step holds) (state : σ) :
    Evaluated step holds state [] state :=
  ⟨sound.refl state, by simp⟩

/-- **One expression before others.** -/
theorem cons (sound : Resolves resolve step holds) {state between result : σ} {expr : Expr}
    {others : List Expr} (moved : step state between) (gives : holds between expr)
    (rest : Evaluated step holds between others result) :
    Evaluated step holds state (expr :: others) result := by
  refine ⟨sound.trans _ _ _ moved rest.1, List.forall_mem_cons.mpr ⟨?_, rest.2⟩⟩
  exact sound.mono _ _ expr rest.1 gives

mutual

/-- **The evaluation of pieces** keeps and gives what the resolver does. -/
theorem expressions (sound : Resolves resolve step holds) :
    ∀ (pieces : List Piece) {state : σ} {exprs : List Expr} {result : σ},
      Formula.expressions resolve pieces state = .ok (exprs, result) →
        Evaluated step holds state exprs result
  | [], state, exprs, result, evaluated => by
    rw [Formula.expressions] at evaluated
    cases evaluated
    exact sound.nil state
  | .text chars :: rest, state, exprs, result, evaluated => by
    rw [Formula.expressions, Evaluation.bind_eq_ok] at evaluated
    obtain ⟨others, between, evaluated, equal⟩ := evaluated
    cases equal
    have behind := sound.expressions rest evaluated
    split
    · exact behind
    · exact sound.cons (sound.refl _) (sound.literal _ chars) behind
  | .field ref :: rest, state, exprs, result, evaluated => by
    rw [Formula.expressions, Evaluation.bind_eq_ok] at evaluated
    obtain ⟨expr, between, resolved, evaluated⟩ := evaluated
    obtain ⟨others, after, evaluated, equal⟩ := Evaluation.bind_eq_ok.mp evaluated
    cases equal
    obtain ⟨moved, gives⟩ := sound.resolved _ _ _ _ resolved
    exact sound.cons moved gives (sound.expressions rest evaluated)
  | .call function arguments _ :: rest, state, exprs, result, evaluated => by
    rw [Formula.expressions, Evaluation.bind_eq_ok] at evaluated
    obtain ⟨values, between, inner, evaluated⟩ := evaluated
    obtain ⟨expr, same, applied, evaluated⟩ := Evaluation.bind_eq_ok.mp evaluated
    obtain ⟨value, outcome, equal⟩ := Evaluation.lift_eq_ok.mp applied
    cases equal
    obtain ⟨others, after, evaluated, equal⟩ := Evaluation.bind_eq_ok.mp evaluated
    cases equal
    obtain ⟨moved, gives⟩ := sound.argumentExpressions function.takesCount arguments inner
    have called := sound.apply _ function values expr outcome gives
    exact sound.cons moved called (sound.expressions rest evaluated)

/-- The evaluation of arguments. -/
theorem argumentExpressions (sound : Resolves resolve step holds) (counted : Bool) :
    ∀ (arguments : List (List Piece)) {state : σ} {exprs : List Expr} {result : σ},
      Formula.argumentExpressions resolve counted arguments state = .ok (exprs, result) →
        Evaluated step holds state exprs result
  | [], state, exprs, result, evaluated => by
    rw [Formula.argumentExpressions] at evaluated
    cases evaluated
    exact sound.nil state
  | first :: rest, state, exprs, result, evaluated => by
    rw [Formula.argumentExpressions, Evaluation.bind_eq_ok] at evaluated
    obtain ⟨parts, between, inner, evaluated⟩ := evaluated
    obtain ⟨others, after, evaluated, equal⟩ := Evaluation.bind_eq_ok.mp evaluated
    cases equal
    obtain ⟨moved, gives⟩ := sound.expressions first inner
    exact sound.cons moved (sound.single _ parts gives)
      (sound.laterExpressions counted rest evaluated)

/-- The evaluation of the arguments behind the first. -/
theorem laterExpressions (sound : Resolves resolve step holds) (counted : Bool) :
    ∀ (arguments : List (List Piece)) {state : σ} {exprs : List Expr} {result : σ},
      Formula.laterExpressions resolve counted arguments state = .ok (exprs, result) →
        Evaluated step holds state exprs result
  | [], state, exprs, result, evaluated => by
    rw [Formula.laterExpressions] at evaluated
    cases evaluated
    exact sound.nil state
  | argument :: rest, state, exprs, result, evaluated => by
    rw [Formula.laterExpressions] at evaluated
    cases counts : (if counted then count? argument else none) with
    | some count =>
      simp only [counts] at evaluated
      obtain ⟨expr, between, inner, evaluated⟩ := Evaluation.bind_eq_ok.mp evaluated
      obtain ⟨others, after, evaluated, equal⟩ := Evaluation.bind_eq_ok.mp evaluated
      cases inner
      cases equal
      have given : count? argument = some count := by
        cases counted with
        | true => exact counts
        | false => cases counts
      exact sound.cons (sound.refl _) (sound.count _ argument count given)
        (sound.laterExpressions false rest evaluated)
    | none =>
      simp only [counts, map_eq_pure_bind] at evaluated
      obtain ⟨expr, between, inner, evaluated⟩ := Evaluation.bind_eq_ok.mp evaluated
      obtain ⟨parts, same, inner, equal⟩ := Evaluation.bind_eq_ok.mp inner
      cases equal
      obtain ⟨others, after, evaluated, equal⟩ := Evaluation.bind_eq_ok.mp evaluated
      cases equal
      obtain ⟨moved, gives⟩ := sound.expressions argument inner
      exact sound.cons moved (sound.single _ parts gives)
        (sound.laterExpressions false rest evaluated)

end

/-- **What holds of the leaves that references stand for** holds of all leaves. -/
theorem ofLeaves {holds : σ → Leaf → Prop} (refl : ∀ state, step state state)
    (trans : ∀ first second third, step first second → step second third → step first third)
    (mono : ∀ first second leaf, step first second → holds first leaf → holds second leaf)
    (resolved : ∀ ref state expr result, resolve ref state = .ok (expr, result) →
      step state result ∧ ∀ leaf ∈ expr.leaves, holds result leaf) :
    Resolves resolve step fun state expr => ∀ leaf ∈ expr.leaves, holds state leaf where
  refl := refl
  trans := trans
  mono first second _ moved gives leaf member := mono first second leaf moved (gives leaf member)
  literal _ _ leaf member := by cases member
  count _ _ _ _ leaf member := by cases member
  single _ _ gives leaf member := by
    obtain ⟨part, inside, member⟩ := leaves_single member
    exact gives part inside leaf member
  apply _ _ _ _ applied gives leaf member := by
    obtain ⟨argument, inside, member⟩ := Function.leaves_apply applied member
    exact gives argument inside leaf member
  resolved := resolved

end Resolves

end AppSchema.Formula
