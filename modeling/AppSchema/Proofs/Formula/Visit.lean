/-
**The order in which formulas are evaluated.**

An evaluation comes upon the references and the functions of pieces from left to right, upon a
function behind its arguments, and the first of them that fails is the last that it comes upon. This
holds for every resolver, whatever state it has; to see what happened up to a failure, the state has
to outlive it.

* `Formula.visits`: the references and functions of pieces, in this order;
* `Formula.expressions_bind`: up to what it gives, the evaluation of pieces is that of their visits,
  in every monad;
* `Formula.passes_or_fails`: visits all pass, or some first one fails;
* `Formula.expressions_ok_iff`, `Formula.expressions_error_iff`: how an evaluation ends, with the
  calls up to then;
* `Formula.expressions_visits`: so the resolver is called for the references in their order and for
  none behind a failure, and the fault is that of the first visit that fails.
-/

import AppSchema.Proofs.Success

set_option linter.unusedSectionVars false

namespace AppSchema

open Sql (Expr)

/-- The fault of a function that has no form in SQL. -/
def Function.support (function : Function) : Except Fault Unit :=
  if function.isSupported then .ok () else .error (.unsupportedFunction function.name)

/-- **Whether a call fails does not depend on its arguments.** -/
theorem Function.apply_bind (function : Function) (arguments : List Expr) :
    (function.apply arguments >>= fun _ => .ok ()) = function.support := by
  unfold apply support isSupported
  cases function.rendering? with
  | none => rfl
  | some rendering => cases rendering <;> rfl

namespace Formula

/-! ### Visits -/

/-- What an evaluation comes upon. -/
inductive Visit
  | read (ref : FieldRef)
  | call (function : Function)
  deriving DecidableEq

mutual

/-- **The visits of pieces**, those of arguments before that of their function. -/
def visits : List Piece → List Visit
  | [] => []
  | .text _ :: rest => visits rest
  | .field ref :: rest => .read ref :: visits rest
  | .call function arguments _ :: rest => argumentVisits arguments ++ .call function :: visits rest

/-- The visits of arguments. -/
def argumentVisits : List (List Piece) → List Visit
  | [] => []
  | argument :: rest => visits argument ++ argumentVisits rest

end

/-- The reference that is visited. -/
def Visit.reference? : Visit → Option FieldRef
  | read ref => some ref
  | call _ => none

mutual

/-- **References are visited in the order of the source.** -/
theorem filterMap_visits (pieces : List Piece) :
    (visits pieces).filterMap Visit.reference? = Piece.fieldRefs pieces := by
  match pieces with
  | [] =>
    rw [visits, Piece.fieldRefs]
    rfl
  | .text chars :: rest => rw [visits, Piece.fieldRefs, filterMap_visits rest]
  | .field ref :: rest =>
    rw [visits, Piece.fieldRefs, ← filterMap_visits rest]
    rfl
  | .call function arguments offset :: rest =>
    rw [visits, Piece.fieldRefs, List.filterMap_append, filterMap_argumentVisits arguments,
      ← filterMap_visits rest]
    rfl
termination_by sizeOf pieces

theorem filterMap_argumentVisits (arguments : List (List Piece)) :
    (argumentVisits arguments).filterMap Visit.reference? = Piece.argumentRefs arguments := by
  match arguments with
  | [] =>
    rw [argumentVisits, Piece.argumentRefs]
    rfl
  | argument :: rest =>
    rw [argumentVisits, Piece.argumentRefs, List.filterMap_append, filterMap_visits argument,
      filterMap_argumentVisits rest]
termination_by sizeOf arguments

end

/-- A count has nothing to visit. -/
theorem visits_of_counts {argument : List Piece} {counted : Bool} {count : String}
    (counts : (if counted then count? argument else none) = some count) : visits argument = [] := by
  cases counted with
  | false => cases counts
  | true =>
    simp only [if_true, count?] at counts
    split at counts
    · rw [visits, visits]
    · cases counts

/-! ### Evaluating is visiting -/

section

variable {m : Type → Type} [Monad m] [LawfulMonad m] [MonadLiftT (Except Fault) m]
  [LawfulMonadLiftT (Except Fault) m] {resolve : FieldRef → m Expr} {α : Type}

/-- A visit: a reference is resolved, and a function required to have a form. -/
def Visit.perform (resolve : FieldRef → m Expr) : Visit → m Unit
  | read ref => resolve ref >>= fun _ => pure ()
  | call function => liftM function.support

theorem apply_bind (function : Function) (arguments : List Expr) (next : m α) :
    ((liftM (function.apply arguments) : m Expr) >>= fun _ => next) =
      (liftM function.support : m Unit) >>= fun _ => next := by
  have unit : (liftM (pure () : Except Fault Unit) : m Unit) = pure () := liftM_pure ()
  have support : (liftM function.support : m Unit) =
      (liftM (function.apply arguments) : m Expr) >>= fun _ => pure () := by
    rw [← function.apply_bind arguments, liftM_bind]
    exact congrArg _ (funext fun _ => unit)
  rw [support, bind_assoc]
  simp only [pure_bind]

mutual

/-- **Up to what it gives, evaluating pieces is visiting them.** -/
theorem expressions_bind (pieces : List Piece) (next : m α) :
    (expressions resolve pieces >>= fun _ => next) =
      forM (visits pieces) (Visit.perform resolve) >>= fun _ => next := by
  match pieces with
  | [] => rw [expressions, visits, List.forM_nil, pure_bind, pure_bind]
  | .text chars :: rest =>
    rw [expressions, visits, bind_assoc]
    simp only [pure_bind]
    exact expressions_bind rest next
  | .field ref :: rest =>
    rw [expressions, visits, List.forM_cons]
    simp only [Visit.perform, bind_assoc, pure_bind, expressions_bind rest next]
  | .call function arguments offset :: rest =>
    rw [expressions, visits, List.forM_append, List.forM_cons]
    simp only [Visit.perform, bind_assoc, pure_bind, expressions_bind rest next, apply_bind,
      argumentExpressions_bind function.takesCount arguments]
termination_by sizeOf pieces

theorem argumentExpressions_bind (counted : Bool) (arguments : List (List Piece)) (next : m α) :
    (argumentExpressions resolve counted arguments >>= fun _ => next) =
      forM (argumentVisits arguments) (Visit.perform resolve) >>= fun _ => next := by
  match arguments with
  | [] => rw [argumentExpressions, argumentVisits, List.forM_nil, pure_bind, pure_bind]
  | first :: rest =>
    rw [argumentExpressions, argumentVisits, List.forM_append]
    simp only [bind_assoc, pure_bind, laterExpressions_bind counted rest next,
      expressions_bind first]
termination_by sizeOf arguments

theorem laterExpressions_bind (counted : Bool) (arguments : List (List Piece)) (next : m α) :
    (laterExpressions resolve counted arguments >>= fun _ => next) =
      forM (argumentVisits arguments) (Visit.perform resolve) >>= fun _ => next := by
  match arguments with
  | [] => rw [laterExpressions, argumentVisits, List.forM_nil, pure_bind, pure_bind]
  | argument :: rest =>
    rw [laterExpressions, argumentVisits, List.forM_append]
    cases counts : (if counted then count? argument else none) with
    | some count =>
      rw [visits_of_counts counts, List.forM_nil]
      simp only [bind_assoc, pure_bind, laterExpressions_bind false rest next]
    | none =>
      simp only [map_eq_pure_bind, bind_assoc, pure_bind, laterExpressions_bind false rest next,
        expressions_bind argument]
termination_by sizeOf arguments

end

end

/-! ### Evaluating in two monads -/

section

variable {m n : Type → Type} [Monad m] [LawfulMonad m] [MonadLiftT (Except Fault) m] [Monad n]
  [LawfulMonad n] [MonadLiftT (Except Fault) n]

/-- **A relation of computations** that sequences and faults keep. -/
structure Simulates (relates : (α : Type) → m α → n α → Prop) : Prop where
  pure : ∀ {α : Type} (value : α), relates α (pure value) (pure value)
  lift : ∀ {α : Type} (outcome : Except Fault α), relates α (liftM outcome) (liftM outcome)
  bind : ∀ {α β : Type} {first : m α} {second : n α} {next : α → m β} {next' : α → n β},
    relates α first second → (∀ value, relates β (next value) (next' value)) →
    relates β (first >>= next) (second >>= next')

namespace Simulates

variable {relates : (α : Type) → m α → n α → Prop} {resolve : FieldRef → m Expr}
  {resolve' : FieldRef → n Expr}

mutual

/-- **Evaluations with related resolvers are related.** -/
theorem expressions (simulates : Simulates relates)
    (resolved : ∀ ref, relates _ (resolve ref) (resolve' ref)) (pieces : List Piece) :
    relates _ (expressions resolve pieces) (expressions resolve' pieces) := by
  match pieces with
  | [] =>
    rw [Formula.expressions, Formula.expressions]
    exact simulates.pure []
  | .text chars :: rest =>
    rw [Formula.expressions, Formula.expressions]
    exact simulates.bind (simulates.expressions resolved rest) fun _ => simulates.pure _
  | .field ref :: rest =>
    rw [Formula.expressions, Formula.expressions]
    refine simulates.bind (resolved ref) fun _ => ?_
    exact simulates.bind (simulates.expressions resolved rest) fun _ => simulates.pure _
  | .call function arguments offset :: rest =>
    rw [Formula.expressions, Formula.expressions]
    refine simulates.bind (simulates.argumentExpressions resolved _ arguments) fun _ => ?_
    refine simulates.bind (simulates.lift _) fun _ => ?_
    exact simulates.bind (simulates.expressions resolved rest) fun _ => simulates.pure _
termination_by sizeOf pieces

theorem argumentExpressions (simulates : Simulates relates)
    (resolved : ∀ ref, relates _ (resolve ref) (resolve' ref)) (counted : Bool)
    (arguments : List (List Piece)) :
    relates _ (argumentExpressions resolve counted arguments)
      (argumentExpressions resolve' counted arguments) := by
  match arguments with
  | [] =>
    rw [Formula.argumentExpressions, Formula.argumentExpressions]
    exact simulates.pure []
  | first :: rest =>
    rw [Formula.argumentExpressions, Formula.argumentExpressions]
    refine simulates.bind (simulates.expressions resolved first) fun _ => ?_
    refine simulates.bind (simulates.laterExpressions resolved counted rest) fun _ => ?_
    exact simulates.pure _
termination_by sizeOf arguments

theorem laterExpressions (simulates : Simulates relates)
    (resolved : ∀ ref, relates _ (resolve ref) (resolve' ref)) (counted : Bool)
    (arguments : List (List Piece)) :
    relates _ (laterExpressions resolve counted arguments)
      (laterExpressions resolve' counted arguments) := by
  match arguments with
  | [] =>
    rw [Formula.laterExpressions, Formula.laterExpressions]
    exact simulates.pure []
  | argument :: rest =>
    rw [Formula.laterExpressions, Formula.laterExpressions]
    have others := simulates.laterExpressions resolved false rest
    cases (if counted then count? argument else none) with
    | some count =>
      refine simulates.bind (simulates.pure _) fun _ => ?_
      exact simulates.bind others fun _ => simulates.pure _
    | none =>
      simp only [map_eq_pure_bind]
      refine simulates.bind ?_ fun _ => simulates.bind others fun _ => simulates.pure _
      exact simulates.bind (simulates.expressions resolved argument) fun _ => simulates.pure _
termination_by sizeOf arguments

end

end Simulates

end

/-! ### Resolvers with a state -/

/-- An evaluation with a state that outlives a fault. -/
abbrev Lasting (σ : Type) := ExceptT Fault (StateM σ)

namespace Lasting

variable {σ α β : Type} {first : Lasting σ α} {next : α → Lasting σ β} {state between : σ}

theorem bind_of_ok {value : α} (succeeded : first state = (.ok value, between)) :
    (first >>= next) state = next value between := by
  show ExceptT.bindCont next (first state).1 (first state).2 = _
  rw [succeeded]
  rfl

theorem bind_of_error {fault : Fault} (failed : first state = (.error fault, between)) :
    (first >>= next) state = (.error fault, between) := by
  show ExceptT.bindCont next (first state).1 (first state).2 = _
  rw [failed]
  rfl

end Lasting

section

variable {σ : Type} {resolve : FieldRef → Lasting σ Expr}

/-- A resolver that also writes down what it is called for, whether or not it succeeds. -/
def recording (resolve : FieldRef → Lasting σ Expr) (ref : FieldRef) :
    Lasting (σ × List FieldRef) Expr :=
  fun state => ((resolve ref state.1).1, (resolve ref state.1).2, state.2 ++ [ref])

/-- **Writing down the calls changes nothing.** -/
theorem expressions_recording (resolve : FieldRef → Lasting σ Expr) (pieces : List Piece)
    (state : σ) (calls : List FieldRef) :
    expressions resolve pieces state =
      ((expressions (recording resolve) pieces (state, calls)).1,
        (expressions (recording resolve) pieces (state, calls)).2.1) := by
  have simulates : Simulates fun α (first : Lasting σ α) (second : Lasting (σ × List FieldRef) α) =>
      ∀ state calls, first state = ((second (state, calls)).1, (second (state, calls)).2.1) := by
    refine ⟨fun _ _ _ => rfl, fun outcome _ _ => rfl, ?_⟩
    intro α β first second next next' same behind state calls
    cases outcome : second (state, calls) with
    | mk result between =>
      cases result with
      | ok value =>
        have same := same state calls
        rw [outcome] at same
        rw [Lasting.bind_of_ok outcome, Lasting.bind_of_ok same]
        exact behind value between.1 between.2
      | error fault =>
        have same := same state calls
        rw [outcome] at same
        rw [Lasting.bind_of_error outcome, Lasting.bind_of_error same]
  exact simulates.expressions (fun ref _ _ => rfl) pieces state calls

/-- **Visits that pass**, from a state to another. -/
inductive Passes (resolve : FieldRef → Lasting σ Expr) : List Visit → σ → σ → Prop
  | nil {state : σ} : Passes resolve [] state state
  | read {ref : FieldRef} {expr : Expr} {rest : List Visit} {first second last : σ} :
    resolve ref first = (.ok expr, second) → Passes resolve rest second last →
    Passes resolve (.read ref :: rest) first last
  | call {function : Function} {rest : List Visit} {first last : σ} :
    function.isSupported = true → Passes resolve rest first last →
    Passes resolve (.call function :: rest) first last

/-- **A visit that fails** in a state, with the state behind it. -/
inductive Fails (resolve : FieldRef → Lasting σ Expr) : Visit → σ → Fault → σ → Prop
  | read {ref : FieldRef} {fault : Fault} {state last : σ} :
    resolve ref state = (.error fault, last) → Fails resolve (.read ref) state fault last
  | call {function : Function} {state : σ} :
    function.isSupported = false →
    Fails resolve (.call function) state (.unsupportedFunction function.name) state

/-- **Visits pass** where every reference is resolved and every function has a form. -/
theorem passes_iff {visits : List Visit} {start last : σ} :
    Passes resolve visits start last ↔
      Passes resolve ((visits.filterMap Visit.reference?).map .read) start last ∧
        ∀ function, .call function ∈ visits → function.isSupported = true := by
  induction visits generalizing start with
  | nil => simp
  | cons visit rest ih =>
    cases visit with
    | read ref =>
      have named : (Visit.read ref :: rest).filterMap Visit.reference? =
          ref :: rest.filterMap Visit.reference? := rfl
      rw [named, List.map_cons]
      constructor
      · rintro (_ | ⟨resolved, passes⟩)
        obtain ⟨reads, calls⟩ := ih.mp passes
        exact ⟨.read resolved reads, fun function member => calls function (by simpa using member)⟩
      · rintro ⟨_ | ⟨resolved, reads⟩, calls⟩
        refine .read resolved (ih.mpr ⟨reads, fun function member => calls function ?_⟩)
        exact List.mem_cons_of_mem _ member
    | call function =>
      have named : (Visit.call function :: rest).filterMap Visit.reference? =
          rest.filterMap Visit.reference? := rfl
      rw [named]
      constructor
      · rintro (_ | _ | ⟨supported, passes⟩)
        obtain ⟨reads, calls⟩ := ih.mp passes
        refine ⟨reads, fun other member => ?_⟩
        rcases List.mem_cons.mp member with same | inside
        · cases same
          exact supported
        · exact calls other inside
      · rintro ⟨reads, calls⟩
        refine .call (calls function List.mem_cons_self) (ih.mpr ⟨reads, fun other member => ?_⟩)
        exact calls other (List.mem_cons_of_mem _ member)

/-- **Visits all pass, or some first one fails.** -/
theorem passes_or_fails (resolve : FieldRef → Lasting σ Expr) (visits : List Visit) (start : σ) :
    (∃ last, Passes resolve visits start last) ∨
      ∃ before visit after between fault last, visits = before ++ visit :: after ∧
        Passes resolve before start between ∧ Fails resolve visit between fault last := by
  induction visits generalizing start with
  | nil => exact .inl ⟨start, .nil⟩
  | cons visit rest ih =>
    cases visit with
    | read ref =>
      cases outcome : resolve ref start with
      | mk result between =>
        cases result with
        | error fault => exact .inr ⟨[], _, rest, start, fault, between, rfl, .nil, .read outcome⟩
        | ok expr =>
          rcases ih between with ⟨last, passes⟩ | ⟨before, visit, after, state, fault, last, rfl,
            passes, fails⟩
          · exact .inl ⟨last, .read outcome passes⟩
          · exact .inr ⟨.read ref :: before, visit, after, state, fault, last, rfl,
              .read outcome passes, fails⟩
    | call function =>
      cases supported : function.isSupported with
      | false => exact .inr ⟨[], _, rest, start, _, start, rfl, .nil, .call supported⟩
      | true =>
        rcases ih start with ⟨last, passes⟩ | ⟨before, visit, after, state, fault, last, rfl,
          passes, fails⟩
        · exact .inl ⟨last, .call supported passes⟩
        · exact .inr ⟨.call function :: before, visit, after, state, fault, last, rfl,
            .call supported passes, fails⟩

/-- Performing visits that pass before others. -/
theorem forM_of_passes {before : List Visit} {start between : σ}
    (passes : Passes resolve before start between) (after : List Visit) (calls : List FieldRef) :
    (forM (before ++ after) (Visit.perform (recording resolve)) : Lasting _ Unit) (start, calls) =
      (forM after (Visit.perform (recording resolve)) : Lasting _ Unit)
        (between, calls ++ before.filterMap Visit.reference?) := by
  induction passes generalizing calls with
  | nil => rw [List.nil_append, List.filterMap_nil, List.append_nil]
  | @read ref expr rest first second last resolved _ ih =>
    have performed : (Visit.perform (recording resolve) (.read ref) : Lasting _ Unit)
        (first, calls) = (.ok (), second, calls ++ [ref]) := by
      have called : recording resolve ref (first, calls) =
          (.ok expr, second, calls ++ [ref]) := by
        rw [recording, resolved]
      exact Lasting.bind_of_ok called
    rw [List.cons_append, List.forM_cons, Lasting.bind_of_ok performed, ih, List.append_assoc]
    rfl
  | @call function rest first last supported _ ih =>
    have performed : (Visit.perform (recording resolve) (.call function) : Lasting _ Unit)
        (first, calls) = (.ok (), first, calls) := by
      rw [Visit.perform, Function.support, if_pos supported]
      rfl
    rw [List.cons_append, List.forM_cons, Lasting.bind_of_ok performed, ih]
    rfl

/-- Performing a visit that fails before others. -/
theorem forM_of_fails {visit : Visit} {state last : σ} {fault : Fault}
    (fails : Fails resolve visit state fault last) (after : List Visit) (calls : List FieldRef) :
    (forM (visit :: after) (Visit.perform (recording resolve)) : Lasting _ Unit) (state, calls) =
      (.error fault, last, calls ++ [visit].filterMap Visit.reference?) := by
  rw [List.forM_cons]
  refine Lasting.bind_of_error ?_
  cases fails with
  | @read ref _ _ _ resolved =>
    have called : recording resolve ref (state, calls) = (.error fault, last, calls ++ [ref]) := by
      rw [recording, resolved]
    exact Lasting.bind_of_error called
  | @call function _ supported =>
    rw [Visit.perform, Function.support, if_neg (by simp [supported]), List.filterMap_cons_none rfl,
      List.filterMap_nil, List.append_nil]
    rfl

/-- Pieces are evaluated as their visits are performed, up to what is given. -/
theorem expressions_bind_pure (pieces : List Piece) (state : σ) :
    (expressions resolve pieces >>= fun _ => pure ()) state =
      (forM (visits pieces) (Visit.perform resolve) : Lasting σ Unit) state := by
  rw [expressions_bind, bind_pure_unit]

/-- **Pieces whose visits all pass** are evaluated with a call for each reference. -/
theorem expressions_of_passes {pieces : List Piece} {start last : σ}
    (passes : Passes resolve (visits pieces) start last) :
    ∃ exprs, expressions (recording resolve) pieces (start, []) =
      (.ok exprs, last, Piece.fieldRefs pieces) := by
  have performed := forM_of_passes passes [] []
  rw [List.append_nil, List.forM_nil, List.nil_append, filterMap_visits,
    ← expressions_bind_pure] at performed
  cases outcome : expressions (recording resolve) pieces (start, []) with
  | mk result between =>
    cases result with
    | ok exprs =>
      rw [Lasting.bind_of_ok outcome] at performed
      cases performed
      exact ⟨exprs, rfl⟩
    | error fault =>
      rw [Lasting.bind_of_error outcome] at performed
      cases performed

/-- **Pieces with a visit that fails**, behind visits that pass, fail with it. -/
theorem expressions_of_fails {pieces : List Piece} {before after : List Visit} {visit : Visit}
    {start between last : σ} {fault : Fault} (split : visits pieces = before ++ visit :: after)
    (passes : Passes resolve before start between)
    (fails : Fails resolve visit between fault last) :
    expressions (recording resolve) pieces (start, []) =
      (.error fault, last, (before ++ [visit]).filterMap Visit.reference?) := by
  have performed := forM_of_passes passes (visit :: after) []
  rw [forM_of_fails fails, ← split, ← expressions_bind_pure, List.nil_append,
    ← List.filterMap_append] at performed
  cases outcome : expressions (recording resolve) pieces (start, []) with
  | mk result between =>
    cases result with
    | ok exprs =>
      rw [Lasting.bind_of_ok outcome] at performed
      cases performed
    | error fault =>
      rw [Lasting.bind_of_error outcome] at performed
      cases performed
      rfl

/-- **How an evaluation ends**: behind all visits, or at the first one that fails. -/
theorem expressions_cases (resolve : FieldRef → Lasting σ Expr) (pieces : List Piece) (start : σ) :
    (∃ exprs last, Passes resolve (visits pieces) start last ∧
      expressions (recording resolve) pieces (start, []) =
        (.ok exprs, last, Piece.fieldRefs pieces)) ∨
    ∃ before visit after between fault last, visits pieces = before ++ visit :: after ∧
      Passes resolve before start between ∧ Fails resolve visit between fault last ∧
      expressions (recording resolve) pieces (start, []) =
        (.error fault, last, (before ++ [visit]).filterMap Visit.reference?) := by
  rcases passes_or_fails resolve (visits pieces) start with
    ⟨last, passes⟩ | ⟨before, visit, after, between, fault, last, split, passes, fails⟩
  · obtain ⟨exprs, evaluated⟩ := expressions_of_passes passes
    exact .inl ⟨exprs, last, passes, evaluated⟩
  · exact .inr ⟨before, visit, after, between, fault, last, split, passes, fails,
      expressions_of_fails split passes fails⟩

/-- **The resolver is called for the first references of the source.** -/
theorem calls_prefix_fieldRefs (resolve : FieldRef → Lasting σ Expr) (pieces : List Piece)
    (start : σ) :
    (expressions (recording resolve) pieces (start, [])).2.2 <+: Piece.fieldRefs pieces := by
  rcases expressions_cases resolve pieces start with
    ⟨exprs, last, _, ended⟩ | ⟨before, visit, after, _, fault, last, split, _, _, ended⟩
  · have called := congrArg (fun outcome => outcome.2.2) ended
    exact called ▸ List.prefix_rfl
  · rw [ended, ← filterMap_visits, split, List.append_cons before visit after]
    exact (List.prefix_append _ _).filterMap _

/-- **Which evaluations succeed.** -/
theorem expressions_ok_iff {pieces : List Piece} {start last : σ} {calls : List FieldRef} :
    (∃ exprs, expressions (recording resolve) pieces (start, []) = (.ok exprs, last, calls)) ↔
      Passes resolve ((Piece.fieldRefs pieces).map .read) start last ∧
        (∀ function, .call function ∈ visits pieces → function.isSupported = true) ∧
        calls = Piece.fieldRefs pieces := by
  constructor
  · rintro ⟨_, evaluated⟩
    rcases expressions_cases resolve pieces start with
      ⟨_, _, passes, ended⟩ | ⟨_, _, _, _, _, _, _, _, _, ended⟩
    · rw [ended] at evaluated
      cases evaluated
      obtain ⟨reads, supported⟩ := passes_iff.mp passes
      rw [filterMap_visits] at reads
      exact ⟨reads, supported, rfl⟩
    · rw [ended] at evaluated
      cases evaluated
  · rintro ⟨reads, supported, rfl⟩
    rw [← filterMap_visits] at reads
    exact expressions_of_passes (passes_iff.mpr ⟨reads, supported⟩)

/-- **Which evaluations fail, and with which fault.** -/
theorem expressions_error_iff {pieces : List Piece} {start last : σ} {calls : List FieldRef}
    {fault : Fault} :
    expressions (recording resolve) pieces (start, []) = (.error fault, last, calls) ↔
      ∃ before visit after between, visits pieces = before ++ visit :: after ∧
        Passes resolve before start between ∧ Fails resolve visit between fault last ∧
        calls = (before ++ [visit]).filterMap Visit.reference? := by
  constructor
  · intro failed
    rcases expressions_cases resolve pieces start with
      ⟨_, _, _, ended⟩ | ⟨before, visit, after, between, _, _, split, passes, fails, ended⟩
    · rw [ended] at failed
      cases failed
    · rw [ended] at failed
      cases failed
      exact ⟨before, visit, after, between, split, passes, fails, rfl⟩
  · rintro ⟨before, visit, after, between, split, passes, fails, rfl⟩
    exact expressions_of_fails split passes fails

/-- **What an evaluation calls, and how it ends.** The resolver is called for references in the
order of the source, each once, up to a failure. The evaluation succeeds where all these calls do
and all functions have a form; else its fault is that of the first visit that fails, behind which
there is no call. -/
theorem expressions_visits (resolve : FieldRef → Lasting σ Expr) (pieces : List Piece)
    (start last : σ) (calls : List FieldRef) :
    let outcome := expressions (recording resolve) pieces (start, [])
    expressions resolve pieces start = (outcome.1, outcome.2.1) ∧
    outcome.2.2 <+: Piece.fieldRefs pieces ∧
    ((∃ exprs, outcome = (.ok exprs, last, calls)) ↔
      Passes resolve ((Piece.fieldRefs pieces).map .read) start last ∧
        (∀ function, .call function ∈ visits pieces → function.isSupported = true) ∧
        calls = Piece.fieldRefs pieces) ∧
    ∀ fault, outcome = (.error fault, last, calls) ↔
      ∃ before visit after between, visits pieces = before ++ visit :: after ∧
        Passes resolve before start between ∧ Fails resolve visit between fault last ∧
        calls = (before ++ [visit]).filterMap Visit.reference? := by
  intro outcome
  exact ⟨expressions_recording resolve pieces start [], calls_prefix_fieldRefs resolve pieces start,
    expressions_ok_iff, fun _ => expressions_error_iff⟩

end

/-- A resolver that counts its calls, and does not know any connection. -/
def countCalls (ref : FieldRef) : Lasting Nat Expr := fun calls =>
  match ref.via with
  | none => (.ok (.raw ref.field), calls + 1)
  | some connection => (.error (.missingFieldReference "field_9" connection), calls + 1)

/-- **The argument fails before its function**, which has no form, and nothing behind it is called
for. -/
theorem expressions_visits_random :
    ∃ pieces, parse "field_9" "upper({field_1}) random({field_2.field_3}) {field_4}" =
        .ok pieces ∧
      Piece.fieldRefs pieces = [⟨"field_1", none⟩, ⟨"field_3", some "field_2"⟩, ⟨"field_4", none⟩] ∧
      expressions (recording countCalls) pieces (0, []) =
        (.error (.missingFieldReference "field_9" "field_2"), 2,
          [⟨"field_1", none⟩, ⟨"field_3", some "field_2"⟩]) := by
  have parses : (parse "field_9"
      "upper({field_1}) random({field_2.field_3}) {field_4}").toOption.map visits =
        some [.read ⟨"field_1", none⟩, .call .upper, .read ⟨"field_3", some "field_2"⟩,
          .call .random, .read ⟨"field_4", none⟩] := by
    decide +kernel
  obtain ⟨pieces, found, split⟩ := Option.map_eq_some_iff.mp parses
  refine ⟨pieces, toOption_eq_some.mp found, ?_, ?_⟩
  · rw [← filterMap_visits, split]
    rfl
  · obtain ⟨_, _, _, fails⟩ := expressions_visits countCalls pieces 0 2
      [⟨"field_1", none⟩, ⟨"field_3", some "field_2"⟩]
    refine (fails _).mpr ⟨[.read ⟨"field_1", none⟩, .call .upper],
      .read ⟨"field_3", some "field_2"⟩, [.call .random, .read ⟨"field_4", none⟩], 1, split, ?_,
      .read rfl, rfl⟩
    exact .read rfl (.call rfl .nil)

end Formula

end AppSchema
