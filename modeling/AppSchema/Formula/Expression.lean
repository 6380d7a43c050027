/-
**The expressions of pieces.**

Pieces become expressions from left to right, the arguments of a call before the call. What a
reference to a field stands for is up to a resolver, which may keep a state. The first thing that
fails ends the evaluation. It runs in every monad that knows faults, so that the state may end with
them or outlive them.

A count is the one argument that is not a text: where a function takes a count second, an integer
stands for itself.
-/

import AppSchema.Formula.Parser
import AppSchema.Sql.Expr
import AppSchema.Text.Numeric

namespace AppSchema

open Sql (Expr)

namespace Function

/-- A call with its arguments, if it has a form in SQL. -/
def apply (function : Function) (arguments : List Expr) : Except Fault Expr :=
  match function.rendering? with
  | none => .error (.unsupportedFunction function.name)
  | some rendering =>
    let first := arguments.getD 0 (.concat [])
    let second := arguments.getD 1 (.concat [])
    match rendering with
    | .call name => .ok (.call name arguments)
    | .dateName format => .ok (.dateName first format)
    | .remove => .ok (.remove first second)
    | .firstMatch => .ok (.firstMatch first second)

end Function

namespace Formula

/-- An evaluation with a state that ends at a fault. -/
abbrev Evaluation (σ : Type) := StateT σ (Except Fault)

/-- What references to fields stand for. -/
abbrev Resolver (σ : Type) := FieldRef → Evaluation σ Expr

/-- The count that an argument is, if it is one. -/
def count? : List Piece → Option String
  | [.text chars] =>
    if Text.isInteger (Text.trim chars) then some (String.ofList (Text.trim chars)) else none
  | _ => none

/-- One expression for several: itself if it is alone. -/
def single : List Expr → Expr
  | [part] => part
  | parts => .concat parts

section

variable {m : Type → Type} [Monad m] [MonadLiftT (Except Fault) m]

mutual

/-- The expressions of pieces. Empty texts have none. -/
def expressions (resolve : FieldRef → m Expr) : List Piece → m (List Expr)
  | [] => pure []
  | .text chars :: rest => do
    let others ← expressions resolve rest
    pure (if chars.isEmpty then others else .literal chars :: others)
  | .field ref :: rest => do
    let expr ← resolve ref
    let others ← expressions resolve rest
    pure (expr :: others)
  | .call function arguments _ :: rest => do
    let arguments ← argumentExpressions resolve function.takesCount arguments
    let expr ← (function.apply arguments : Except Fault Expr)
    let others ← expressions resolve rest
    pure (expr :: others)

/-- The expressions of arguments. `counted` says that the second is a count. -/
def argumentExpressions (resolve : FieldRef → m Expr) (counted : Bool) :
    List (List Piece) → m (List Expr)
  | [] => pure []
  | first :: rest => do
    let parts ← expressions resolve first
    let others ← laterExpressions resolve counted rest
    pure (single parts :: others)

/-- The expressions of the arguments behind the first. -/
def laterExpressions (resolve : FieldRef → m Expr) (counted : Bool) :
    List (List Piece) → m (List Expr)
  | [] => pure []
  | argument :: rest => do
    let expr ←
      match if counted then count? argument else none with
      | some count => pure (.raw count)
      | none => single <$> expressions resolve argument
    let others ← laterExpressions resolve false rest
    pure (expr :: others)

end

end

end Formula

end AppSchema
