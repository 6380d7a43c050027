/-
**What expressions read.**

A leaf of an expression reads a column directly, or a column of the rows of a subquery and those of
the condition that picks them. A qualifier stands for the first item of its name in the scope, and a
subquery puts its own items before those around it.

* `Expr.leaves`: the leaves of an expression, with `Function.leaves_apply` and
  `Formula.leaves_single` for what formulas make of them;
* `Leaf.reads`: the columns that a leaf reads, each with its relation;
* `ColumnRef.read?_append`: a qualifier that an item has stands for it, or for one before it.
-/

import AppSchema.Formula.Expression

namespace AppSchema

namespace Sql

/-- A column of a relation, as it is read. -/
structure Read where
  relation : String
  column : String
  deriving DecidableEq, Repr

/-- A place in an expression where columns are read. -/
inductive Leaf
  | column (ref : ColumnRef)
  /-- A column of the rows of a subquery. -/
  | rows (ref : ColumnRef) (rows : Rows)
  deriving DecidableEq, Repr

/-- The columns that a condition compares. -/
def Condition.refs : Condition → List ColumnRef
  | raw _ => []
  | equal left right => [left, right]
  | member left array => [left, array]
  | both first second => first.refs ++ second.refs

/-- The condition of a filter. -/
def Filter.condition : Filter → Condition
  | onlyIf condition => condition
  | through _ condition => condition

/-- What a filter reads next to the source. -/
def Filter.items : Filter → List FromItem
  | onlyIf _ => []
  | through association _ => [{ relation := association }]

/-- The column that a reference reads, if its qualifier is in scope. -/
def ColumnRef.read? (ref : ColumnRef) (scope : List FromItem) : Option Read :=
  (scope.find? (·.name == ref.qualifier)).map fun item => ⟨item.relation, ref.column⟩

namespace Leaf

/-- The columns that a leaf refers to. -/
def refs : Leaf → List ColumnRef
  | column ref => [ref]
  | rows ref picked => ref :: picked.filter.condition.refs

/-- What a leaf itself selects from. -/
def items : Leaf → List FromItem
  | column _ => []
  | rows _ picked => picked.source :: picked.filter.items

/-- **What a leaf reads** inside a scope. -/
def reads (leaf : Leaf) (scope : List FromItem) : List Read :=
  leaf.refs.filterMap (·.read? (leaf.items ++ scope))

end Leaf

namespace Expr

mutual

/-- The leaves of an expression. -/
def leaves : Expr → List Leaf
  | .raw _ => []
  | .literal _ => []
  | .column ref => [.column ref]
  | .concat parts => leavesEach parts
  | .call _ arguments => leavesEach arguments
  | .dateName date _ => date.leaves
  | .remove text part => text.leaves ++ part.leaves
  | .firstMatch text pattern => text.leaves ++ pattern.leaves
  | .summary _ ref rows => [.rows ref rows]

/-- The leaves of several expressions. -/
def leavesEach : List Expr → List Leaf
  | [] => []
  | first :: rest => first.leaves ++ leavesEach rest

end

theorem mem_leavesEach {leaf : Leaf} {exprs : List Expr} :
    leaf ∈ leavesEach exprs ↔ ∃ expr ∈ exprs, leaf ∈ expr.leaves := by
  induction exprs with
  | nil => simp [leavesEach]
  | cons first rest ih => simp [leavesEach, ih]

end Expr

/-! ### Scopes -/

namespace ColumnRef

variable {ref : ColumnRef} {scope front : List FromItem} {item base : FromItem} {read : Read}

theorem read?_cons_self (named : item.name = ref.qualifier) :
    ref.read? (item :: scope) = some ⟨item.relation, ref.column⟩ := by
  rw [read?, List.find?_cons_of_pos (by simpa using named)]
  rfl

/-- **A qualifier stands for an item of its name.** -/
theorem exists_of_read? (found : ref.read? scope = some read) :
    ∃ item ∈ scope, item.name = ref.qualifier ∧ read = ⟨item.relation, ref.column⟩ := by
  obtain ⟨item, first, rfl⟩ := Option.map_eq_some_iff.mp found
  exact ⟨item, List.mem_of_find?_eq_some first, by simpa using List.find?_some first, rfl⟩

/-- **A qualifier that an item has stands for it, or for one before it.** -/
theorem read?_append (found : ref.read? (front ++ base :: scope) = some read)
    (named : base.name = ref.qualifier) :
    ∃ item ∈ front ++ [base], item.name = ref.qualifier ∧
      read = ⟨item.relation, ref.column⟩ := by
  have closer : ref.read? (front ++ [base]) = ref.read? (front ++ base :: scope) := by
    rw [read?, read?, List.find?_append, List.find?_append,
      List.find?_cons_of_pos (by simpa using named), List.find?_cons_of_pos (by simpa using named)]
  exact exists_of_read? (closer.trans found)

end ColumnRef

end Sql

/-! ### What formulas make of expressions -/

open Sql (Expr Leaf)

/-- **A call reads what its arguments read.** -/
theorem Function.leaves_apply {function : Function} {arguments : List Expr} {expr : Expr}
    (applied : function.apply arguments = .ok expr) {leaf : Leaf} (member : leaf ∈ expr.leaves) :
    ∃ argument ∈ arguments, leaf ∈ argument.leaves := by
  have ofArgument : ∀ position, leaf ∈ (arguments.getD position (.concat [])).leaves →
      ∃ argument ∈ arguments, leaf ∈ argument.leaves := by
    intro position inside
    rw [List.getD_eq_getElem?_getD] at inside
    cases found : arguments[position]? with
    | none => simp [found, Expr.leaves, Expr.leavesEach] at inside
    | some argument => exact ⟨argument, List.mem_of_getElem? found, by simpa [found] using inside⟩
  unfold Function.apply at applied
  cases rendered : function.rendering? with
  | none => simp [rendered] at applied
  | some rendering =>
    simp only [rendered] at applied
    cases rendering with
    | call name =>
      cases applied
      rw [Expr.leaves] at member
      exact Expr.mem_leavesEach.mp member
    | dateName format =>
      cases applied
      rw [Expr.leaves] at member
      exact ofArgument 0 member
    | remove =>
      cases applied
      rw [Expr.leaves] at member
      rcases List.mem_append.mp member with member | member
      · exact ofArgument 0 member
      · exact ofArgument 1 member
    | firstMatch =>
      cases applied
      rw [Expr.leaves] at member
      rcases List.mem_append.mp member with member | member
      · exact ofArgument 0 member
      · exact ofArgument 1 member

/-- One expression for several reads what they read. -/
theorem Formula.leaves_single {parts : List Expr} {leaf : Leaf}
    (member : leaf ∈ (single parts).leaves) : ∃ part ∈ parts, leaf ∈ part.leaves := by
  unfold single at member
  split at member
  · exact ⟨_, List.mem_singleton_self _, member⟩
  · rw [Expr.leaves] at member
    exact Expr.mem_leavesEach.mp member

end AppSchema
