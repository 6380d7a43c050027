/-
**The view of every table.**

The view of a table shows its columns and, behind them, its formula fields. It joins what they need
under aliases, each alias once, and depends on the other views that they read.
-/

import AppSchema.Formula.Compile

namespace AppSchema

/-- An expression that a view selects. -/
inductive SelectItem
  /-- SQL from outside. -/
  | raw (sql : String)
  | named (expr : Sql.Expr) (name : String)
  deriving Inhabited

/-- A view. It selects all columns of its table first. -/
structure View where
  name : String
  schema : String
  table : String
  columns : List SelectItem := []
  joins : List Join := []
  /-- The views that are read, each once. -/
  dependsOn : List String := []
  deriving Inhabited

namespace SelectItem

/-- A selected expression in SQL. -/
def sql : SelectItem → String
  | raw text => text
  | named expr name => expr.sql ++ " AS " ++ name

end SelectItem

namespace CompiledFormula

/-- The column of a formula. -/
def item (formula : CompiledFormula) : SelectItem :=
  .named formula.expr formula.name

end CompiledFormula

namespace View

/-- Joins under an alias, unless it is joined already. -/
def addJoin (view : View) (join : Join) : View :=
  if view.joins.any (·.aliasName == join.aliasName) then view
  else { view with joins := view.joins ++ [join] }

/-- Depends on another view. -/
def addDependency (view : View) (name : String) : View :=
  if name = view.name ∨ name ∈ view.dependsOn then view
  else { view with dependsOn := view.dependsOn ++ [name] }

/-- Adds the column of a formula, with its joins and its dependencies. -/
def addFormula (view : View) (formula : CompiledFormula) : View :=
  formula.dependsOn.foldl addDependency
    (formula.joins.foldl addJoin { view with columns := view.columns ++ [formula.item] })

/-- The view of an entity, with those of its formulas that were compiled. -/
def ofEntity (layout : Layout) (formulas : List CompiledFormula) (entity : Entity) : View :=
  let table := layout.table entity.id
  let compiled := entity.formulaFields.filterMap fun field =>
    formulas.find? (·.field == field.id)
  compiled.foldl addFormula { name := entity.viewName, schema := table.schema, table := table.name }

/-- The views of all entities, in their order. -/
def ofLayout (layout : Layout) (formulas : List CompiledFormula) : List View :=
  layout.application.entities.map (ofEntity layout formulas)

end View

end AppSchema
