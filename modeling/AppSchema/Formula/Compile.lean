/-
**Compiling formula fields.**

An aggregate becomes a subquery over the rows that its connection leads to. A text formula becomes
one concatenation. Its references read a stored column of the host; or, through a connection that
the host stores as one id, a column of a joined view; or else all values of the linked rows in one
text.

A formula that refers to anything else fails, and is left out with an error.
-/

import AppSchema.Formula.Expression
import AppSchema.Formula.Link

namespace AppSchema

open Sql (ColumnRef Condition Expr FromItem)

/-- A view or table that is joined to a view's own table, under an alias. -/
structure Join where
  relation : String
  aliasName : String
  on : Condition
  deriving DecidableEq, Repr, Inhabited

/-- A formula field as a column of its view. -/
structure CompiledFormula where
  field : FieldId
  expr : Expr
  /-- The name of the column. -/
  name : String
  /-- What the view must join. -/
  joins : List Join := []
  /-- The other views that are read, each once. -/
  dependsOn : List String := []
  deriving Inhabited

namespace Formula

/-- What the references of a formula have read so far. -/
structure Reads where
  /-- One join for each alias. -/
  joins : List Join := []
  /-- The views, each once. -/
  views : List String := []
  deriving Inhabited

namespace Reads

/-- Reads a view. -/
def addView (reads : Reads) (view : String) : Reads :=
  if view ∈ reads.views then reads else { reads with views := reads.views ++ [view] }

/-- Reads a source, which counts if it is a view. -/
def addSource (reads : Reads) (source : FromItem) : Reads :=
  if source.isView then reads.addView source.relation else reads

/-- Joins under an alias, unless it is joined already. -/
def addJoin (reads : Reads) (join : Join) : Reads :=
  if reads.joins.any (·.aliasName == join.aliasName) then reads
  else { reads with joins := reads.joins ++ [join] }

end Reads

/-- A formula of a field that is wrong in its place. -/
def wrong {α : Type} (formula : Field) (fault : FormulaFault) : Except Fault α :=
  .error (.malformedFormula formula.key none fault)

/-- The column from which a field is read. Formulas are columns of views only, so they cannot be
read where `stored` columns are asked for. -/
def readableColumn (layout : Layout) (field : Field) (stored : Bool) : Except Fault String :=
  let table := (layout.entity field.id.table).name.ident
  match field.kind with
  | .stored _ => .ok field.name.ident
  | .aggregate _ | .concatenation _ =>
    if stored then .error (.unsupportedFeature (.formulaInTable field.key table))
    else .ok field.name.ident
  | .connection _ =>
    match layout.column? field.id with
    | some column => .ok column.name
    | none => .error (.unsupportedFeature (.noColumn field.key table))

/-- The relation that a formula follows. -/
def followed (layout : Layout) (formula : Field) (connection : String) :
    Except Fault Relation := do
  let id ← layout.index.requireField formula.key connection
  if (layout.field id).kind.connection?.isNone then wrong formula (.notConnection connection)
  else
    match layout.relation? id with
    | some relation => return relation
    | none => wrong formula (.unresolvedConnection connection)

/-- The link of a connection from the host of a formula, and the table on its other side. -/
def linked (layout : Layout) (formula : Field) (connection : String) (outward : Bool) :
    Except Fault (Link × TableId) := do
  let host := formula.id.table
  let relation ← followed layout formula connection
  match Link.of? layout relation host outward, relation.other? host with
  | some link, some other => return (link, other)
  | _, _ => wrong formula (.unlinkedConnection connection (layout.entity host).name.ident)

/-! ## Aggregates -/

/-- The column that an aggregate summarises. Counting counts ids. -/
def aggregateColumn (layout : Layout) (formula : Field) (aggregate : Aggregate) (other : TableId)
    (stored : Bool) : Except Fault String :=
  if aggregate.method = .count then .ok "id"
  else
    match aggregate.target with
    | none => wrong formula .noTarget
    | some target => do
      let id ← layout.index.requireField formula.key target
      if id.table ≠ other then
        wrong formula (.foreignTarget target (layout.entity other).name.ident)
      else readableColumn layout (layout.field id) stored

/-- Compiles an aggregate. -/
def compileAggregate (layout : Layout) (formula : Field) (aggregate : Aggregate) :
    Except Fault CompiledFormula := do
  let host := formula.id.table
  let (link, other) ← linked layout formula aggregate.connection false
  let source := layout.source host other
  let column ← aggregateColumn layout formula aggregate other (!source.isView)
  return {
    field := formula.id
    expr := .summary (.aggregate aggregate.method) ⟨source.name, column⟩
      (link.rows source (layout.entity host).name.ident)
    name := formula.name.ident
    dependsOn := if source.isView then [source.relation] else [] }

/-! ## Text formulas -/

/-- Reads a stored column of the host. -/
def readOwn (layout : Layout) (formula : Field) (key : String) : Except Fault Expr := do
  let host := layout.entity formula.id.table
  let id ← layout.index.requireField formula.key key
  if id.table ≠ formula.id.table then
    wrong formula (.foreignField key (layout.entity id.table).name.ident host.name.ident)
  else
    let column ← readableColumn layout (layout.field id) true
    return .column ⟨host.name.ident, column⟩

/-- The join of a source under the name of the host's column of its ids. -/
def joinOn (source : FromItem) (host column : String) : Join :=
  { relation := source.relation, aliasName := column, on := .equal ⟨host, column⟩ ⟨column, "id"⟩ }

/-- Reads a column of the table that a connection leads to. -/
def readLinked (layout : Layout) (formula : Field) (connection key : String) (reads : Reads) :
    Except Fault (Expr × Reads) := do
  let host := layout.entity formula.id.table
  let (link, other) ← linked layout formula connection true
  let id ← layout.index.requireField formula.key key
  if id.table ≠ other then
    wrong formula (.foreignTraversal key (layout.entity other).name.ident connection)
  else
    let source := layout.source formula.id.table other
    let column ← readableColumn layout (layout.field id) (!source.isView)
    let reads := reads.addSource source
    match link with
    | .outbound hostColumn false =>
      return (.column ⟨hostColumn, column⟩,
        reads.addJoin (joinOn source host.name.ident hostColumn))
    | link =>
      return (.summary .joined ⟨source.name, column⟩ (link.rows source host.name.ident), reads)

/-- What the references of a formula stand for. -/
def resolver (layout : Layout) (formula : Field) : Resolver Reads := fun ref =>
  match ref.via with
  | none => (readOwn layout formula ref.field : Except Fault Expr)
  | some connection => readLinked layout formula connection ref.field

/-- Compiles a text formula. -/
def compileConcatenation (layout : Layout) (formula : Field) (equation : String) :
    Except Fault CompiledFormula := do
  let pieces ← parse formula.key equation
  let (parts, reads) ← (expressions (resolver layout formula) pieces).run {}
  return {
    field := formula.id, expr := .concat parts, name := formula.name.ident
    joins := reads.joins, dependsOn := reads.views }

/-! ## All formulas -/

/-- Compiles a formula field. -/
def compile (layout : Layout) (formula : Field) : Except Fault CompiledFormula :=
  match formula.kind with
  | .aggregate aggregate => compileAggregate layout formula aggregate
  | .concatenation equation => compileConcatenation layout formula equation
  | _ => wrong formula .notFormula

/-- Compiles a formula field of an entity, or leaves it out with an error. -/
def attempt (layout : Layout) (state : List CompiledFormula × List Diagnostic)
    (formula : Entity × Field) : List CompiledFormula × List Diagnostic :=
  match compile layout formula.2 with
  | .ok compiled => (state.1 ++ [compiled], state.2)
  | .error fault =>
    (state.1, state.2 ++ [⟨.field formula.1.key formula.2.key, .error, fault⟩])

/-- Compiles every formula field of every entity. -/
def compileAll (layout : Layout) : List CompiledFormula × List Diagnostic :=
  (layout.application.entities.flatMap fun entity =>
    entity.formulaFields.map (entity, ·)).foldl (attempt layout) ([], [])

end Formula

end AppSchema
