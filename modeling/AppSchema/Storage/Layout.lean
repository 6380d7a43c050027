/-
**The tables that store an application.**

Every entity has a table, and every pair of entities that some connection links many to many has an
association. Connections are stored one after the other, in the order of the entities and their
fields. A connection whose names are taken, or which leads nowhere, is left out with an error, and
nothing of it remains.

## Names

* A column of ids is named after the connection and the table whose ids it has.
* An association is named after its two tables, the lesser name first, so that both directions share
  it. Its columns are named after the tables; where a table is linked to itself, the second column
  is the related one.
-/

import AppSchema.Application.Index
import AppSchema.Diagnostic
import AppSchema.Storage.Relation
import AppSchema.Storage.Table

namespace AppSchema

/-! ## Storing connections -/

/-- What the connections have added so far. -/
structure Plan where
  /-- The names of columns that are taken, by table. -/
  taken : List (TableId × Name) := []
  /-- The columns of ids, by the table that has them. -/
  references : List (TableId × Column) := []
  associations : List Table := []
  foreignKeys : List ForeignKey := []
  relations : List (FieldId × Relation) := []
  deriving Inhabited

namespace Plan

/-- Before any connection, the fields of an entity have taken their names. -/
def initial (application : Application) : Plan :=
  { taken := application.entities.flatMap fun entity =>
      entity.fields.map fun field => (entity.id, field.name) }

/-- The name that has taken an identifier among the columns of a table. -/
def taker? (plan : Plan) (table : TableId) (ident : String) : Option Name :=
  (plan.taken.find? fun taken => taken.1 == table && taken.2.ident == ident).map Prod.snd

/-- The name of a column of ids. -/
def referenceName (field : Field) (referenced : Entity) : String :=
  field.name.ident ++ "_rel_" ++ referenced.name.ident ++ "_id"

/-- Stores a connection as a column of `holder`. -/
def addReference (plan : Plan) (field : Field) (holder referenced : Entity) (array : Bool) :
    Except Fault Plan :=
  let name := referenceName field referenced
  match plan.taker? holder.id name with
  | some first =>
    .error (.identifierCollision holder.name.ident first.label field.name.label name)
  | none =>
    let type := if array then ColumnType.integer.arrayOf else .integer
    .ok { plan with
      taken := plan.taken ++ [(holder.id, ⟨name, field.name.label⟩)]
      references := plan.references ++ [(holder.id, { name, type, field := some field.id })]
      foreignKeys := plan.foreignKeys ++
        if array then [] else [ForeignKey.of holder.name.ident name referenced.name.ident]
      relations := plan.relations ++
        [(field.id, .single holder.id name referenced.id array)] }

/-- The name of the association of two entities, the lesser name first. -/
def associationName (first second : Entity) : String :=
  "many_" ++ first.name.ident ++ "_to_many_" ++ second.name.ident

/-- The names of the columns of an association. -/
def associationColumns (first second : Entity) : String × String :=
  (first.name.ident ++ "_id",
    (if first.id = second.id then "related_" else "") ++ second.name.ident ++ "_id")

/-- A column of an association. -/
def associationColumn (side : Entity) (name : String) : Column :=
  { name, type := .integer, nullable := false, references := some side.name.ident }

/-- The association of two entities. -/
def association (schema : String) (id : TableId) (first second : Entity) : Table :=
  let names := associationColumns first second
  { id, name := associationName first second, schema
    columns := [associationColumn first names.1, associationColumn second names.2]
    primaryKey := [0, 1], kind := .association }

/-- The position of the association of two entities, and the plan that has it. No entity may have
its name. -/
def requireAssociation (application : Application) (schema : String) (plan : Plan)
    (first second : Entity) : Except Fault (TableId × Plan) :=
  let name := associationName first second
  match plan.associations.find? (·.name == name) with
  | some table => .ok (table.id, plan)
  | none =>
    match application.entities.find? (·.name.ident == name) with
    | some entity => .error (.identifierCollision "tables" entity.name.label name name)
    | none =>
      let id := application.entities.length + plan.associations.length
      .ok (id, { plan with
        associations := plan.associations ++ [association schema id first second] })

/-- Stores a connection in an association. -/
def addAssociation (application : Application) (schema : String) (plan : Plan) (field : Field)
    (host target : Entity) : Except Fault Plan := do
  let (first, second) :=
    if host.name.ident ≤ target.name.ident then (host, target) else (target, host)
  let (firstColumn, secondColumn) := associationColumns first second
  let (hostColumn, targetColumn) :=
    if host.id = first.id then (firstColumn, secondColumn) else (secondColumn, firstColumn)
  let (id, plan) ← requireAssociation application schema plan first second
  return { plan with
    relations := plan.relations ++
      [(field.id, .manyToMany id host.id target.id hostColumn targetColumn)] }

/-- Stores a connection. The column of ids goes to the side with many records of a one-to-many
connection, and to the connection's own side otherwise. -/
def add (application : Application) (index : Index) (schema : String) (plan : Plan)
    (host : Entity) (field : Field) (connection : Connection) : Except Fault Plan := do
  let target := application.entity (← index.requireEntity field.key connection.target)
  if connection.isManyToMany then addAssociation application schema plan field host target
  else if connection.isOneToMany then addReference plan field target host false
  else addReference plan field host target connection.isManyToOne

/-- Stores a connection, or leaves it out with an error. -/
def attempt (application : Application) (index : Index) (schema : String)
    (state : Plan × List Diagnostic) (connected : Entity × Field × Connection) :
    Plan × List Diagnostic :=
  let (host, field, connection) := connected
  match state.1.add application index schema host field connection with
  | .ok plan => (plan, state.2)
  | .error fault => (state.1, state.2 ++ [⟨.field host.key field.key, .error, fault⟩])

end Plan

namespace Application

/-- Every connection, with its field and its entity. -/
def connections (application : Application) : List (Entity × Field × Connection) :=
  application.entities.flatMap fun entity =>
    entity.fields.filterMap fun field =>
      field.kind.connection?.map fun connection => (entity, field, connection)

end Application

/-! ## Tables -/

namespace Entity

/-- The column of a field that is stored as one. -/
def storedColumn? (field : Field) : Option Column :=
  field.kind.stored?.map fun stored =>
    { name := field.name.ident, type := stored.type, nullable := stored.nullable
      unique := stored.unique, primaryKey := stored.primaryKey, default := stored.default
      field := some field.id }

/-- The table of an entity: the columns of its own fields, columns of ids, and the two keys. -/
def table (schema : String) (references : List Column) (entity : Entity) : Table :=
  { id := entity.id, name := entity.name.ident, schema
    columns := entity.domainFields.filterMap storedColumn? ++ references ++
      entity.syntheticFields.filterMap storedColumn?
    primaryKey := [], kind := .object }

end Entity

/-- An application with the tables that store it. -/
structure Layout where
  application : Application
  index : Index
  /-- The tables of the entities at their positions, and the associations behind them. -/
  tables : List Table
  foreignKeys : List ForeignKey
  /-- How the connections are stored, by field. -/
  relations : List (FieldId × Relation)
  deriving Inhabited

namespace Plan

/-- The columns of ids of a table. -/
def referencesOf (plan : Plan) (table : TableId) : List Column :=
  (plan.references.filter (·.1 == table)).map Prod.snd

/-- The layout of a finished plan. -/
def layout (plan : Plan) (application : Application) (index : Index) (schema : String) :
    Layout :=
  { application, index
    tables := (application.entities.map fun entity =>
      entity.table schema (plan.referencesOf entity.id)) ++ plan.associations
    foreignKeys := plan.foreignKeys
    relations := plan.relations }

end Plan

namespace Layout

/-- The layout of an application, and the connections that were left out. -/
def ofApplication (application : Application) (index : Index) (schema : String) :
    Layout × List Diagnostic :=
  let (plan, diagnostics) := application.connections.foldl
    (Plan.attempt application index schema) (Plan.initial application, [])
  (plan.layout application index schema, diagnostics)

/-- The entity at a position. -/
def entity (layout : Layout) (id : TableId) : Entity :=
  layout.application.entity id

/-- The field at a position. -/
def field (layout : Layout) (id : FieldId) : Field :=
  layout.application.field id

/-- The table at a position; an empty one beyond the last. -/
def table (layout : Layout) (id : TableId) : Table :=
  layout.tables.getD id default

/-- How a connection field is stored. -/
def relation? (layout : Layout) (field : FieldId) : Option Relation :=
  layout.relations.lookup field

/-- The column that stores a field on the table of its own entity. -/
def column? (layout : Layout) (field : FieldId) : Option Column :=
  (layout.table field.table).columns.find? (·.field == some field)

end Layout

end AppSchema
