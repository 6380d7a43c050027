/-
**Checks on a layout.**

The columns of a table have different names, and every table has a key. Tables and views share one
namespace, in which a view is named after its table. No name is longer than what the database keeps.
-/

import AppSchema.Storage.Layout

namespace AppSchema

namespace Table

/-- Columns must have different names, and some column must be a key. -/
def check (table : Table) : Except Fault Unit :=
  match Name.collision? [] (table.columns.map fun column => .ofIdent column.name) with
  | some (first, second) =>
    .error (.identifierCollision table.name first.ident second.ident second.ident)
  | none =>
    if table.primaryKey.isEmpty && !table.columns.any (·.primaryKey) then
      .error (.invalidMetadata (.noPrimaryKey table.name))
    else .ok ()

end Table

namespace Layout

/-- Every table must pass its check. -/
def checkTables (layout : Layout) : Except Fault Unit :=
  layout.tables.forM Table.check

/-- The names of tables and views, with the labels that a collision reports. -/
def relationNames (layout : Layout) : List Name :=
  (layout.tables.map fun table =>
    ⟨table.name,
      if table.isAssociation then table.name else (layout.entity table.id).name.label⟩) ++
  layout.application.entities.map fun entity =>
    ⟨entity.viewName, "view of " ++ entity.name.label⟩

/-- Tables and views must have different names. -/
def checkRelationNames (layout : Layout) : Except Fault Unit :=
  match Name.collision? [] layout.relationNames with
  | some (first, second) =>
    .error (.identifierCollision "relations" first.label second.label second.ident)
  | none => .ok ()

/-- The most bytes of a name that the database keeps. -/
def longest : Nat := 63

/-- The names of tables with their columns, of foreign keys, and of views. -/
def identifiers (layout : Layout) : List String :=
  (layout.tables.flatMap fun table => table.name :: table.columns.map Column.name) ++
  layout.foreignKeys.map ForeignKey.name ++
  layout.application.entities.map Entity.viewName

/-- No name may be cut off. -/
def checkLengths (layout : Layout) : Except Fault Unit :=
  match layout.identifiers.find? (longest < ·.utf8ByteSize) with
  | some name => .error (.invalidMetadata (.longIdentifier name longest))
  | none => .ok ()

end Layout

end AppSchema
