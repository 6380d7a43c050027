/-
**Tables and foreign keys.**

A table stores the records of one object, or associates the records of two. Its key is either a
column that says so itself or a list of positions of columns.
-/

import AppSchema.Storage.Column

namespace AppSchema

/-- What a table stores. -/
inductive TableKind
  | object
  | association
  deriving DecidableEq, Repr, Inhabited

/-- A table of the database. -/
structure Table where
  id : TableId
  name : String
  schema : String
  columns : List Column
  /-- The positions of the columns of a key of several columns. -/
  primaryKey : List Nat
  kind : TableKind
  deriving DecidableEq, Repr, Inhabited

namespace Table

/-- The column of a name. -/
def column? (table : Table) (name : String) : Option Column :=
  table.columns.find? (·.name == name)

/-- The columns of a key of several columns. -/
def keyColumns (table : Table) : List Column :=
  table.primaryKey.filterMap fun position => table.columns[position]?

/-- Whether a table associates two objects. -/
def isAssociation (table : Table) : Bool :=
  table.kind == .association

end Table

/-- A foreign key that is added to a table. It references the `id` of another. -/
structure ForeignKey where
  name : String
  table : String
  column : String
  references : String
  deriving DecidableEq, Repr, Inhabited

namespace ForeignKey

/-- The foreign key of a column, named after its table and column. -/
def of (table column references : String) : ForeignKey :=
  { name := table ++ "_" ++ column ++ "_fkey", table, column, references }

end ForeignKey

end AppSchema
