/-
**Statements of the script.**

A script creates schemas, tables and views, adds foreign keys, and inserts the rows of the catalog.
-/

import AppSchema.Schema

namespace AppSchema

/-- A name and what qualifies it, outermost first. -/
abbrev QualifiedName := List String

namespace QualifiedName

/-- A name with periods between its parts. -/
def sql (name : QualifiedName) : String :=
  String.intercalate "." name

end QualifiedName

/-- The definition of a column. -/
structure ColumnDef where
  name : String
  type : ColumnType
  notNull : Bool := false
  unique : Bool := false
  /-- Whether the column alone is the primary key. -/
  primaryKey : Bool := false
  default : Option DefaultValue := none
  /-- The table whose `id` the column references, deleting with it. -/
  references : Option QualifiedName := none
  deriving DecidableEq, Repr, Inhabited

/-- A constraint behind the columns of a table. -/
inductive TableConstraint
  | primaryKey (columns : List String)
  | unique (columns : List String)
  deriving DecidableEq, Repr, Inhabited

/-- A value of a row. -/
inductive RowValue
  | null
  | bool (value : Bool)
  | text (value : String)
  | textArray (values : List String)
  deriving DecidableEq, Repr, Inhabited

/-- A statement. -/
inductive Statement
  | createSchema (name : String)
  /-- Names without a schema stand for what is in these. -/
  | setSearchPath (schemas : List String)
  | createTable (name : QualifiedName) (columns : List ColumnDef)
      (constraints : List TableConstraint)
  /-- The foreign key references the `id` of a table. -/
  | addForeignKey (table : QualifiedName) (name column : String) (references : QualifiedName)
  /-- `table` qualifies the columns of `source`, which the view selects. -/
  | createView (name : QualifiedName) (table : String) (source : QualifiedName)
      (columns : List SelectItem) (joins : List Join)
  /-- A row that is there already is left as it is. -/
  | insert (table : QualifiedName) (columns : List String) (values : List RowValue)
  deriving Inhabited

namespace ColumnDef

/-- The definition of a column of a table in a schema. -/
def ofColumn (schema : String) (column : Column) : ColumnDef :=
  { name := column.name, type := column.type, notNull := !column.nullable
    unique := column.unique, primaryKey := column.primaryKey, default := column.default
    references := column.references.map fun table => [schema, table] }

end ColumnDef

namespace Statement

/-- Creates a table. -/
def ofTable (table : Table) : Statement :=
  createTable [table.schema, table.name] (table.columns.map (ColumnDef.ofColumn table.schema))
    (if table.primaryKey.isEmpty then []
      else [.primaryKey (table.keyColumns.map Column.name)])

/-- Adds a foreign key in a schema. -/
def ofForeignKey (schema : String) (key : ForeignKey) : Statement :=
  addForeignKey [schema, key.table] key.name key.column [schema, key.references]

/-- Creates a view. -/
def ofView (view : View) : Statement :=
  createView [view.schema, view.name] view.table [view.schema, view.table] view.columns view.joins

/-- The table of the catalog in a schema. -/
def catalogName (schema : String) : QualifiedName :=
  [schema, "fields"]

/-- A column of text in the catalog. -/
def textColumn (name : String) : ColumnDef :=
  { name, type := .text, notNull := true }

/-- A column of truth values in the catalog. -/
def flagColumn (name : String) : ColumnDef :=
  { name, type := .boolean, notNull := true }

/-- Creates the table of the catalog. -/
def catalogTable (schema : String) : Statement :=
  createTable (catalogName schema)
    [{ name := "id", type := .serial, primaryKey := true },
     textColumn "table_name",
     { name := "view_name", type := .text },
     textColumn "column_name",
     textColumn "data_type",
     textColumn "input_type",
     flagColumn "is_primary_key",
     flagColumn "is_formula",
     flagColumn "is_connection",
     flagColumn "read_only",
     { name := "options", type := .array .text }]
    [.unique ["table_name", "column_name"]]

/-- The columns and values of the row of a catalog entry. -/
def catalogRow (entry : CatalogEntry) : List (String × RowValue) :=
  [("table_name", .text entry.tableName),
   ("view_name", (entry.viewName.map RowValue.text).getD .null),
   ("column_name", .text entry.columnName),
   ("data_type", .text entry.dataType),
   ("input_type", .text entry.inputType),
   ("is_primary_key", .bool entry.isPrimaryKey),
   ("is_formula", .bool entry.isFormula),
   ("is_connection", .bool entry.isConnection),
   ("read_only", .bool entry.readOnly),
   ("options", (entry.options.map RowValue.textArray).getD .null)]

/-- Inserts a catalog entry. -/
def ofCatalogEntry (schema : String) (entry : CatalogEntry) : Statement :=
  insert (catalogName schema) ((catalogRow entry).map Prod.fst) ((catalogRow entry).map Prod.snd)

/-- What a statement creates, in a few words. -/
def describe : Statement → String
  | createSchema name => "schema " ++ name
  | setSearchPath _ => "search path"
  | createTable name _ _ => "table " ++ name.sql
  | addForeignKey _ name _ _ => "foreign key " ++ name
  | createView name _ _ _ _ => "view " ++ name.sql
  | insert table _ _ => "row in " ++ table.sql

/-- Whether a statement creates a view. -/
def isCreateView : Statement → Bool
  | createView .. => true
  | _ => false

end Statement

end AppSchema
