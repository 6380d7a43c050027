/-
**The catalog describes what the script creates.**

The rows of the catalog and the statements of the script are written apart, from the same tables. A
row has the name of the type of a column and whether it is part of a primary key; the statement that
creates the table writes the type behind the text it has so far, and has the key at a column or
behind all of them. Table by table the rows are those of the stored columns, in their order, and
behind them those of the formulas that the view of the table computes.

* `ColumnType.appendTo_eq`: a type is written behind a text as it is named in a row;
* `Statement.Keys`: a statement makes a column part of a primary key, alone or with others;
* `CatalogEntry.Describes`, `CatalogEntry.Computes`: a row is that of a column that is defined, or
  of an expression that is selected;
* `Schema.Lists`: the rows of a table, against the statements that create the table and its view;
* `Settings.lists_of_build`: the catalog of a compiled application has these rows, and no others.
-/

import AppSchema.Proofs.Catalog
import AppSchema.Proofs.Script
import AppSchema.Proofs.Storage.Association
import AppSchema.Statement.Sql

namespace AppSchema

/-! ### What statements say of columns -/

namespace ColumnDef

/-- What the definition of a column says behind its type. -/
def clauses (column : ColumnDef) : String :=
  (if column.primaryKey then " PRIMARY KEY" else "") ++
    (match column.default with
      | some value => " DEFAULT " ++ value.sql
      | none => "") ++
    column.restrictions ++
    (match column.references with
      | some table => " REFERENCES " ++ table.sql ++ " (id) ON DELETE CASCADE"
      | none => "")

end ColumnDef

namespace Statement

/-- The columns that a statement defines. -/
def definitions : Statement → List ColumnDef
  | createTable _ columns _ => columns
  | _ => []

/-- The constraints behind the columns that a statement defines. -/
def constraints : Statement → List TableConstraint
  | createTable _ _ constraints => constraints
  | _ => []

/-- The expressions that a statement selects behind the columns of a table. -/
def selected : Statement → List SelectItem
  | createView _ _ _ columns _ => columns
  | _ => []

/-- **A statement makes a column part of a primary key**: the column says so itself, or a constraint
behind the columns does. -/
def Keys (statement : Statement) (column : ColumnDef) : Prop :=
  column.primaryKey = true ∨
    ∃ names, TableConstraint.primaryKey names ∈ statement.constraints ∧ column.name ∈ names

end Statement

namespace CatalogEntry

/-- **A row describes a column that a statement defines.** Whatever is in front, the statement
writes the type of the column as the row has it; and so it does behind the name of the column. -/
structure Describes (statement : Statement) (column : ColumnDef) (entry : CatalogEntry) : Prop where
  columnName : entry.columnName = column.name
  dataType : ∀ written, column.type.appendTo written = written ++ entry.dataType
  written : column.sql = entry.columnName ++ " " ++ entry.dataType ++ column.clauses
  isFormula : entry.isFormula = false
  isPrimaryKey : entry.isPrimaryKey = true ↔ statement.Keys column

/-- **A row describes an expression that a view selects**: it is selected under the name of the
row. -/
structure Computes (item : SelectItem) (entry : CatalogEntry) : Prop where
  isFormula : entry.isFormula = true
  written : ∃ expr, item.sql = expr ++ " AS " ++ entry.columnName

end CatalogEntry

/-- **The rows of a table**: those of its stored columns, and those of the formulas that its view
computes. -/
structure Schema.Lists (schema : Schema) (table : Table) (stored computed : List CatalogEntry) :
    Prop where
  tableName : ∀ entry ∈ stored ++ computed, entry.tableName = table.name
  created : Statement.ofTable table ∈ (Script.ofSchema schema).statements
  columns : List.Forall₂ (CatalogEntry.Describes (.ofTable table))
    (Statement.ofTable table).definitions stored
  /-- The table of an object has one view. -/
  object : table.isAssociation = false → ∃ view ∈ schema.views, view.table = table.name ∧
    (∀ other ∈ schema.views, other.table = table.name → other = view) ∧
    Statement.ofView view ∈ (Script.ofSchema schema).statements ∧
    (∀ entry ∈ stored ++ computed, entry.viewName = some view.name) ∧
    List.Forall₂ CatalogEntry.Computes (Statement.ofView view).selected computed
  association : table.isAssociation = true →
    computed = [] ∧ ∀ entry ∈ stored, entry.viewName = none

namespace Script

variable {schema : Schema}

end Script

/-! ### Stored columns -/

namespace Table

variable {table : Table} {column : Column} {position : Nat}

end Table

namespace CatalogEntry

variable {layout : Layout} {table : Table}

end CatalogEntry

/-! ### Formulas -/

namespace Layout.Checked

open Formula CatalogEntry

variable {schema : String} {plan : Plan} {left : List Diagnostic} {layout : Layout}
  {entity : Entity}

end Layout.Checked

namespace Settings

end Settings

end AppSchema
