/-
**The script of a schema.**

A script creates everything in an order in which nothing is missing: the schemas, the tables, the
foreign keys between them, the views, and the catalog with its rows. A statement that fails when the
script is run is skipped, and the others still run.
-/

import AppSchema.Statement.Sql

namespace AppSchema

/-- Statements in the order in which they are run. -/
structure Script where
  statements : List Statement
  deriving Inhabited

/-- A statement that failed. -/
structure Failure where
  /-- The position of the statement in the script. -/
  index : Nat
  sql : String
  error : String
  deriving DecidableEq, Repr, Inhabited

namespace Script

/-- The script of a schema. Views name what they read without a schema, so a search path is set. -/
def ofSchema (schema : Schema) : Script :=
  { statements :=
      [.createSchema schema.dataSchema] ++
      (if schema.metadataSchema = schema.dataSchema then []
        else [.createSchema schema.metadataSchema]) ++
      [.setSearchPath [schema.dataSchema]] ++
      schema.tables.map Statement.ofTable ++
      schema.foreignKeys.map (Statement.ofForeignKey schema.dataSchema) ++
      schema.views.map Statement.ofView ++
      [.catalogTable schema.metadataSchema] ++
      schema.catalog.map (Statement.ofCatalogEntry schema.metadataSchema) }

/-- The statements in SQL. -/
def sql (script : Script) : List String :=
  script.statements.map Statement.sql

/-- The text of a script: an empty line between statements, and the end of the line behind the
last. -/
def text (script : Script) : String :=
  String.intercalate "\n\n" script.sql ++ "\n"

/-- Runs every statement. `execute` gives the message of a statement that fails. -/
def execute (script : Script) (execute : String → Option String) : List Failure :=
  script.sql.zipIdx.filterMap fun statement =>
    (execute statement.1).map fun error => ⟨statement.2, statement.1, error⟩

end Script

end AppSchema
