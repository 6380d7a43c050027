/-
**Statements in SQL.**

Every statement ends with a semicolon. Columns, constraints, selected expressions and joins stand on
lines of their own.
-/

import AppSchema.Statement.Basic

namespace AppSchema

/-- Texts with commas between them. -/
def commaSeparated (texts : List String) : String :=
  String.intercalate ", " texts

namespace RowValue

/-- The literal of a text, character by character. -/
def literal (text : String) : String :=
  (text.toList.foldl (fun written char =>
    if char = '\'' then (written.push '\'').push char else written.push char) "'").push '\''

/-- A truth value. -/
def boolean : Bool → String
  | true => "TRUE"
  | false => "FALSE"

/-- A value of a row. -/
def sql : RowValue → String
  | null => "NULL"
  | bool value => boolean value
  | text value => literal value
  | textArray [] => "ARRAY[]::TEXT[]"
  | textArray values => "ARRAY[" ++ commaSeparated (values.map literal) ++ "]"

end RowValue

namespace DefaultValue

/-- A default. -/
def sql : DefaultValue → String
  | bool value => RowValue.boolean value
  | number spelling => spelling
  | text value => RowValue.literal value

end DefaultValue

namespace ColumnType

/-- Writes a type behind a text. The elements of an array are written first, brackets behind
them. -/
def appendTo (written : String) : ColumnType → String
  | boolean => written ++ "BOOLEAN"
  | integer => written ++ "INTEGER"
  | json => written ++ "JSON"
  | numeric => written ++ "NUMERIC"
  | serial => written ++ "SERIAL"
  | text => written ++ "TEXT"
  | timestamp => written ++ "TIMESTAMP WITH TIME ZONE"
  | array element => element.appendTo written ++ "[]"

end ColumnType

namespace ColumnDef

/-- What a column does not allow. A primary key implies both. -/
def restrictions (column : ColumnDef) : String :=
  if column.primaryKey then ""
  else
    (if column.notNull then " NOT NULL" else "") ++ if column.unique then " UNIQUE" else ""

/-- The definition of a column. -/
def sql (column : ColumnDef) : String :=
  column.type.appendTo (column.name ++ " ") ++
    (if column.primaryKey then " PRIMARY KEY" else "") ++
    (match column.default with
      | some value => " DEFAULT " ++ value.sql
      | none => "") ++
    column.restrictions ++
    (match column.references with
      | some table => " REFERENCES " ++ table.sql ++ " (id) ON DELETE CASCADE"
      | none => "")

end ColumnDef

namespace TableConstraint

/-- A constraint. -/
def sql : TableConstraint → String
  | primaryKey columns => "PRIMARY KEY (" ++ commaSeparated columns ++ ")"
  | unique columns => "UNIQUE (" ++ commaSeparated columns ++ ")"

end TableConstraint

namespace Join

/-- A join of a view. -/
def sql (join : Join) : String :=
  "LEFT OUTER JOIN " ++ join.relation ++ " AS " ++ join.aliasName ++ " ON (" ++ join.on.sql ++ ")"

end Join

namespace Statement

/-- A part of a statement behind a comma, on a line of its own. -/
def listed (part : String) : String :=
  ",\n    " ++ part

/-- The definitions of columns, each on a line of its own. -/
def columnLines (columns : List ColumnDef) : String :=
  String.intercalate "," (columns.map fun column => "\n    " ++ column.sql)

/-- A statement without the semicolon. -/
def body : Statement → String
  | createSchema name => "CREATE SCHEMA IF NOT EXISTS " ++ name
  | setSearchPath schemas => "SET search_path TO " ++ commaSeparated schemas
  | createTable name columns constraints =>
    "CREATE TABLE IF NOT EXISTS " ++ name.sql ++ " (" ++ columnLines columns ++
      String.join (constraints.map fun item => listed item.sql) ++ "\n)"
  | addForeignKey table name column references =>
    "ALTER TABLE " ++ table.sql ++ " ADD CONSTRAINT " ++ name ++ " FOREIGN KEY (" ++ column ++
      ") REFERENCES " ++ references.sql ++ " (id)"
  | createView name table source columns joins =>
    "CREATE VIEW " ++ name.sql ++ " AS\nSELECT " ++ table ++ ".*" ++
      String.join (columns.map fun item => listed item.sql) ++ "\nFROM " ++ source.sql ++
      String.join (joins.map fun join => "\n" ++ join.sql)
  | insert table columns values =>
    "INSERT INTO " ++ table.sql ++ " (" ++ commaSeparated columns ++ ") VALUES (" ++
      commaSeparated (values.map RowValue.sql) ++ ") ON CONFLICT DO NOTHING"

/-- A statement. -/
def sql (statement : Statement) : String :=
  statement.body ++ ";"

end Statement

end AppSchema
