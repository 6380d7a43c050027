/-
**Columns of tables.**

A column has a type, a default and constraints, and may reference the `id` of a table. A column that
stores a field knows which one.
-/

import AppSchema.Name

namespace AppSchema

/-- Tables are numbered by their position: those of the objects first, associations after them. -/
abbrev TableId := Nat

/-- A field is numbered by its table and its position in it. -/
structure FieldId where
  table : TableId
  index : Nat
  deriving DecidableEq, Repr, Inhabited

/-- The type of a column. -/
inductive ColumnType
  | boolean
  | integer
  | json
  | numeric
  /-- An integer that counts up by itself. -/
  | serial
  | text
  | timestamp
  | array (element : ColumnType)
  deriving DecidableEq, Repr, Inhabited

namespace ColumnType

/-- The type of the column that stores a field, or to which a formula evaluates, by the type of the
field in the metadata. -/
def ofSource? (sourceType : String) : Option ColumnType :=
  if ["short_text", "paragraph_text", "phone", "link", "multiple_choice", "rich_text", "file",
      "image", "email", "signature", "password", "concatenation", "_knack_id"].contains
      sourceType then some text
  else if ["count", "sum", "min", "max", "average", "number", "currency", "auto_increment",
      "rating"].contains sourceType then some numeric
  else if ["date_time", "timer"].contains sourceType then some timestamp
  else if ["address", "name"].contains sourceType then some json
  else if sourceType = "user_roles" then some (array text)
  else if sourceType = "boolean" then some boolean
  else if sourceType = "connection" then some integer
  else if sourceType = "_pg_primary_key" then some serial
  else none

/-- The array of a type. Arrays do not nest. -/
def arrayOf : ColumnType → ColumnType
  | array element => array element
  | element => array element

/-- Whether a type is an array. -/
def isArray : ColumnType → Bool
  | array _ => true
  | _ => false

/-- The name of a type in SQL. -/
def sql : ColumnType → String
  | boolean => "BOOLEAN"
  | integer => "INTEGER"
  | json => "JSON"
  | numeric => "NUMERIC"
  | serial => "SERIAL"
  | text => "TEXT"
  | timestamp => "TIMESTAMP WITH TIME ZONE"
  | array element => element.sql ++ "[]"

end ColumnType

/-- The default of a column. A number keeps its spelling. -/
inductive DefaultValue
  | bool (value : Bool)
  | number (spelling : String)
  | text (value : String)
  deriving DecidableEq, Repr, Inhabited

/-- A column of a table. -/
structure Column where
  name : String
  type : ColumnType
  nullable : Bool := true
  unique : Bool := false
  /-- Whether the column alone is the primary key. -/
  primaryKey : Bool := false
  default : Option DefaultValue := none
  /-- The table whose `id` the column references, deleting with it. -/
  references : Option String := none
  field : Option FieldId := none
  deriving DecidableEq, Repr, Inhabited

end AppSchema
