/-
**The metadata of an application.**

An application is a list of objects, and an object a list of fields. Of a field only some keys mean
something here; all others are kept in `rest`, in their order. Metadata is written as JSON with
every key that has a meaning, absent ones included, and with the others of a field behind them.
-/

import AppSchema.Json.Value

namespace AppSchema

/-- How many records one side of a connection may have. -/
inductive Cardinality
  | one
  | many
  deriving DecidableEq, Repr, Inhabited

/-- The declared relationship of a connection field: the object it leads to, how many records the
field's own side has, and how many the other side has. -/
structure Relationship where
  object : String
  has : Cardinality
  belongsTo : Cardinality
  deriving DecidableEq, Repr, Inhabited

/-- A field of an object. -/
structure FieldSource where
  key : String
  name : String
  sourceType : String
  required : Bool := false
  unique : Bool := false
  default : Option Json := none
  format : Option Json := none
  relationship : Option Relationship := none
  /-- The keys without a meaning here. -/
  rest : Json.Members := []
  deriving Inhabited

/-- An object with its fields. -/
structure ObjectSource where
  key : String
  name : String
  fields : List FieldSource := []
  deriving Inhabited

/-- The objects of an application. -/
structure Metadata where
  objects : List ObjectSource := []
  deriving Inhabited

namespace Cardinality

/-- The word for a cardinality. -/
def text : Cardinality → String
  | .one => "one"
  | .many => "many"

end Cardinality

namespace Relationship

/-- A relationship as JSON. -/
def toJson (relationship : Relationship) : Json :=
  .object [("object", .string relationship.object), ("has", .string relationship.has.text),
    ("belongs_to", .string relationship.belongsTo.text)]

end Relationship

namespace FieldSource

/-- The keys of a field that have a meaning, in the order in which they are written. -/
def keys : List String :=
  ["key", "name", "type", "required", "unique", "default", "format", "relationship"]

/-- A field as JSON. -/
def toJson (field : FieldSource) : Json :=
  .object ([("key", .string field.key), ("name", .string field.name),
    ("type", .string field.sourceType), ("required", .bool field.required),
    ("unique", .bool field.unique), ("default", field.default.getD .null),
    ("format", field.format.getD .null),
    ("relationship", (field.relationship.map Relationship.toJson).getD .null)] ++ field.rest)

/-- The value of a key inside `format`. -/
def formatKey? (field : FieldSource) (key : String) : Option Json :=
  field.format.bind (·.get? key)

end FieldSource

namespace ObjectSource

/-- An object as JSON. -/
def toJson (object : ObjectSource) : Json :=
  .object [("key", .string object.key), ("name", .string object.name),
    ("fields", .array (object.fields.map FieldSource.toJson))]

end ObjectSource

namespace Metadata

/-- Metadata as JSON. -/
def toJson (metadata : Metadata) : Json :=
  .object [("objects", .array (metadata.objects.map ObjectSource.toJson))]

end Metadata

end AppSchema
