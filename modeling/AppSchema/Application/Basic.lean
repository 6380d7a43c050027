/-
**The classified application.**

An `Entity` is an object of the metadata whose fields are known by kind: stored as a column, a
connection to another object, an aggregate over one, or a text formula. Behind its own fields every
entity has two synthetic ones, its numeric key and the key of its records in the application.
-/

import AppSchema.Metadata.Basic
import AppSchema.Storage.Column

namespace AppSchema

/-- A field that is stored as a column. -/
structure StoredField where
  sourceType : String
  /-- What the catalog says about input. A multiple choice says its style. -/
  inputType : String
  type : ColumnType
  default : Option DefaultValue := none
  nullable : Bool := true
  unique : Bool := false
  primaryKey : Bool := false
  /-- The choices of a multiple choice. -/
  options : Option (List String) := none
  deriving DecidableEq, Repr, Inhabited

/-- A field that links records to records of another object. -/
structure Connection where
  /-- The key of the other object. -/
  target : String
  /-- How many records the field's own side has. -/
  has : Cardinality
  /-- How many records the other side has. -/
  belongsTo : Cardinality
  deriving DecidableEq, Repr, Inhabited

/-- A way to summarise numbers. -/
inductive AggregateMethod
  | count
  | sum
  | min
  | max
  | average
  deriving DecidableEq, Repr, Inhabited

/-- A summary over the records that a connection leads to. -/
structure Aggregate where
  method : AggregateMethod
  /-- The key of the connection. -/
  connection : String
  /-- The key of the field that is summarised. Counting needs none. -/
  target : Option String
  deriving DecidableEq, Repr, Inhabited

/-- The kinds of fields. -/
inductive FieldKind
  | stored (field : StoredField)
  | connection (connection : Connection)
  | aggregate (aggregate : Aggregate)
  | concatenation (equation : String)
  deriving DecidableEq, Repr, Inhabited

/-- A classified field. -/
structure Field where
  id : FieldId
  key : String
  name : Name
  kind : FieldKind
  synthetic : Bool := false
  deriving DecidableEq, Repr, Inhabited

/-- An object with classified fields. -/
structure Entity where
  id : TableId
  key : String
  name : Name
  fields : List Field
  deriving DecidableEq, Repr, Inhabited

/-- Every object of an application. -/
structure Application where
  entities : List Entity := []
  deriving DecidableEq, Repr, Inhabited

namespace Connection

/-- Whether both sides have many records. -/
def isManyToMany (connection : Connection) : Bool :=
  connection.has == .many && connection.belongsTo == .many

/-- Whether only the other side has many records. -/
def isOneToMany (connection : Connection) : Bool :=
  connection.has == .one && connection.belongsTo == .many

/-- Whether only the own side has many records. -/
def isManyToOne (connection : Connection) : Bool :=
  connection.has == .many && connection.belongsTo == .one

end Connection

namespace AggregateMethod

/-- The method of a type of field. -/
def ofSource? : String → Option AggregateMethod
  | "count" => some count
  | "sum" => some sum
  | "min" => some min
  | "max" => some max
  | "average" => some average
  | _ => none

/-- The type of field of a method. -/
def sourceType : AggregateMethod → String
  | count => "count"
  | sum => "sum"
  | min => "min"
  | max => "max"
  | average => "average"

/-- The function of a method in SQL. -/
def sql : AggregateMethod → String
  | count => "COUNT"
  | sum => "SUM"
  | min => "MIN"
  | max => "MAX"
  | average => "AVG"

end AggregateMethod

namespace FieldKind

/-- The stored field, if the kind is one. -/
def stored? : FieldKind → Option StoredField
  | stored value => some value
  | _ => none

/-- The connection, if the kind is one. -/
def connection? : FieldKind → Option Connection
  | connection value => some value
  | _ => none

/-- Whether a view computes the field. -/
def isFormula : FieldKind → Bool
  | aggregate _ => true
  | concatenation _ => true
  | _ => false

/-- The type to which a formula evaluates. -/
def formulaType? : FieldKind → Option ColumnType
  | aggregate _ => some .numeric
  | concatenation _ => some .text
  | _ => none

end FieldKind

namespace Entity

/-- The fields of the object itself. -/
def domainFields (entity : Entity) : List Field :=
  entity.fields.filter (!·.synthetic)

/-- The fields that are added to every object. -/
def syntheticFields (entity : Entity) : List Field :=
  entity.fields.filter (·.synthetic)

/-- The fields that a view computes. -/
def formulaFields (entity : Entity) : List Field :=
  entity.fields.filter (·.kind.isFormula)

/-- The field of a key. -/
def field? (entity : Entity) (key : String) : Option Field :=
  entity.fields.find? (·.key == key)

/-- The name of the view. -/
def viewName (entity : Entity) : String :=
  entity.name.ident ++ "_view"

end Entity

namespace Application

/-- The entity at a position; an empty one beyond the last. -/
def entity (application : Application) (id : TableId) : Entity :=
  application.entities.getD id default

/-- The field at a position; an empty one beyond the last. -/
def field (application : Application) (id : FieldId) : Field :=
  (application.entity id.table).fields.getD id.index default

/-- Every field, entity by entity. -/
def fields (application : Application) : List Field :=
  application.entities.flatMap Entity.fields

end Application

end AppSchema
