/-
**Looking up keys.**

The index knows the position of every object and of every field of an object by its key. The keys of
objects differ from each other, and so do the keys of all fields but the synthetic ones.
-/

import AppSchema.Application.Basic
import AppSchema.Error.Fault

namespace AppSchema

/-- The positions of objects and fields by key. -/
structure Index where
  entities : List (String × TableId) := []
  fields : List (String × FieldId) := []
  deriving Inhabited

namespace Index

/-- Adds a field of the entity with the key `owner`. -/
def addField (application : Application) (owner : String) (index : Index) (field : Field) :
    Except Fault Index :=
  match index.fields.lookup field.key with
  | some other =>
    .error (.invalidMetadata
      (.repeatedField field.key (application.entity other.table).key owner))
  | none => .ok { index with fields := index.fields ++ [(field.key, field.id)] }

/-- Adds an entity and its fields. -/
def addEntity (application : Application) (index : Index) (entity : Entity) :
    Except Fault Index :=
  match index.entities.lookup entity.key with
  | some _ => .error (.invalidMetadata (.repeatedObject entity.key))
  | none =>
    entity.domainFields.foldlM (addField application entity.key)
      { index with entities := index.entities ++ [(entity.key, entity.id)] }

/-- The index of an application. -/
def ofApplication (application : Application) : Except Fault Index :=
  application.entities.foldlM (addEntity application) {}

/-- The position of the entity with a key. -/
def entity? (index : Index) (key : String) : Option TableId :=
  index.entities.lookup key

/-- The position of the field with a key. -/
def field? (index : Index) (key : String) : Option FieldId :=
  index.fields.lookup key

/-- The position of the entity that a field refers to. -/
def requireEntity (index : Index) (referencing key : String) : Except Fault TableId :=
  match index.entity? key with
  | some id => .ok id
  | none => .error (.missingFieldReference referencing key)

/-- The position of the field that a field refers to. -/
def requireField (index : Index) (referencing key : String) : Except Fault FieldId :=
  match index.field? key with
  | some id => .ok id
  | none => .error (.missingFieldReference referencing key)

end Index

end AppSchema
