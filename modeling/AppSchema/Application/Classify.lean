/-
**Classifying the objects of an application.**

Of the fields of an object that share a key only the first counts. A field with wrong settings is
left out with an error, and one of a type that is known but has no compiled form with a warning. A
field of an unknown type fails its whole object, and so do two fields with one name.
-/

import AppSchema.Application.Basic
import AppSchema.Diagnostic
import AppSchema.Text.Numeric

namespace AppSchema

/-- What a field of the metadata turns out to be. -/
inductive Reading
  | kept (kind : FieldKind)
  | skipped (severity : Severity) (fault : Fault)
  /-- No field of this type can be part of a table. -/
  | unusable (fault : Fault)
  deriving Inhabited

namespace DefaultValue

/-- The text of a default in the metadata, if it is a plain value and not blank. -/
def text? : Json → Option String
  | .string value => if value = "" ∨ value = "kn-blank" then none else some value
  | .bool true => some "true"
  | .bool false => some "false"
  | .number value => some value.text
  | _ => none

/-- The default of a column, if its text is one for the type. -/
def ofText? (type : ColumnType) (spelling : String) : Option DefaultValue :=
  match type with
  | .boolean =>
    if spelling = "true" then some (.bool true)
    else if spelling = "false" then some (.bool false)
    else none
  | .numeric | .integer =>
    if Text.isReal spelling.toList then some (.number spelling) else none
  | .text => some (.text spelling)
  | _ => none

/-- The default of a column from the default of a field. -/
def ofSource? (type : ColumnType) (source : Option Json) : Option DefaultValue := do
  let value ← source
  let spelling ← text? value
  ofText? type spelling

end DefaultValue

namespace StoredField

/-- The style of a multiple choice. -/
def style? (source : FieldSource) : Option String :=
  if source.sourceType = "multiple_choice" then
    (source.formatKey? "type").bind Json.string?
  else none

/-- The choices of a multiple choice; only texts are choices. -/
def options? (source : FieldSource) : Option (List String) :=
  if source.sourceType = "multiple_choice" then
    (source.formatKey? "options").bind fun options =>
      options.elements?.map (·.filterMap Json.string?)
  else none

/-- The stored field of a field of the metadata. A multiple choice of style `multi` stores many. -/
def ofSource (source : FieldSource) (type : ColumnType) : StoredField :=
  let style := style? source
  let type := if style = some "multi" then type.arrayOf else type
  { sourceType := source.sourceType
    inputType := style.getD source.sourceType
    type
    default := DefaultValue.ofSource? type source.default
    nullable := !source.required
    unique := source.unique
    options := options? source }

/-- The numeric key of every entity. -/
def surrogateKey : StoredField :=
  { sourceType := "_pg_primary_key", inputType := "_pg_primary_key", type := .serial
    nullable := false, primaryKey := true }

/-- The key of the records of every entity in the application. -/
def naturalKey : StoredField :=
  { sourceType := "_knack_id", inputType := "_knack_id", type := .text, unique := true }

end StoredField

namespace Reading

/-- A key given as a text, or as the member `key` of an object. -/
def keyOf? : Json → Option String
  | .string key => some key
  | .object members => (members.lookup "key").bind Json.string?
  | _ => none

/-- A field whose settings are wrong. -/
def wrong (fault : MetadataFault) : Reading :=
  skipped .error (.invalidMetadata fault)

/-- Reads a connection. -/
def ofConnection (source : FieldSource) : Reading :=
  match source.relationship? with
  | some relationship =>
    kept (.connection ⟨relationship.object, relationship.has, relationship.belongsTo⟩)
  | none => wrong (.noRelationship source.key)

/-- Reads a text formula. -/
def ofConcatenation (source : FieldSource) : Reading :=
  match (source.formatKey? "equation").bind Json.string? with
  | some equation => kept (.concatenation equation)
  | none => wrong (.noEquation source.key)

/-- Reads an aggregate. -/
def ofAggregate (source : FieldSource) (method : AggregateMethod) : Reading :=
  match (source.formatKey? "connection").bind keyOf?, (source.formatKey? "field").bind keyOf? with
  | none, _ => wrong (.noConnection source.sourceType source.key)
  | some connection, target =>
    if target.isNone && method != .count then wrong (.noTarget source.sourceType source.key)
    else kept (.aggregate ⟨method, connection, target⟩)

/-- Reads a field by its type. -/
def ofSource (source : FieldSource) : Reading :=
  if source.sourceType = "connection" then ofConnection source
  else if source.sourceType = "concatenation" then ofConcatenation source
  else if source.sourceType = "equation" then
    skipped .warning (.unsupportedFeature (.uncompiledType source.sourceType source.key))
  else
    match AggregateMethod.ofSource? source.sourceType,
        ColumnType.ofSource? source.sourceType with
    | some method, _ => ofAggregate source method
    | none, some type => kept (.stored (StoredField.ofSource source type))
    | none, none => unusable (.unsupportedFieldType source.key source.sourceType)

end Reading

namespace FieldSource

/-- The first field of every key. `seen` are the keys before the list. -/
def firstOfKeys (seen : List String) : List FieldSource → List FieldSource
  | [] => []
  | field :: rest =>
    if field.key ∈ seen then firstOfKeys seen rest
    else field :: firstOfKeys (field.key :: seen) rest

end FieldSource

namespace Entity

/-- The fields of an entity that are classified, and what was left out. -/
structure Draft where
  fields : List Field := []
  skipped : List Diagnostic := []
  deriving Inhabited

/-- Adds a field of the metadata. -/
def Draft.add (id : TableId) (object : String) (draft : Draft) (source : FieldSource) :
    Except Fault Draft :=
  match Reading.ofSource source with
  | .kept kind =>
    .ok { draft with
      fields := draft.fields ++
        [{ id := ⟨id, draft.fields.length⟩, key := source.key
           name := .ofLabel source.name, kind }] }
  | .skipped severity fault =>
    .ok { draft with
      skipped := draft.skipped ++ [⟨.field object source.key, severity, fault⟩] }
  | .unusable fault => .error fault

/-- The synthetic fields behind `count` others. -/
def keyFields (id : TableId) (count : Nat) : List Field :=
  [{ id := ⟨id, count⟩, key := "id", name := .ofIdent "id", kind := .stored .surrogateKey
     synthetic := true },
   { id := ⟨id, count + 1⟩, key := "knack_id", name := .ofIdent "knack_id"
     kind := .stored .naturalKey, synthetic := true }]

/-- The fields of an entity must have different names. -/
def checkNames (entity : Entity) : Except Fault Unit :=
  match Name.collision? [] (entity.fields.map Field.name) with
  | some (first, second) =>
    .error (.identifierCollision entity.name.ident first.label second.label second.ident)
  | none => .ok ()

/-- The entity of an object, and the fields that were left out. -/
def ofSource (id : TableId) (object : ObjectSource) : Except Fault (Entity × List Diagnostic) := do
  let draft ← (FieldSource.firstOfKeys [] object.fields).foldlM (Draft.add id object.key) {}
  let entity : Entity :=
    { id, key := object.key, name := .ofLabel object.name
      fields := draft.fields ++ keyFields id draft.fields.length }
  checkNames entity
  return (entity, draft.skipped)

end Entity

namespace Application

/-- Adds an object, or leaves it out with an error. -/
def add (state : Application × List Diagnostic) (object : ObjectSource) :
    Application × List Diagnostic :=
  match Entity.ofSource state.1.entities.length object with
  | .ok (entity, skipped) => (⟨state.1.entities ++ [entity]⟩, state.2 ++ skipped)
  | .error fault => (state.1, state.2 ++ [⟨.object object.key, .error, fault⟩])

/-- The application of objects, and what was left out. -/
def ofSources (objects : List ObjectSource) : Application × List Diagnostic :=
  objects.foldl add ({}, [])

/-- Entities must have different names. -/
def checkNames (application : Application) : Except Fault Unit :=
  match Name.collision? [] (application.entities.map Entity.name) with
  | some (first, second) =>
    .error (.identifierCollision "tables" first.label second.label second.ident)
  | none => .ok ()

end Application

end AppSchema
