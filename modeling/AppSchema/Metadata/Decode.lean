/-
**Reading metadata from JSON.**

A record is read from an object, member by member in the order of the source, or from an array of
its members in the order of their declaration; a field only from an object. The first member that is
wrong decides the error. Only when all members are read is the first absent one reported, in the
order of declaration.

Reading from a text asks more than reading from a value: the parts that are kept must be values of
JSON, no known key may be given twice, and containers nest at most `Metadata.deepest` deep.
-/

import AppSchema.Json.Source
import AppSchema.Metadata.Basic
import AppSchema.Text.Quoted

namespace AppSchema

/-- Why a value cannot be read as metadata. -/
inductive DecodeError
  | missing (key : String)
  | wrongType (found : Json) (expected : String)
  | unknownVariant (found : String)
  | manyVariants
  | tooShort (length : Nat) (expected : String)
  | tooLong (length : Nat)
  deriving Inhabited

namespace DecodeError

/-- How a message names a value. -/
def describe : Json → String
  | .null => "null"
  | .bool true => "boolean `true`"
  | .bool false => "boolean `false`"
  | .number (.integer value) => "integer `" ++ (Number.integer value).text ++ "`"
  | .number (.real negative magnitude) =>
    "floating point `" ++ (Number.real negative magnitude).text ++ "`"
  | .string value => "string " ++ Text.quoted value
  | .array _ => "sequence"
  | .object _ => "map"

/-- The message of an error. -/
def message : DecodeError → String
  | missing key => "missing field `" ++ key ++ "`"
  | wrongType found expected => "invalid type: " ++ describe found ++ ", expected " ++ expected
  | unknownVariant found => "unknown variant `" ++ found ++ "`, expected `one` or `many`"
  | manyVariants => "invalid value: map, expected map with a single key"
  | tooShort length expected =>
    "invalid length " ++ toString length ++ ", expected " ++ expected
  | tooLong length =>
    "invalid length " ++ toString length ++ ", expected fewer elements in array"

end DecodeError

/-- A reader of JSON values. -/
abbrev Decoder (α : Type) := Json → Except DecodeError α

namespace Decoder

/-- Reads a string. -/
def string : Decoder String
  | .string value => .ok value
  | other => .error (.wrongType other "a string")

/-- Reads a boolean. -/
def boolean : Decoder Bool
  | .bool value => .ok value
  | other => .error (.wrongType other "a boolean")

/-- Reads an array, element by element. -/
def list {α : Type} (element : Decoder α) : Decoder (List α)
  | .array elements => elements.mapM element
  | other => .error (.wrongType other "a sequence")

/-- Reads `null` as nothing. -/
def optional {α : Type} (value : Decoder α) : Decoder (Option α)
  | .null => .ok none
  | other => (value other).map some

/-- Reads members into a partial record, in their order. -/
def members {σ : Type} (read : σ → String → Json → Except DecodeError σ) (start : σ)
    (given : Json.Members) : Except DecodeError σ :=
  given.foldlM (fun state member => read state member.1 member.2) start

/-- The value of a member that must be there. -/
def require {α : Type} (key : String) : Option α → Except DecodeError α
  | some value => .ok value
  | none => .error (.missing key)

/-- The first element of an array that must have one, and the others. `index` counts the elements
before it. -/
def take {α : Type} (index : Nat) (expected : String) (value : Decoder α) :
    List Json → Except DecodeError (α × List Json)
  | [] => .error (.tooShort index expected)
  | first :: rest => (value first).map (·, rest)

/-- The first element of an array, if it has one, and the others. -/
def takeOr {α : Type} (absent : α) (value : Decoder α) :
    List Json → Except DecodeError (α × List Json)
  | [] => .ok (absent, [])
  | first :: rest => (value first).map (·, rest)

/-- Accepts an array of `length` elements if none is left over. -/
def exhausted (length : Nat) : List Json → Except DecodeError Unit
  | [] => .ok ()
  | _ :: _ => .error (.tooLong length)

end Decoder

open Decoder

namespace Cardinality

/-- The cardinality of a word. -/
def ofWord : String → Except DecodeError Cardinality
  | "one" => .ok .one
  | "many" => .ok .many
  | other => .error (.unknownVariant other)

/-- Reads a cardinality: a word, or an object whose single key is the word and whose value is
`null`. -/
def ofJson : Decoder Cardinality
  | .string word => ofWord word
  | .object [(word, payload)] => do
    let cardinality ← ofWord word
    match payload with
    | .null => .ok cardinality
    | other => .error (.wrongType other "unit")
  | .object _ => .error .manyVariants
  | other => .error (.wrongType other "string or map")

end Cardinality

namespace Relationship

/-- A relationship of which some members are read. -/
structure Partial where
  object : Option String := none
  has : Option Cardinality := none
  belongsTo : Option Cardinality := none

/-- Reads one member. -/
def readMember (state : Partial) (key : String) (value : Json) : Except DecodeError Partial :=
  match key with
  | "object" => return { state with object := some (← string value) }
  | "has" => return { state with has := some (← Cardinality.ofJson value) }
  | "belongs_to" => return { state with belongsTo := some (← Cardinality.ofJson value) }
  | _ => .ok state

/-- The whole of a relationship. -/
def Partial.complete (state : Partial) : Except DecodeError Relationship := do
  let object ← require "object" state.object
  let has ← require "has" state.has
  let belongsTo ← require "belongs_to" state.belongsTo
  return ⟨object, has, belongsTo⟩

/-- Reads a relationship. -/
def ofJson : Decoder Relationship
  | .object given => do (← members readMember {} given).complete
  | .array elements => do
    let expected := "struct RawRelationship with 3 elements"
    let (object, rest) ← take 0 expected string elements
    let (has, rest) ← take 1 expected Cardinality.ofJson rest
    let (belongsTo, rest) ← take 2 expected Cardinality.ofJson rest
    exhausted elements.length rest
    return ⟨object, has, belongsTo⟩
  | other => .error (.wrongType other "struct RawRelationship")

end Relationship

namespace FieldSource

/-- A field of which some members are read. -/
structure Partial where
  key : Option String := none
  name : Option String := none
  sourceType : Option String := none
  required : Bool := false
  unique : Bool := false
  default : Option Json := none
  format : Option Json := none
  relationship : Option Relationship := none
  rest : Json.Members := []

/-- Reads a value as it is. -/
def anything : Decoder Json := Except.ok

/-- Reads one member. -/
def readMember (state : Partial) (key : String) (value : Json) : Except DecodeError Partial :=
  match key with
  | "key" => return { state with key := some (← string value) }
  | "name" => return { state with name := some (← string value) }
  | "type" => return { state with sourceType := some (← string value) }
  | "required" => return { state with required := ← boolean value }
  | "unique" => return { state with unique := ← boolean value }
  | "default" => return { state with default := ← optional anything value }
  | "format" => return { state with format := ← optional anything value }
  | "relationship" =>
    return { state with relationship := ← optional Relationship.ofJson value }
  | _ => .ok { state with rest := Json.insert key value state.rest }

/-- The whole of a field. -/
def Partial.complete (state : Partial) : Except DecodeError FieldSource := do
  let key ← require "key" state.key
  let name ← require "name" state.name
  let sourceType ← require "type" state.sourceType
  return ⟨key, name, sourceType, state.required, state.unique, state.default, state.format,
    state.relationship, state.rest⟩

/-- Reads a field. -/
def ofJson : Decoder FieldSource
  | .object given => do (← members readMember {} given).complete
  | other => .error (.wrongType other "struct RawField")

/-- The relationship of a connection field. Older metadata has it in `format` only, where it counts
if it names an object and can be read. -/
def relationship? (field : FieldSource) : Option Relationship :=
  match field.relationship with
  | some relationship => some relationship
  | none => do
    let connection ← field.formatKey? "connection"
    let _ ← connection.get? "object"
    (Relationship.ofJson connection).toOption

end FieldSource

namespace ObjectSource

/-- An object of which some members are read. -/
structure Partial where
  key : Option String := none
  name : Option String := none
  fields : List FieldSource := []

/-- Reads one member. -/
def readMember (state : Partial) (key : String) (value : Json) : Except DecodeError Partial :=
  match key with
  | "key" => return { state with key := some (← string value) }
  | "name" => return { state with name := some (← string value) }
  | "fields" => return { state with fields := ← list FieldSource.ofJson value }
  | _ => .ok state

/-- The whole of an object. -/
def Partial.complete (state : Partial) : Except DecodeError ObjectSource := do
  let key ← require "key" state.key
  let name ← require "name" state.name
  return ⟨key, name, state.fields⟩

/-- Reads an object. -/
def ofJson : Decoder ObjectSource
  | .object given => do (← members readMember {} given).complete
  | .array elements => do
    let expected := "struct RawObject with 3 elements"
    let (key, rest) ← take 0 expected string elements
    let (name, rest) ← take 1 expected string rest
    let (fields, rest) ← takeOr [] (list FieldSource.ofJson) rest
    exhausted elements.length rest
    return ⟨key, name, fields⟩
  | other => .error (.wrongType other "struct RawObject")

end ObjectSource

namespace Metadata

/-- Reads one member. -/
def readMember (state : Metadata) (key : String) (value : Json) :
    Except DecodeError Metadata :=
  match key with
  | "objects" => return { state with objects := ← list ObjectSource.ofJson value }
  | _ => .ok state

/-- Reads metadata. -/
def ofJson : Decoder Metadata
  | .object given => members readMember {} given
  | .array elements => do
    let (objects, rest) ← takeOr [] (list ObjectSource.ofJson) elements
    exhausted elements.length rest
    return ⟨objects⟩
  | other => .error (.wrongType other "struct RawSchema")

/-! ## Reading a text -/

open Source (Shape)

/-- The parts of a cardinality that are kept: all, each word once. -/
def cardinalityShape : Shape := .record false true [("one", .whole), ("many", .whole)]

/-- The parts of a relationship that are kept. -/
def relationshipShape : Shape :=
  .record true false
    [("object", .whole), ("has", cardinalityShape), ("belongs_to", cardinalityShape)]

/-- The parts of a field that are kept: all, each known key once. -/
def fieldShape : Shape :=
  .record false true (FieldSource.keys.map fun key =>
    (key, if key = "relationship" then relationshipShape else .whole))

/-- The parts of an object that are kept. -/
def objectShape : Shape :=
  .record true false [("key", .whole), ("name", .whole), ("fields", .list fieldShape)]

/-- The parts of metadata that are kept. -/
def shape : Shape := .record true false [("objects", .list objectShape)]

/-- How deep containers may nest. -/
def deepest : Nat := 127

/-- Reads metadata from a JSON text. -/
def ofText? (text : String) : Option Metadata := do
  let source ← Source.ofText? text
  let value ← source.keep? shape deepest
  (ofJson value).toOption

end Metadata

end AppSchema
