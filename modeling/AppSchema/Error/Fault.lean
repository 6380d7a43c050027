/-
**What can be wrong.**

A `Fault` is one thing that is wrong with an application or with its compilation. Its wording is in
one place, `Fault.message`. The free wording of `described` is for faults that are reported from
outside, where only a text is known.
-/

import AppSchema.Formula.Function
import AppSchema.Metadata.Decode

namespace AppSchema

/-- What is wrong with metadata as a whole. -/
inductive MetadataFault
  | undecodable (error : DecodeError)
  | repeatedObject (key : String)
  | repeatedField (key first second : String)
  | noRelationship (field : String)
  | noConnection (sourceType field : String)
  | noTarget (sourceType field : String)
  | noEquation (field : String)
  | noPrimaryKey (table : String)
  | longIdentifier (name : String) (limit : Nat)
  | described (message : String)
  deriving Inhabited

/-- What is wrong with a formula. -/
inductive FormulaFault
  /-- A call has another number of arguments. -/
  | arity (function : Function)
  | unclosed (function : Function)
  | emptyArgument (position : Nat) (function : Function)
  | notFormula
  | noTarget
  | notConnection (connection : String)
  | unresolvedConnection (connection : String)
  | unlinkedConnection (connection host : String)
  /-- The target of an aggregate belongs to another table. -/
  | foreignTarget (field other : String)
  /-- A field of another table is named as one of the host. -/
  | foreignField (field owner host : String)
  /-- A field is not one of the table that a connection leads to. -/
  | foreignTraversal (field other connection : String)
  | described (message : String)
  deriving Inhabited

/-- What is not supported. -/
inductive FeatureFault
  | uncompiledType (sourceType field : String)
  | formulaInTable (field table : String)
  | noColumn (connection table : String)
  | described (message : String)
  deriving Inhabited

/-- One thing that is wrong. -/
inductive Fault
  | adHoc (message : String)
  | external (message : String)
  | cyclicViewDependency (members : List String)
  | identifierCollision (scope first second ident : String)
  | invalidMetadata (fault : MetadataFault)
  | malformedFormula (field : String) (offset : Option Nat) (fault : FormulaFault)
  | missingFieldReference (referencing missing : String)
  | unsupportedFeature (fault : FeatureFault)
  | unsupportedFieldType (field sourceType : String)
  | unsupportedFunction (name : String)
  deriving Inhabited

namespace MetadataFault

/-- The message of a fault of metadata. -/
def message : MetadataFault → String
  | undecodable error => error.message
  | repeatedObject key => "object key `" ++ key ++ "` is defined more than once"
  | repeatedField key first second =>
    "field key `" ++ key ++ "` is defined on both `" ++ first ++ "` and `" ++ second ++ "`"
  | noRelationship field => "connection field `" ++ field ++ "` has no relationship"
  | noConnection sourceType field =>
    sourceType ++ " field `" ++ field ++ "` names no connection"
  | noTarget sourceType field => sourceType ++ " field `" ++ field ++ "` names no target field"
  | noEquation field => "concatenation field `" ++ field ++ "` has no equation"
  | noPrimaryKey table => "table `" ++ table ++ "` has no primary key"
  | longIdentifier name limit =>
    "identifier `" ++ name ++ "` is longer than " ++ toString limit ++ " bytes"
  | described message => message

end MetadataFault

namespace FormulaFault

/-- The message of a fault of a formula. -/
def message : FormulaFault → String
  | arity function =>
    "`" ++ function.name ++ "` takes " ++ toString function.arity ++
      if function.arity = 1 then " argument" else " arguments"
  | unclosed function => "missing `)` to close `" ++ function.name ++ "`"
  | emptyArgument position function =>
    "argument " ++ toString position ++ " of `" ++ function.name ++ "` is empty"
  | notFormula => "not a formula field"
  | noTarget => "no target field"
  | notConnection connection => "`" ++ connection ++ "` is not a connection field"
  | unresolvedConnection connection =>
    "connection `" ++ connection ++ "` could not be resolved"
  | unlinkedConnection connection host =>
    "connection `" ++ connection ++ "` does not link to `" ++ host ++ "`"
  | foreignTarget field other => "target `" ++ field ++ "` is not a field of `" ++ other ++ "`"
  | foreignField field owner host =>
    "`" ++ field ++ "` is a field of `" ++ owner ++ "`, not `" ++ host ++ "`"
  | foreignTraversal field other connection =>
    "`" ++ field ++ "` is not a field of `" ++ other ++ "`, the table `" ++ connection ++
      "` connects to"
  | described message => message

end FormulaFault

namespace FeatureFault

/-- The message of a fault of a feature. -/
def message : FeatureFault → String
  | uncompiledType sourceType field =>
    "`" ++ sourceType ++ "` fields are not compiled (field `" ++ field ++ "`)"
  | formulaInTable field table =>
    "formula field `" ++ field ++ "` of `" ++ table ++ "` cannot be read from the base table"
  | noColumn connection table =>
    "connection `" ++ connection ++ "` has no column on `" ++ table ++ "`"
  | described message => message

end FeatureFault

namespace Fault

/-- The message of a fault. -/
def message : Fault → String
  | adHoc message => message
  | external message => message
  | cyclicViewDependency members =>
    "cyclic view dependency: " ++ String.join (members.map (· ++ " -> ")) ++ members.headD ""
  | identifierCollision scope first second ident =>
    "identifier collision in `" ++ scope ++ "`: `" ++ first ++ "` and `" ++ second ++
      "` both sanitize to `" ++ ident ++ "`"
  | invalidMetadata fault => "invalid metadata: " ++ fault.message
  | malformedFormula field (some offset) fault =>
    "malformed formula in field `" ++ field ++ "` at offset " ++ toString offset ++ ": " ++
      fault.message
  | malformedFormula field none fault =>
    "malformed formula in field `" ++ field ++ "`: " ++ fault.message
  | missingFieldReference referencing missing =>
    "missing field reference: `" ++ referencing ++ "` references unknown key `" ++ missing ++ "`"
  | unsupportedFeature fault => "unsupported feature: " ++ fault.message
  | unsupportedFieldType field sourceType =>
    "unsupported field type `" ++ sourceType ++ "` (field `" ++ field ++ "`)"
  | unsupportedFunction name =>
    "unsupported function: `" ++ name ++ "` has no SQL equivalent"

/-- The members of a cycle of views. -/
def cycleMembers? : Fault → Option (List String)
  | cyclicViewDependency members => some members
  | _ => none

end Fault

end AppSchema
