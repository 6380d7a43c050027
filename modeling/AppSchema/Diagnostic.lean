/-
**Diagnostics.**

A diagnostic is a problem that concerns one part of an application: an object or a field. Whoever
compiles leniently leaves the part out and goes on; whoever compiles strictly stops at the first
diagnostic that is an error.
-/

import AppSchema.Error.Basic

namespace AppSchema

/-- How bad a problem is. -/
inductive Severity
  /-- The part was left out on purpose. -/
  | warning
  /-- The part could not be compiled. -/
  | error
  deriving DecidableEq, Repr, Inhabited

/-- The part of an application that a problem concerns. -/
inductive Part
  | object (key : String)
  | field (object key : String)
  deriving DecidableEq, Repr, Inhabited

/-- A problem with one part of an application. -/
structure Diagnostic where
  part : Part
  severity : Severity
  fault : Fault
  deriving Inhabited

namespace Part

/-- The text of a part. -/
def text : Part → String
  | .object key => "object `" ++ key ++ "`"
  | .field owner key => "object `" ++ owner ++ "`: field `" ++ key ++ "`"

/-- The key of the object that is or has the part. -/
def objectKey : Part → String
  | .object key => key
  | .field owner _ => owner

/-- The key of the field. -/
def fieldKey? : Part → Option String
  | .object _ => none
  | .field _ key => some key

end Part

namespace Diagnostic

/-- The error of a diagnostic that is one: its fault in the context of its part. -/
def error (diagnostic : Diagnostic) : Error :=
  (Error.ofFault diagnostic.fault).context (.adHoc diagnostic.part.text)

/-- The message of a diagnostic, the part first. -/
def message (diagnostic : Diagnostic) : String :=
  diagnostic.part.text ++ ": " ++ diagnostic.fault.message

/-- Whether a diagnostic is an error. -/
def isError (diagnostic : Diagnostic) : Bool :=
  diagnostic.severity == .error

/-- Lets diagnostics pass, unless `strict` and one of them is an error: then the first. -/
def settle (strict : Bool) (diagnostics : List Diagnostic) : Except Error Unit :=
  match diagnostics.find? isError with
  | some first => if strict then .error first.error else .ok ()
  | none => .ok ()

theorem message_error (diagnostic : Diagnostic) :
    diagnostic.error.message = diagnostic.message := by
  rw [error, Error.message_context, Error.message_ofFault]
  rfl

end Diagnostic

end AppSchema
