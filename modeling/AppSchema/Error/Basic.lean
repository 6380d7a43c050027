/-
**Errors with context.**

An error is a fault at its root and the contexts that were added to it, the most recent first. Its
message lists them in that order, the root last.

* `Error.message_context`: a context adds its message in front;
* `Error.root_context`: a context leaves the root as it is.
-/

import AppSchema.Error.Fault

namespace AppSchema

/-- A fault with its contexts, outermost first. -/
structure Error where
  contexts : List Fault := []
  root : Fault
  deriving Inhabited

namespace Error

/-- A fault without context. -/
def ofFault (fault : Fault) : Error := { root := fault }

/-- Adds a context. -/
def context (error : Error) (fault : Fault) : Error :=
  { error with contexts := fault :: error.contexts }

/-- The outermost fault. -/
def outer (error : Error) : Fault :=
  error.contexts.headD error.root

/-- Every fault, outermost first. -/
def chain (error : Error) : List Fault :=
  error.contexts ++ [error.root]

/-- The message of an error. -/
def message (error : Error) : String :=
  String.intercalate ": " (error.chain.map Fault.message)

@[simp] theorem root_context (error : Error) (fault : Fault) :
    (error.context fault).root = error.root := rfl

@[simp] theorem outer_context (error : Error) (fault : Fault) :
    (error.context fault).outer = fault := rfl

@[simp] theorem message_ofFault (fault : Fault) : (ofFault fault).message = fault.message :=
  String.intercalate_singleton

theorem message_context (error : Error) (fault : Fault) :
    (error.context fault).message = fault.message ++ ": " ++ error.message := by
  simp only [message, chain, context, List.cons_append, List.map_cons]
  exact String.intercalate_cons_of_ne_nil (by simp)

end Error

end AppSchema
