/-
**Errors that are shared.**

A handle is an error whose parts have an identity: copies of a handle share their parts, and the
root of a handle shares its root. A shelf is a row of slots that hold handles.

A context that stands alone and is held nowhere else is put in front of an error as it is. Any other
context is first flattened to its message, so that those who share it see no change.
-/

import AppSchema.Error.Basic

namespace AppSchema

/-- A fault with its identity. -/
structure SharedFault where
  id : Nat
  fault : Fault
  deriving Inhabited

/-- An error whose parts have an identity. -/
structure Handle where
  contexts : List SharedFault := []
  root : SharedFault
  deriving Inhabited

namespace Handle

/-- Every part, outermost first. -/
def links (handle : Handle) : List SharedFault :=
  handle.contexts ++ [handle.root]

/-- The outermost part. -/
def outer (handle : Handle) : SharedFault :=
  handle.contexts.headD handle.root

/-- The error without the identities. -/
def error (handle : Handle) : Error :=
  ⟨handle.contexts.map SharedFault.fault, handle.root.fault⟩

/-- Whether a part with an identity belongs to a handle. -/
def holds (handle : Handle) (id : Nat) : Bool :=
  handle.links.any (·.id == id)

/-- Puts a part in front. -/
def push (handle : Handle) (link : SharedFault) : Handle :=
  { handle with contexts := link :: handle.contexts }

end Handle

/-- A row of slots, and the next identity that is free. -/
structure Shelf where
  next : Nat := 0
  slots : List (Option Handle) := []
  deriving Inhabited

namespace Shelf

/-- The handle in a slot. -/
def get? (shelf : Shelf) (slot : Nat) : Option Handle :=
  shelf.slots[slot]?.join

/-- Empties a slot. -/
def clear (shelf : Shelf) (slot : Nat) : Shelf :=
  { shelf with slots := shelf.slots.set slot none }

/-- Adds a slot. -/
def push (shelf : Shelf) (handle : Option Handle) : Shelf :=
  { shelf with slots := shelf.slots ++ [handle] }

/-- Adds a slot with a new error. -/
def make (shelf : Shelf) (fault : Fault) : Shelf :=
  { next := shelf.next + 1, slots := shelf.slots ++ [some { root := ⟨shelf.next, fault⟩ }] }

/-- Adds a slot with a copy of the handle in another one. -/
def copy (shelf : Shelf) (slot : Nat) : Shelf :=
  shelf.push (shelf.get? slot)

/-- Adds a slot with the root of the handle in another one. -/
def root (shelf : Shelf) (slot : Nat) : Shelf :=
  shelf.push ((shelf.get? slot).map fun handle => { root := handle.root })

/-- Empties a slot, and adds an empty one. -/
def drop (shelf : Shelf) (slot : Nat) : Shelf :=
  (shelf.clear slot).push none

/-- Whether a slot holds a part with an identity. -/
def holds (shelf : Shelf) (id : Nat) : Bool :=
  shelf.slots.any fun slot => slot.any (·.holds id)

/-- Puts a context in front of an error, both of which are in no slot any more. -/
def wrap (shelf : Shelf) (error context : Handle) : Shelf :=
  let shared := shelf.holds context.outer.id || error.holds context.outer.id
  if context.contexts.isEmpty && !shared then shelf.push (some (error.push context.root))
  else
    { shelf with next := shelf.next + 1 }.push
      (some (error.push ⟨shelf.next, .adHoc context.error.message⟩))

/-- Takes the error out of a slot and adds a slot with the error in a context of the given text. -/
def contextText (shelf : Shelf) (slot : Nat) (text : String) : Shelf :=
  match shelf.get? slot with
  | none => shelf.push none
  | some error =>
    { shelf.clear slot with next := shelf.next + 1 }.wrap error
      { root := ⟨shelf.next, .adHoc text⟩ }

/-- Takes the error out of a slot, and a context out of another one, and adds a slot with the error
in that context. Without an error nothing more happens; without a context the error is lost. -/
def contextSlot (shelf : Shelf) (slot contextSlot : Nat) : Shelf :=
  match shelf.get? slot with
  | none => shelf.push none
  | some error =>
    let taken := shelf.clear slot
    match taken.get? contextSlot with
    | none => taken.push none
    | some context => (taken.clear contextSlot).wrap error context

end Shelf

end AppSchema
