/-
**The tree of a formula.**

A formula is a sequence of pieces: literal text, references to fields, and calls whose arguments are
sequences themselves.
-/

import AppSchema.Formula.Function

namespace AppSchema.Formula

/-- A reference to a field, of the host or, through a connection, of another object. -/
structure FieldRef where
  field : String
  /-- The key of the connection that leads to the object of the field. -/
  via : Option String := none
  deriving DecidableEq, Repr, Inhabited

/-- A piece of a formula. -/
inductive Piece
  | text (chars : List Char)
  | field (ref : FieldRef)
  /-- `offset` is the position of the name in the formula, in bytes of UTF-8. -/
  | call (function : Function) (arguments : List (List Piece)) (offset : Nat)
  deriving Inhabited

namespace Piece

/-- Whether a piece is a text without characters. -/
def isEmptyText : Piece → Bool
  | text [] => true
  | _ => false

/-- Puts a character before pieces, into the text at their start if there is one. -/
def prepend (char : Char) : List Piece → List Piece
  | .text chars :: rest => .text (char :: chars) :: rest
  | pieces => .text [char] :: pieces

/-- Changes the text at the start of pieces. -/
def mapFirst (change : List Char → List Char) : List Piece → List Piece
  | .text chars :: rest => .text (change chars) :: rest
  | pieces => pieces

/-- Changes the text at the end of pieces. -/
def mapLast (change : List Char → List Char) : List Piece → List Piece
  | [] => []
  | [.text chars] => [.text (change chars)]
  | piece :: rest => piece :: mapLast change rest

mutual

/-- The references in pieces, in the order of the source. -/
def fieldRefs : List Piece → List FieldRef
  | [] => []
  | .text _ :: rest => fieldRefs rest
  | .field ref :: rest => ref :: fieldRefs rest
  | .call _ arguments _ :: rest => argumentRefs arguments ++ fieldRefs rest

/-- The references in arguments, in the order of the source. -/
def argumentRefs : List (List Piece) → List FieldRef
  | [] => []
  | argument :: rest => fieldRefs argument ++ argumentRefs rest

end

end Piece

end AppSchema.Formula
