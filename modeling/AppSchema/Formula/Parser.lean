/-
**Reading formulas.**

At each position of a formula there is, in this order of preference, the end of the sequence, a
call, a reference to a field, or a character of literal text.

* A call is the name of a function with `(` right behind it. No letter, digit or underscore stands
  before the name, and the name is not part of a longer run of letters.
* A reference is `{field_1}` or `{field_1.field_2}`, with any digits. Other braces are text.
* The arguments of a call are sequences: a comma ends each but the last, and `)` ends the last. The
  other of the two may not occur there. Blanks around an argument are dropped, and then it may not
  be empty.
-/

import AppSchema.Error.Fault
import AppSchema.Formula.Tree
import AppSchema.Text.Alphanumeric
import AppSchema.Text.Blank

namespace AppSchema.Formula

/-! ## Positions -/

/-- A position in a formula: its offset in bytes of UTF-8, the character before it, and what
follows. -/
structure Cursor where
  offset : Nat
  previous : Option Char
  rest : List Char
  deriving DecidableEq, Repr, Inhabited

namespace Cursor

/-- The start of a formula. -/
def start (source : String) : Cursor :=
  ⟨0, none, source.toList⟩

/-- How many bytes of UTF-8 characters have. -/
def bytes (chars : List Char) : Nat :=
  chars.foldr (fun char total => char.utf8Size + total) 0

/-- The position behind `count` characters. -/
def skip (cursor : Cursor) (count : Nat) : Cursor :=
  { offset := cursor.offset + bytes (cursor.rest.take count)
    previous := (cursor.rest.take count).getLast?.or cursor.previous
    rest := cursor.rest.drop count }

theorem skip_length_le (cursor : Cursor) (count : Nat) :
    (cursor.skip count).rest.length ≤ cursor.rest.length := by
  simp [skip]

theorem skip_length_lt (cursor : Cursor) {count : Nat} (rest : cursor.rest ≠ [])
    (positive : 0 < count) : (cursor.skip count).rest.length < cursor.rest.length := by
  have := List.length_pos_iff.mpr rest
  simp only [skip, List.length_drop]
  omega

/-- Whether a name can begin here: no letter, digit or underscore stands before. -/
def atBoundary (cursor : Cursor) : Bool :=
  !cursor.previous.any Text.isWordChar

/-- The function that is called here. -/
def call? (cursor : Cursor) : Option Function :=
  if cursor.atBoundary then
    match cursor.rest.dropWhile Char.isAlpha with
    | '(' :: _ => Function.ofName? (String.ofList (cursor.rest.takeWhile Char.isAlpha))
    | _ => none
  else none

end Cursor

/-! ## References -/

namespace FieldRef

/-- Reads the key of a field: `field_` and digits. Gives the key and what follows it. -/
def key? (input : List Char) : Option (List Char × List Char) :=
  match input with
  | 'f' :: 'i' :: 'e' :: 'l' :: 'd' :: '_' :: rest =>
    let digits := rest.takeWhile Char.isDigit
    if digits = [] then none
    else some ("field_".toList ++ digits, rest.dropWhile Char.isDigit)
  | _ => none

/-- Reads a reference between braces, and gives the number of its characters. -/
def scan? (input : List Char) : Option (FieldRef × Nat) :=
  match input with
  | '\x7b' :: rest =>
    match key? rest with
    | some (key, '\x7d' :: _) => some (⟨String.ofList key, none⟩, key.length + 2)
    | some (via, '.' :: rest) =>
      match key? rest with
      | some (key, '\x7d' :: _) =>
        some (⟨String.ofList key, some (String.ofList via)⟩, via.length + key.length + 3)
      | _ => none
    | _ => none
  | _ => none

theorem scan?_positive {input : List Char} {ref : FieldRef} {count : Nat}
    (scanned : scan? input = some (ref, count)) : 0 < count := by
  unfold scan? at scanned
  split at scanned
  · split at scanned
    · simp only [Option.some.injEq, Prod.mk.injEq] at scanned
      omega
    · split at scanned
      · simp only [Option.some.injEq, Prod.mk.injEq] at scanned
        omega
      · simp at scanned
    · simp at scanned
  · simp at scanned

end FieldRef

/-! ## Sequences and calls -/

/-- What ends a sequence. -/
inductive Ending
  /-- The end of the formula. -/
  | formula
  /-- A comma, behind an argument that is not the last of its function. -/
  | comma (function : Function)
  /-- `)`, behind the last argument of a function. -/
  | close (function : Function)
  deriving DecidableEq, Repr, Inhabited

namespace Ending

/-- The ending of the argument at a position, counted from one. -/
def ofArgument (function : Function) (position : Nat) : Ending :=
  if position < function.arity then comma function else close function

/-- Whether a character ends a sequence. -/
def isMet : Ending → Char → Bool
  | comma _, char => char == ','
  | close _, char => char == ')'
  | formula, _ => false

/-- The fault of a character that may not occur in a sequence. -/
def refuses? : Ending → Char → Option FormulaFault
  | comma function, ')' => some (.arity function)
  | close function, ',' => some (.arity function)
  | _, _ => none

/-- The fault of a sequence that the end of the formula cuts off. -/
def cutOff? : Ending → Option FormulaFault
  | formula => none
  | comma function => some (.arity function)
  | close function => some (.unclosed function)

end Ending

/-- Drops the blanks around an argument. -/
def trimArgument (pieces : List Piece) : List Piece :=
  (Piece.mapLast Text.trimEnd (Piece.mapFirst Text.trimStart pieces)).filter (!·.isEmptyText)

/-- A result together with the position behind it, which is no earlier than `start`. -/
abbrev Parsed (start : Cursor) (α : Type) :=
  { result : α × Cursor // result.2.rest.length ≤ start.rest.length }

mutual

/-- Reads a sequence, up to the character that ends it. `field` is the key of the formula. -/
def parsePieces (field : String) (ending : Ending) (cursor : Cursor) :
    Except Fault (Parsed cursor (List Piece)) :=
  match next : cursor.rest with
  | [] =>
    match ending.cutOff? with
    | some fault => .error (.malformedFormula field (some cursor.offset) fault)
    | none => .ok ⟨([], cursor), Nat.le_refl _⟩
  | char :: _ =>
    have rest : cursor.rest ≠ [] := by simp [next]
    if ending.isMet char then .ok ⟨([], cursor), Nat.le_refl _⟩
    else
      match ending.refuses? char with
      | some fault => .error (.malformedFormula field (some cursor.offset) fault)
      | none =>
        match cursor.call? with
        | some function =>
          have : (cursor.skip (function.name.length + 1)).rest.length < cursor.rest.length :=
            cursor.skip_length_lt rest (Nat.succ_pos _)
          match parseArguments field function 1 (cursor.skip (function.name.length + 1)) with
          | .error fault => .error fault
          | .ok ⟨(arguments, behind), shorter⟩ =>
            have : behind.rest.length ≤ _ := shorter
            match parsePieces field ending behind with
            | .error fault => .error fault
            | .ok ⟨(pieces, last), shortest⟩ =>
              .ok ⟨(.call function arguments cursor.offset :: pieces, last), by
                simp only at shorter shortest ⊢; omega⟩
        | none =>
          match scanned : FieldRef.scan? cursor.rest with
          | some (ref, count) =>
            have := cursor.skip_length_lt rest (FieldRef.scan?_positive scanned)
            match parsePieces field ending (cursor.skip count) with
            | .error fault => .error fault
            | .ok ⟨(pieces, last), shorter⟩ =>
              .ok ⟨(.field ref :: pieces, last), by simp only at shorter ⊢; omega⟩
          | none =>
            have := cursor.skip_length_lt rest Nat.one_pos
            match parsePieces field ending (cursor.skip 1) with
            | .error fault => .error fault
            | .ok ⟨(pieces, last), shorter⟩ =>
              .ok ⟨(Piece.prepend char pieces, last), by simp only at shorter ⊢; omega⟩
termination_by 4 * cursor.rest.length

/-- Reads the arguments of a call from a position on, counted from one, and the `)` behind them. -/
def parseArguments (field : String) (function : Function) (position : Nat) (cursor : Cursor) :
    Except Fault (Parsed cursor (List (List Piece))) :=
  match parsePieces field (.ofArgument function position) cursor with
  | .error fault => .error fault
  | .ok ⟨(pieces, behind), shorter⟩ =>
    if (trimArgument pieces).isEmpty then
      .error (.malformedFormula field (some cursor.offset) (.emptyArgument position function))
    else
      have later : (behind.skip 1).rest.length ≤ cursor.rest.length :=
        Nat.le_trans (behind.skip_length_le 1) shorter
      have := function.arity_le_two
      if position < function.arity then
        match parseArguments field function (position + 1) (behind.skip 1) with
        | .error fault => .error fault
        | .ok ⟨(arguments, last), shortest⟩ =>
          .ok ⟨(trimArgument pieces :: arguments, last), Nat.le_trans shortest later⟩
      else .ok ⟨([trimArgument pieces], behind.skip 1), later⟩
termination_by 4 * cursor.rest.length + 1 + (2 - position)

end

/-- The pieces of a formula. `field` is the key of the field that has it. -/
def parse (field source : String) : Except Fault (List Piece) :=
  match parsePieces field .formula (.start source) with
  | .error fault => .error fault
  | .ok ⟨(pieces, _), _⟩ => .ok pieces

end AppSchema.Formula
