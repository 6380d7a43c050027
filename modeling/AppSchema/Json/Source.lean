/-
**The tree of a JSON text.**

A `Source` is a JSON text as written: repeated keys, numbers of any size and halves of pairs
included. Tokens are assembled into a tree by a machine with a stack of the containers that are
still open, so a text may nest to any depth.

A `Shape` says which parts of a tree a reader keeps. What is kept becomes a value, which fails on a
half of a pair, on a number beyond the largest double, on too deep nesting, and on a known key that
is given twice; what is not kept needs only to be JSON.
-/

import AppSchema.Json.Token
import AppSchema.Json.Value

namespace AppSchema

/-- A JSON text as a tree. -/
inductive Source
  | null
  | boolean (value : Bool)
  | numeral (value : Numeral)
  | text (value : RawText)
  | list (elements : List Source)
  | record (members : List (RawText × Source))
  deriving Inhabited

namespace Source

/-- A container that is still open; its finished parts stand in reverse. -/
inductive Frame
  | list (elements : List Source)
  | record (members : List (RawText × Source)) (key : RawText)

/-- What has been read, by what may follow. `closable` says that the innermost container is empty
and may end here. -/
inductive Progress
  | atValue (closable : Bool) (frames : List Frame)
  | atKey (closable : Bool) (members : List (RawText × Source)) (frames : List Frame)
  | atColon (members : List (RawText × Source)) (key : RawText) (frames : List Frame)
  | complete (value : Source) (frames : List Frame)

namespace Progress

/-- Takes a token where a value is due. -/
def takeValue? (closable : Bool) (frames : List Frame) : Token → Option Progress
  | .null => some (.complete .null frames)
  | .boolean value => some (.complete (.boolean value) frames)
  | .numeral value => some (.complete (.numeral value) frames)
  | .text value => some (.complete (.text value) frames)
  | .openList => some (.atValue true (.list [] :: frames))
  | .openRecord => some (.atKey true [] frames)
  | .closeList =>
    match closable, frames with
    | true, .list elements :: below => some (.complete (.list elements.reverse) below)
    | _, _ => none
  | _ => none

/-- Takes a token behind a value. -/
def takeAfter? (value : Source) : List Frame → Token → Option Progress
  | .list elements :: below, .comma => some (.atValue false (.list (value :: elements) :: below))
  | .list elements :: below, .closeList =>
    some (.complete (.list (value :: elements).reverse) below)
  | .record members key :: below, .comma => some (.atKey false ((key, value) :: members) below)
  | .record members key :: below, .closeRecord =>
    some (.complete (.record ((key, value) :: members).reverse) below)
  | _, _ => none

/-- Takes one token. -/
def take? : Progress → Token → Option Progress
  | .atValue closable frames, token => takeValue? closable frames token
  | .atKey _ members frames, .text key => some (.atColon members key frames)
  | .atKey true members frames, .closeRecord =>
    some (.complete (.record members.reverse) frames)
  | .atColon members key frames, .colon => some (.atValue false (.record members key :: frames))
  | .complete value frames, token => takeAfter? value frames token
  | _, _ => none

/-- The tree, once nothing is open. -/
def finish? : Progress → Option Source
  | .complete value [] => some value
  | _ => none

end Progress

/-- Cuts a text into tokens. -/
def scan? (input : List Char) : Option (List Token) :=
  match input with
  | [] => some []
  | first :: rest =>
    if Token.isGap first then scan? rest
    else
      match scanned : Token.next? first rest with
      | none => none
      | some (token, after) =>
        have := Token.next?_length scanned
        (scan? after).map (token :: ·)
termination_by input.length
decreasing_by all_goals simp only [List.length_cons] at *; omega

/-- The tree of a JSON text. -/
def ofText? (text : String) : Option Source := do
  let tokens ← scan? text.toList
  let progress ← tokens.foldlM Progress.take? (.atValue false [])
  progress.finish?

/-- The parts of a tree that a reader keeps. -/
inductive Shape
  /-- All of it. -/
  | whole
  /-- The same parts of every element of a list. -/
  | list (element : Shape)
  /-- The members with known keys, and the others if `open`. A known key stands at most once. A
  `positional` record may be a list of its members in order instead. -/
  | record (positional isOpen : Bool) (known : List (String × Shape))

mutual

/-- The kept parts of a tree that may nest `room` containers deep. -/
def keep? (shape : Shape) (room : Nat) : Source → Option Json
  | .null => some .null
  | .boolean value => some (.bool value)
  | .numeral value => value.value?.map .number
  | .text value => value.string?.map .string
  | .list elements =>
    match room with
    | 0 => none
    | room + 1 =>
      match shape with
      | .list element => (keepEach? element room elements).map .array
      | .record true _ known => (keepInOrder? (known.map Prod.snd) room elements).map .array
      | _ => (keepEach? .whole room elements).map .array
  | .record members =>
    match room with
    | 0 => none
    | room + 1 =>
      match shape with
      | .record _ isOpen known => (keepMembers? known isOpen room members []).map .object
      | _ => (keepMembers? [] true room members []).map .object

/-- The kept parts of every element. -/
def keepEach? (shape : Shape) (room : Nat) : List Source → Option (List Json)
  | [] => some []
  | element :: rest => do
    let value ← keep? shape room element
    let values ← keepEach? shape room rest
    some (value :: values)

/-- The kept parts of a record that is given as a list. -/
def keepInOrder? (shapes : List Shape) (room : Nat) : List Source → Option (List Json)
  | [] => some []
  | element :: rest => do
    let value ← keep? (shapes.headD .whole) room element
    let values ← keepInOrder? shapes.tail room rest
    some (value :: values)

/-- The kept members of a record, behind those that are kept already. -/
def keepMembers? (known : List (String × Shape)) (isOpen : Bool) (room : Nat) :
    List (RawText × Source) → Json.Members → Option Json.Members
  | [], kept => some kept
  | (rawKey, source) :: rest, kept => do
    let key ← rawKey.string?
    match known.lookup key with
    | some shape =>
      if (kept.lookup key).isSome then none
      else
        let value ← keep? shape room source
        keepMembers? known isOpen room rest (Json.insert key value kept)
    | none =>
      if isOpen then
        let value ← keep? .whole room source
        keepMembers? known isOpen room rest (Json.insert key value kept)
      else keepMembers? known isOpen room rest kept

end

end Source

end AppSchema
