/-
**The grammar of formulas.**

A formula is a sequence of items: calls, references to fields, and single characters. At each
position a call goes before a reference, and a reference before a character; what an item may be
depends on the texts before and behind it.

* `Derives`: a source is the text of a sequence that its end ends;
* `tree`: the pieces of a sequence, in which characters next to each other are one text and the
  blanks around an argument are dropped;
* `Calls.unique`, `Refers.unique`: at a position begins at most one call and at most one reference;
* `Sequence.unique`: what stands behind a text is a sequence in one way only.
-/

import Mathlib.Data.List.DropRight
import AppSchema.Formula.Parser

namespace AppSchema.Formula

/-! ### References -/

/-- A key of a field: `field_` and one or more digits. -/
def IsKey (key : String) : Prop :=
  ∃ digits : List Char, digits ≠ [] ∧ (∀ digit ∈ digits, digit.isDigit = true) ∧
    key.toList = "field_".toList ++ digits

/-- A reference that can be written in a formula. -/
def FieldRef.Writable (ref : FieldRef) : Prop :=
  IsKey ref.field ∧ ∀ via ∈ ref.via, IsKey via

/-- A reference in a formula: a key, or two with a dot between them, in braces. -/
def FieldRef.text : FieldRef → List Char
  | ⟨field, none⟩ => '\x7b' :: (field.toList ++ ['\x7d'])
  | ⟨field, some via⟩ => '\x7b' :: (via.toList ++ '.' :: (field.toList ++ ['\x7d']))

namespace FieldRef

theorem key?_append {key : String} (written : IsKey key) {char : Char} {behind : List Char}
    (other : char.isDigit = false) :
    key? (key.toList ++ char :: behind) = some (key.toList, char :: behind) := by
  obtain ⟨digits, some, all, spelled⟩ := written
  have run : (digits ++ char :: behind).takeWhile Char.isDigit = digits := by
    rw [List.takeWhile_append_of_pos all, List.takeWhile_cons_of_neg (by simp [other]),
      List.append_nil]
  have left : (digits ++ char :: behind).dropWhile Char.isDigit = char :: behind := by
    rw [List.dropWhile_append_of_pos all, List.dropWhile_cons_of_neg (by simp [other])]
  rw [spelled, List.append_assoc]
  show key? ('f' :: 'i' :: 'e' :: 'l' :: 'd' :: '_' :: (digits ++ char :: behind)) = _
  rw [key?]
  simp only [run, left, if_neg some]

theorem of_key? {input key behind : List Char} (found : key? input = some (key, behind)) :
    IsKey (String.ofList key) ∧ input = key ++ behind := by
  unfold key? at found
  split at found
  · rename_i rest
    dsimp only at found
    split at found
    · cases found
    · rename_i some
      obtain ⟨rfl, rfl⟩ := Prod.mk.inj (Option.some.inj found)
      refine ⟨⟨rest.takeWhile Char.isDigit, some, fun digit member => ?_, ?_⟩, ?_⟩
      · exact List.mem_takeWhile_imp member
      · exact String.toList_ofList
      · rw [List.append_assoc, List.takeWhile_append_dropWhile]
        rfl
  · cases found

theorem scan?_append {ref : FieldRef} (writable : ref.Writable) (behind : List Char) :
    scan? (ref.text ++ behind) = some (ref, ref.text.length) := by
  obtain ⟨field, _ | via⟩ := ref
  · have key : key? (field.toList ++ '\x7d' :: behind) = _ := key?_append writable.1 rfl
    simp [text, scan?, key]
  · have first : key? (via.toList ++ '.' :: (field.toList ++ '\x7d' :: behind)) = _ :=
      key?_append (writable.2 via rfl) rfl
    have second : key? (field.toList ++ '\x7d' :: behind) = _ := key?_append writable.1 rfl
    simp [text, scan?, first, second]
    omega

theorem of_scan? {input : List Char} {ref : FieldRef} {count : Nat}
    (scanned : scan? input = some (ref, count)) :
    ref.Writable ∧ ref.text <+: input ∧ count = ref.text.length := by
  unfold scan? at scanned
  split at scanned
  · rename_i rest
    split at scanned
    · rename_i key tail found
      obtain ⟨rfl, rfl⟩ := Prod.mk.inj (Option.some.inj scanned)
      obtain ⟨written, rfl⟩ := of_key? found
      refine ⟨⟨written, nofun⟩, ⟨tail, ?_⟩, ?_⟩
      · simp [text]
      · simp [text]
    · rename_i via rest found
      split at scanned
      · rename_i key tail also
        obtain ⟨rfl, rfl⟩ := Prod.mk.inj (Option.some.inj scanned)
        obtain ⟨connection, rfl⟩ := of_key? found
        obtain ⟨written, rfl⟩ := of_key? also
        refine ⟨⟨written, fun _ member => Option.mem_some.mp member ▸ connection⟩, ⟨tail, ?_⟩, ?_⟩
        · simp [text]
        · simp [text]
          omega
      · cases scanned
    · cases scanned
  · cases scanned

theorem text_eq_cons (ref : FieldRef) : ∃ tail, ref.text = '\x7b' :: tail := by
  obtain ⟨field, _ | via⟩ := ref
  · exact ⟨_, rfl⟩
  · exact ⟨_, rfl⟩

end FieldRef

namespace Grammar

/-! ### Items -/

/-- What a sequence is made of. -/
inductive Item
  | literal (char : Char)
  | reference (ref : FieldRef)
  /-- `offset` is the position of the name in the formula, in bytes of UTF-8. -/
  | call (function : Function) (arguments : List (List Item)) (offset : Nat)

/-- What a call begins with. -/
def opening (function : Function) : List Char :=
  function.name.toList ++ ['(']

mutual

/-- The text of an item. -/
def Item.text : Item → List Char
  | .literal char => [char]
  | .reference ref => ref.text
  | .call function arguments _ => opening function ++ argumentsText arguments

/-- The text of a sequence. -/
def text : List Item → List Char
  | [] => []
  | item :: items => item.text ++ text items

/-- The text of arguments: `)` stands behind the last of them and a comma behind the others. -/
def argumentsText : List (List Item) → List Char
  | [] => []
  | argument :: rest => text argument ++ (if rest = [] then ')' else ',') :: argumentsText rest

end

/-- Whether an item is a blank. -/
def Item.isBlank : Item → Bool
  | .literal char => Text.isBlank char
  | _ => false

/-- A sequence without the blanks around it. -/
def trimmed (items : List Item) : List Item :=
  (items.dropWhile Item.isBlank).rdropWhile Item.isBlank

theorem sizeOf_le_of_sublist {items others : List Item} (part : items.Sublist others) :
    sizeOf items ≤ sizeOf others := by
  induction part with
  | slnil => exact le_rfl
  | cons item _ shorter => simp only [List.cons.sizeOf_spec]; omega
  | cons_cons item _ shorter => simp only [List.cons.sizeOf_spec]; omega

theorem sizeOf_trimmed_le (items : List Item) : sizeOf (trimmed items) ≤ sizeOf items :=
  sizeOf_le_of_sublist
    ((List.rdropWhile_prefix _ _).sublist.trans (List.dropWhile_sublist _))

mutual

/-- The pieces of a sequence: characters next to each other are one text. -/
def tree : List Item → List Piece
  | [] => []
  | .literal char :: items => Piece.prepend char (tree items)
  | .reference ref :: items => .field ref :: tree items
  | .call function arguments offset :: items =>
    .call function (argumentTrees arguments) offset :: tree items
termination_by items => sizeOf items

/-- The pieces of arguments, without the blanks around them. -/
def argumentTrees : List (List Item) → List (List Piece)
  | [] => []
  | argument :: rest =>
    have := sizeOf_trimmed_le argument
    tree (trimmed argument) :: argumentTrees rest
termination_by arguments => sizeOf arguments

end

/-! ### Derivations -/

/-- A name can begin: no letter, digit or underscore stands before. -/
def Boundary (before : List Char) : Prop :=
  ∀ char ∈ before.getLast?, Text.isWordChar char = false

/-- A call begins between two texts: the name of a function with `(` right behind it. The name is
all of the letters there (`takeWhile_opening`). -/
def Calls (before input : List Char) (function : Function) : Prop :=
  Boundary before ∧ opening function <+: input

/-- A reference begins a text. -/
def Refers (input : List Char) (ref : FieldRef) : Prop :=
  ref.Writable ∧ ref.text <+: input

/-- What stands behind a sequence. -/
inductive Ends : Ending → List Char → Prop
  | formula : Ends .formula []
  | comma (function : Function) (behind : List Char) : Ends (.comma function) (',' :: behind)
  | close (function : Function) (behind : List Char) : Ends (.close function) (')' :: behind)

/-- The characters of a sequence: all in a formula itself; in an argument neither a comma nor `)`,
of which one ends it and the other may not occur. -/
def Allowed : Ending → Char → Prop
  | .formula, _ => True
  | _, char => char ≠ ',' ∧ char ≠ ')'

mutual

/-- **The sequences of the grammar.** The items stand between the texts `before` and `behind`, with
an ending behind them. -/
inductive Sequence : Ending → List Char → List Item → List Char → Prop
  | nil {ending : Ending} {before behind : List Char} (ends : Ends ending behind) :
      Sequence ending before [] behind
  | cons {ending : Ending} {before behind : List Char} {item : Item} {items : List Item}
      (first : Taken ending before item (text items ++ behind))
      (later : Sequence ending (before ++ item.text) items behind) :
      Sequence ending before (item :: items) behind

/-- An item is taken between two texts: a call where one begins, else a reference where one begins,
else a character. -/
inductive Taken : Ending → List Char → Item → List Char → Prop
  | call {ending : Ending} {before behind : List Char} {function : Function}
      {arguments : List (List Item)} (boundary : Boundary before)
      (arity : arguments.length = function.arity)
      (inside : Arguments function (before ++ opening function) arguments behind) :
      Taken ending before (.call function arguments (Cursor.bytes before)) behind
  | reference {ending : Ending} {before behind : List Char} {ref : FieldRef}
      (noCall : ∀ function, ¬ Calls before (ref.text ++ behind) function)
      (writable : ref.Writable) :
      Taken ending before (.reference ref) behind
  | literal {ending : Ending} {before behind : List Char} {char : Char}
      (noCall : ∀ function, ¬ Calls before (char :: behind) function)
      (noReference : ∀ ref, ¬ Refers (char :: behind) ref)
      (allowed : Allowed ending char) :
      Taken ending before (.literal char) behind

/-- Arguments stand between two texts, each with its ending. None is blank. -/
inductive Arguments : Function → List Char → List (List Item) → List Char → Prop
  | last {function : Function} {before behind : List Char} {argument : List Item}
      (sequence : Sequence (.close function) before argument (')' :: behind))
      (content : trimmed argument ≠ []) :
      Arguments function before [argument] behind
  | next {function : Function} {before behind : List Char} {argument following : List Item}
      {rest : List (List Item)}
      (sequence : Sequence (.comma function) before argument
        (',' :: (argumentsText (following :: rest) ++ behind)))
      (content : trimmed argument ≠ [])
      (later : Arguments function (before ++ (text argument ++ [','])) (following :: rest)
        behind) :
      Arguments function before (argument :: following :: rest) behind

end

/-- **The formulas of the grammar.** A formula is the text of a sequence that the end of the
formula ends. -/
def Derives (source : String) (items : List Item) : Prop :=
  source.toList = text items ∧ Sequence .formula [] items []

/-! ### Calls and references at a position -/

theorem isAlpha_of_mem_name {function : Function} {char : Char}
    (member : char ∈ function.name.toList) : char.isAlpha = true := by
  have letters : function.name.toList.all Char.isAlpha = true := by
    cases function <;> decide
  exact List.all_eq_true.mp letters char member

theorem takeWhile_opening (function : Function) (behind : List Char) :
    (opening function ++ behind).takeWhile Char.isAlpha = function.name.toList := by
  rw [opening, List.append_assoc, List.takeWhile_append_of_pos fun _ => isAlpha_of_mem_name,
    List.singleton_append, List.takeWhile_cons_of_neg (by decide), List.append_nil]

theorem dropWhile_opening (function : Function) (behind : List Char) :
    (opening function ++ behind).dropWhile Char.isAlpha = '(' :: behind := by
  rw [opening, List.append_assoc, List.dropWhile_append_of_pos fun _ => isAlpha_of_mem_name,
    List.singleton_append, List.dropWhile_cons_of_neg (by decide)]

theorem eq_of_name {function other : Function} (same : function.name = other.name) :
    function = other := by
  rw [← Option.some_inj, ← Function.ofName?_name, ← Function.ofName?_name, same]

theorem Calls.unique {before input : List Char} {function other : Function}
    (calls : Calls before input function) (also : Calls before input other) :
    function = other := by
  obtain ⟨behind, rfl⟩ := calls.2
  obtain ⟨behind', same⟩ := also.2
  have names := congrArg (List.takeWhile Char.isAlpha) same
  rw [takeWhile_opening, takeWhile_opening] at names
  exact (eq_of_name (String.toList_inj.mp names)).symm

theorem refers_iff {input : List Char} {ref : FieldRef} :
    Refers input ref ↔ FieldRef.scan? input = some (ref, ref.text.length) := by
  constructor
  · rintro ⟨writable, behind, rfl⟩
    exact FieldRef.scan?_append writable behind
  · intro scanned
    obtain ⟨writable, begins, _⟩ := FieldRef.of_scan? scanned
    exact ⟨writable, begins⟩

theorem scan?_eq_none {input : List Char} :
    FieldRef.scan? input = none ↔ ∀ ref, ¬ Refers input ref := by
  constructor
  · intro none ref refers
    cases none.symm.trans (refers_iff.mp refers)
  · intro noReference
    cases scanned : FieldRef.scan? input with
    | none => rfl
    | some found =>
      obtain ⟨writable, begins, _⟩ := FieldRef.of_scan? scanned
      exact absurd ⟨writable, begins⟩ (noReference found.1)

theorem Refers.unique {input : List Char} {ref other : FieldRef}
    (refers : Refers input ref) (also : Refers input other) : ref = other := by
  have same := (refers_iff.mp refers).symm.trans (refers_iff.mp also)
  exact (Prod.mk.inj (Option.some.inj same)).1

/-! ### The text of an item -/

theorem name_ne_nil (function : Function) : function.name.toList ≠ [] := by
  cases function <;> decide

theorem allowed_of_isAlpha {char : Char} (letter : char.isAlpha = true) (ending : Ending) :
    Allowed ending char := by
  cases ending with
  | formula => trivial
  | comma function | close function =>
    constructor
    · rintro rfl
      simp at letter
    · rintro rfl
      simp at letter

theorem Boundary.calls {before behind : List Char} {function : Function}
    {arguments : List (List Item)} {offset : Nat} (boundary : Boundary before) :
    Calls before ((Item.call function arguments offset).text ++ behind) function :=
  ⟨boundary, argumentsText arguments ++ behind, by rw [Item.text, List.append_assoc]⟩

/-- An item begins with a character that the sequence may have. -/
theorem Taken.text_eq_cons {ending : Ending} {before behind : List Char} {item : Item}
    (taken : Taken ending before item behind) :
    ∃ char tail, item.text = char :: tail ∧ Allowed ending char := by
  cases taken with
  | @call _ _ _ function arguments boundary arity inside =>
    obtain ⟨char, letters, name⟩ := List.exists_cons_of_ne_nil (name_ne_nil function)
    have first : char ∈ function.name.toList := by
      rw [name]
      exact List.mem_cons_self
    have letter : char.isAlpha = true := isAlpha_of_mem_name first
    refine ⟨char, letters ++ ['('] ++ argumentsText arguments, ?_,
      allowed_of_isAlpha letter ending⟩
    rw [Item.text, opening, name, List.cons_append, List.cons_append]
  | @reference _ _ _ ref noCall writable =>
    obtain ⟨tail, opened⟩ := FieldRef.text_eq_cons ref
    refine ⟨'\x7b', tail, opened, ?_⟩
    cases ending with
    | formula => trivial
    | comma function | close function => constructor <;> decide
  | @literal _ _ _ char noCall noReference allowed =>
    exact ⟨char, [], rfl, allowed⟩

theorem argumentsText_last (argument : List Item) :
    argumentsText [argument] = text argument ++ [')'] := by
  simp [argumentsText]

theorem argumentsText_next (argument following : List Item) (rest : List (List Item)) :
    argumentsText (argument :: following :: rest) =
      text argument ++ ',' :: argumentsText (following :: rest) := by
  simp [argumentsText]

/-! ### One derivation -/

theorem Sequence.ends {ending : Ending} {before behind : List Char} : {items : List Item} →
    Sequence ending before items behind → Ends ending behind
  | [], .nil ends => ends
  | _ :: _, .cons _ later => later.ends

/-- What ends a sequence cannot be part of it. -/
theorem Ends.not_allowed {ending : Ending} {char : Char} {behind : List Char}
    (ends : Ends ending (char :: behind)) : ¬ Allowed ending char := by
  cases ends with
  | comma function => exact fun allowed => allowed.1 rfl
  | close function => exact fun allowed => allowed.2 rfl

/-- No item begins where a sequence ends. -/
theorem Taken.not_ends {ending : Ending} {before behind rest : List Char} {item : Item}
    (taken : Taken ending before item behind) : ¬ Ends ending (item.text ++ rest) := by
  obtain ⟨char, tail, begins, allowed⟩ := taken.text_eq_cons
  rw [begins]
  exact fun ends => ends.not_allowed allowed

mutual

/-- **What is derived has one derivation.** Two sequences are the same where they make up the same
text with what stands behind them. -/
theorem Sequence.unique {ending : Ending} {before behind behind' : List Char}
    {items items' : List Item} (derived : Sequence ending before items behind)
    (other : Sequence ending before items' behind')
    (same : text items ++ behind = text items' ++ behind') :
    items = items' ∧ behind = behind' := by
  cases derived with
  | nil ends =>
    cases other with
    | nil _ => exact ⟨rfl, same⟩
    | cons first later =>
      rw [text, text, List.nil_append, List.append_assoc] at same
      exact absurd (same ▸ ends) first.not_ends
  | @cons _ _ _ item items first later =>
    cases other with
    | nil ends =>
      rw [text, text, List.nil_append, List.append_assoc] at same
      exact absurd (same ▸ ends) first.not_ends
    | @cons _ _ _ item' items' first' later' =>
      rw [text, text, List.append_assoc, List.append_assoc] at same
      obtain ⟨rfl, sameItems⟩ := Taken.unique first first' same
      obtain ⟨rfl, sameBehind⟩ := Sequence.unique later later' sameItems
      exact ⟨rfl, sameBehind⟩
termination_by sizeOf items

theorem Taken.unique {ending : Ending} {before behind behind' : List Char} {item item' : Item}
    (taken : Taken ending before item behind) (other : Taken ending before item' behind')
    (same : item.text ++ behind = item'.text ++ behind') : item = item' ∧ behind = behind' := by
  -- The rules exclude each other at a position, so only the equal ones are left.
  cases taken with
  | @call _ _ _ function arguments boundary arity inside =>
    have calls : Calls before (item'.text ++ behind') function := same ▸ boundary.calls
    cases other with
    | @call _ _ _ function' arguments' boundary' arity' inside' =>
      obtain rfl : function = function' := calls.unique boundary'.calls
      rw [Item.text, Item.text, List.append_assoc, List.append_assoc] at same
      obtain ⟨rfl, sameBehind⟩ := Arguments.unique inside inside' (arity.trans arity'.symm)
        (List.append_cancel_left same)
      exact ⟨rfl, sameBehind⟩
    | reference noCall _ => exact absurd calls (noCall function)
    | literal noCall _ _ => exact absurd calls (noCall function)
  | @reference _ _ _ ref noCall writable =>
    have refers : Refers (item'.text ++ behind') ref := ⟨writable, behind, same⟩
    cases other with
    | @call _ _ _ function' _ boundary' _ _ =>
      exact absurd (same ▸ boundary'.calls) (noCall function')
    | @reference _ _ _ ref' _ writable' =>
      obtain rfl : ref = ref' := refers.unique ⟨writable', behind', rfl⟩
      exact ⟨rfl, List.append_cancel_left same⟩
    | literal _ noReference' _ => exact absurd refers (noReference' ref)
  | @literal _ _ _ char noCall noReference allowed =>
    cases other with
    | @call _ _ _ function' _ boundary' _ _ =>
      have calls : Calls before ((Item.literal char).text ++ behind) function' :=
        same ▸ boundary'.calls
      exact absurd calls (noCall function')
    | @reference _ _ _ ref' _ writable' =>
      exact absurd ⟨writable', behind', same.symm⟩ (noReference ref')
    | literal _ _ _ =>
      obtain ⟨rfl, sameBehind⟩ := List.cons.inj same
      exact ⟨rfl, sameBehind⟩
termination_by sizeOf item

theorem Arguments.unique {function : Function} {before behind behind' : List Char}
    {arguments arguments' : List (List Item)} (derived : Arguments function before arguments behind)
    (other : Arguments function before arguments' behind')
    (many : arguments.length = arguments'.length)
    (same : argumentsText arguments ++ behind = argumentsText arguments' ++ behind') :
    arguments = arguments' ∧ behind = behind' := by
  cases derived with
  | @last _ _ _ argument sequence content =>
    cases other with
    | @last _ _ _ argument' sequence' content' =>
      rw [argumentsText_last, argumentsText_last, List.append_assoc, List.append_assoc] at same
      obtain ⟨rfl, sameBehind⟩ := Sequence.unique sequence sequence' same
      exact ⟨rfl, (List.cons.inj sameBehind).2⟩
    | next sequence' content' later' => simp at many
  | @next _ _ _ argument following rest sequence content later =>
    cases other with
    | last sequence' content' => simp at many
    | @next _ _ _ argument' following' rest' sequence' content' later' =>
      rw [argumentsText_next, argumentsText_next, List.append_assoc, List.append_assoc] at same
      obtain ⟨rfl, sameRest⟩ := Sequence.unique sequence sequence' same
      obtain ⟨tails, sameBehind⟩ := Arguments.unique later later' (Nat.succ.inj many)
        (List.cons.inj sameRest).2
      rw [tails]
      exact ⟨rfl, sameBehind⟩
termination_by sizeOf arguments

end

end Grammar

end AppSchema.Formula
