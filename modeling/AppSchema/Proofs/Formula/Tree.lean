/-
**The trees that the parser builds.**

The parser builds the tree of a derivation, so a tree has nothing that cannot be written: its
references have keys of fields, its calls have as many arguments as their functions take, and no
argument is empty or has blanks around it. Two trees that differ only in where their calls stand are
compared without their offsets.

* `exists_derives_of_parse`, `parse_of_derives`: what is parsed is derived, and the other way round;
* `Piece.sound_of_parse`: the pieces of a formula are sound;
* `Piece.forgetOffsets`: pieces as if all calls stood at the start;
* `Piece.forgetOffsets_trimArgument`: dropping the blanks around an argument does not look at
  offsets.
-/

import AppSchema.Proofs.Formula.Parser

namespace AppSchema.Formula

open Grammar

/-! ### Derivations -/

/-- **What is parsed is derived.** -/
theorem exists_derives_of_parse {field source : String} {pieces : List Piece}
    (parsed : parse field source = .ok pieces) :
    ∃ items, Derives source items ∧ tree items = pieces := by
  obtain ⟨last, reads⟩ := parse_eq_ok_iff_reads.mp parsed
  obtain ⟨items, behind, split, -, sequence, built⟩ := Begins.of_reads reads
  cases sequence.ends with
  | formula =>
    rw [List.append_nil] at split
    exact ⟨items, ⟨split, sequence⟩, built⟩

/-- **What is derived is parsed.** -/
theorem parse_of_derives {source : String} {items : List Item} (field : String)
    (derived : Derives source items) : parse field source = .ok (tree items) := by
  have read : ReadsPieces field .formula (.between [] (text items ++ [])) (tree items) _ :=
    reads_of_sequence derived.2
  rw [List.append_nil, ← derived.1] at read
  exact parse_eq_ok_iff_reads.mpr ⟨_, read⟩

namespace Grammar

theorem trimmed_trimmed (items : List Item) : trimmed (trimmed items) = trimmed items := by
  unfold trimmed
  cases front : items.dropWhile Item.isBlank with
  | nil => rfl
  | cons first rest =>
    have kept : Item.isBlank first = false := by
      have some : items.dropWhile Item.isBlank ≠ [] := by
        rw [front]
        exact List.cons_ne_nil _ _
      have stops := List.head_dropWhile_not Item.isBlank some
      simpa [front] using stops
    rw [rdropWhile_cons_of_neg kept, List.dropWhile_cons_of_neg (by simp [kept]),
      rdropWhile_cons_of_neg kept, List.rdropWhile_idempotent]

theorem argumentTrees_cons (argument : List Item) (rest : List (List Item)) :
    argumentTrees (argument :: rest) = tree (trimmed argument) :: argumentTrees rest := by
  rw [argumentTrees]

theorem argumentTrees_eq_map (arguments : List (List Item)) :
    argumentTrees arguments = arguments.map fun argument => tree (trimmed argument) := by
  induction arguments with
  | nil => rw [argumentTrees, List.map_nil]
  | cons argument rest ih => rw [argumentTrees, ih, List.map_cons]

theorem mem_of_mem_trimmed {items : List Item} {item : Item} (member : item ∈ trimmed items) :
    item ∈ items :=
  (List.dropWhile_sublist _).subset ((List.rdropWhile_prefix _ _).subset member)

/-- **An item of a derivation**, without what stands around it. -/
inductive Item.Sound : Item → Prop
  | literal (char : Char) : Sound (.literal char)
  | reference {ref : FieldRef} (writable : ref.Writable) : Sound (.reference ref)
  | call {function : Function} {arguments : List (List Item)} {offset : Nat}
      (arity : arguments.length = function.arity)
      (content : ∀ argument ∈ arguments, trimmed argument ≠ [])
      (inside : ∀ argument ∈ arguments, ∀ item ∈ argument, Sound item) :
      Sound (.call function arguments offset)

mutual

/-- **The items of a derivation are sound.** -/
theorem Sequence.sound {ending : Ending} {before behind : List Char} {items : List Item}
    (derived : Sequence ending before items behind) : ∀ item ∈ items, item.Sound := by
  cases derived with
  | nil => exact fun _ member => absurd member List.not_mem_nil
  | cons first later => exact List.forall_mem_cons.mpr ⟨first.sound, later.sound⟩
termination_by sizeOf items

theorem Taken.sound {ending : Ending} {before behind : List Char} {item : Item}
    (taken : Taken ending before item behind) : item.Sound := by
  cases taken with
  | call boundary arity inside =>
    have arguments := inside.sound
    exact .call arity (fun argument member => (arguments argument member).1)
      fun argument member => (arguments argument member).2
  | reference noCall writable => exact .reference writable
  | literal => exact .literal _
termination_by sizeOf item

theorem Arguments.sound {function : Function} {before behind : List Char}
    {arguments : List (List Item)} (derived : Arguments function before arguments behind) :
    ∀ argument ∈ arguments, trimmed argument ≠ [] ∧ ∀ item ∈ argument, item.Sound := by
  cases derived with
  | last sequence content =>
    exact List.forall_mem_cons.mpr
      ⟨⟨content, sequence.sound⟩, fun _ member => absurd member List.not_mem_nil⟩
  | next sequence content later =>
    exact List.forall_mem_cons.mpr ⟨⟨content, sequence.sound⟩, later.sound⟩
termination_by sizeOf arguments

end

end Grammar

/-! ### Sound pieces -/

namespace Piece

/-- **A piece that the parser may build.** -/
inductive Sound : Piece → Prop
  | text {chars : List Char} (filled : chars ≠ []) : Sound (.text chars)
  | field {ref : FieldRef} (writable : ref.Writable) : Sound (.field ref)
  | call {function : Function} {arguments : List (List Piece)} {offset : Nat}
      (arity : arguments.length = function.arity)
      (content : ∀ argument ∈ arguments, argument ≠ [])
      (bare : ∀ argument ∈ arguments, trimArgument argument = argument)
      (inside : ∀ argument ∈ arguments, ∀ piece ∈ argument, Sound piece) :
      Sound (.call function arguments offset)

/-- An argument of a call that the parser may build. -/
structure SoundArgument (argument : List Piece) : Prop where
  content : argument ≠ []
  bare : trimArgument argument = argument
  inside : ∀ piece ∈ argument, piece.Sound

theorem Sound.arguments {function : Function} {arguments : List (List Piece)} {offset : Nat}
    (sound : (Piece.call function arguments offset).Sound) :
    arguments.length = function.arity ∧ ∀ argument ∈ arguments, SoundArgument argument := by
  cases sound with
  | call arity content bare inside =>
    exact ⟨arity, fun argument member =>
      ⟨content argument member, bare argument member, inside argument member⟩⟩

theorem sound_prepend (char : Char) {pieces : List Piece}
    (sound : ∀ piece ∈ pieces, piece.Sound) : ∀ piece ∈ prepend char pieces, piece.Sound := by
  unfold prepend
  split
  · exact List.forall_mem_cons.mpr
      ⟨.text (List.cons_ne_nil _ _), (List.forall_mem_cons.mp sound).2⟩
  · exact List.forall_mem_cons.mpr ⟨.text (List.cons_ne_nil _ _), sound⟩

/-- **The tree of a derivation is sound.** -/
theorem sound_tree {items : List Item} (sound : ∀ item ∈ items, item.Sound) :
    ∀ piece ∈ tree items, piece.Sound := by
  match items with
  | [] =>
    rw [tree]
    exact fun _ member => absurd member List.not_mem_nil
  | .literal char :: items =>
    rw [tree]
    exact sound_prepend char (sound_tree (List.forall_mem_cons.mp sound).2)
  | .reference ref :: items =>
    obtain ⟨first, others⟩ := List.forall_mem_cons.mp sound
    cases first with
    | reference writable =>
      rw [tree]
      exact List.forall_mem_cons.mpr ⟨.field writable, sound_tree others⟩
  | .call function arguments offset :: items =>
    obtain ⟨first, others⟩ := List.forall_mem_cons.mp sound
    cases first with
    | call arity content inside =>
      rw [tree, argumentTrees_eq_map]
      refine List.forall_mem_cons.mpr ⟨.call ?_ ?_ ?_ ?_, sound_tree others⟩
      · rw [List.length_map, arity]
      · exact List.forall_mem_map.mpr fun argument member =>
          mt tree_eq_nil.mp (content argument member)
      · exact List.forall_mem_map.mpr fun argument _ => by
          rw [trimArgument_tree, trimmed_trimmed]
      · refine List.forall_mem_map.mpr fun argument member => ?_
        have smaller := sizeOf_trimmed_le argument
        have shorter := List.sizeOf_lt_of_mem member
        exact sound_tree fun item within =>
          inside argument member item (mem_of_mem_trimmed within)
termination_by sizeOf items
decreasing_by all_goals decreasing_with omega

/-- **The pieces of a formula are sound.** -/
theorem sound_of_parse {key source : String} {pieces : List Piece}
    (parsed : parse key source = .ok pieces) : ∀ piece ∈ pieces, piece.Sound := by
  obtain ⟨items, derived, rfl⟩ := exists_derives_of_parse parsed
  exact sound_tree derived.2.sound

/-! ### Offsets -/

mutual

/-- A piece without its offset and those inside it. -/
def forgetOffset : Piece → Piece
  | .text chars => .text chars
  | .field ref => .field ref
  | .call function arguments _ => .call function (forgetEach arguments) 0

/-- **Pieces without their offsets**: every call as if it stood at the start. -/
def forgetOffsets : List Piece → List Piece
  | [] => []
  | piece :: rest => forgetOffset piece :: forgetOffsets rest

/-- Arguments without their offsets. -/
def forgetEach : List (List Piece) → List (List Piece)
  | [] => []
  | argument :: rest => forgetOffsets argument :: forgetEach rest

end

theorem forgetOffsets_eq_nil {pieces : List Piece} : forgetOffsets pieces = [] ↔ pieces = [] := by
  cases pieces with
  | nil => exact ⟨fun _ => rfl, fun _ => rfl⟩
  | cons piece rest => exact ⟨nofun, nofun⟩

theorem isEmptyText_forgetOffset (piece : Piece) :
    piece.forgetOffset.isEmptyText = piece.isEmptyText := by
  cases piece <;> rfl

theorem forgetOffsets_prepend (char : Char) (pieces : List Piece) :
    forgetOffsets (prepend char pieces) = prepend char (forgetOffsets pieces) := by
  cases pieces with
  | nil => rfl
  | cons piece rest => cases piece <;> rfl

theorem forgetOffsets_mapFirst (change : List Char → List Char) (pieces : List Piece) :
    forgetOffsets (mapFirst change pieces) = mapFirst change (forgetOffsets pieces) := by
  cases pieces with
  | nil => rfl
  | cons piece rest => cases piece <;> rfl

theorem mapLast_cons_cons (change : List Char → List Char) (piece next : Piece)
    (rest : List Piece) :
    mapLast change (piece :: next :: rest) = piece :: mapLast change (next :: rest) := by
  rw [mapLast]
  exact fun _ _ empty => List.cons_ne_nil next rest empty

theorem forgetOffsets_mapLast (change : List Char → List Char) (pieces : List Piece) :
    forgetOffsets (mapLast change pieces) = mapLast change (forgetOffsets pieces) := by
  induction pieces with
  | nil => rfl
  | cons piece rest ih =>
    cases rest with
    | nil => cases piece <;> rfl
    | cons next rest =>
      rw [mapLast_cons_cons, forgetOffsets, ih]
      exact (mapLast_cons_cons change _ _ _).symm

theorem forgetOffsets_filled (pieces : List Piece) :
    forgetOffsets (filled pieces) = filled (forgetOffsets pieces) := by
  induction pieces with
  | nil => rfl
  | cons piece rest ih =>
    have same := isEmptyText_forgetOffset piece
    cases empty : piece.isEmptyText with
    | true =>
      rw [empty] at same
      simpa [filled, forgetOffsets, empty, same] using ih
    | false =>
      rw [empty] at same
      simpa [filled, forgetOffsets, empty, same] using ih

/-- **Dropping the blanks around an argument does not look at offsets.** -/
theorem forgetOffsets_trimArgument (pieces : List Piece) :
    forgetOffsets (trimArgument pieces) = trimArgument (forgetOffsets pieces) := by
  have same : ∀ pieces, trimArgument pieces =
      filled (mapLast Text.trimEnd (mapFirst Text.trimStart pieces)) := fun _ => rfl
  rw [same, same, forgetOffsets_filled, forgetOffsets_mapLast, forgetOffsets_mapFirst]

end Piece

end AppSchema.Formula
