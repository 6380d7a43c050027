/-
**The trees of formulas are canonical.**

A formula has one tree, and there is no choice in how its pieces are cut: its texts are as long as
they can be, none is empty, and no argument begins or ends with a blank. Every call stands where its
offset says, at a boundary of words, and the calls come in the order of the formula, each before
those inside it.

* `Piece.Canonical`: pieces in that form, down to the innermost argument;
* `Piece.canonical_tree`: the tree of a derivation is canonical;
* `Located`: calls that stand in a stretch of a source, one behind the other;
* `Grammar.Sequence.located`: the calls of a sequence stand in its stretch;
* `parse_canonical`: every formula has canonical pieces or is malformed at an offset where it can be
  cut; it is cut between characters only, and reading it ends.
-/

import Mathlib.Data.List.Chain
import AppSchema.Proofs.Formula.Position
import AppSchema.Proofs.Formula.Tree

namespace AppSchema.Formula

open Grammar

/-! ### Canonical pieces -/

namespace Piece

/-- A piece is literal text. -/
def IsText : Piece → Prop
  | text _ => True
  | _ => False

/-- No two texts stand next to each other. -/
def Apart (pieces : List Piece) : Prop :=
  pieces.IsChain fun first second => ¬ (first.IsText ∧ second.IsText)

/-- **An argument without the blanks around it**: it has pieces, and where the first or the last of
them is a text, that does not begin or end with a blank. -/
structure Bare (argument : List Piece) : Prop where
  content : argument ≠ []
  front : ∀ chars, argument.head? = some (.text chars) →
    ∀ char ∈ chars.head?, Text.isBlank char = false
  back : ∀ chars, argument.getLast? = some (.text chars) →
    ∀ char ∈ chars.getLast?, Text.isBlank char = false

/-- **Pieces in canonical form.** No text is empty or stands next to another; calls have as many
arguments as their functions take, which are bare and in canonical form themselves. -/
inductive Canonical : List Piece → Prop
  | mk {pieces : List Piece} (filled : .text [] ∉ pieces)
      (apart : Apart pieces)
      (arity : ∀ function arguments offset, .call function arguments offset ∈ pieces →
        arguments.length = function.arity)
      (bare : ∀ function arguments offset, .call function arguments offset ∈ pieces →
        ∀ argument ∈ arguments, Bare argument)
      (inside : ∀ function arguments offset, .call function arguments offset ∈ pieces →
        ∀ argument ∈ arguments, Canonical argument) :
      Canonical pieces

/-! ### The ends of a tree -/

theorem head?_prepend (char : Char) (pieces : List Piece) :
    ∃ chars, (prepend char pieces).head? = some (.text (char :: chars)) := by
  unfold prepend
  split
  · exact ⟨_, rfl⟩
  · exact ⟨[], rfl⟩

/-- A text at the start of a tree begins with the character at the start of the sequence. -/
theorem exists_of_head?_tree {items : List Item} {chars : List Char}
    (first : (tree items).head? = some (.text chars)) :
    ∃ char, items.head? = some (.literal char) ∧ chars.head? = some char := by
  cases items with
  | nil =>
    rw [tree] at first
    cases first
  | cons item items =>
    cases item with
    | literal char =>
      rw [tree] at first
      obtain ⟨rest, found⟩ := head?_prepend char (tree items)
      rw [found] at first
      cases first
      exact ⟨char, rfl, rfl⟩
    | reference ref | call function arguments offset =>
      rw [tree] at first
      cases first

theorem getLast?_prepend (char : Char) {pieces : List Piece} {chars : List Char}
    (last : (prepend char pieces).getLast? = some (.text chars)) :
    pieces = [] ∧ chars = [char] ∨
      ∃ inner, pieces.getLast? = some (.text inner) ∧
        (chars = inner ∨ chars = char :: inner) := by
  match pieces with
  | [] =>
    cases last
    exact .inl ⟨rfl, rfl⟩
  | [.text inner] =>
    cases last
    exact .inr ⟨inner, rfl, .inr rfl⟩
  | .text inner :: next :: rest =>
    rw [prepend, List.getLast?_cons_cons] at last
    exact .inr ⟨chars, by rw [List.getLast?_cons_cons, last], .inl rfl⟩
  | .field _ :: rest | .call _ _ _ :: rest =>
    exact .inr ⟨chars, last, .inl rfl⟩

/-- A text at the end of a tree ends with the character at the end of the sequence. -/
theorem exists_of_getLast?_tree {items : List Item} {chars : List Char}
    (last : (tree items).getLast? = some (.text chars)) :
    ∃ char, items.getLast? = some (.literal char) ∧ chars.getLast? = some char := by
  induction items generalizing chars with
  | nil =>
    rw [tree] at last
    cases last
  | cons item items ih =>
    cases item with
    | literal first =>
      rw [tree] at last
      rcases getLast?_prepend first last with ⟨empty, rfl⟩ | ⟨inner, behind, spelled⟩
      · obtain rfl := tree_eq_nil.mp empty
        exact ⟨first, rfl, rfl⟩
      · obtain ⟨char, stands, ends⟩ := ih behind
        refine ⟨char, by rw [List.getLast?_cons, stands]; rfl, ?_⟩
        rcases spelled with rfl | rfl
        · exact ends
        · rw [List.getLast?_cons, ends]
          rfl
    | reference ref | call function arguments offset =>
      rw [tree] at last
      cases items with
      | nil =>
        rw [tree] at last
        cases last
      | cons next rest =>
        have some : tree (next :: rest) ≠ [] := mt tree_eq_nil.mp (List.cons_ne_nil _ _)
        obtain ⟨piece, pieces, found⟩ := List.exists_cons_of_ne_nil some
        rw [found, List.getLast?_cons_cons, ← found] at last
        obtain ⟨char, stands, ends⟩ := ih last
        exact ⟨char, by rw [List.getLast?_cons_cons, stands], ends⟩

theorem not_isBlank_of_head?_trimmed {items : List Item} {item : Item}
    (first : (trimmed items).head? = some item) : item.isBlank = false := by
  have part : trimmed items <+: items.dropWhile Item.isBlank := List.rdropWhile_prefix _ _
  obtain ⟨behind, whole⟩ := part
  have kept := List.head?_dropWhile_not Item.isBlank items
  rw [← whole, List.head?_append, first] at kept
  exact kept

theorem not_isBlank_of_getLast?_trimmed {items : List Item} {item : Item}
    (last : (trimmed items).getLast? = some item) : item.isBlank = false := by
  have content : trimmed items ≠ [] := by
    intro empty
    rw [empty] at last
    cases last
  have kept := List.rdropWhile_last_not Item.isBlank (items.dropWhile Item.isBlank) content
  rw [List.getLast?_eq_some_getLast content] at last
  rw [← Option.some.inj last]
  exact eq_false_of_ne_true kept

/-- **A tree of which the blanks around it were dropped is bare.** -/
theorem bare_tree_trimmed {items : List Item} (content : trimmed items ≠ []) :
    Bare (tree (trimmed items)) where
  content := mt tree_eq_nil.mp content
  front := by
    intro chars first char begins
    obtain ⟨char', stands, begins'⟩ := exists_of_head?_tree first
    obtain rfl : char' = char := Option.some.inj (begins'.symm.trans begins)
    exact not_isBlank_of_head?_trimmed stands
  back := by
    intro chars last char ends
    obtain ⟨char', stands, ends'⟩ := exists_of_getLast?_tree last
    obtain rfl : char' = char := Option.some.inj (ends'.symm.trans ends)
    exact not_isBlank_of_getLast?_trimmed stands

/-! ### The tree of a derivation -/

theorem apart_prepend (char : Char) {pieces : List Piece} (apart : Apart pieces) :
    Apart (prepend char pieces) := by
  match pieces with
  | [] => exact .singleton _
  | [.text _] => exact .singleton _
  | .text _ :: next :: rest =>
    obtain ⟨first, later⟩ := List.isChain_cons_cons.mp apart
    exact .cons_cons first later
  | .field _ :: rest | .call _ _ _ :: rest =>
    exact .cons_cons (fun both => both.2) apart

/-- **In the tree of a sequence no two texts stand next to each other.** -/
theorem apart_tree (items : List Item) : Apart (tree items) := by
  induction items with
  | nil =>
    rw [tree]
    exact .nil
  | cons item items ih =>
    cases item with
    | literal char =>
      rw [tree]
      exact apart_prepend char ih
    | reference ref | call function arguments offset =>
      rw [tree]
      exact List.isChain_cons.mpr ⟨fun _ _ both => both.1, ih⟩

theorem mem_of_call_mem_prepend {char : Char} {function : Function}
    {arguments : List (List Piece)} {offset : Nat} {pieces : List Piece}
    (member : .call function arguments offset ∈ prepend char pieces) :
    .call function arguments offset ∈ pieces := by
  unfold prepend at member
  split at member
  · exact List.mem_cons_of_mem _ (List.mem_of_ne_of_mem Piece.noConfusion member)
  · exact List.mem_of_ne_of_mem Piece.noConfusion member

/-- A call in a tree is that of a call in the sequence. -/
theorem exists_of_call_mem_tree {function : Function} {trees : List (List Piece)} {offset : Nat}
    {items : List Item} (member : .call function trees offset ∈ tree items) :
    ∃ arguments, .call function arguments offset ∈ items ∧
      trees = arguments.map fun argument => tree (trimmed argument) := by
  induction items with
  | nil =>
    rw [tree] at member
    exact absurd member List.not_mem_nil
  | cons item items ih =>
    have later (inner : .call function trees offset ∈ tree items) :
        ∃ arguments, .call function arguments offset ∈ item :: items ∧
          trees = arguments.map fun argument => tree (trimmed argument) := by
      obtain ⟨arguments, within, built⟩ := ih inner
      exact ⟨arguments, List.mem_cons_of_mem _ within, built⟩
    cases item with
    | literal char =>
      rw [tree] at member
      exact later (mem_of_call_mem_prepend member)
    | reference ref =>
      rw [tree] at member
      exact later (List.mem_of_ne_of_mem Piece.noConfusion member)
    | call called arguments stands =>
      rw [tree] at member
      rcases List.mem_cons.mp member with same | inner
      · cases same
        exact ⟨arguments, List.mem_cons_self, argumentTrees_eq_map arguments⟩
      · exact later inner

/-- **The tree of a derivation is canonical.** -/
theorem canonical_tree {items : List Item} (sound : ∀ item ∈ items, item.Sound) :
    Canonical (tree items) := by
  -- What is known of a call in the tree is known of the one in the sequence.
  have of_call {function : Function} {trees : List (List Piece)} {offset : Nat}
      (member : .call function trees offset ∈ tree items) :
      trees.length = function.arity ∧ ∀ argument ∈ trees, ∃ inner,
        argument = tree (trimmed inner) ∧ trimmed inner ≠ [] ∧
          sizeOf (trimmed inner) < sizeOf items ∧ ∀ item ∈ trimmed inner, item.Sound := by
    obtain ⟨arguments, within, rfl⟩ := exists_of_call_mem_tree member
    have smaller := List.sizeOf_lt_of_mem within
    cases sound _ within with
    | call arity content inside =>
      refine ⟨by rw [List.length_map, arity], List.forall_mem_map.mpr fun argument stands =>
        ⟨argument, rfl, content argument stands, ?_, fun item kept =>
          inside argument stands item (mem_of_mem_trimmed kept)⟩⟩
      have := sizeOf_trimmed_le argument
      have := List.sizeOf_lt_of_mem stands
      simp only [Item.call.sizeOf_spec] at smaller
      omega
  refine .mk ?_ (apart_tree items) (fun _ _ _ member => (of_call member).1) ?_ ?_
  · intro empty
    rw [← filled_tree items] at empty
    exact absurd (List.mem_filter.mp empty).2 (by decide)
  · intro function trees offset member argument stands
    obtain ⟨inner, rfl, content, -, -⟩ := (of_call member).2 argument stands
    exact bare_tree_trimmed content
  · intro function trees offset member argument stands
    obtain ⟨inner, rfl, -, smaller, sound⟩ := (of_call member).2 argument stands
    exact canonical_tree sound
termination_by sizeOf items

/-! ### Calls -/

mutual

/-- The calls in a piece. -/
def pieceCalls : Piece → List (Function × Nat)
  | text _ => []
  | field _ => []
  | call function arguments offset => (function, offset) :: argumentCalls arguments

/-- **The calls in pieces**, each before those inside it, with their offsets. -/
def calls : List Piece → List (Function × Nat)
  | [] => []
  | piece :: rest => pieceCalls piece ++ calls rest

/-- The calls in arguments. -/
def argumentCalls : List (List Piece) → List (Function × Nat)
  | [] => []
  | argument :: rest => calls argument ++ argumentCalls rest

end

theorem calls_prepend (char : Char) (pieces : List Piece) :
    calls (prepend char pieces) = calls pieces := by
  unfold prepend
  split
  · rfl
  · rfl

theorem calls_mapFirst (change : List Char → List Char) (pieces : List Piece) :
    calls (mapFirst change pieces) = calls pieces := by
  unfold mapFirst
  split
  · rfl
  · rfl

theorem calls_mapLast (change : List Char → List Char) (pieces : List Piece) :
    calls (mapLast change pieces) = calls pieces := by
  induction pieces with
  | nil => rfl
  | cons piece rest ih =>
    cases rest with
    | nil => cases piece <;> rfl
    | cons next rest =>
      rw [mapLast_cons_cons]
      change pieceCalls piece ++ calls (mapLast change (next :: rest)) = _
      rw [ih]
      rfl

theorem calls_filled (pieces : List Piece) : calls (filled pieces) = calls pieces := by
  induction pieces with
  | nil => rfl
  | cons piece rest ih =>
    unfold filled at ih ⊢
    cases empty : piece.isEmptyText with
    | true =>
      have none : pieceCalls piece = [] := by
        cases piece with
        | text chars | field ref => rfl
        | call function arguments offset => cases empty
      rw [List.filter_cons_of_neg (by simp [empty]), ih, calls, none, List.nil_append]
    | false => rw [List.filter_cons_of_pos (by simp [empty]), calls, ih, calls]

/-- Dropping the blanks around an argument keeps its calls. -/
theorem calls_trimArgument (pieces : List Piece) : calls (trimArgument pieces) = calls pieces := by
  change calls (filled (mapLast Text.trimEnd (mapFirst Text.trimStart pieces))) = _
  rw [calls_filled, calls_mapLast, calls_mapFirst]

end Piece

/-! ### Where calls stand -/

/-- **A call stands in a source**: at its offset the name of its function begins, with `(` right
behind it and no letter, digit or underscore before it. -/
def Stands (source : String) (call : Function × Nat) : Prop :=
  ∃ before behind : String, source = before ++ (call.1.name ++ ("(" ++ behind)) ∧
    Boundary before.toList ∧ call.2 = before.utf8ByteSize

theorem stands_of_calls {source : String} {before input : List Char} {function : Function}
    (whole : source.toList = before ++ input) (calls : Calls before input function) :
    Stands source (function, Cursor.bytes before) := by
  obtain ⟨boundary, behind, rfl⟩ := calls
  refine ⟨String.ofList before, String.ofList behind, ?_, by rwa [String.toList_ofList],
    Cursor.bytes_eq_utf8ByteSize before⟩
  rw [← String.toList_inj, whole]
  simp [opening]

/-- **Calls stand in a stretch of a source**, one behind the other. -/
structure Located (source : String) (low high : Nat) (calls : List (Function × Nat)) : Prop where
  stand : ∀ call ∈ calls, Stands source call
  within : ∀ call ∈ calls, low ≤ call.2 ∧ call.2 < high
  rising : calls.Pairwise fun first second => first.2 < second.2

namespace Located

variable {source : String} {low middle between high : Nat}

theorem nil : Located source low high [] :=
  ⟨nofun, nofun, .nil⟩

theorem singleton {function : Function} (stands : Stands source (function, low))
    (room : low < high) : Located source low high [(function, low)] where
  stand := List.forall_mem_singleton.mpr stands
  within := List.forall_mem_singleton.mpr ⟨le_rfl, room⟩
  rising := List.pairwise_singleton _ _

/-- The calls of two stretches, the second of which begins behind the first. -/
theorem append {first second : List (Function × Nat)} (front : Located source low middle first)
    (back : Located source between high second) (enters : low ≤ between)
    (behind : middle ≤ between) (ends : middle ≤ high) :
    Located source low high (first ++ second) where
  stand := List.forall_mem_append.mpr ⟨front.stand, back.stand⟩
  within := List.forall_mem_append.mpr
    ⟨fun call member => by have := front.within call member; omega,
      fun call member => by have := back.within call member; omega⟩
  rising := List.pairwise_append.mpr ⟨front.rising, back.rising, fun call member other also => by
    have := front.within call member
    have := back.within other also
    omega⟩

end Located

namespace Grammar

/-- The calls of the piece of an item. -/
def Item.calls : Item → List (Function × Nat)
  | .literal _ => []
  | .reference _ => []
  | .call function arguments offset =>
    (function, offset) :: Piece.argumentCalls (argumentTrees arguments)

theorem calls_tree_cons (item : Item) (items : List Item) :
    Piece.calls (tree (item :: items)) = item.calls ++ Piece.calls (tree items) := by
  cases item with
  | literal char => rw [tree, Piece.calls_prepend, Item.calls, List.nil_append]
  | reference ref | call function arguments offset => rw [tree, Piece.calls]; rfl

theorem argumentCalls_cons (argument : List Item) (rest : List (List Item)) :
    Piece.argumentCalls (argumentTrees (argument :: rest)) =
      Piece.calls (tree argument) ++ Piece.argumentCalls (argumentTrees rest) := by
  rw [argumentTrees, Piece.argumentCalls, ← trimArgument_tree, Piece.calls_trimArgument]

variable {source : String}

mutual

/-- **The calls of a sequence stand in its stretch of the source.** -/
theorem Sequence.located {ending : Ending} {before behind : List Char} {items : List Item}
    (derived : Sequence ending before items behind)
    (whole : source.toList = before ++ (text items ++ behind)) :
    Located source (Cursor.bytes before) (Cursor.bytes (before ++ text items))
      (Piece.calls (tree items)) := by
  cases derived with
  | nil ends =>
    rw [tree, Piece.calls]
    exact .nil
  | @cons _ _ _ item items first later =>
    rw [text, List.append_assoc] at whole
    have front := first.located whole
    have back := later.located (by rw [whole, List.append_assoc])
    rw [calls_tree_cons, text]
    rw [List.append_assoc] at back
    refine front.append back ?_ le_rfl ?_ <;> simp only [Cursor.bytes_append] <;> omega
termination_by sizeOf items

theorem Taken.located {ending : Ending} {before behind : List Char} {item : Item}
    (taken : Taken ending before item behind)
    (whole : source.toList = before ++ (item.text ++ behind)) :
    Located source (Cursor.bytes before) (Cursor.bytes (before ++ item.text)) item.calls := by
  cases taken with
  | @call _ _ _ function arguments boundary arity inside =>
    have stands : Stands source (function, Cursor.bytes before) :=
      stands_of_calls whole boundary.calls
    -- The calls inside stand behind the name, which has at least the byte of its `(`.
    rw [Item.text, List.append_assoc, ← List.append_assoc before] at whole
    have within := inside.located whole
    rw [Item.text, ← List.append_assoc]
    have longer := Cursor.bytes_opening function
    refine (Located.singleton stands (Nat.lt_succ_self _)).append within ?_ ?_ ?_ <;>
      simp only [Cursor.bytes_append] <;> omega
  | reference noCall writable => exact .nil
  | literal => exact .nil
termination_by sizeOf item

theorem Arguments.located {function : Function} {before behind : List Char}
    {arguments : List (List Item)} (derived : Arguments function before arguments behind)
    (whole : source.toList = before ++ (argumentsText arguments ++ behind)) :
    Located source (Cursor.bytes before) (Cursor.bytes (before ++ argumentsText arguments))
      (Piece.argumentCalls (argumentTrees arguments)) := by
  cases derived with
  | @last _ _ _ argument sequence content =>
    rw [argumentsText_last, List.append_assoc] at whole
    have front := sequence.located whole
    rw [argumentCalls_cons, argumentsText_last, argumentTrees, Piece.argumentCalls]
    refine front.append .nil ?_ le_rfl ?_ <;> simp only [Cursor.bytes_append] <;> omega
  | @next _ _ _ argument following rest sequence content later =>
    rw [argumentsText_next, List.append_assoc, List.cons_append] at whole
    have front := sequence.located whole
    have back := later.located (by rw [whole, List.append_assoc, List.append_assoc]; rfl)
    rw [argumentCalls_cons, argumentsText_next]
    rw [List.append_assoc, List.append_assoc] at back
    refine front.append back ?_ ?_ ?_ <;>
      simp only [Cursor.bytes_append] <;> omega
termination_by sizeOf arguments

end

end Grammar

/-! ### Formulas -/

/-- **Every formula has canonical pieces or is malformed.** Its pieces are in canonical form; their
calls stand where their offsets say, each behind those before it. Where a formula has no pieces, the
fault names it and an offset at which it can be cut. In both cases it is cut between characters
only, and reading it ends: no task of the parser asks on and on. -/
theorem parse_canonical (field source : String) :
    ((∃ pieces, parse field source = .ok pieces ∧ Piece.Canonical pieces ∧
          (∀ call ∈ Piece.calls pieces, Stands source call) ∧
            (Piece.calls pieces).Pairwise fun first second => first.2 < second.2) ∨
        ∃ offset problem,
          parse field source = .error (.malformedFormula field (some offset) problem) ∧
            IsCut source offset) ∧
      (∀ offset, Cuts field source offset → IsCut source offset) ∧
        WellFounded fun next task => Task.Asks field task next := by
  refine ⟨?_, fun offset cuts => cuts.isCut, Task.wellFounded_asks field⟩
  cases parsed : parse field source with
  | ok pieces =>
    left
    obtain ⟨items, ⟨whole, derived⟩, rfl⟩ := exists_derives_of_parse parsed
    have located : Located source (Cursor.bytes []) _ _ :=
      derived.located (by rw [whole, List.append_nil, List.nil_append])
    exact ⟨_, rfl, Piece.canonical_tree derived.sound, located.stand, located.rising⟩
  | error fault =>
    right
    obtain ⟨offset, problem, rfl, cut⟩ := exists_of_parse_error parsed
    exact ⟨offset, problem, rfl, cut⟩

/-- A formula is cut behind its first character, which has two bytes, and could not be cut within
it. -/
theorem parse_canonical_umlaut :
    Cuts "field_1" "ä lower(ö)" 2 ∧ IsCut "ä lower(ö)" 2 ∧ ¬ IsCut "ä lower(ö)" 1 := by
  have reached : (Task.sequence .formula (.start "ä lower(ö)")).Reached "field_1" "ä lower(ö)" :=
    .refl
  have cuts : Cuts "field_1" "ä lower(ö)" 2 := .behindLiteral reached rfl
  refine ⟨cuts, (parse_canonical "field_1" "ä lower(ö)").2.1 2 cuts, fun cut => ?_⟩
  have valid := String.Pos.Raw.isValid_eq_true_iff.mpr cut.2
  exact absurd valid (by decide)

end AppSchema.Formula
