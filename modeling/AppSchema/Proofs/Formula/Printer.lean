/-
**Formulas that are printed are read back.**

A formula is printed from its pieces: texts as they are, references in braces, and calls with commas
between their arguments. The blanks around an argument are not in its pieces, so they are not
printed either; that is all in which the print differs from the source. It is read as the same
pieces, which only may stand elsewhere: wherever no call and no reference began in the source, none
begins in the print, since no name of a function and no reference reaches across the edge of an
argument.

* `Piece.print`: the print of pieces;
* `Spaced`: a text is the print of pieces with blanks around arguments;
* `Agrees`: whatever solid word begins one text begins another;
* `Sequence.reprinted`: the print of a sequence is a sequence, with the same pieces;
* `parse_print`: so a formula is read back from its print.
-/

import AppSchema.Proofs.Formula.Tree
import AppSchema.Proofs.Success

namespace AppSchema.Formula

open Grammar

/-! ### Printing -/

namespace Piece

mutual

/-- **The print of pieces.** -/
def print : List Piece → List Char
  | [] => []
  | .text chars :: rest => chars ++ print rest
  | .field ref :: rest => ref.text ++ print rest
  | .call function arguments _ :: rest =>
    opening function ++ printArguments arguments ++ print rest

/-- The print of arguments: `)` stands behind the last of them and a comma behind the others. -/
def printArguments : List (List Piece) → List Char
  | [] => []
  | argument :: rest => print argument ++ (if rest = [] then ')' else ',') :: printArguments rest

end

theorem print_prepend (char : Char) (pieces : List Piece) :
    print (prepend char pieces) = char :: print pieces := by
  unfold prepend
  split <;> simp [print]

end Piece

open Piece (forgetEach forgetOffset forgetOffsets prepend print printArguments print_prepend)

/-! ### Blanks around arguments -/

/-- A text of blanks. -/
def Blanks (chars : List Char) : Prop :=
  ∀ char ∈ chars, Text.isBlank char = true

mutual

/-- **A text is the print of pieces, with blanks at the inner edges of arguments.** -/
inductive Spaced : List Piece → List Char → Prop
  | nil : Spaced [] []
  | text {rest : List Piece} {behind : List Char} (chars : List Char) (later : Spaced rest behind) :
      Spaced (.text chars :: rest) (chars ++ behind)
  | field {rest : List Piece} {behind : List Char} (ref : FieldRef) (later : Spaced rest behind) :
      Spaced (.field ref :: rest) (ref.text ++ behind)
  | call {function : Function} {arguments : List (List Piece)} {offset : Nat} {rest : List Piece}
      {inside behind : List Char} (within : SpacedArguments arguments inside)
      (later : Spaced rest behind) :
      Spaced (.call function arguments offset :: rest) (opening function ++ inside ++ behind)

/-- Arguments, each with blanks around it. -/
inductive SpacedArguments : List (List Piece) → List Char → Prop
  | last {argument : List Piece} {lead inside trail : List Char} (before : Blanks lead)
      (within : Spaced argument inside) (behind : Blanks trail) :
      SpacedArguments [argument] (lead ++ inside ++ trail ++ [')'])
  | next {argument following : List Piece} {rest : List (List Piece)}
      {lead inside trail others : List Char} (before : Blanks lead)
      (within : Spaced argument inside) (behind : Blanks trail)
      (later : SpacedArguments (following :: rest) others) :
      SpacedArguments (argument :: following :: rest) (lead ++ inside ++ trail ++ ',' :: others)

end

/-- **Without a call, nothing is put in between.** -/
theorem Spaced.eq_print {pieces : List Piece} {source : List Char} (spaced : Spaced pieces source)
    (noCall : ∀ function arguments offset, .call function arguments offset ∉ pieces) :
    source = print pieces := by
  induction pieces generalizing source with
  | nil =>
    cases spaced
    rw [print]
  | cons piece rest ih =>
    have others : ∀ function arguments offset, .call function arguments offset ∉ rest :=
      fun function arguments offset member =>
        noCall function arguments offset (List.mem_cons_of_mem _ member)
    cases spaced with
    | text chars later => rw [print, ih later others]
    | field ref later => rw [print, ih later others]
    | call within later => exact absurd List.mem_cons_self (noCall _ _ _)

theorem Spaced.prepend (char : Char) {pieces : List Piece} {source : List Char}
    (spaced : Spaced pieces source) : Spaced (prepend char pieces) (char :: source) := by
  unfold Piece.prepend
  split
  · rename_i chars rest
    cases spaced with
    | text _ later => exact .text (char :: chars) later
  · exact .text [char] spaced

namespace Grammar

theorem text_append (first second : List Item) :
    text (first ++ second) = text first ++ text second := by
  induction first with
  | nil => rfl
  | cons item first ih => rw [List.cons_append, text, text, ih, List.append_assoc]

theorem blanks_text {items : List Item} (blank : ∀ item ∈ items, item.isBlank = true) :
    Blanks (text items) := by
  induction items with
  | nil => exact fun _ member => absurd member List.not_mem_nil
  | cons item items ih =>
    obtain ⟨here, others⟩ := List.forall_mem_cons.mp blank
    cases item with
    | literal char => exact List.forall_mem_cons.mpr ⟨here, ih others⟩
    | reference ref | call function arguments offset => cases here

theorem exists_trimmed (items : List Item) :
    ∃ lead trail, items = lead ++ (trimmed items ++ trail) ∧
      (∀ item ∈ lead, item.isBlank = true) ∧ ∀ item ∈ trail, item.isBlank = true := by
  refine ⟨items.takeWhile Item.isBlank, (items.dropWhile Item.isBlank).rtakeWhile Item.isBlank,
    ?_, fun _ => List.mem_takeWhile_imp, fun _ => List.mem_rtakeWhile_imp⟩
  rw [trimmed, List.rdropWhile_append_rtakeWhile, List.takeWhile_append_dropWhile]

/-- **The text of an argument stands between blanks.** -/
theorem text_trimmed (items : List Item) :
    ∃ lead trail, text items = lead ++ text (trimmed items) ++ trail ∧ Blanks lead ∧
      Blanks trail := by
  obtain ⟨lead, trail, split, before, behind⟩ := exists_trimmed items
  refine ⟨text lead, text trail, ?_, blanks_text before, blanks_text behind⟩
  rw [← text_append, ← text_append, List.append_assoc, ← split]

mutual

/-- **A text is the print of its pieces, with blanks around arguments.** -/
theorem spaced_text {items : List Item} (sound : ∀ item ∈ items, item.Sound) :
    Spaced (tree items) (text items) := by
  match items with
  | [] =>
    rw [tree, text]
    exact .nil
  | .literal char :: items =>
    rw [tree, text]
    exact (spaced_text (List.forall_mem_cons.mp sound).2).prepend char
  | .reference ref :: items =>
    rw [tree, text]
    exact .field ref (spaced_text (List.forall_mem_cons.mp sound).2)
  | .call function arguments offset :: items =>
    obtain ⟨first, others⟩ := List.forall_mem_cons.mp sound
    cases first with
    | call arity content inside =>
      have some : arguments ≠ [] := by
        rintro rfl
        exact absurd arity (Nat.ne_of_lt function.arity_pos)
      rw [tree, text, Item.text]
      exact .call (spacedArguments_text some inside) (spaced_text others)
termination_by 2 * sizeOf items

/-- The text of an argument is the print of its pieces between blanks. -/
theorem spacedArgument_text {argument : List Item} (sound : ∀ item ∈ argument, item.Sound) :
    ∃ lead inside trail, text argument = lead ++ inside ++ trail ∧ Blanks lead ∧
      Spaced (tree (trimmed argument)) inside ∧ Blanks trail := by
  have smaller := sizeOf_trimmed_le argument
  obtain ⟨lead, trail, split, before, behind⟩ := text_trimmed argument
  have within : Spaced (tree (trimmed argument)) (text (trimmed argument)) :=
    spaced_text fun item member => sound item (mem_of_mem_trimmed member)
  exact ⟨lead, _, trail, split, before, within, behind⟩
termination_by 2 * sizeOf argument + 1

theorem spacedArguments_text {arguments : List (List Item)} (some : arguments ≠ [])
    (sound : ∀ argument ∈ arguments, ∀ item ∈ argument, item.Sound) :
    SpacedArguments (argumentTrees arguments) (argumentsText arguments) := by
  match arguments with
  | [argument] =>
    obtain ⟨lead, inside, trail, split, before, within, behind⟩ :=
      spacedArgument_text (List.forall_mem_cons.mp sound).1
    rw [argumentTrees, argumentTrees, argumentsText_last, split]
    exact .last before within behind
  | argument :: following :: rest =>
    obtain ⟨here, others⟩ := List.forall_mem_cons.mp sound
    obtain ⟨lead, inside, trail, split, before, within, behind⟩ := spacedArgument_text here
    have later := spacedArguments_text (List.cons_ne_nil following rest) others
    rw [argumentTrees] at later
    rw [argumentTrees, argumentTrees, argumentsText_next, split]
    exact .next before within behind later
termination_by 2 * sizeOf arguments

end

end Grammar

/-! ### Solid words -/

/-- **A word that does not reach across the edge of an argument**: nothing that ends an argument is
in it, and `(` is at most its last character. -/
def Solid : List Char → Prop
  | [] => True
  | char :: rest => char ≠ ',' ∧ char ≠ ')' ∧ (char = '(' → rest = []) ∧ Solid rest

theorem solid_append (first : List Char) {second : List Char}
    (plain : ∀ char ∈ first, char ≠ ',' ∧ char ≠ ')' ∧ char ≠ '(') (solid : Solid second) :
    Solid (first ++ second) := by
  induction first with
  | nil => exact solid
  | cons char rest ih =>
    obtain ⟨⟨comma, close, opens⟩, others⟩ := List.forall_mem_cons.mp plain
    exact ⟨comma, close, fun opening => absurd opening opens, ih others⟩

/-- What a call begins with is solid. -/
theorem solid_opening (function : Function) : Solid (opening function) := by
  refine solid_append _ (fun char member => ?_) (by simp [Solid])
  have letter := isAlpha_of_mem_name member
  refine ⟨?_, ?_, ?_⟩ <;> rintro rfl <;> cases letter

theorem solid_key {key : String} (written : IsKey key) {rest : List Char} (solid : Solid rest) :
    Solid (key.toList ++ rest) := by
  obtain ⟨digits, _, all, spelled⟩ := written
  rw [spelled, List.append_assoc]
  refine solid_append _ (by simp) (solid_append digits (fun digit member => ?_) solid)
  have isDigit := all digit member
  refine ⟨?_, ?_, ?_⟩ <;> rintro rfl <;> cases isDigit

/-- **A reference is solid.** -/
theorem solid_reference {ref : FieldRef} (writable : ref.Writable) : Solid ref.text := by
  have close : Solid ['\x7d'] := by simp [Solid]
  obtain ⟨field, _ | via⟩ := ref
  · refine solid_append ['\x7b'] (by simp) ?_
    exact solid_key writable.1 close
  · refine solid_append ['\x7b'] (by simp) ?_
    refine solid_key (writable.2 via rfl) (solid_append ['.'] (by simp) ?_)
    exact solid_key writable.1 close

/-- **Whatever solid word begins one text begins another.** -/
def Agrees (tight loose : List Char) : Prop :=
  ∀ word, Solid word → word <+: tight → word <+: loose

namespace Agrees

variable {tight loose : List Char}

theorem cons (agrees : Agrees tight loose) (char : Char) :
    Agrees (char :: tight) (char :: loose) := by
  intro word solid begins
  cases word with
  | nil => exact List.nil_prefix
  | cons first rest =>
    obtain ⟨rfl, behind⟩ := List.cons_prefix_cons.mp begins
    exact List.cons_prefix_cons.mpr ⟨rfl, agrees rest solid.2.2.2 behind⟩

theorem append (agrees : Agrees tight loose) (front : List Char) :
    Agrees (front ++ tight) (front ++ loose) := by
  induction front with
  | nil => exact agrees
  | cons char rest ih => exact ih.cons char

/-- Behind what a call begins with, texts agree. -/
theorem opening (function : Function) (tight loose : List Char) :
    Agrees (opening function ++ tight) (Grammar.opening function ++ loose) := by
  rw [Grammar.opening, List.append_assoc, List.append_assoc]
  refine append (fun word solid begins => ?_) _
  cases word with
  | nil => exact List.nil_prefix
  | cons first rest =>
    obtain ⟨rfl, _⟩ := List.cons_prefix_cons.mp begins
    obtain rfl := solid.2.2.1 rfl
    exact ⟨loose, rfl⟩

/-- Where a sequence ends, texts agree. -/
theorem of_ends {ending : Ending} (ends : Ends ending tight) (loose : List Char) :
    Agrees tight loose := by
  intro word solid begins
  cases word with
  | nil => exact List.nil_prefix
  | cons first rest =>
    cases ends with
    | formula => cases List.prefix_nil.mp begins
    | comma function behind => exact absurd (List.cons_prefix_cons.mp begins).1 solid.1
    | close function behind => exact absurd (List.cons_prefix_cons.mp begins).1 solid.2.1

/-- **The print of a sequence agrees with its text.** -/
theorem print {items : List Item} (agrees : Agrees tight loose) :
    Agrees (print (tree items) ++ tight) (text items ++ loose) := by
  induction items with
  | nil =>
    rw [tree, Piece.print, text]
    exact agrees
  | cons item items ih =>
    rw [text, List.append_assoc]
    cases item with
    | literal char =>
      rw [tree, print_prepend]
      exact ih.cons char
    | reference ref =>
      rw [tree, Piece.print, List.append_assoc]
      exact ih.append ref.text
    | call function arguments offset =>
      rw [tree, Piece.print, Item.text, List.append_assoc, List.append_assoc, List.append_assoc]
      exact opening function _ _

end Agrees

namespace Grammar

/-! ### Boundaries -/

/-- **No blank is part of a word.** The ranges of blanks and those of alphanumeric characters are
apart. -/
theorem not_isWordChar_of_isBlank {char : Char} (blank : Text.isBlank char = true) :
    Text.isWordChar char = false := by
  have apart : ∀ blanks ∈ Text.blankRanges, ∀ range ∈ Text.alphanumericRanges,
      blanks.2 < range.1 ∨ range.2 < blanks.1 := by
    decide +kernel
  have outside : ¬ Text.isAlphanumeric char = true := by
    intro alphanumeric
    obtain ⟨blanks, among, _, _⟩ := Text.isBlank_iff.mp blank
    obtain ⟨range, member, _, _⟩ := Text.isAlphanumeric_iff.mp alphanumeric
    have := apart blanks among range member
    omega
  have other : char ≠ '_' := by
    rintro rfl
    exact absurd blank (by decide)
  rw [Text.isWordChar, Bool.eq_false_iff.mpr outside, Bool.false_or]
  exact beq_false_of_ne other

theorem boundary_append {before behind : List Char} (some : behind ≠ []) :
    Boundary (before ++ behind) ↔ Boundary behind := by
  rw [Boundary, Boundary, List.getLast?_append_of_ne_nil _ some]

theorem boundary_concat (before : List Char) {char : Char} (other : Text.isWordChar char = false) :
    Boundary (before ++ [char]) := by
  rw [boundary_append (List.cons_ne_nil _ _)]
  intro last same
  obtain rfl := Option.mem_some.mp same
  exact other

theorem boundary_opening (before : List Char) (function : Function) :
    Boundary (before ++ opening function) := by
  rw [opening, ← List.append_assoc]
  exact boundary_concat _ (by decide)

theorem boundary_argumentsText (before : List Char) {arguments : List (List Item)}
    (some : arguments ≠ []) : Boundary (before ++ argumentsText arguments) := by
  induction arguments generalizing before with
  | nil => exact absurd rfl some
  | cons argument rest ih =>
    cases rest with
    | nil =>
      rw [argumentsText_last, ← List.append_assoc]
      exact boundary_concat _ (by decide)
    | cons following rest =>
      rw [argumentsText_next, List.append_cons, ← List.append_assoc]
      exact ih _ (List.cons_ne_nil _ _)

/-- Blanks behind a boundary leave one. -/
theorem Boundary.append_blanks {before blanks : List Char} (boundary : Boundary before)
    (blank : Blanks blanks) : Boundary (before ++ blanks) := by
  cases blanks with
  | nil => rwa [List.append_nil]
  | cons char rest =>
    rw [boundary_append (List.cons_ne_nil _ _)]
    exact fun last member => not_isWordChar_of_isBlank (blank last (List.mem_of_getLast? member))

/-! ### Reading the print -/

/-- Dropping a sequence's first items. -/
theorem Sequence.of_append {ending : Ending} {before behind : List Char} {lead items : List Item}
    (derived : Sequence ending before (lead ++ items) behind) :
    Sequence ending (before ++ text lead) items behind := by
  induction lead generalizing before with
  | nil =>
    rw [text, List.append_nil]
    exact derived
  | cons item lead ih =>
    cases derived with
    | cons first later =>
      rw [text, ← List.append_assoc]
      exact ih later

/-- Sequences whose pieces are those of a trimmed one have no blanks around them. -/
theorem forgetOffsets_trimmed {items other : List Item}
    (same : forgetOffsets (tree items) = forgetOffsets (tree (trimmed other))) :
    forgetOffsets (tree (trimmed items)) = forgetOffsets (tree (trimmed other)) := by
  rw [← trimArgument_tree items, Piece.forgetOffsets_trimArgument, same,
    ← Piece.forgetOffsets_trimArgument, trimArgument_tree, trimmed_trimmed]

theorem eq_nil_of_forgetOffsets {items other : List Item}
    (same : forgetOffsets (tree items) = forgetOffsets (tree other)) (empty : items = []) :
    other = [] := by
  rw [← tree_eq_nil, ← Piece.forgetOffsets_eq_nil, ← same, Piece.forgetOffsets_eq_nil, tree_eq_nil]
  exact empty

variable {before before' tight loose : List Char}

theorem Calls.loosen {function : Function} (agrees : Agrees tight loose)
    (same : Boundary before ↔ Boundary before') (calls : Calls before' tight function) :
    Calls before loose function :=
  ⟨same.mpr calls.1, agrees _ (solid_opening function) calls.2⟩

theorem Refers.loosen {ref : FieldRef} (agrees : Agrees tight loose) (refers : Refers tight ref) :
    Refers loose ref :=
  ⟨refers.1, agrees _ (solid_reference refers.1) refers.2⟩

mutual

/-- **The print of a sequence is a sequence**, with the same pieces. The sequence may be followed by
blanks, which the print leaves out, and the print may stand elsewhere. -/
theorem Sequence.reprinted {ending : Ending} {before before' behind : List Char}
    {core trail : List Item} (derived : Sequence ending before (core ++ trail) behind)
    (same : Boundary before ↔ Boundary before') :
    ∃ items, text items = print (tree core) ∧
      forgetOffsets (tree items) = forgetOffsets (tree core) ∧
      ∀ behind', Ends ending behind' → Sequence ending before' items behind' := by
  -- By induction on `core`. Its items are followed by `trail` and `behind` in the source and by any
  -- ending in the print; whatever begins an item is solid, so it does not reach that far.
  match core with
  | [] =>
    rw [tree, print]
    exact ⟨[], rfl, by rw [tree], fun _ ends => .nil ends⟩
  | .literal char :: rest =>
    cases derived with
    | cons first later =>
      cases first with
      | literal noCall noReference allowed =>
        have next : Boundary (before ++ [char]) ↔ Boundary (before' ++ [char]) := by
          rw [boundary_append (List.cons_ne_nil _ _), boundary_append (List.cons_ne_nil _ _)]
        obtain ⟨items, printed, built, follows⟩ := Sequence.reprinted later next
        refine ⟨.literal char :: items, ?_, ?_, fun behind' ends => ?_⟩
        · rw [text, Item.text, printed, tree, print_prepend]
          rfl
        · rw [tree, tree, Piece.forgetOffsets_prepend, built, Piece.forgetOffsets_prepend]
        · have agrees : Agrees (char :: (text items ++ behind'))
              (char :: (text (rest ++ trail) ++ behind)) := by
            rw [printed, text_append, List.append_assoc]
            exact (Agrees.of_ends ends _).print.cons char
          exact .cons (.literal (fun function calls => noCall function (calls.loosen agrees same))
            (fun ref refers => noReference ref (refers.loosen agrees)) allowed)
            (follows behind' ends)
  | .reference ref :: rest =>
    cases derived with
    | cons first later =>
      cases first with
      | reference noCall writable =>
        have some : ref.text ≠ [] := by
          obtain ⟨tail, begins⟩ := ref.text_eq_cons
          rw [begins]
          exact List.cons_ne_nil _ _
        have next : Boundary (before ++ ref.text) ↔ Boundary (before' ++ ref.text) := by
          rw [boundary_append some, boundary_append some]
        obtain ⟨items, printed, built, follows⟩ := Sequence.reprinted later next
        refine ⟨.reference ref :: items, ?_, ?_, fun behind' ends => ?_⟩
        · rw [text, Item.text, printed, tree, print]
        · rw [tree, tree, forgetOffsets, forgetOffsets, built]
        · have agrees : Agrees (ref.text ++ (text items ++ behind'))
              (ref.text ++ (text (rest ++ trail) ++ behind)) := by
            rw [printed, text_append, List.append_assoc]
            exact (Agrees.of_ends ends _).print.append ref.text
          exact .cons (.reference
            (fun function calls => noCall function (calls.loosen agrees same)) writable)
            (follows behind' ends)
  | .call function arguments offset :: rest =>
    cases derived with
    | cons first later =>
      cases first with
      | call boundary arity inside =>
        have some : ∀ {list : List (List Item)}, list.length = function.arity → list ≠ [] := by
          rintro _ count rfl
          exact absurd count (Nat.ne_of_lt function.arity_pos)
        obtain ⟨arguments', count, argumentsPrinted, argumentsBuilt, within⟩ :=
          Arguments.reprinted inside (boundary_opening before function)
            (boundary_opening before' function)
        rw [arity] at count
        -- Both calls end with `)`, so a name may begin behind either.
        have next : Boundary (before ++ (Item.call function arguments (Cursor.bytes before)).text) ↔
            Boundary (before' ++
              (Item.call function arguments' (Cursor.bytes before')).text) := by
          rw [Item.text, Item.text, ← List.append_assoc, ← List.append_assoc]
          exact iff_of_true (boundary_argumentsText _ (some arity))
            (boundary_argumentsText _ (some count))
        obtain ⟨items, printed, built, follows⟩ := Sequence.reprinted later next
        refine ⟨.call function arguments' (Cursor.bytes before') :: items, ?_, ?_,
          fun behind' ends => ?_⟩
        · rw [text, Item.text, printed, argumentsPrinted, tree, print]
        · rw [tree, tree, forgetOffsets, forgetOffsets, forgetOffset, forgetOffset, argumentsBuilt,
            built]
        · exact .cons (.call (same.mp boundary) count (within _)) (follows behind' ends)
termination_by 2 * sizeOf core

/-- **The print of an argument is an argument**, without the blanks around it. -/
theorem Sequence.reprinted_argument {ending : Ending} {before before' behind : List Char}
    {argument : List Item} (derived : Sequence ending before argument behind)
    (content : trimmed argument ≠ []) (boundary : Boundary before) (boundary' : Boundary before') :
    ∃ items, trimmed items ≠ [] ∧ text items = print (tree (trimmed argument)) ∧
      forgetOffsets (tree (trimmed items)) = forgetOffsets (tree (trimmed argument)) ∧
      ∀ behind', Ends ending behind' → Sequence ending before' items behind' := by
  have smaller := sizeOf_trimmed_le argument
  obtain ⟨lead, trail, split, blank, _⟩ := exists_trimmed argument
  rw [split] at derived
  have stands := boundary.append_blanks (blanks_text blank)
  obtain ⟨items, printed, built, follows⟩ :=
    Sequence.reprinted derived.of_append (iff_of_true stands boundary')
  have trimmedBuilt := forgetOffsets_trimmed built
  exact ⟨items, fun empty => content (eq_nil_of_forgetOffsets trimmedBuilt empty), printed,
    trimmedBuilt, follows⟩
termination_by 2 * sizeOf argument + 1

/-- **The print of arguments are arguments**, with the same pieces. -/
theorem Arguments.reprinted {function : Function} {before before' behind : List Char}
    {arguments : List (List Item)} (derived : Arguments function before arguments behind)
    (boundary : Boundary before) (boundary' : Boundary before') :
    ∃ arguments', arguments'.length = arguments.length ∧
      argumentsText arguments' = printArguments (argumentTrees arguments) ∧
      forgetEach (argumentTrees arguments') = forgetEach (argumentTrees arguments) ∧
      ∀ behind', Arguments function before' arguments' behind' := by
  cases derived with
  | @last _ _ _ argument sequence content =>
    obtain ⟨items, some, printed, built, follows⟩ :=
      Sequence.reprinted_argument sequence content boundary boundary'
    refine ⟨[items], rfl, ?_, ?_, fun behind' => .last (follows _ (.close _ _)) some⟩
    · rw [argumentsText_last, printed, argumentTrees, argumentTrees, printArguments,
        printArguments, if_pos rfl]
    · rw [argumentTrees_cons, argumentTrees_cons, forgetEach, forgetEach, built]
  | @next _ _ _ argument following rest sequence content later =>
    obtain ⟨items, some, printed, built, follows⟩ :=
      Sequence.reprinted_argument sequence content boundary boundary'
    have comma : ∀ (front : List Char) (items : List Item),
        Boundary (front ++ (text items ++ [','])) := fun front items => by
      rw [← List.append_assoc]
      exact boundary_concat _ (by decide)
    obtain ⟨others, count, othersPrinted, othersBuilt, within⟩ :=
      Arguments.reprinted later (comma before argument) (comma before' items)
    obtain ⟨following', rest', rfl⟩ : ∃ following rest, others = following :: rest :=
      List.exists_cons_of_length_pos (by rw [count]; exact Nat.succ_pos _)
    refine ⟨items :: following' :: rest', congrArg Nat.succ count, ?_, ?_,
      fun behind' => .next (follows _ (.comma _ _)) some (within behind')⟩
    · have more : argumentTrees (following :: rest) ≠ [] := by
        rw [argumentTrees]
        exact List.cons_ne_nil _ _
      rw [argumentsText_next, printed, othersPrinted, argumentTrees_cons argument, printArguments,
        if_neg more]
    · rw [argumentTrees_cons items, argumentTrees_cons argument, forgetEach, forgetEach, built,
        othersBuilt]
termination_by 2 * sizeOf arguments
decreasing_by all_goals subst_vars; decreasing_with omega

end

end Grammar

/-- **A formula is read back from its print.** The source is the print of its pieces with blanks at
the inner edges of arguments, so it is the print itself if there is no call; and from the print the
same pieces are read, which only may stand elsewhere. -/
theorem parse_print {field source : String} {pieces : List Piece}
    (parsed : parse field source = .ok pieces) :
    Spaced pieces source.toList ∧
      ((∀ function arguments offset, .call function arguments offset ∉ pieces) →
        String.ofList (print pieces) = source) ∧
      ∃ again, parse field (String.ofList (print pieces)) = .ok again ∧
        forgetOffsets again = forgetOffsets pieces := by
  obtain ⟨items, ⟨split, sequence⟩, rfl⟩ := exists_derives_of_parse parsed
  have spaced : Spaced (tree items) source.toList := by
    rw [split]
    exact spaced_text sequence.sound
  refine ⟨spaced, fun noCall => ?_, ?_⟩
  · rw [← spaced.eq_print noCall, String.ofList_toList]
  · rw [← List.append_nil items] at sequence
    obtain ⟨again, printed, built, follows⟩ := Sequence.reprinted sequence Iff.rfl
    have derived : Derives (String.ofList (print (tree items))) again :=
      ⟨by rw [String.toList_ofList, printed], follows [] .formula⟩
    exact ⟨tree again, parse_of_derives field derived, built⟩

/-- Blanks around an argument are not printed, those inside it are. -/
theorem parse_print_trim :
    ∃ pieces, parse "field_3" "trim( \x7bfield_1\x7d - \x7bfield_2\x7d )" = .ok pieces ∧
      String.ofList (print pieces) = "trim(\x7bfield_1\x7d - \x7bfield_2\x7d)" ∧
      Spaced pieces "trim( \x7bfield_1\x7d - \x7bfield_2\x7d )".toList ∧
      ∃ again, parse "field_3" "trim(\x7bfield_1\x7d - \x7bfield_2\x7d)" = .ok again ∧
        forgetOffsets again = forgetOffsets pieces := by
  have printed : (parse "field_3" "trim( \x7bfield_1\x7d - \x7bfield_2\x7d )").toOption.map
      (fun pieces => String.ofList (print pieces)) =
        some "trim(\x7bfield_1\x7d - \x7bfield_2\x7d)" := by
    decide +kernel
  obtain ⟨pieces, found, tight⟩ := Option.map_eq_some_iff.mp printed
  have parsed := toOption_eq_some.mp found
  obtain ⟨spaced, _, again⟩ := parse_print parsed
  rw [tight] at again
  exact ⟨pieces, parsed, tight, spaced, again⟩

end AppSchema.Formula
