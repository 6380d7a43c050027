/-
**The parser of formulas accepts its grammar.**

The parser knows of what it has read the number of bytes and the last character; the grammar speaks
of the whole text before. A position of the parser between two texts has both.

* `Begins.of_reads`: what the parser reads is derived;
* `reads_of_sequence`: what is derived is read;
* `parse_iff_derives`: the parser accepts exactly the texts of the grammar and builds their trees.
-/

import AppSchema.Proofs.Formula.Blank

namespace AppSchema.Formula

open Grammar

/-! ### Positions -/

namespace Cursor

/-- The position between two texts. -/
def between (before rest : List Char) : Cursor :=
  ⟨bytes before, before.getLast?, rest⟩

theorem bytes_append (first second : List Char) :
    bytes (first ++ second) = bytes first + bytes second := by
  induction first with
  | nil => simp [bytes]
  | cons char first ih =>
    simp only [bytes, List.cons_append, List.foldr_cons] at ih ⊢
    rw [ih, Nat.add_assoc]

theorem skip_between {before text behind input : List Char} (split : input = text ++ behind)
    {count : Nat} (counted : text.length = count) :
    (between before input).skip count = between (before ++ text) behind := by
  subst split counted
  simp [skip, between, bytes_append, List.getLast?_append]

theorem skip_opening {function : Function} {before tail input : List Char}
    (split : input = opening function ++ tail) :
    (between before input).skip (function.name.length + 1) =
      between (before ++ opening function) tail :=
  skip_between split (by rw [opening, List.length_append, String.length_toList]; rfl)

theorem skip_one (before : List Char) (char : Char) (rest : List Char) :
    (between before (char :: rest)).skip 1 = between (before ++ [char]) rest :=
  skip_between (show char :: rest = [char] ++ rest from rfl) rfl

theorem atBoundary_between (before rest : List Char) :
    (between before rest).atBoundary = true ↔ Boundary before := by
  unfold atBoundary between Boundary
  cases before.getLast? <;> simp

theorem call?_between {before rest : List Char} {function : Function} :
    (between before rest).call? = some function ↔ Calls before rest function := by
  unfold call? Calls
  rw [← atBoundary_between before rest]
  constructor
  · intro called
    split at called
    · rename_i boundary
      refine ⟨boundary, ?_⟩
      split at called
      · rename_i behind left
        have known := List.find?_some called
        rw [beq_iff_eq] at known
        refine ⟨behind, ?_⟩
        rw [opening, known, String.toList_ofList, List.append_assoc, List.singleton_append, ← left]
        exact List.takeWhile_append_dropWhile
      · cases called
    · cases called
  · rintro ⟨boundary, behind, rfl⟩
    rw [if_pos boundary]
    simp only [between, dropWhile_opening, takeWhile_opening, String.ofList_toList,
      Function.ofName?_name]

theorem call?_eq_none {before rest : List Char} :
    (between before rest).call? = none ↔ ∀ function, ¬ Calls before rest function := by
  simp only [← call?_between]
  exact Option.eq_none_iff_forall_ne_some

end Cursor

/-! ### What a step of the parser reads -/

theorem ends_iff {ending : Ending} {input : List Char} :
    Ends ending input ↔
      input = [] ∧ ending.cutOff? = none ∨
        ∃ char rest, input = char :: rest ∧ ending.isMet char = true := by
  constructor
  · rintro (_ | ⟨function, behind⟩ | ⟨function, behind⟩)
    · exact .inl ⟨rfl, rfl⟩
    · exact .inr ⟨',', behind, rfl, rfl⟩
    · exact .inr ⟨')', behind, rfl, rfl⟩
  · rintro (⟨rfl, whole⟩ | ⟨char, rest, rfl, met⟩)
    · cases ending with
      | formula => exact .formula
      | comma function | close function => cases whole
    · cases ending with
      | formula => cases met
      | comma function =>
        obtain rfl : char = ',' := beq_iff_eq.mp met
        exact .comma function rest
      | close function =>
        obtain rfl : char = ')' := beq_iff_eq.mp met
        exact .close function rest

theorem allowed_iff {ending : Ending} {char : Char} :
    Allowed ending char ↔ ending.isMet char = false ∧ ending.refuses? char = none := by
  cases ending with
  | formula => simp [Allowed, Ending.isMet, Ending.refuses?]
  | comma function =>
    by_cases closing : char = ')'
    · simp [Allowed, Ending.isMet, Ending.refuses?, closing]
    · simp [Allowed, Ending.isMet, Ending.refuses?, closing]
  | close function =>
    by_cases comma : char = ','
    · simp [Allowed, Ending.isMet, Ending.refuses?, comma]
    · simp [Allowed, Ending.isMet, Ending.refuses?, comma]

/-- Reading a sequence gives pieces and the position behind them. -/
def ReadsPieces (field : String) (ending : Ending) (cursor : Cursor) (pieces : List Piece)
    (last : Cursor) : Prop :=
  ∃ shorter, parsePieces field ending cursor = .ok ⟨(pieces, last), shorter⟩

/-- Reading arguments gives their pieces and the position behind them. -/
def ReadsArguments (field : String) (function : Function) (position : Nat) (cursor : Cursor)
    (arguments : List (List Piece)) (last : Cursor) : Prop :=
  ∃ shorter, parseArguments field function position cursor = .ok ⟨(arguments, last), shorter⟩

/-- What the parser reads at a character that is allowed. -/
inductive Step (field : String) (ending : Ending) (cursor : Cursor) (char : Char) :
    List Piece → Cursor → Prop
  | call {function : Function} {arguments : List (List Piece)} {behind last : Cursor}
      {pieces : List Piece} (called : cursor.call? = some function)
      (inside : ReadsArguments field function 1 (cursor.skip (function.name.length + 1))
        arguments behind)
      (later : ReadsPieces field ending behind pieces last) :
      Step field ending cursor char (.call function arguments cursor.offset :: pieces) last
  | reference {ref : FieldRef} {count : Nat} {pieces : List Piece} {last : Cursor}
      (noCall : cursor.call? = none) (scanned : FieldRef.scan? cursor.rest = some (ref, count))
      (later : ReadsPieces field ending (cursor.skip count) pieces last) :
      Step field ending cursor char (.field ref :: pieces) last
  | literal {pieces : List Piece} {last : Cursor}
      (noCall : cursor.call? = none) (noReference : FieldRef.scan? cursor.rest = none)
      (later : ReadsPieces field ending (cursor.skip 1) pieces last) :
      Step field ending cursor char (Piece.prepend char pieces) last

variable {field : String} {ending : Ending} {cursor last : Cursor} {pieces : List Piece}

/-- Reading stops at an ending, or takes a step at a character that is allowed. -/
theorem ends_or_step_of_reads (reads : ReadsPieces field ending cursor pieces last) :
    Ends ending cursor.rest ∧ pieces = [] ∧ last = cursor ∨
      ∃ char rest, cursor.rest = char :: rest ∧ Allowed ending char ∧
        Step field ending cursor char pieces last := by
  obtain ⟨_, reads⟩ := reads
  rw [parsePieces] at reads
  split at reads
  · rename_i next
    left
    split at reads
    · cases reads
    · rename_i whole
      cases reads
      exact ⟨ends_iff.mpr (.inl ⟨next, whole⟩), rfl, rfl⟩
  · rename_i char rest next
    split at reads
    · rename_i met
      left
      cases reads
      exact ⟨ends_iff.mpr (.inr ⟨char, rest, next, met⟩), rfl, rfl⟩
    · rename_i notMet
      split at reads
      · cases reads
      · rename_i admitted
        refine .inr ⟨char, rest, next, allowed_iff.mpr ⟨by simpa using notMet, admitted⟩, ?_⟩
        split at reads
        · rename_i function called
          split at reads
          · cases reads
          · rename_i arguments behind shorter inside
            split at reads
            · cases reads
            · rename_i inner final shortest later
              cases reads
              exact .call called ⟨shorter, inside⟩ ⟨shortest, later⟩
        · rename_i noCall
          split at reads
          · rename_i ref count scanned
            split at reads
            · cases reads
            · rename_i inner final shorter later
              cases reads
              exact .reference noCall scanned ⟨shorter, later⟩
          · rename_i noReference
            split at reads
            · cases reads
            · rename_i inner final shorter later
              cases reads
              exact .literal noCall noReference ⟨shorter, later⟩

theorem reads_of_ends (ends : Ends ending cursor.rest) :
    ReadsPieces field ending cursor [] cursor := by
  unfold ReadsPieces
  rw [parsePieces]
  rcases ends_iff.mp ends with ⟨next, whole⟩ | ⟨char, rest, next, met⟩
  · split
    · rw [whole]
      exact ⟨le_rfl, rfl⟩
    · rename_i found
      cases next.symm.trans found
  · split
    · rename_i found
      cases next.symm.trans found
    · rename_i found
      obtain ⟨rfl, rfl⟩ := List.cons.inj (next.symm.trans found)
      rw [if_pos met]
      exact ⟨le_rfl, rfl⟩

theorem reads_of_step {char : Char} {rest : List Char} (next : cursor.rest = char :: rest)
    (allowed : Allowed ending char) (step : Step field ending cursor char pieces last) :
    ReadsPieces field ending cursor pieces last := by
  obtain ⟨notMet, admitted⟩ := allowed_iff.mp allowed
  unfold ReadsPieces
  rw [parsePieces]
  split
  · rename_i found
    cases next.symm.trans found
  · rename_i found
    obtain ⟨rfl, rfl⟩ := List.cons.inj (next.symm.trans found)
    simp only [notMet, admitted, Bool.false_eq_true, if_false]
    cases step with
    | call called inside later =>
      obtain ⟨shorter, inside⟩ := inside
      obtain ⟨shortest, later⟩ := later
      simp only [called]
      rw [inside]
      dsimp only
      rw [later]
      exact ⟨le_trans shortest (le_trans shorter (cursor.skip_length_le _)), rfl⟩
    | reference noCall scanned later =>
      obtain ⟨shorter, later⟩ := later
      simp only [noCall]
      split
      · rename_i found
        obtain ⟨rfl, rfl⟩ := Prod.mk.inj (Option.some.inj (scanned.symm.trans found))
        rw [later]
        exact ⟨le_trans shorter (cursor.skip_length_le _), rfl⟩
      · rename_i found
        cases scanned.symm.trans found
    | literal noCall noReference later =>
      obtain ⟨shorter, later⟩ := later
      simp only [noCall]
      split
      · rename_i found
        cases noReference.symm.trans found
      · rw [later]
        exact ⟨le_trans shorter (cursor.skip_length_le _), rfl⟩

theorem readsArguments_iff {function : Function} {position : Nat} {arguments : List (List Piece)} :
    ReadsArguments field function position cursor arguments last ↔
      ∃ pieces behind, ReadsPieces field (.ofArgument function position) cursor pieces behind ∧
        trimArgument pieces ≠ [] ∧
          (position < function.arity ∧
              (∃ rest, ReadsArguments field function (position + 1) (behind.skip 1) rest last ∧
                arguments = trimArgument pieces :: rest) ∨
            function.arity ≤ position ∧ arguments = [trimArgument pieces] ∧
              last = behind.skip 1) := by
  unfold ReadsArguments ReadsPieces
  rw [parseArguments]
  constructor
  · rintro ⟨_, reads⟩
    split at reads
    · cases reads
    · rename_i pieces behind shorter sequence
      split at reads
      · cases reads
      · rename_i content
        refine ⟨pieces, behind, ⟨shorter, sequence⟩, by simpa using content, ?_⟩
        dsimp only at reads
        split at reads
        · rename_i more
          split at reads
          · cases reads
          · rename_i rest final shortest later
            cases reads
            exact .inl ⟨more, rest, ⟨shortest, later⟩, rfl⟩
        · rename_i last
          cases reads
          exact .inr ⟨Nat.le_of_not_lt last, rfl, rfl⟩
  · rintro ⟨pieces, behind, ⟨shorter, sequence⟩, content, ending⟩
    rw [sequence]
    dsimp only
    rw [if_neg (by simpa using content)]
    rcases ending with ⟨more, rest, ⟨shortest, later⟩, rfl⟩ | ⟨final, rfl, rfl⟩
    · rw [if_pos more, later]
      exact ⟨_, rfl⟩
    · rw [if_neg (Nat.not_lt.mpr final)]
      exact ⟨_, rfl⟩

/-! ### What is read is derived -/

/-- A text begins with that of a sequence, which has given pieces and a position behind it. -/
def Begins (ending : Ending) (before input : List Char) (pieces : List Piece) (last : Cursor) :
    Prop :=
  ∃ items behind, input = text items ++ behind ∧ last = .between (before ++ text items) behind ∧
    Sequence ending before items behind ∧ tree items = pieces

theorem Begins.nil {ending : Ending} {before input : List Char} (ends : Ends ending input) :
    Begins ending before input [] (.between before input) :=
  ⟨[], input, by rw [text, List.nil_append], by rw [text, List.append_nil], .nil ends, by rw [tree]⟩

theorem Begins.cons {ending : Ending} {before input rest : List Char} {item : Item}
    {pieces : List Piece} {last : Cursor} (split : input = item.text ++ rest)
    (taken : Taken ending before item rest)
    (later : Begins ending (before ++ item.text) rest pieces last) :
    ∃ items, tree items = pieces ∧ Begins ending before input (tree (item :: items)) last := by
  obtain ⟨items, behind, rfl, rfl, sequence, rfl⟩ := later
  refine ⟨items, rfl, item :: items, behind, ?_, ?_, .cons taken sequence, rfl⟩
  · rw [split, text, List.append_assoc]
  · rw [text, List.append_assoc]

mutual

/-- **What the parser reads is derived.** Each step of the parser is a rule of the grammar. -/
theorem Begins.of_reads {ending : Ending} {before input : List Char} {pieces : List Piece}
    {last : Cursor} (reads : ReadsPieces field ending (.between before input) pieces last) :
    Begins ending before input pieces last := by
  rcases ends_or_step_of_reads reads with ⟨ends, rfl, rfl⟩ | ⟨char, rest, next, allowed, step⟩
  · exact Begins.nil ends
  · change input = char :: rest at next
    cases step with
    | @call function trees middle _ inner called inside later =>
      obtain ⟨boundary, tail, split⟩ := Cursor.call?_between.mp called
      have shorter : tail.length < input.length := by simp [← split, opening]; omega
      rw [Cursor.skip_opening split.symm] at inside
      obtain ⟨arguments, behind, whole, rfl, derived, count, rfl⟩ :=
        arguments_of_reads function.arity_pos inside
      -- The arguments and the rest behind them are shorter, which the recursion needs.
      have shortest : behind.length ≤ tail.length := by simp [whole]
      have taken : Taken ending before (.call function arguments (Cursor.bytes before)) behind :=
        .call boundary (by omega) derived
      have ahead : input = (Item.call function arguments (Cursor.bytes before)).text ++ behind := by
        rw [← split, whole, Item.text, List.append_assoc]
      rw [List.append_assoc] at later
      obtain ⟨items, rfl, derived⟩ := Begins.cons ahead taken (Begins.of_reads later)
      rwa [tree] at derived
    | @reference ref count inner _ noCall scanned later =>
      obtain ⟨writable, ⟨behind, split⟩, counted⟩ := FieldRef.of_scan? scanned
      have moved : (Cursor.between before input).skip count =
          .between (before ++ ref.text) behind :=
        Cursor.skip_between split.symm counted.symm
      have shorter : behind.length < input.length := by
        have positive := FieldRef.scan?_positive scanned
        have whole : ref.text ++ behind = input := split
        simp [← whole, ← counted, positive]
      rw [moved] at later
      have taken : Taken ending before (.reference ref) behind := by
        refine .reference (fun function calls => ?_) writable
        cases noCall.symm.trans (Cursor.call?_between.mpr (split ▸ calls))
      obtain ⟨items, rfl, derived⟩ := Begins.cons split.symm taken (Begins.of_reads later)
      rwa [tree] at derived
    | @literal inner _ noCall noReference later =>
      have moved : (Cursor.between before input).skip 1 = .between (before ++ [char]) rest := by
        rw [next, Cursor.skip_one]
      have shorter : rest.length < input.length := by simp [next]
      rw [moved] at later
      have taken : Taken ending before (.literal char) rest := by
        refine .literal (fun function calls => ?_) (fun ref refers => ?_) allowed
        · cases noCall.symm.trans (Cursor.call?_between.mpr (next ▸ calls))
        · cases noReference.symm.trans (refers_iff.mp (next ▸ refers))
      obtain ⟨items, rfl, derived⟩ := Begins.cons next taken (Begins.of_reads later)
      rwa [tree] at derived
termination_by 4 * input.length

theorem arguments_of_reads {function : Function} {position : Nat}
    {before input : List Char} {trees : List (List Piece)} {last : Cursor}
    (within : position ≤ function.arity)
    (reads : ReadsArguments field function position (.between before input) trees last) :
    ∃ arguments behind, input = argumentsText arguments ++ behind ∧
      last = .between (before ++ argumentsText arguments) behind ∧
        Arguments function before arguments behind ∧
          position + arguments.length = function.arity + 1 ∧ argumentTrees arguments = trees := by
  obtain ⟨pieces, middle, sequence, content, ending⟩ := readsArguments_iff.mp reads
  obtain ⟨argument, behind, split, rfl, derived, rfl⟩ := Begins.of_reads sequence
  rw [trimArgument_tree] at content ending
  have some : trimmed argument ≠ [] := fun empty => content (by rw [empty, tree])
  rcases ending with ⟨more, others, later, rfl⟩ | ⟨final, rfl, rfl⟩
  · rw [Ending.ofArgument, if_pos more] at derived
    cases derived.ends with
    | comma _ tail =>
      have shorter : tail.length < input.length := by simp [split]; omega
      rw [Cursor.skip_one] at later
      obtain ⟨arguments, behind, rfl, rfl, inside, count, rfl⟩ :=
        arguments_of_reads more later
      obtain ⟨following, rest, rfl⟩ : ∃ following rest, arguments = following :: rest :=
        List.exists_cons_of_length_pos (by omega)
      rw [List.append_assoc] at inside
      refine ⟨argument :: following :: rest, behind, ?_, ?_, .next derived some inside, ?_, ?_⟩
      · rw [split, argumentsText_next]
        simp
      · rw [argumentsText_next]
        simp
      · rw [List.length_cons]
        omega
      · rw [argumentTrees]
  · rw [Ending.ofArgument, if_neg (Nat.not_lt.mpr final)] at derived
    cases derived.ends with
    | close _ tail =>
      refine ⟨[argument], tail, ?_, ?_, .last derived some, ?_, ?_⟩
      · rw [split, argumentsText_last]
        simp
      · rw [Cursor.skip_one, argumentsText_last, List.append_assoc]
      · rw [List.length_singleton, Nat.le_antisymm within final]
      · rw [argumentTrees, argumentTrees]
termination_by 4 * input.length + 1 + (2 - position)

end

/-! ### What is derived is read -/

mutual

/-- **What is derived is read.** -/
theorem reads_of_sequence {ending : Ending} {before behind : List Char} {items : List Item}
    (derived : Sequence ending before items behind) :
    ReadsPieces field ending (.between before (text items ++ behind)) (tree items)
      (.between (before ++ text items) behind) := by
  cases derived with
  | nil ends =>
    rw [text, tree, List.append_nil]
    exact reads_of_ends ends
  | @cons _ _ _ item items first later =>
    obtain ⟨char, tail, begins, allowed⟩ := first.text_eq_cons
    have read : ReadsPieces field ending (.between (before ++ item.text) (text items ++ behind))
        (tree items) (.between (before ++ item.text ++ text items) behind) :=
      reads_of_sequence later
    rw [text, List.append_assoc, ← List.append_assoc before]
    have next : item.text ++ (text items ++ behind) = char :: (tail ++ (text items ++ behind)) := by
      rw [begins, List.cons_append]
    exact reads_of_step next allowed (step_of_taken first next read)
termination_by sizeOf items

theorem step_of_taken {ending : Ending} {before input rest : List Char} {char : Char} {item : Item}
    {items : List Item} {last : Cursor} (taken : Taken ending before item input)
    (next : item.text ++ input = char :: rest)
    (later : ReadsPieces field ending (.between (before ++ item.text) input) (tree items) last) :
    Step field ending (.between before (item.text ++ input)) char (tree (item :: items)) last := by
  cases taken with
  | @call _ _ _ function arguments boundary arity inside =>
    have read : ReadsArguments field function 1 _ _ _ :=
      reads_of_arguments inside (by omega)
    have split : (Item.call function arguments (Cursor.bytes before)).text ++ input =
        opening function ++ (argumentsText arguments ++ input) := by
      rw [Item.text, List.append_assoc]
    rw [← Cursor.skip_opening split, List.append_assoc] at read
    rw [tree]
    exact .call (Cursor.call?_between.mpr boundary.calls) read later
  | @reference _ _ _ ref noCall writable =>
    have none : (Cursor.between before (ref.text ++ input)).call? = none :=
      Cursor.call?_eq_none.mpr noCall
    have scanned : FieldRef.scan? (ref.text ++ input) = some (ref, ref.text.length) :=
      FieldRef.scan?_append writable input
    have moved : (Cursor.between before (ref.text ++ input)).skip ref.text.length =
        .between (before ++ ref.text) input :=
      Cursor.skip_between rfl rfl
    rw [tree]
    exact .reference none scanned (moved ▸ later)
  | @literal _ _ _ char noCall noReference allowed =>
    obtain ⟨rfl, rfl⟩ := List.cons.inj next
    rw [tree]
    have moved : (Cursor.between before (char :: input)).skip 1 =
        .between (before ++ [char]) input :=
      Cursor.skip_one before char input
    exact .literal (Cursor.call?_eq_none.mpr noCall) (scan?_eq_none.mpr noReference)
      (moved ▸ later)
termination_by sizeOf item

theorem reads_of_arguments {function : Function} {position : Nat}
    {before behind : List Char} {arguments : List (List Item)}
    (derived : Arguments function before arguments behind)
    (count : position + arguments.length = function.arity + 1) :
    ReadsArguments field function position (.between before (argumentsText arguments ++ behind))
      (argumentTrees arguments) (.between (before ++ argumentsText arguments) behind) := by
  cases derived with
  | @last _ _ _ argument sequence content =>
    have final : ¬ position < function.arity := by
      rw [List.length_singleton] at count
      omega
    have read : ReadsPieces field (.ofArgument function position)
        (.between before (argumentsText [argument] ++ behind)) (tree argument)
        (.between (before ++ text argument) (')' :: behind)) := by
      rw [Ending.ofArgument, if_neg final, argumentsText_last, List.append_assoc]
      exact reads_of_sequence sequence
    refine readsArguments_iff.mpr ⟨_, _, read, ?_, .inr ?_⟩
    · rwa [trimArgument_tree, ne_eq, tree_eq_nil]
    · refine ⟨Nat.le_of_not_lt final, ?_, ?_⟩
      · rw [trimArgument_tree, argumentTrees, argumentTrees]
      · rw [Cursor.skip_one, argumentsText_last, List.append_assoc]
  | @next _ _ _ argument following rest sequence content later =>
    have more : position < function.arity := by
      simp only [List.length_cons] at count
      omega
    have read : ReadsPieces field (.ofArgument function position)
        (.between before (argumentsText (argument :: following :: rest) ++ behind)) (tree argument)
        (.between (before ++ text argument) (',' :: (argumentsText (following :: rest) ++ behind)))
        := by
      rw [Ending.ofArgument, if_pos more, argumentsText_next, List.append_assoc]
      exact reads_of_sequence sequence
    have fewer : position + 1 + (following :: rest).length = function.arity + 1 := by
      rw [List.length_cons] at count
      omega
    have others := reads_of_arguments later fewer
    refine readsArguments_iff.mpr ⟨_, _, read, ?_, .inl ?_⟩
    · rwa [trimArgument_tree, ne_eq, tree_eq_nil]
    · refine ⟨more, argumentTrees (following :: rest), ?_, ?_⟩
      · rw [Cursor.skip_one, argumentsText_next]
        simpa using others
      · rw [trimArgument_tree, argumentTrees]
termination_by sizeOf arguments

end

/-! ### The parser and the grammar -/

theorem parse_eq_ok_iff_reads {source : String} {pieces : List Piece} :
    parse field source = .ok pieces ↔
      ∃ last, ReadsPieces field .formula (.between [] source.toList) pieces last := by
  show _ ↔ ∃ last, ReadsPieces field .formula (.start source) pieces last
  unfold parse ReadsPieces
  constructor
  · intro parsed
    split at parsed
    · cases parsed
    · rename_i last shorter read
      cases parsed
      exact ⟨last, shorter, read⟩
  · rintro ⟨last, shorter, read⟩
    rw [read]

/-- **The parser accepts exactly its grammar and builds its tree.** A formula has pieces if and only
if it is derived and they are those of the derivation; and there is at most one derivation. -/
theorem parse_iff_derives (field source : String) :
    (∀ pieces, parse field source = .ok pieces ↔
        ∃ items, Derives source items ∧ tree items = pieces) ∧
      ∀ items other, Derives source items → Derives source other → items = other := by
  refine ⟨fun pieces => ?_, fun items other derived also => ?_⟩
  · rw [parse_eq_ok_iff_reads]
    constructor
    · rintro ⟨last, reads⟩
      obtain ⟨items, behind, split, -, sequence, built⟩ := Begins.of_reads reads
      cases sequence.ends with
      | formula =>
        rw [List.append_nil] at split
        exact ⟨items, ⟨split, sequence⟩, built⟩
    · rintro ⟨items, ⟨split, sequence⟩, rfl⟩
      have read : ReadsPieces field .formula (.between [] (text items ++ [])) (tree items) _ :=
        reads_of_sequence sequence
      rw [List.append_nil, ← split] at read
      exact ⟨_, read⟩
  · have same : text items ++ [] = text other ++ [] := by
      rw [← derived.1, ← also.1]
    exact (derived.2.unique also.2 same).1

/-- A call behind a character that is no part of a word, with a blank to drop. -/
theorem parse_iff_derives_left :
    Derives "#left(\x7bfield_1\x7d, 3)"
        [.literal '#',
          .call .left [[.reference ⟨"field_1", none⟩], [.literal ' ', .literal '3']] 1] ∧
      parse "field_2" "#left(\x7bfield_1\x7d, 3)" =
        .ok [.text ['#'], .call .left [[.field ⟨"field_1", none⟩], [.text ['3']]] 1] ∧
      ∀ other, Derives "#left(\x7bfield_1\x7d, 3)" other → other =
        [.literal '#',
          .call .left [[.reference ⟨"field_1", none⟩], [.literal ' ', .literal '3']] 1] := by
  have hash : Taken .formula [] (.literal '#') "left(\x7bfield_1\x7d, 3)".toList :=
    .literal (Cursor.call?_eq_none.mp rfl) (scan?_eq_none.mp rfl) trivial
  have key : IsKey "field_1" := ⟨['1'], List.cons_ne_nil _ _, by simp, rfl⟩
  have first : Sequence (.comma .left) "#left(".toList [.reference ⟨"field_1", none⟩]
      ", 3)".toList :=
    .cons (.reference (Cursor.call?_eq_none.mp rfl) ⟨key, nofun⟩) (.nil (.comma _ _))
  have second : Sequence (.close .left) "#left(\x7bfield_1\x7d,".toList
      [.literal ' ', .literal '3'] ")".toList :=
    .cons (.literal (Cursor.call?_eq_none.mp rfl) (scan?_eq_none.mp rfl) ⟨by decide, by decide⟩)
      (.cons (.literal (Cursor.call?_eq_none.mp rfl) (scan?_eq_none.mp rfl)
        ⟨by decide, by decide⟩) (.nil (.close _ _)))
  have boundary : Boundary ['#'] := (Cursor.atBoundary_between ['#'] []).mp rfl
  have call : Taken .formula ['#']
      (.call .left [[.reference ⟨"field_1", none⟩], [.literal ' ', .literal '3']] 1) [] :=
    .call boundary rfl (.next first (by decide) (.last second (by decide)))
  have derived : Derives "#left(\x7bfield_1\x7d, 3)"
      [.literal '#',
        .call .left [[.reference ⟨"field_1", none⟩], [.literal ' ', .literal '3']] 1] :=
    ⟨rfl, .cons hash (.cons call (.nil .formula))⟩
  obtain ⟨accepts, unique⟩ := parse_iff_derives "field_2" "#left(\x7bfield_1\x7d, 3)"
  have plain : trimmed [.reference ⟨"field_1", none⟩] = [.reference ⟨"field_1", none⟩] := rfl
  have inner : trimmed [.literal ' ', .literal '3'] = [.literal '3'] := rfl
  refine ⟨derived, (accepts _).mpr ⟨_, derived, ?_⟩, fun other also => unique _ _ also derived⟩
  simp [tree, argumentTrees, plain, inner, Piece.prepend]

end AppSchema.Formula
