/-
**Where the parser of formulas stands.**

The parser counts the bytes of what it has read, and cuts the formula at that count. Here reading is
a walk over tasks, a sequence or the arguments of a call from a position on, each of which asks for
the next ones at positions further behind.

* `Cursor.Splits`: a position between two parts of a source; a source can be cut there
  (`Splits.isCut`), and also some characters behind it (`Splits.skip`);
* `Task.Asks.splits`: asking keeps positions between two parts of the source;
* `Task.wellFounded_asks`: no task asks on and on;
* `Task.exists_of_fails`: a task that fails does so at the position of a task that it asks for;
* `Cuts.isCut`: whatever the parser cuts, it cuts between two characters.
-/

import Mathlib.Logic.Relation
import AppSchema.Proofs.Formula.Parser

namespace AppSchema.Formula

open Grammar

/-! ### Cuts -/

/-- **An offset at which a source can be cut**: within the source, and on a boundary of its
characters. -/
def IsCut (source : String) (offset : Nat) : Prop :=
  offset ≤ source.utf8ByteSize ∧ String.Pos.Raw.IsValid source ⟨offset⟩

namespace Cursor

theorem bytes_eq_utf8ByteSize (chars : List Char) :
    bytes chars = (String.ofList chars).utf8ByteSize := by
  induction chars with
  | nil => rfl
  | cons char chars ih =>
    rw [String.ofList_cons, String.utf8ByteSize_append, String.utf8ByteSize_singleton, ← ih]
    rfl

theorem bytes_toList (text : String) : bytes text.toList = text.utf8ByteSize := by
  rw [bytes_eq_utf8ByteSize, String.ofList_toList]

theorem bytes_opening (function : Function) :
    bytes (opening function) = function.name.utf8ByteSize + 1 := by
  rw [opening, bytes_append, bytes_toList]
  rfl

/-- Characters of ASCII have a byte each. -/
theorem bytes_of_ascii {chars : List Char} (ascii : ∀ char ∈ chars, char.utf8Size = 1) :
    bytes chars = chars.length := by
  induction chars with
  | nil => rfl
  | cons char chars ih =>
    obtain ⟨first, others⟩ := List.forall_mem_cons.mp ascii
    change char.utf8Size + bytes chars = chars.length + 1
    rw [first, ih others, Nat.add_comm]

/-- **A position between two parts of a source.** -/
def Splits (source : String) (cursor : Cursor) : Prop :=
  ∃ before behind, source.toList = before ++ behind ∧ cursor = .between before behind

theorem splits_start (source : String) : Splits source (.start source) :=
  ⟨[], source.toList, rfl, rfl⟩

variable {source : String} {cursor : Cursor}

/-- **Behind some characters, a position is between two parts of the source again.** -/
theorem Splits.skip (splits : Splits source cursor) (count : Nat) :
    Splits source (cursor.skip count) := by
  obtain ⟨before, behind, whole, rfl⟩ := splits
  refine ⟨before ++ behind.take count, behind.drop count, ?_, ?_⟩
  · rw [whole, List.append_assoc, List.take_append_drop]
  · simp [Cursor.skip, between, bytes_append, List.getLast?_append]

/-- A position splits a source anew behind a text that follows it. -/
theorem Splits.behind (splits : Splits source cursor) {text rest : List Char}
    (follows : cursor.rest = text ++ rest) :
    Splits source ⟨cursor.offset + bytes text, text.getLast?.or cursor.previous, rest⟩ := by
  have moved := splits.skip text.length
  rwa [Cursor.skip, follows, List.take_left, List.drop_left] at moved

/-- **Between two parts, a source can be cut.** -/
theorem Splits.isCut (splits : Splits source cursor) : IsCut source cursor.offset := by
  obtain ⟨before, behind, whole, rfl⟩ := splits
  have cut : source = String.ofList before ++ String.ofList behind := by
    rw [← String.ofList_append, ← whole, String.ofList_toList]
  have stands : (between before behind).offset = (String.ofList before).utf8ByteSize :=
    bytes_eq_utf8ByteSize before
  constructor
  · rw [stands, cut, String.utf8ByteSize_append]
    exact Nat.le_add_right _ _
  · rw [stands]
    exact String.Pos.Raw.isValid_iff_exists_append.mpr ⟨_, _, cut, rfl⟩

/-- Behind what the parser reads, a position is between two parts of the source again. -/
theorem Splits.of_reads {field : String} {ending : Ending} {pieces : List Piece} {last : Cursor}
    (splits : Splits source cursor) (reads : ReadsPieces field ending cursor pieces last) :
    Splits source last := by
  obtain ⟨before, input, whole, rfl⟩ := splits
  obtain ⟨items, behind, rfl, rfl, -, -⟩ := Begins.of_reads reads
  exact ⟨before ++ text items, behind, by rw [whole, List.append_assoc], rfl⟩

theorem Splits.of_readsArguments {field : String} {function : Function}
    {arguments : List (List Piece)} {last : Cursor} (splits : Splits source cursor)
    (reads : ReadsArguments field function 1 cursor arguments last) : Splits source last := by
  obtain ⟨before, input, whole, rfl⟩ := splits
  obtain ⟨items, behind, rfl, rfl, -, -, -⟩ := arguments_of_reads function.arity_pos reads
  exact ⟨before ++ argumentsText items, behind, by rw [whole, List.append_assoc], rfl⟩

theorem Splits.opening_prefix {function : Function} (splits : Splits source cursor)
    (called : cursor.call? = some function) : opening function <+: cursor.rest := by
  obtain ⟨before, behind, whole, rfl⟩ := splits
  exact (call?_between.mp called).2

end Cursor

/-! ### Tasks -/

/-- What the parser has to read from a position on. -/
inductive Task
  | sequence (ending : Ending) (cursor : Cursor)
  /-- The arguments of a call, from one of them on, which is counted from one. -/
  | arguments (function : Function) (position : Nat) (cursor : Cursor)

namespace Task

/-- The position of a task. -/
def cursor : Task → Cursor
  | sequence _ cursor => cursor
  | arguments _ _ cursor => cursor

/-- Reading fails. -/
def Fails (field : String) (fault : Fault) : Task → Prop
  | sequence ending cursor => parsePieces field ending cursor = .error fault
  | arguments function position cursor =>
    parseArguments field function position cursor = .error fault

/-- **The tasks that a task asks for.** A sequence asks for the arguments of the call that begins it
and for the sequence behind its first item; arguments ask for the first of them as a sequence and
for those behind it. -/
inductive Asks (field : String) : Task → Task → Prop
  | call {ending : Ending} {cursor : Cursor} {char : Char} {rest : List Char} {function : Function}
      (next : cursor.rest = char :: rest) (allowed : Allowed ending char)
      (called : cursor.call? = some function) :
      Asks field (sequence ending cursor)
        (arguments function 1 (cursor.skip (function.name.length + 1)))
  | behindCall {ending : Ending} {cursor behind : Cursor} {char : Char} {rest : List Char}
      {function : Function} {trees : List (List Piece)}
      (next : cursor.rest = char :: rest) (allowed : Allowed ending char)
      (called : cursor.call? = some function)
      (read : ReadsArguments field function 1 (cursor.skip (function.name.length + 1)) trees
        behind) :
      Asks field (sequence ending cursor) (sequence ending behind)
  | behindReference {ending : Ending} {cursor : Cursor} {char : Char} {rest : List Char}
      {ref : FieldRef} {count : Nat}
      (next : cursor.rest = char :: rest) (allowed : Allowed ending char)
      (noCall : cursor.call? = none) (scanned : FieldRef.scan? cursor.rest = some (ref, count)) :
      Asks field (sequence ending cursor) (sequence ending (cursor.skip count))
  | behindLiteral {ending : Ending} {cursor : Cursor} {char : Char} {rest : List Char}
      (next : cursor.rest = char :: rest) (allowed : Allowed ending char)
      (noCall : cursor.call? = none) (noReference : FieldRef.scan? cursor.rest = none) :
      Asks field (sequence ending cursor) (sequence ending (cursor.skip 1))
  | argument {function : Function} {position : Nat} {cursor : Cursor} :
      Asks field (arguments function position cursor)
        (sequence (.ofArgument function position) cursor)
  | nextArgument {function : Function} {position : Nat} {cursor behind : Cursor}
      {pieces : List Piece}
      (read : ReadsPieces field (.ofArgument function position) cursor pieces behind)
      (content : trimArgument pieces ≠ []) (more : position < function.arity) :
      Asks field (arguments function position cursor)
        (arguments function (position + 1) (behind.skip 1))

/-- **The tasks of a formula**: the formula as a sequence, and what is asked for from there. -/
def Reached (field source : String) (task : Task) : Prop :=
  Relation.ReflTransGen (Asks field) (sequence .formula (.start source)) task

variable {field source : String} {task next : Task}

/-! ### A step keeps positions between two parts of the source -/

theorem Asks.splits (asks : Asks field task next) (splits : task.cursor.Splits source) :
    next.cursor.Splits source := by
  cases asks with
  | call _ _ _ => exact splits.skip _
  | behindCall _ _ _ read => exact (splits.skip _).of_readsArguments read
  | behindReference _ _ _ _ => exact splits.skip _
  | behindLiteral _ _ _ _ => exact splits.skip _
  | argument => exact splits
  | nextArgument read _ _ => exact (splits.of_reads read).skip _

theorem Reached.splits (reached : Reached field source task) : task.cursor.Splits source := by
  induction reached with
  | refl => exact Cursor.splits_start source
  | tail _ asks ih => exact asks.splits ih

/-! ### No task asks on and on -/

/-- What a task has left: characters, and arguments of a call. -/
def left : Task → Nat
  | sequence _ cursor => 4 * cursor.rest.length
  | arguments _ position cursor => 4 * cursor.rest.length + 1 + (2 - position)

theorem Asks.left_lt (asks : Asks field task next) : next.left < task.left := by
  have shorter {cursor : Cursor} {char : Char} {rest : List Char} {count : Nat}
      (next : cursor.rest = char :: rest) (positive : 0 < count) :
      (cursor.skip count).rest.length < cursor.rest.length :=
    cursor.skip_length_lt (by rw [next]; exact List.cons_ne_nil _ _) positive
  cases asks with
  | @call _ _ _ _ function next _ _ =>
    have positive : 0 < function.name.length + 1 := Nat.succ_pos _
    have := shorter next positive
    simp only [left]
    omega
  | @behindCall _ _ _ _ _ function _ next _ _ read =>
    obtain ⟨shortest, _⟩ := read
    have positive : 0 < function.name.length + 1 := Nat.succ_pos _
    have := shorter next positive
    simp only at shortest
    simp only [left]
    omega
  | behindReference next _ _ scanned =>
    have := shorter next (FieldRef.scan?_positive scanned)
    simp only [left]
    omega
  | behindLiteral next _ _ _ =>
    have := shorter next Nat.one_pos
    simp only [left]
    omega
  | argument =>
    simp only [left]
    omega
  | @nextArgument function position _ behind _ read _ more =>
    obtain ⟨shortest, _⟩ := read
    have := behind.skip_length_le 1
    have := function.arity_le_two
    simp only at shortest
    simp only [left]
    omega

/-- **No task asks on and on.** -/
theorem wellFounded_asks (field : String) :
    WellFounded fun next task => Asks field task next :=
  Subrelation.wf (fun asks => asks.left_lt) (InvImage.wf left Nat.lt_wfRel.wf)

/-! ### Failures -/

/-- A sequence fails at its position, or where a task that it asks for fails. -/
theorem Fails.sequence_cases {ending : Ending} {cursor : Cursor} {fault : Fault}
    (fails : Fails field fault (sequence ending cursor)) :
    (∃ problem, fault = .malformedFormula field (some cursor.offset) problem) ∨
      ∃ next, Asks field (sequence ending cursor) next ∧ Fails field fault next := by
  change parsePieces field ending cursor = .error fault at fails
  rw [parsePieces] at fails
  split at fails
  · split at fails
    · rename_i problem _
      cases fails
      exact .inl ⟨problem, rfl⟩
    · cases fails
  · rename_i char rest begins
    split at fails
    · cases fails
    · rename_i notMet
      split at fails
      · rename_i problem _
        cases fails
        exact .inl ⟨problem, rfl⟩
      · rename_i admitted
        right
        have allowed : Allowed ending char := allowed_iff.mpr ⟨by simpa using notMet, admitted⟩
        split at fails
        · rename_i function called
          split at fails
          · rename_i inside
            cases fails
            exact ⟨_, .call begins allowed called, inside⟩
          · rename_i trees behind shorter read
            split at fails
            · rename_i later
              cases fails
              exact ⟨_, .behindCall begins allowed called ⟨shorter, read⟩, later⟩
            · cases fails
        · rename_i noCall
          split at fails
          · rename_i ref count scanned
            split at fails
            · rename_i later
              cases fails
              exact ⟨_, .behindReference begins allowed noCall scanned, later⟩
            · cases fails
          · rename_i noReference
            split at fails
            · rename_i later
              cases fails
              exact ⟨_, .behindLiteral begins allowed noCall noReference, later⟩
            · cases fails

/-- Arguments fail at their position, or where a task that they ask for fails. -/
theorem Fails.arguments_cases {function : Function} {position : Nat} {cursor : Cursor}
    {fault : Fault} (fails : Fails field fault (arguments function position cursor)) :
    (∃ problem, fault = .malformedFormula field (some cursor.offset) problem) ∨
      ∃ next, Asks field (arguments function position cursor) next ∧ Fails field fault next := by
  change parseArguments field function position cursor = .error fault at fails
  rw [parseArguments] at fails
  split at fails
  · rename_i inside
    cases fails
    exact .inr ⟨_, .argument, inside⟩
  · rename_i pieces behind shorter read
    split at fails
    · cases fails
      exact .inl ⟨_, rfl⟩
    · rename_i content
      dsimp only at fails
      split at fails
      · rename_i more
        split at fails
        · rename_i later
          cases fails
          exact .inr ⟨_, .nextArgument ⟨shorter, read⟩ (by simpa using content) more, later⟩
        · cases fails
      · cases fails

/-- **A task that fails does so at the position of a task that it asks for**, with a fault of the
formula. The induction is on what tasks ask for, which ends. -/
theorem exists_of_fails {fault : Fault} (fails : Fails field fault task) :
    ∃ failing problem, Relation.ReflTransGen (Asks field) task failing ∧
      fault = .malformedFormula field (some failing.cursor.offset) problem := by
  induction task using (wellFounded_asks field).induction with
  | _ task ih =>
    have own : (∃ problem, fault = .malformedFormula field (some task.cursor.offset) problem) ∨
        ∃ next, Asks field task next ∧ Fails field fault next := by
      cases task with
      | sequence ending cursor => exact fails.sequence_cases
      | arguments function position cursor => exact fails.arguments_cases
    rcases own with ⟨problem, here⟩ | ⟨next, asks, later⟩
    · exact ⟨task, problem, .refl, here⟩
    · obtain ⟨failing, problem, reached, there⟩ := ih next asks later
      exact ⟨failing, problem, .head asks reached, there⟩

end Task

/-- **A formula that cannot be read is malformed** at an offset where it can be cut. -/
theorem exists_of_parse_error {field source : String} {fault : Fault}
    (failed : parse field source = .error fault) :
    ∃ offset problem, fault = .malformedFormula field (some offset) problem ∧
      IsCut source offset := by
  have fails : Task.Fails field fault (.sequence .formula (.start source)) := by
    unfold parse at failed
    split at failed
    · rename_i inner
      cases failed
      exact inner
    · cases failed
  obtain ⟨failing, problem, reached, rfl⟩ := Task.exists_of_fails fails
  exact ⟨_, problem, rfl, (Task.Reached.splits reached).isCut⟩

/-! ### What is cut -/

/-- **The offsets at which the parser cuts a formula**, counted as it counts: at a task; behind the
letters that may be a name; at the brace that may close a reference; and behind what was read, a
name with `(`, a reference, a character, or what ends an argument. -/
inductive Cuts (field source : String) : Nat → Prop
  | here {task : Task} (reached : task.Reached field source) :
      Cuts field source task.cursor.offset
  | letters {task : Task} (reached : task.Reached field source) :
      Cuts field source
        (task.cursor.offset + Cursor.bytes (task.cursor.rest.takeWhile Char.isAlpha))
  | brace {task : Task} {inner : List Char} (reached : task.Reached field source)
      (opened : task.cursor.rest = '\x7b' :: inner) :
      Cuts field source
        (task.cursor.offset + 1 + Cursor.bytes (inner.takeWhile (· != '\x7d')))
  | behindName {task : Task} {function : Function} (reached : task.Reached field source)
      (called : task.cursor.call? = some function) :
      Cuts field source (task.cursor.offset + (function.name.utf8ByteSize + 1))
  | behindReference {task : Task} {ref : FieldRef} {count : Nat}
      (reached : task.Reached field source)
      (scanned : FieldRef.scan? task.cursor.rest = some (ref, count)) :
      Cuts field source (task.cursor.offset + count)
  | behindLiteral {task : Task} {char : Char} {rest : List Char}
      (reached : task.Reached field source) (next : task.cursor.rest = char :: rest) :
      Cuts field source (task.cursor.offset + char.utf8Size)
  | behindArgument {function : Function} {position : Nat} {cursor behind : Cursor}
      {pieces : List Piece}
      (reached : (Task.arguments function position cursor).Reached field source)
      (read : ReadsPieces field (.ofArgument function position) cursor pieces behind) :
      Cuts field source (behind.offset + 1)

theorem utf8Size_of_isDigit {char : Char} (digit : char.isDigit = true) : char.utf8Size = 1 := by
  simp only [Char.isDigit, Bool.and_eq_true, decide_eq_true_eq] at digit
  exact Char.utf8Size_eq_one_iff.mpr (UInt32.le_trans digit.2 (by decide))

theorem IsKey.ascii {key : String} (written : IsKey key) :
    ∀ char ∈ key.toList, char.utf8Size = 1 := by
  obtain ⟨digits, -, all, spelled⟩ := written
  have front : "field_".toList.all (fun char => char.utf8Size == 1) = true := by decide
  rw [spelled]
  exact List.forall_mem_append.mpr
    ⟨fun char member => beq_iff_eq.mp (List.all_eq_true.mp front char member),
      fun digit member => utf8Size_of_isDigit (all digit member)⟩

/-- The characters of a reference have a byte each, so they are as many as its bytes. -/
theorem FieldRef.Writable.ascii {ref : FieldRef} (writable : ref.Writable) :
    ∀ char ∈ ref.text, char.utf8Size = 1 := by
  obtain ⟨written, connection⟩ := writable
  obtain ⟨field, via⟩ := ref
  have closed : ∀ char ∈ field.toList ++ ['\x7d'], char.utf8Size = 1 :=
    List.forall_mem_append.mpr ⟨written.ascii, List.forall_mem_singleton.mpr (by decide)⟩
  cases via with
  | none => exact List.forall_mem_cons.mpr ⟨by decide, closed⟩
  | some via =>
    exact List.forall_mem_cons.mpr ⟨by decide, List.forall_mem_append.mpr
      ⟨(connection via rfl).ascii, List.forall_mem_cons.mpr ⟨by decide, closed⟩⟩⟩

/-- What ends an argument has one byte. -/
theorem exists_of_ends_argument {function : Function} {position : Nat} {behind : List Char}
    (ends : Ends (.ofArgument function position) behind) :
    ∃ char rest, behind = [char] ++ rest ∧ char.utf8Size = 1 := by
  unfold Ending.ofArgument at ends
  split at ends
  · cases ends with
    | comma _ rest => exact ⟨',', rest, rfl, by decide⟩
  · cases ends with
    | close _ rest => exact ⟨')', rest, rfl, by decide⟩

/-- **Whatever the parser cuts, it cuts between two characters.** -/
theorem Cuts.isCut {field source : String} {offset : Nat} (cuts : Cuts field source offset) :
    IsCut source offset := by
  cases cuts with
  | here reached => exact reached.splits.isCut
  | letters reached =>
    exact (reached.splits.behind List.takeWhile_append_dropWhile.symm).isCut
  | @brace task inner reached opened =>
    have follows : task.cursor.rest =
        ('\x7b' :: inner.takeWhile (· != '\x7d')) ++ inner.dropWhile (· != '\x7d') := by
      rw [opened, List.cons_append, List.takeWhile_append_dropWhile]
    rw [Nat.add_assoc]
    exact (reached.splits.behind follows).isCut
  | @behindName task function reached called =>
    obtain ⟨tail, follows⟩ := reached.splits.opening_prefix called
    rw [← Cursor.bytes_opening]
    exact (reached.splits.behind follows.symm).isCut
  | behindReference reached scanned =>
    obtain ⟨writable, ⟨tail, follows⟩, rfl⟩ := FieldRef.of_scan? scanned
    rw [← Cursor.bytes_of_ascii writable.ascii]
    exact (reached.splits.behind follows.symm).isCut
  | @behindLiteral task char rest reached next =>
    exact (reached.splits.behind (show task.cursor.rest = [char] ++ rest from next)).isCut
  | behindArgument reached read =>
    have splits := reached.splits.of_reads read
    obtain ⟨before, input, whole, rfl⟩ := reached.splits
    obtain ⟨items, tail, rfl, rfl, sequence, -⟩ := Begins.of_reads read
    obtain ⟨char, rest, follows, single⟩ := exists_of_ends_argument sequence.ends
    have cut := (splits.behind follows).isCut
    rwa [show Cursor.bytes [char] = 1 from single] at cut

end AppSchema.Formula
