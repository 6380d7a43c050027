/-
**Formulas that are written alike are alike.**

A formula becomes a term of SQL: its texts are literals, its references words, and its calls are
calls. Several pieces in one place are put together by a call that no function is written as.
Nothing of the pieces is lost but where they stand, and terms are read in one way, so two formulas
with the same SQL have the same pieces.

* `Formula.terms`: the terms of pieces;
* `Formula.Distinguishes`: a resolver that never fails, with another column for each reference;
* `Distinguishes.expressions`: the evaluation of pieces writes their terms;
* `Distinguishes.forgetOffsets_eq`: pieces with the same terms are the same up to offsets;
* `Formula.forgetOffsets_of_sql`: so are formulas with the same SQL.
-/

import AppSchema.Proofs.Formula.Form
import AppSchema.Proofs.Formula.Printer

namespace AppSchema

open Sql

/-! ### Counts -/

theorem Text.mem_of_isInteger {text : List Char} (integer : Text.isInteger text = true) :
    ∀ char ∈ text, (char.isDigit || char == '+' || char == '-') = true := by
  have digits : ∀ char ∈ Text.unsigned text, char.isDigit = true := by
    obtain ⟨digits, _⟩ := Bool.and_eq_true_iff.mp integer
    exact List.all_eq_true.mp (Bool.and_eq_true_iff.mp digits).2
  intro char member
  unfold Text.unsigned at digits
  split at digits
  · rcases List.mem_cons.mp member with rfl | inside
    · rfl
    · rw [digits char inside]
      rfl
  · rcases List.mem_cons.mp member with rfl | inside
    · rfl
    · rw [digits char inside]
      rfl
  · rw [digits char member]
    rfl

namespace Formula

open Piece (SoundArgument forgetEach forgetOffsets)

/-- **An argument that is a count** is the text of it. -/
theorem eq_of_count? {argument : List Piece} (sound : SoundArgument argument) {count : String}
    (counted : count? argument = some count) :
    argument = [.text count.toList] ∧ Text.isInteger count.toList = true := by
  unfold count? at counted
  split at counted
  · rename_i chars
    split at counted
    · rename_i integer
      cases counted
      have bare : filled [.text (Text.trim chars)] = [.text chars] := sound.bare
      have same : Text.trim chars = chars := by
        cases trimmed : Text.trim chars with
        | nil => simp [trimmed, filled, Piece.isEmptyText] at bare
        | cons first rest => simpa [trimmed, filled, Piece.isEmptyText] using bare
      rw [same] at integer ⊢
      rw [String.toList_ofList]
      exact ⟨rfl, integer⟩
    · cases counted
  · cases counted

theorem eq_of_counts {argument : List Piece} (sound : SoundArgument argument) {counted : Bool}
    {count : String} (counts : (if counted then count? argument else none) = some count) :
    argument = [.text count.toList] ∧ Text.isInteger count.toList = true := by
  cases counted with
  | true => exact eq_of_count? sound counts
  | false => cases counts

/-! ### Terms of pieces -/

section

variable (name : FieldRef → String)

mutual

/-- The term of a piece, where references have names. -/
def termOf : Piece → Term
  | .text chars => .literal chars
  | .field ref => .word (name ref).toList
  | .call function arguments _ => function.term (argumentTerms function.takesCount arguments)

/-- **The terms of pieces.** -/
def terms : List Piece → List Term
  | [] => []
  | piece :: rest => termOf piece :: terms rest

/-- The terms of arguments. `counted` says that the second is a count. -/
def argumentTerms (counted : Bool) : List (List Piece) → List Term
  | [] => []
  | first :: rest => .single (terms first) :: laterTerms counted rest

/-- The terms of the arguments behind the first. -/
def laterTerms (counted : Bool) : List (List Piece) → List Term
  | [] => []
  | argument :: rest =>
    (match if counted then count? argument else none with
      | some count => .word count.toList
      | none => .single (terms argument)) :: laterTerms false rest

end

theorem terms_eq_map (pieces : List Piece) : terms name pieces = pieces.map (termOf name) := by
  induction pieces with
  | nil => rfl
  | cons piece rest ih => rw [terms, ih, List.map_cons]

theorem length_laterTerms (counted : Bool) (arguments : List (List Piece)) :
    (laterTerms name counted arguments).length = arguments.length := by
  induction arguments generalizing counted with
  | nil => rfl
  | cons argument rest ih => rw [laterTerms, List.length_cons, ih, List.length_cons]

theorem length_argumentTerms (counted : Bool) (arguments : List (List Piece)) :
    (argumentTerms name counted arguments).length = arguments.length := by
  cases arguments with
  | nil => rfl
  | cons argument rest =>
    rw [argumentTerms, List.length_cons, length_laterTerms, List.length_cons]

theorem terms_ne_nil {pieces : List Piece} (some : pieces ≠ []) : terms name pieces ≠ [] := by
  rwa [terms_eq_map, ne_eq, List.map_eq_nil_iff]

/-- **No piece puts others together.** -/
theorem not_isConcat (pieces : List Piece) : ∀ term ∈ terms name pieces, ¬ term.IsConcat := by
  rw [terms_eq_map]
  refine List.forall_mem_map.mpr fun piece _ => ?_
  cases piece with
  | text chars => nofun
  | field ref => nofun
  | call function arguments offset => exact function.not_isConcat_term _

/-- Pieces are known by their terms from what they are together. -/
theorem terms_eq_of_single {pieces pieces' : List Piece} (some : pieces ≠ []) (some' : pieces' ≠ [])
    (same : Term.single (terms name pieces) = .single (terms name pieces')) :
    terms name pieces = terms name pieces' :=
  Term.single_injective (not_isConcat name pieces) (not_isConcat name pieces')
    (terms_ne_nil name some) (terms_ne_nil name some') same

/-- Pieces that are one word together are a reference. -/
theorem eq_field_of_single {pieces : List Piece} {word : List Char}
    (same : .word word = Term.single (terms name pieces)) :
    ∃ ref, pieces = [.field ref] ∧ word = (name ref).toList := by
  match pieces with
  | [] => cases same
  | [.text chars] => cases same
  | [.field ref] => exact ⟨ref, rfl, Term.word.inj same⟩
  | [.call function arguments offset] => cases same
  | first :: second :: rest => cases same

end

/-! ### Resolvers -/

/-- An identifier: letters, digits and underscores. -/
def IsIdentifier (text : String) : Prop :=
  text ≠ "" ∧ text.toList.all Text.isWordChar = true

/-- **A resolver that distinguishes references.** It never fails, in whatever state it is, and for
every reference that can be written it gives a column with a qualifier, each another one. -/
structure Distinguishes {σ : Type} (resolve : Resolver σ) (name : FieldRef → String) : Prop where
  resolves : ∀ ref : FieldRef, ref.Writable → ∀ state, ∃ expr next,
    resolve ref state = .ok (expr, next) ∧ expr.sql = name ref
  qualified : ∀ ref : FieldRef, ref.Writable → ∃ qualifier column,
    name ref = qualifier ++ "." ++ column ∧ IsIdentifier qualifier ∧ IsIdentifier column
  injective : ∀ ref other : FieldRef, ref.Writable → other.Writable → name ref = name other →
    ref = other

namespace Distinguishes

variable {σ : Type} {resolve : Resolver σ} {name : FieldRef → String}

theorem all_isLetter_name (distinct : Distinguishes resolve name) {ref : FieldRef}
    (writable : ref.Writable) : (name ref).toList.all isLetter = true := by
  obtain ⟨qualifier, column, named, ⟨_, front⟩, _, back⟩ := distinct.qualified ref writable
  have letters : ∀ text : List Char, text.all Text.isWordChar = true →
      text.all isLetter = true := by
    intro text words
    exact List.all_eq_true.mpr fun char member =>
      isLetter_of (List.all_eq_true.mp words char member) (by decide)
  rw [named, String.toList_append, String.toList_append, List.all_append, List.all_append,
    letters _ front, letters _ back]
  rfl

/-- **No reference has the name of a count**: there is a period in it. -/
theorem name_ne_count (distinct : Distinguishes resolve name) {ref : FieldRef}
    (writable : ref.Writable) {count : List Char} (integer : Text.isInteger count = true) :
    (name ref).toList ≠ count := by
  rintro rfl
  obtain ⟨qualifier, column, named, _⟩ := distinct.qualified ref writable
  have period : '.' ∈ (name ref).toList := by
    simp [named]
  exact absurd (Text.mem_of_isInteger integer '.' period) (by decide)

/-- **No count is written as pieces are.** -/
theorem word_ne_single (distinct : Distinguishes resolve name) {argument : List Piece}
    (sound : SoundArgument argument) {count : List Char} (integer : Text.isInteger count = true) :
    Term.word count ≠ .single (terms name argument) := by
  intro same
  obtain ⟨ref, rfl, named⟩ := eq_field_of_single name same
  obtain ⟨here, _⟩ := List.forall_mem_cons.mp sound.inside
  cases here with
  | field writable => exact distinct.name_ne_count writable integer named.symm

mutual

/-- The term of a sound piece is readable. -/
theorem readable_termOf (distinct : Distinguishes resolve name) (piece : Piece)
    (sound : piece.Sound) : (termOf name piece).Readable := by
  match piece with
  | .text chars => trivial
  | .field ref =>
    cases sound with
    | field writable => exact distinct.all_isLetter_name writable
  | .call function arguments offset =>
    exact function.readable_term
      (distinct.readable_argumentTerms function.takesCount arguments sound.arguments.2)

/-- **The terms of sound pieces are readable.** -/
theorem readable_terms (distinct : Distinguishes resolve name) (pieces : List Piece)
    (sound : ∀ piece ∈ pieces, piece.Sound) : ∀ term ∈ terms name pieces, term.Readable := by
  match pieces with
  | [] => exact fun _ member => absurd member List.not_mem_nil
  | piece :: rest =>
    obtain ⟨here, others⟩ := List.forall_mem_cons.mp sound
    exact List.forall_mem_cons.mpr
      ⟨distinct.readable_termOf piece here, distinct.readable_terms rest others⟩

theorem readable_argumentTerms (distinct : Distinguishes resolve name) (counted : Bool)
    (arguments : List (List Piece)) (sound : ∀ argument ∈ arguments, SoundArgument argument) :
    ∀ term ∈ argumentTerms name counted arguments, term.Readable := by
  match arguments with
  | [] => exact fun _ member => absurd member List.not_mem_nil
  | first :: rest =>
    obtain ⟨here, others⟩ := List.forall_mem_cons.mp sound
    exact List.forall_mem_cons.mpr
      ⟨Term.readable_single (distinct.readable_terms first here.inside),
        distinct.readable_laterTerms counted rest others⟩

theorem readable_laterTerms (distinct : Distinguishes resolve name) (counted : Bool)
    (arguments : List (List Piece)) (sound : ∀ argument ∈ arguments, SoundArgument argument) :
    ∀ term ∈ laterTerms name counted arguments, term.Readable := by
  match arguments with
  | [] => exact fun _ member => absurd member List.not_mem_nil
  | argument :: rest =>
    obtain ⟨here, others⟩ := List.forall_mem_cons.mp sound
    refine List.forall_mem_cons.mpr ⟨?_, distinct.readable_laterTerms false rest others⟩
    split
    · rename_i count counts
      obtain ⟨_, integer⟩ := eq_of_counts here counts
      exact List.all_eq_true.mpr fun char member =>
        isLetter_of (p := fun other => other.isDigit || other == '+' || other == '-')
          (Text.mem_of_isInteger integer char member) (by decide)
    · exact Term.readable_single (distinct.readable_terms argument here.inside)

end

/-! ### What is written -/

mutual

/-- **The evaluation of pieces writes their terms.** -/
theorem expressions (distinct : Distinguishes resolve name) (pieces : List Piece)
    (sound : ∀ piece ∈ pieces, piece.Sound) {state last : σ} {parts : List Expr}
    (evaluated : Formula.expressions resolve pieces state = .ok (parts, last)) :
    List.Forall₂ Expr.Writes parts (terms name pieces) := by
  match pieces with
  | [] =>
    rw [Formula.expressions] at evaluated
    cases evaluated
    exact .nil
  | .text chars :: rest =>
    obtain ⟨here, others⟩ := List.forall_mem_cons.mp sound
    rw [Formula.expressions, Evaluation.bind_eq_ok] at evaluated
    obtain ⟨behind, between, evaluated, equal⟩ := evaluated
    cases here with
    | text filled =>
      rw [List.isEmpty_eq_false_iff.mpr filled] at equal
      cases equal
      exact .cons (writes_literal chars) (distinct.expressions rest others evaluated)
  | .field ref :: rest =>
    obtain ⟨here, others⟩ := List.forall_mem_cons.mp sound
    rw [Formula.expressions, Evaluation.bind_eq_ok] at evaluated
    obtain ⟨expr, between, resolved, evaluated⟩ := evaluated
    obtain ⟨behind, after, evaluated, equal⟩ := Evaluation.bind_eq_ok.mp evaluated
    cases equal
    cases here with
    | field writable =>
      obtain ⟨_, _, found, named⟩ := distinct.resolves ref writable state
      rw [resolved] at found
      cases found
      exact .cons (congrArg String.toList named) (distinct.expressions rest others evaluated)
  | .call function arguments offset :: rest =>
    obtain ⟨here, others⟩ := List.forall_mem_cons.mp sound
    obtain ⟨arity, each⟩ := here.arguments
    rw [Formula.expressions, Evaluation.bind_eq_ok] at evaluated
    obtain ⟨values, between, inner, evaluated⟩ := evaluated
    obtain ⟨expr, same, applied, evaluated⟩ := Evaluation.bind_eq_ok.mp evaluated
    obtain ⟨value, outcome, equal⟩ := Evaluation.lift_eq_ok.mp applied
    cases equal
    obtain ⟨behind, after, evaluated, equal⟩ := Evaluation.bind_eq_ok.mp evaluated
    cases equal
    have written := distinct.argumentExpressions function.takesCount arguments each inner
    have count := (length_argumentTerms name function.takesCount arguments).trans arity
    exact .cons (Function.writes_apply outcome written count)
      (distinct.expressions rest others evaluated)
termination_by sizeOf pieces

/-- The evaluation of arguments writes their terms. -/
theorem argumentExpressions (distinct : Distinguishes resolve name) (counted : Bool)
    (arguments : List (List Piece)) (sound : ∀ argument ∈ arguments, SoundArgument argument)
    {state last : σ} {parts : List Expr}
    (evaluated : Formula.argumentExpressions resolve counted arguments state = .ok (parts, last)) :
    List.Forall₂ Expr.Writes parts (argumentTerms name counted arguments) := by
  match arguments with
  | [] =>
    rw [Formula.argumentExpressions] at evaluated
    cases evaluated
    exact .nil
  | first :: rest =>
    obtain ⟨here, others⟩ := List.forall_mem_cons.mp sound
    rw [Formula.argumentExpressions, Evaluation.bind_eq_ok] at evaluated
    obtain ⟨values, between, inner, evaluated⟩ := evaluated
    obtain ⟨behind, after, evaluated, equal⟩ := Evaluation.bind_eq_ok.mp evaluated
    cases equal
    exact .cons (writes_single (distinct.expressions first here.inside inner))
      (distinct.laterExpressions counted rest others evaluated)
termination_by sizeOf arguments

/-- The evaluation of the arguments behind the first writes their terms. -/
theorem laterExpressions (distinct : Distinguishes resolve name) (counted : Bool)
    (arguments : List (List Piece)) (sound : ∀ argument ∈ arguments, SoundArgument argument)
    {state last : σ} {parts : List Expr}
    (evaluated : Formula.laterExpressions resolve counted arguments state = .ok (parts, last)) :
    List.Forall₂ Expr.Writes parts (laterTerms name counted arguments) := by
  match arguments with
  | [] =>
    rw [Formula.laterExpressions] at evaluated
    cases evaluated
    exact .nil
  | argument :: rest =>
    obtain ⟨here, others⟩ := List.forall_mem_cons.mp sound
    rw [Formula.laterExpressions] at evaluated
    rw [laterTerms]
    -- A count is evaluated to itself, whatever the resolver; only the second argument may be one.
    cases counts : (if counted then count? argument else none) with
    | some count =>
      simp only [counts] at evaluated
      obtain ⟨expr, between, inner, evaluated⟩ := Evaluation.bind_eq_ok.mp evaluated
      obtain ⟨behind, after, evaluated, equal⟩ := Evaluation.bind_eq_ok.mp evaluated
      cases inner
      cases equal
      have written : (Expr.raw count).Writes (.word count.toList) := by
        rw [Expr.Writes, Expr.sql]
        rfl
      exact .cons written (distinct.laterExpressions false rest others evaluated)
    | none =>
      simp only [counts, map_eq_pure_bind] at evaluated
      obtain ⟨expr, between, inner, evaluated⟩ := Evaluation.bind_eq_ok.mp evaluated
      obtain ⟨values, same, inner, equal⟩ := Evaluation.bind_eq_ok.mp inner
      cases equal
      obtain ⟨behind, after, evaluated, equal⟩ := Evaluation.bind_eq_ok.mp evaluated
      cases equal
      exact .cons (writes_single (distinct.expressions argument here.inside inner))
        (distinct.laterExpressions false rest others evaluated)
termination_by sizeOf arguments

end

/-! ### What is known from terms -/

mutual

/-- A piece is known from its term, but not where it stands. -/
theorem forgetOffset_eq (distinct : Distinguishes resolve name) (piece piece' : Piece)
    (sound : piece.Sound) (sound' : piece'.Sound) (same : termOf name piece = termOf name piece') :
    piece.forgetOffset = piece'.forgetOffset := by
  match piece, piece' with
  | .text chars, .text chars' => exact congrArg Piece.text (Term.literal.inj same)
  | .field ref, .field ref' =>
    cases sound with
    | field writable =>
      cases sound' with
      | field writable' =>
        have names := String.toList_inj.mp (Term.word.inj same)
        rw [distinct.injective ref ref' writable writable' names]
  | .call function arguments offset, .call function' arguments' offset' =>
    obtain ⟨arity, each⟩ := sound.arguments
    obtain ⟨arity', each'⟩ := sound'.arguments
    obtain ⟨rfl, inside⟩ := Function.term_injective ((length_argumentTerms name _ _).trans arity)
      ((length_argumentTerms name _ _).trans arity') same
    rw [Piece.forgetOffset, Piece.forgetOffset,
      distinct.forgetEach_eq _ arguments arguments' each each' inside]
  | .text _, .field _ | .text _, .call _ _ _ | .field _, .text _ | .field _, .call _ _ _
  | .call _ _ _, .text _ | .call _ _ _, .field _ => cases same
termination_by structural piece

/-- **Pieces with the same terms are the same up to offsets.** -/
theorem forgetOffsets_eq (distinct : Distinguishes resolve name) (pieces pieces' : List Piece)
    (sound : ∀ piece ∈ pieces, piece.Sound) (sound' : ∀ piece ∈ pieces', piece.Sound)
    (same : terms name pieces = terms name pieces') :
    forgetOffsets pieces = forgetOffsets pieces' := by
  match pieces, pieces' with
  | [], [] => rfl
  | [], _ :: _ | _ :: _, [] => cases same
  | piece :: rest, piece' :: rest' =>
    obtain ⟨here, others⟩ := List.forall_mem_cons.mp sound
    obtain ⟨here', others'⟩ := List.forall_mem_cons.mp sound'
    obtain ⟨first, later⟩ := List.cons.inj same
    rw [forgetOffsets, forgetOffsets, distinct.forgetOffset_eq piece piece' here here' first,
      distinct.forgetOffsets_eq rest rest' others others' later]
termination_by structural pieces

/-- Arguments with the same terms are the same up to offsets. -/
theorem forgetEach_eq (distinct : Distinguishes resolve name) (counted : Bool)
    (arguments arguments' : List (List Piece))
    (sound : ∀ argument ∈ arguments, SoundArgument argument)
    (sound' : ∀ argument ∈ arguments', SoundArgument argument)
    (same : argumentTerms name counted arguments = argumentTerms name counted arguments') :
    forgetEach arguments = forgetEach arguments' := by
  match arguments, arguments' with
  | [], [] => rfl
  | [], _ :: _ | _ :: _, [] => cases same
  | first :: rest, first' :: rest' =>
    obtain ⟨here, others⟩ := List.forall_mem_cons.mp sound
    obtain ⟨here', others'⟩ := List.forall_mem_cons.mp sound'
    obtain ⟨firsts, later⟩ := List.cons.inj same
    have parts := terms_eq_of_single name here.content here'.content firsts
    rw [forgetEach, forgetEach,
      distinct.forgetOffsets_eq first first' here.inside here'.inside parts,
      distinct.forgetEach_later_eq counted rest rest' others others' later]
termination_by structural arguments

theorem forgetEach_later_eq (distinct : Distinguishes resolve name) (counted : Bool)
    (arguments arguments' : List (List Piece))
    (sound : ∀ argument ∈ arguments, SoundArgument argument)
    (sound' : ∀ argument ∈ arguments', SoundArgument argument)
    (same : laterTerms name counted arguments = laterTerms name counted arguments') :
    forgetEach arguments = forgetEach arguments' := by
  match arguments, arguments' with
  | [], [] => rfl
  | [], _ :: _ | _ :: _, [] => cases same
  | argument :: rest, argument' :: rest' =>
    obtain ⟨here, others⟩ := List.forall_mem_cons.mp sound
    obtain ⟨here', others'⟩ := List.forall_mem_cons.mp sound'
    obtain ⟨firsts, later⟩ := List.cons.inj same
    have first : forgetOffsets argument = forgetOffsets argument' := by
      -- A count is a word, and so is a reference alone, but a reference has a period in its name.
      cases counts : (if counted then count? argument else none) with
      | some count =>
        cases counts' : (if counted then count? argument' else none) with
        | some count' =>
          simp only [counts, counts'] at firsts
          obtain rfl := String.toList_inj.mp (Term.word.inj firsts)
          rw [(eq_of_counts here counts).1, (eq_of_counts here' counts').1]
        | none =>
          simp only [counts, counts'] at firsts
          exact absurd firsts (distinct.word_ne_single here' (eq_of_counts here counts).2)
      | none =>
        cases counts' : (if counted then count? argument' else none) with
        | some count' =>
          simp only [counts, counts'] at firsts
          exact absurd firsts.symm (distinct.word_ne_single here (eq_of_counts here' counts').2)
        | none =>
          simp only [counts, counts'] at firsts
          have parts := terms_eq_of_single name here.content here'.content firsts
          exact distinct.forgetOffsets_eq argument argument' here.inside here'.inside parts
    rw [forgetEach, forgetEach, first,
      distinct.forgetEach_later_eq false rest rest' others others' later]
termination_by structural arguments

end

end Distinguishes

/-- **Formulas with the same SQL are the same up to offsets.** Two formulas that are read from any
texts and evaluated by a resolver that distinguishes references, in any states, have the same pieces
if they are written alike. -/
theorem forgetOffsets_of_sql {σ : Type} {resolve : Resolver σ} {name : FieldRef → String}
    (distinct : Distinguishes resolve name) {key key' source source' : String}
    {pieces pieces' : List Piece} (parsed : parse key source = .ok pieces)
    (parsed' : parse key' source' = .ok pieces') {start start' last last' : σ}
    {parts parts' : List Expr} (evaluated : expressions resolve pieces start = .ok (parts, last))
    (evaluated' : expressions resolve pieces' start' = .ok (parts', last'))
    (same : (Expr.concat parts).sql = (Expr.concat parts').sql) :
    forgetOffsets pieces = forgetOffsets pieces' := by
  have sound := Piece.sound_of_parse parsed
  have sound' := Piece.sound_of_parse parsed'
  have written := writes_concat (distinct.expressions pieces sound evaluated)
  have written' := writes_concat (distinct.expressions pieces' sound' evaluated')
  have texts : (Term.concat (terms name pieces)).text ++ [] =
      (Term.concat (terms name pieces')).text ++ [] := by
    rw [List.append_nil, List.append_nil, ← written, ← written', same]
  have stops : Sql.Stops [] := trivial
  obtain ⟨parts, _⟩ := Term.unique (Term.readable_concat (distinct.readable_terms pieces sound))
    (Term.readable_concat (distinct.readable_terms pieces' sound')) stops stops texts
  exact distinct.forgetOffsets_eq pieces pieces' sound sound' (Term.concat_injective parts)

/-! ### A resolver -/

theorem isWordChar_of_isDigit {char : Char} (digit : char.isDigit = true) :
    Text.isWordChar char = true := by
  simp only [Char.isDigit, Bool.and_eq_true, decide_eq_true_eq] at digit
  have above : 0x30 ≤ char.toNat := UInt32.le_iff_toNat_le.mp digit.1
  have below : char.toNat ≤ 0x39 := UInt32.le_iff_toNat_le.mp digit.2
  have alphanumeric : Text.isAlphanumeric char = true :=
    Text.isAlphanumeric_iff.mpr ⟨(0x30, 0x39), List.mem_cons_self, above, below⟩
  rw [Text.isWordChar, alphanumeric, Bool.true_or]

theorem IsKey.isIdentifier {key : String} (written : IsKey key) : IsIdentifier key := by
  obtain ⟨digits, _, all, spelled⟩ := written
  refine ⟨?_, ?_⟩
  · rintro rfl
    cases spelled
  · have front : "field_".toList.all Text.isWordChar = true := by decide
    rw [spelled, List.all_append, front, Bool.true_and, List.all_eq_true]
    exact fun digit member => isWordChar_of_isDigit (all digit member)

/-- A qualified name has one qualifier. -/
theorem IsIdentifier.qualified_unique {qualifier qualifier' column column' : String}
    (front : IsIdentifier qualifier) (front' : IsIdentifier qualifier')
    (same : qualifier ++ "." ++ column = qualifier' ++ "." ++ column') :
    qualifier = qualifier' ∧ column = column' := by
  have split : qualifier.toList ++ '.' :: column.toList =
      qualifier'.toList ++ '.' :: column'.toList := by
    simpa using congrArg String.toList same
  obtain ⟨words, behind⟩ := Sql.word_unique (p := Text.isWordChar) front.2 rfl front'.2 rfl split
  exact ⟨String.toList_inj.mp words, String.toList_inj.mp (List.cons.inj behind).2⟩

/-- A column of books, or of what a connection leads to, under the key of the field. -/
def bookColumn (ref : FieldRef) : Sql.ColumnRef :=
  ⟨ref.via.getD "book", ref.field⟩

/-- References of books as these columns. -/
def resolveBook : Resolver Unit := fun ref => pure (.column (bookColumn ref))

theorem distinguishes_resolveBook :
    Distinguishes resolveBook fun ref => (bookColumn ref).sql := by
  have qualifier : ∀ ref : FieldRef, ref.Writable → IsIdentifier (ref.via.getD "book") := by
    rintro ⟨field, _ | via⟩ ⟨_, written⟩
    · have book : IsIdentifier "book" := ⟨by decide, by decide⟩
      exact book
    · exact (written via rfl).isIdentifier
  refine ⟨fun ref _ state => ⟨_, state, rfl, ?_⟩, fun ref writable => ?_, ?_⟩
  · rw [Expr.sql]
  · exact ⟨_, _, rfl, qualifier ref writable, writable.1.isIdentifier⟩
  · intro ref other writable writable' same
    obtain ⟨front, back⟩ :=
      (qualifier ref writable).qualified_unique (qualifier other writable') same
    have noKey : ¬ IsKey "book" := by
      rintro ⟨digits, _, _, spelled⟩
      cases spelled
    obtain ⟨field, via⟩ := ref
    obtain ⟨field', via'⟩ := other
    obtain rfl : field = field' := back
    cases via with
    | none =>
      cases via' with
      | none => rfl
      | some key =>
        obtain rfl : "book" = key := front
        exact absurd (writable'.2 _ rfl) noKey
    | some key =>
      cases via' with
      | none =>
        obtain rfl : key = "book" := front
        exact absurd (writable.2 _ rfl) noKey
      | some key' =>
        obtain rfl : key = key' := front
        rfl

/-- The SQL of a formula of books. -/
def bookSql? (source : String) : Option String :=
  (parse "field_9" source).toOption.bind fun pieces =>
    (expressions resolveBook pieces ()).toOption.map fun result => (Expr.concat result.1).sql

theorem exists_of_bookSql? {source sql : String} (written : bookSql? source = some sql) :
    ∃ pieces parts last, parse "field_9" source = .ok pieces ∧
      expressions resolveBook pieces () = .ok (parts, last) ∧ (Expr.concat parts).sql = sql := by
  obtain ⟨pieces, parsed, written⟩ := Option.bind_eq_some_iff.mp written
  obtain ⟨⟨parts, last⟩, evaluated, rfl⟩ := Option.map_eq_some_iff.mp written
  exact ⟨pieces, parts, last, toOption_eq_some.mp parsed, toOption_eq_some.mp evaluated, rfl⟩

/-- Blanks around arguments are not written, and move the calls behind them. -/
theorem forgetOffsets_of_sql_left :
    ∃ pieces pieces', parse "field_9" "upper(left(\x7bfield_1\x7d, 3))" = .ok pieces ∧
      parse "field_9" "upper( left( \x7bfield_1\x7d ,3 ) )" = .ok pieces' ∧
      bookSql? "upper(left(\x7bfield_1\x7d, 3))" = some "CONCAT(UPPER(LEFT(book.field_1, 3)))" ∧
      bookSql? "upper( left( \x7bfield_1\x7d ,3 ) )" =
        some "CONCAT(UPPER(LEFT(book.field_1, 3)))" ∧
      forgetOffsets pieces = forgetOffsets pieces' := by
  have tight : bookSql? "upper(left(\x7bfield_1\x7d, 3))" =
      some "CONCAT(UPPER(LEFT(book.field_1, 3)))" := by
    decide +kernel
  have loose : bookSql? "upper( left( \x7bfield_1\x7d ,3 ) )" =
      some "CONCAT(UPPER(LEFT(book.field_1, 3)))" := by
    decide +kernel
  obtain ⟨pieces, parts, last, parsed, evaluated, written⟩ := exists_of_bookSql? tight
  obtain ⟨pieces', parts', last', parsed', evaluated', written'⟩ := exists_of_bookSql? loose
  exact ⟨pieces, pieces', parsed, parsed', tight, loose, forgetOffsets_of_sql
    distinguishes_resolveBook parsed parsed' evaluated evaluated' (written.trans written'.symm)⟩

end Formula

end AppSchema
