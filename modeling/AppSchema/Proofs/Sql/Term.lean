/-
**Terms are read in one way.**

What a formula becomes in SQL is a term: a word, a literal, or a call with arguments. A literal ends
at the first quote that is not doubled, a call at its `)`, and a word where no letter of a word
stands. So of two terms with the same text each is the other.

* `Term`: words, literals and calls; `Term.text`: what is written for them;
* `Term.Readable`: quotes, parentheses, commas and blanks are in no word;
* `Stops`: what stands behind a term in a text;
* `Term.unique`: a text begins with at most one term that stops;
* `Term.concat`, `Term.single`: one term for several;
* `Term.single_injective`: several terms are known from the one.
-/

import AppSchema.Proofs.Sql.Sealed

namespace AppSchema.Sql

/-- What stands between two arguments. -/
inductive Joint
  | comma
  /-- The pattern of a match stands behind a word. -/
  | pattern
  deriving DecidableEq

/-- The text between two arguments. -/
def Joint.text : Joint → List Char
  | comma => ", ".toList
  | pattern => " FROM ".toList

@[simp] theorem Joint.text_comma : comma.text = ", ".toList := rfl

@[simp] theorem Joint.text_pattern : pattern.text = " FROM ".toList := rfl

mutual

/-- **A term.** -/
inductive Term
  | word (chars : List Char)
  | literal (chars : List Char)
  | call (name : List Char) (first : Term) (others : Others)

/-- The arguments of a call behind its first. -/
inductive Others
  | close
  | next (joint : Joint) (argument : Term) (later : Others)

end

mutual

/-- **The text of a term.** -/
def Term.text : Term → List Char
  | .word chars => chars
  | .literal chars => '\'' :: (chars.flatMap literalChar ++ ['\''])
  | .call name first others => name ++ '(' :: (first.text ++ others.text)

/-- The text behind the first argument of a call. -/
def Others.text : Others → List Char
  | .close => [')']
  | .next joint argument later => joint.text ++ (argument.text ++ later.text)

end

/-- Whether a character can stand in a word. -/
def isLetter (char : Char) : Bool :=
  char != '\'' && char != '(' && char != ')' && char != ',' && char != ' '

/-- What holds of a letter and of no other character makes a letter. -/
theorem isLetter_of {p : Char → Bool} {char : Char} (holds : p char = true)
    (apart : ['\'', '(', ')', ',', ' '].any p = false) : isLetter char = true := by
  have differs : ∀ other ∈ ['\'', '(', ')', ',', ' '], char ≠ other := by
    rintro other member rfl
    exact List.any_eq_false.mp apart char member holds
  simpa [isLetter, and_assoc] using differs

mutual

/-- **A term whose words are words.** -/
def Term.Readable : Term → Prop
  | .word chars => chars.all isLetter = true
  | .literal _ => True
  | .call name first others => name.all isLetter = true ∧ first.Readable ∧ others.Readable

/-- Arguments whose words are words. -/
def Others.Readable : Others → Prop
  | .close => True
  | .next _ argument later => argument.Readable ∧ later.Readable

end

/-! ### Where a term ends -/

/-- **What stands behind a term**: nothing, or a character that ends it. -/
def Stops : List Char → Prop
  | [] => True
  | char :: _ => char = ')' ∨ char = ',' ∨ char = ' '

theorem stops_joint (joint : Joint) (behind : List Char) : Stops (joint.text ++ behind) := by
  cases joint with
  | comma => exact .inr (.inl rfl)
  | pattern => exact .inr (.inr rfl)

theorem Others.stops (others : Others) (behind : List Char) : Stops (others.text ++ behind) := by
  cases others with
  | close => exact .inl rfl
  | next joint argument later =>
    rw [Others.text, List.append_assoc]
    exact stops_joint joint _

namespace Stops

variable {behind : List Char}

/-- No literal and no argument begins where a term stops. -/
theorem ne_cons (stops : Stops behind) {char : Char} (opens : char = '\'' ∨ char = '(')
    (rest : List Char) : behind ≠ char :: rest := by
  rintro rfl
  rcases opens with rfl | rfl <;> rcases stops with same | same | same <;> cases same

theorem head?_ne (stops : Stops behind) : behind.head? ≠ some '\'' := by
  cases behind with
  | nil => nofun
  | cons char rest =>
    rintro ⟨⟩
    exact stops.ne_cons (.inl rfl) rest rfl

/-- No word goes on where a term stops. -/
theorem takeWhile_eq_nil (stops : Stops behind) : behind.takeWhile isLetter = [] := by
  cases behind with
  | nil => rfl
  | cons char rest => rcases stops with rfl | rfl | rfl <;> rfl

end Stops

theorem joint_unique {joint other : Joint} {behind behind' : List Char}
    (same : joint.text ++ behind = other.text ++ behind') : joint = other ∧ behind = behind' := by
  cases joint <;> cases other
  case comma.comma | pattern.pattern => exact ⟨rfl, List.append_cancel_left same⟩
  all_goals cases same

/-! ### Words and literals -/

/-- **A word is all of the letters at the start of a text**, whatever counts as a letter. -/
theorem takeWhile_word {p : Char → Bool} {word behind : List Char} (letters : word.all p = true)
    (ends : behind.takeWhile p = []) : (word ++ behind).takeWhile p = word := by
  rw [List.takeWhile_append_of_pos (List.all_eq_true.mp letters), ends, List.append_nil]

theorem word_unique {p : Char → Bool} {word other behind behind' : List Char}
    (letters : word.all p = true) (ends : behind.takeWhile p = []) (letters' : other.all p = true)
    (ends' : behind'.takeWhile p = []) (same : word ++ behind = other ++ behind') :
    word = other ∧ behind = behind' := by
  have words := congrArg (List.takeWhile p) same
  rw [takeWhile_word letters ends, takeWhile_word letters' ends'] at words
  subst words
  exact ⟨rfl, List.append_cancel_left same⟩

/-- Where a literal or an argument begins, no word stops. -/
theorem word_ne {word name behind : List Char} {char : Char} (letters : word.all isLetter = true)
    (stops : Stops behind) (letters' : name.all isLetter = true)
    (opens : char = '\'' ∨ char = '(') (rest : List Char) :
    word ++ behind ≠ name ++ char :: rest := by
  intro same
  have ends : (char :: rest).takeWhile isLetter = [] := by
    rcases opens with rfl | rfl <;> rfl
  obtain ⟨_, found⟩ := word_unique letters stops.takeWhile_eq_nil letters' ends same
  exact stops.ne_cons opens rest found

/-- **A literal is read in one way**, if no quote stands behind it. -/
theorem literal_unique {chars other behind behind' : List Char} (apart : behind.head? ≠ some '\'')
    (apart' : behind'.head? ≠ some '\'')
    (same : (Term.literal chars).text ++ behind = (Term.literal other).text ++ behind') :
    chars = other ∧ behind = behind' := by
  simp only [Term.text, List.cons_append, List.append_assoc, List.nil_append] at same
  have inner := (List.cons.inj same).2
  have read := congrArg (literalsFrom (some [])) inner
  rw [literalsFrom_flatMap _ _ _ apart, literalsFrom_flatMap _ _ _ apart'] at read
  obtain rfl := (List.cons.inj read).1
  exact ⟨rfl, (List.cons.inj (List.append_cancel_left inner)).2⟩

/-- A literal does not begin as a call does. -/
theorem quote_ne {name : List Char} (letters : name.all isLetter = true) (rest behind : List Char) :
    '\'' :: rest ≠ name ++ '(' :: behind := by
  cases name with
  | nil => nofun
  | cons char others =>
    intro same
    obtain rfl := (List.cons.inj same).1
    cases letters

/-! ### Terms -/

mutual

/-- **A text begins with at most one term that stops.** The letters at its start are a word, the
name of a call, or none in front of a literal; the next character tells which. -/
theorem Term.unique {term other : Term} {behind behind' : List Char} (readable : term.Readable)
    (readable' : other.Readable) (stops : Stops behind) (stops' : Stops behind')
    (same : term.text ++ behind = other.text ++ behind') : term = other ∧ behind = behind' := by
  match term, other with
  | .word chars, .word chars' =>
    obtain ⟨rfl, rest⟩ :=
      word_unique readable stops.takeWhile_eq_nil readable' stops'.takeWhile_eq_nil same
    exact ⟨rfl, rest⟩
  | .literal chars, .literal chars' =>
    obtain ⟨rfl, rest⟩ := literal_unique stops.head?_ne stops'.head?_ne same
    exact ⟨rfl, rest⟩
  | .call name first others, .call name' first' others' =>
    simp only [Term.text, List.cons_append, List.append_assoc] at same
    obtain ⟨rfl, inner⟩ := word_unique readable.1 rfl readable'.1 rfl same
    obtain ⟨rfl, later⟩ := Term.unique readable.2.1 readable'.2.1 (others.stops behind)
      (others'.stops behind') (List.cons.inj inner).2
    obtain ⟨rfl, rest⟩ := Others.unique readable.2.2 readable'.2.2 later
    exact ⟨rfl, rest⟩
  | .word chars, .literal chars' =>
    exact absurd same (word_ne readable stops List.all_nil (.inl rfl) _)
  | .literal chars, .word chars' =>
    exact absurd same.symm (word_ne readable' stops' List.all_nil (.inl rfl) _)
  | .word chars, .call name first others =>
    rw [Term.text, Term.text, List.append_assoc] at same
    exact absurd same (word_ne readable stops readable'.1 (.inr rfl) _)
  | .call name first others, .word chars =>
    rw [Term.text, Term.text, List.append_assoc] at same
    exact absurd same.symm (word_ne readable' stops' readable.1 (.inr rfl) _)
  | .literal chars, .call name first others =>
    rw [Term.text, Term.text, List.append_assoc] at same
    exact absurd same (quote_ne readable'.1 _ _)
  | .call name first others, .literal chars =>
    rw [Term.text, Term.text, List.append_assoc] at same
    exact absurd same.symm (quote_ne readable.1 _ _)
termination_by structural term

/-- Arguments end at their `)`, whatever stands behind it. -/
theorem Others.unique {others others' : Others} {behind behind' : List Char}
    (readable : others.Readable) (readable' : others'.Readable)
    (same : others.text ++ behind = others'.text ++ behind') :
    others = others' ∧ behind = behind' := by
  match others, others' with
  | .close, .close => exact ⟨rfl, (List.cons.inj same).2⟩
  | .next joint argument later, .next joint' argument' later' =>
    simp only [Others.text, List.append_assoc] at same
    obtain ⟨rfl, inner⟩ := joint_unique same
    obtain ⟨rfl, others⟩ := Term.unique readable.1 readable'.1 (later.stops behind)
      (later'.stops behind') inner
    obtain ⟨rfl, rest⟩ := Others.unique readable.2 readable'.2 others
    exact ⟨rfl, rest⟩
  | .close, .next joint argument later => cases joint <;> cases same
  | .next joint argument later, .close => cases joint <;> cases same
termination_by structural others

end

/-! ### Terms of several parts -/

/-- Arguments behind the first, all with the same between them. -/
def Others.ofList (joint : Joint) : List Term → Others
  | [] => .close
  | term :: rest => .next joint term (ofList joint rest)

/-- **Several parts as one term.** Without parts it is the empty literal. -/
def Term.concat : List Term → Term
  | [] => .literal []
  | first :: rest => .call "CONCAT".toList first (.ofList .comma rest)

/-- One term for several: itself if it is alone. -/
def Term.single : List Term → Term
  | [term] => term
  | terms => concat terms

/-- A term that puts parts together. -/
def Term.IsConcat (term : Term) : Prop :=
  ∃ first others, term = .call "CONCAT".toList first others

theorem Others.ofList_injective {joint joint' : Joint} {terms terms' : List Term}
    (same : Others.ofList joint terms = Others.ofList joint' terms') :
    terms = terms' ∧ (terms ≠ [] → joint = joint') := by
  induction terms generalizing terms' with
  | nil =>
    cases terms' with
    | nil => exact ⟨rfl, fun some => absurd rfl some⟩
    | cons => cases same
  | cons term rest ih =>
    cases terms' with
    | nil => cases same
    | cons term' rest' =>
      obtain ⟨rfl, rfl, later⟩ := Others.next.inj same
      obtain ⟨rfl, _⟩ := ih later
      exact ⟨rfl, fun _ => rfl⟩

theorem Term.concat_injective {terms terms' : List Term} (same : concat terms = concat terms') :
    terms = terms' := by
  cases terms with
  | nil =>
    cases terms' with
    | nil => rfl
    | cons => cases same
  | cons first rest =>
    cases terms' with
    | nil => cases same
    | cons first' rest' =>
      obtain ⟨-, rfl, others⟩ := Term.call.inj same
      rw [(Others.ofList_injective others).1]

/-- **Parts are known from what they are together**, if none of them puts others together. -/
theorem Term.single_injective {terms terms' : List Term}
    (plain : ∀ term ∈ terms, ¬ term.IsConcat) (plain' : ∀ term ∈ terms', ¬ term.IsConcat)
    (some : terms ≠ []) (some' : terms' ≠ []) (same : single terms = single terms') :
    terms = terms' := by
  match terms, terms' with
  | [term], [term'] => exact congrArg (fun term => [term]) same
  | [term], first :: second :: rest =>
    exact absurd ⟨_, _, same⟩ (plain term List.mem_cons_self)
  | first :: second :: rest, [term] =>
    exact absurd ⟨_, _, same.symm⟩ (plain' term List.mem_cons_self)
  | first :: second :: rest, first' :: second' :: rest' => exact concat_injective same

theorem Others.readable_ofList {joint : Joint} {terms : List Term}
    (readable : ∀ term ∈ terms, term.Readable) : (Others.ofList joint terms).Readable := by
  induction terms with
  | nil => trivial
  | cons term rest ih =>
    obtain ⟨here, others⟩ := List.forall_mem_cons.mp readable
    exact ⟨here, ih others⟩

theorem Term.readable_concat {terms : List Term} (readable : ∀ term ∈ terms, term.Readable) :
    (concat terms).Readable := by
  cases terms with
  | nil => trivial
  | cons first rest =>
    obtain ⟨here, others⟩ := List.forall_mem_cons.mp readable
    exact ⟨by decide, here, Others.readable_ofList others⟩

theorem Term.readable_single {terms : List Term} (readable : ∀ term ∈ terms, term.Readable) :
    (single terms).Readable := by
  match terms with
  | [] => trivial
  | [term] => exact readable term List.mem_cons_self
  | first :: second :: rest => exact readable_concat readable

end AppSchema.Sql
