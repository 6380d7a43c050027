/-
**Texts in which every literal is closed.**

A quote opens a literal or closes it, and two quotes in a literal stand for one. A semicolon outside
of literals ends a statement.

* `Sql.EndsAt`: a semicolon behind an even number of quotes; `Sql.split`: a text, cut behind these
  semicolons; `Sql.literals`: what stands in the literals of a text;
* `Sql.Sealed`: literals, and texts without quotes and semicolons between them;
* `Sealed.ends_append`, `Sealed.pieces_append`, `Sealed.literalsFrom_append`: how a text is read
  that begins with a sealed one.
-/

import AppSchema.Sql.Literal
import Mathlib.Algebra.Group.Nat.Even

namespace AppSchema.Sql

/-! ### Reading -/

/-- A semicolon stands right behind a part of a text, which has an even number of quotes. -/
def EndsAt (text before : String) : Prop :=
  (∃ after, text = before ++ ";" ++ after) ∧ Even (before.toList.count '\'')

/-- Whether a place is inside of quotes, one character further. -/
def quotedBehind (quoted : Bool) (char : Char) : Bool :=
  if char = '\'' then !quoted else quoted

/-- Puts characters before pieces, into the first of them. -/
def extend : List Char → List (List Char) → List (List Char)
  | [], pieces => pieces
  | front, [] => [front]
  | front, first :: rest => (front ++ first) :: rest

/-- A text, cut behind each semicolon outside of quotes. -/
def pieces (quoted : Bool) : List Char → List (List Char)
  | [] => []
  | char :: rest =>
    if char = ';' ∧ quoted = false then [char] :: pieces false rest
    else extend [char] (pieces (quotedBehind quoted char) rest)

/-- Pieces without the ends of lines before them. -/
def trimmed (pieces : List (List Char)) : List String :=
  ((pieces.map (·.dropWhile (· == '\n'))).filter (!·.isEmpty)).map String.ofList

/-- The statements of a text: it is cut behind each semicolon outside of quotes, and the ends of
lines before a statement are dropped. -/
def split (text : String) : List String :=
  trimmed (pieces false text.toList)

/-- What stands in the literals of a text, behind what has been read of a literal. A quote closes
it, unless another follows. -/
def literalsFrom : Option (List Char) → List Char → List (List Char)
  | none, [] => []
  | none, char :: rest => literalsFrom (if char = '\'' then some [] else none) rest
  | some _, [] => []
  | some text, '\'' :: '\'' :: rest => literalsFrom (some (text ++ ['\''])) rest
  | some text, '\'' :: rest => text :: literalsFrom none rest
  | some text, char :: rest => literalsFrom (some (text ++ [char])) rest

/-- What stands in the literals of a text. -/
def literals (text : String) : List (List Char) :=
  literalsFrom none text.toList

/-! ### Characters that end nothing -/

/-- **Characters that lead from one place to another** and do not end a statement. -/
inductive Passes : Bool → List Char → Bool → Prop
  | nil (quoted : Bool) : Passes quoted [] quoted
  | cons {quoted after : Bool} {char : Char} {rest : List Char} :
    ¬ (char = ';' ∧ quoted = false) → Passes (quotedBehind quoted char) rest after →
    Passes quoted (char :: rest) after

/-- A semicolon stands behind a part of a text, outside of quotes. -/
def Ends (quoted : Bool) (text before : List Char) : Prop :=
  (∃ after, text = before ++ ';' :: after) ∧ before.foldl quotedBehind quoted = false

theorem extend_append (first second : List Char) (pieces : List (List Char)) :
    extend (first ++ second) pieces = extend first (extend second pieces) := by
  cases first <;> cases second <;> cases pieces <;> simp [extend]

theorem dropWhile_newlines (count : Nat) (chars : List Char) :
    (List.replicate count '\n' ++ chars).dropWhile (· == '\n') = chars.dropWhile (· == '\n') := by
  rw [List.dropWhile_append_of_pos]
  intro char member
  rw [List.eq_of_mem_replicate member]
  rfl

/-- Ends of lines before pieces are left out. -/
theorem trimmed_extend (count : Nat) (pieces : List (List Char)) :
    trimmed (extend (List.replicate count '\n') pieces) = trimmed pieces := by
  have alone := dropWhile_newlines count []
  rw [List.append_nil, List.dropWhile_nil] at alone
  cases pieces with
  | nil => cases count <;> simp_all [extend, trimmed]
  | cons first rest =>
    have front := dropWhile_newlines count first
    cases count with
    | zero => rfl
    | succ count =>
      rw [List.replicate_succ, List.cons_append] at front
      simp [extend, trimmed, List.replicate_succ, front]

theorem trimmed_cons {piece : List Char} (more : piece ≠ []) (begins : piece.head? ≠ some '\n')
    (rest : List (List Char)) : trimmed (piece :: rest) = String.ofList piece :: trimmed rest := by
  cases piece with
  | nil => exact absurd rfl more
  | cons first others =>
    have apart : first ≠ '\n' := fun same => begins (congrArg some same)
    simp [trimmed, apart]

theorem foldl_quotedBehind (chars : List Char) (quoted : Bool) :
    chars.foldl quotedBehind quoted = false ↔ (Even (chars.count '\'') ↔ quoted = false) := by
  induction chars generalizing quoted with
  | nil => simp
  | cons char rest ih =>
    rw [List.foldl_cons, ih, quotedBehind]
    by_cases quote : char = '\''
    · cases quoted <;> simp [quote, Nat.even_add_one]
    · simp [quote]

theorem endsAt_iff {text before : String} :
    EndsAt text before ↔ Ends false text.toList before.toList := by
  unfold EndsAt Ends
  rw [foldl_quotedBehind, iff_true_right rfl]
  refine and_congr_left' ⟨?_, ?_⟩
  · rintro ⟨after, rfl⟩
    exact ⟨after.toList, by simp⟩
  · rintro ⟨after, split⟩
    exact ⟨String.ofList after, String.toList_inj.mp (by simpa using split)⟩

theorem ends_cons {quoted : Bool} {char : Char} {rest before : List Char} :
    Ends quoted (char :: rest) before ↔ before = [] ∧ char = ';' ∧ quoted = false ∨
      ∃ behind, before = char :: behind ∧ Ends (quotedBehind quoted char) rest behind := by
  unfold Ends
  cases before with
  | nil =>
    constructor
    · rintro ⟨⟨after, same⟩, outside⟩
      exact .inl ⟨rfl, (List.cons.inj same).1, outside⟩
    · rintro (⟨_, rfl, outside⟩ | ⟨behind, same, _⟩)
      · exact ⟨⟨rest, rfl⟩, outside⟩
      · cases same
  | cons first behind =>
    simp only [List.cons_append, List.cons.injEq, reduceCtorEq, false_and, false_or,
      List.foldl_cons]
    constructor
    · rintro ⟨⟨after, rfl, rfl⟩, outside⟩
      exact ⟨behind, ⟨rfl, rfl⟩, ⟨after, rfl⟩, outside⟩
    · rintro ⟨_, ⟨rfl, rfl⟩, ⟨after, rfl⟩, outside⟩
      exact ⟨⟨after, rfl, rfl⟩, outside⟩

namespace Passes

variable {quoted between after : Bool} {first second : List Char}

theorem append (front : Passes quoted first between) (back : Passes between second after) :
    Passes quoted (first ++ second) after := by
  induction front with
  | nil => exact back
  | cons goesOn _ ih => exact .cons goesOn (ih back)

/-- **What passes is part of one piece.** -/
theorem pieces_append (passes : Passes quoted first after) (rest : List Char) :
    pieces quoted (first ++ rest) = extend first (pieces after rest) := by
  induction passes with
  | nil => rfl
  | @cons quoted after char chars goesOn _ ih =>
    rw [List.cons_append, pieces, if_neg goesOn, ih]
    exact (extend_append [char] chars _).symm

/-- **No statement ends in what passes.** -/
theorem ends_append (passes : Passes quoted first after) {rest before : List Char} :
    Ends quoted (first ++ rest) before ↔
      ∃ behind, before = first ++ behind ∧ Ends after rest behind := by
  induction passes generalizing before with
  | nil => simp
  | cons goesOn _ ih =>
    rw [List.cons_append, ends_cons]
    constructor
    · rintro (⟨_, ends⟩ | ⟨behind, rfl, later⟩)
      · exact absurd ends goesOn
      · obtain ⟨last, rfl, ends⟩ := ih.mp later
        exact ⟨last, rfl, ends⟩
    · rintro ⟨last, rfl, ends⟩
      exact .inr ⟨_, rfl, ih.mpr ⟨last, rfl, ends⟩⟩

end Passes

/-! ### Sealed texts -/

/-- Whether a character is neither a quote nor a semicolon. -/
def isBare (char : Char) : Bool :=
  char != '\'' && char != ';'

/-- A text without quotes and semicolons. -/
def Bare (text : String) : Prop :=
  text.toList.all isBare = true

/-- **A sealed text, with what stands in its literals.** Between two literals is something else. -/
inductive Sealed : String → List (List Char) → Prop
  | bare {text : String} : Bare text → Sealed text []
  | literal (text : List Char) : Sealed (literal text) [text]
  | join {first between second : String} {before behind : List (List Char)} :
    Sealed first before → Bare between → between ≠ "" → Sealed second behind →
    Sealed (first ++ between ++ second) (before ++ behind)

namespace Bare

theorem append {first second : String} (front : Bare first) (back : Bare second) :
    Bare (first ++ second) := by
  unfold Bare
  rw [String.toList_append, List.all_append, Bool.and_eq_true]
  exact ⟨front, back⟩

theorem intercalate {separator : String} {texts : List String} (between : Bare separator)
    (each : ∀ text ∈ texts, Bare text) : Bare (String.intercalate separator texts) := by
  induction texts with
  | nil => rfl
  | cons first rest ih =>
    obtain ⟨here, others⟩ := List.forall_mem_cons.mp each
    rcases eq_or_ne rest [] with rfl | more
    · rwa [String.intercalate_singleton]
    · rw [String.intercalate_cons_of_ne_nil more]
      exact (here.append between).append (ih others)

theorem join {texts : List String} (each : ∀ text ∈ texts, Bare text) :
    Bare (String.join texts) := by
  induction texts with
  | nil => rfl
  | cons first rest ih =>
    obtain ⟨here, others⟩ := List.forall_mem_cons.mp each
    rw [String.join_cons]
    exact here.append (ih others)

end Bare

theorem passes_of_bare {text : String} (bare : Bare text) : Passes false text.toList false := by
  unfold Bare at bare
  generalize text.toList = chars at bare
  induction chars with
  | nil => exact .nil false
  | cons char rest ih =>
    rw [List.all_cons, Bool.and_eq_true] at bare
    obtain ⟨noQuote, noEnd⟩ : char ≠ '\'' ∧ char ≠ ';' := by simpa [isBare] using bare.1
    refine .cons (fun ends => noEnd ends.1) ?_
    rw [quotedBehind, if_neg noQuote]
    exact ih bare.2

theorem toList_literal (text : List Char) :
    (literal text).toList = '\'' :: (text.flatMap literalChar ++ ['\'']) := by
  simp [literal]

/-- Inside of a literal, every quote is followed by another. -/
theorem passes_flatMap (text : List Char) : Passes true (text.flatMap literalChar) true := by
  induction text with
  | nil => exact .nil true
  | cons char rest ih =>
    rw [List.flatMap_cons]
    refine Passes.append ?_ ih
    by_cases quote : char = '\''
    · subst quote
      exact .cons (by decide) (.cons (by decide) (.nil true))
    · rw [literalChar, if_neg quote]
      refine .cons (by simp) ?_
      rw [quotedBehind, if_neg quote]
      exact .nil true

theorem passes_literal (text : List Char) : Passes false (literal text).toList false := by
  rw [toList_literal]
  exact .cons (by decide) ((passes_flatMap text).append (.cons (by decide) (.nil false)))

theorem literalsFrom_bare {text : String} (bare : Bare text) (rest : List Char) :
    literalsFrom none (text.toList ++ rest) = literalsFrom none rest := by
  unfold Bare at bare
  generalize text.toList = chars at bare
  induction chars with
  | nil => rfl
  | cons char others ih =>
    rw [List.all_cons, Bool.and_eq_true] at bare
    obtain ⟨noQuote, _⟩ : char ≠ '\'' ∧ char ≠ ';' := by simpa [isBare] using bare.1
    rw [List.cons_append, literalsFrom, if_neg noQuote]
    exact ih bare.2

/-- **A literal is read to its end.** -/
theorem literalsFrom_flatMap (text seen rest : List Char) (closed : rest.head? ≠ some '\'') :
    literalsFrom (some seen) (text.flatMap literalChar ++ '\'' :: rest) =
      (seen ++ text) :: literalsFrom none rest := by
  induction text generalizing seen with
  | nil =>
    rw [List.flatMap_nil, List.nil_append, List.append_nil, literalsFrom]
    rintro others rfl
    exact closed rfl
  | cons char text ih =>
    rw [List.flatMap_cons, List.append_cons seen]
    by_cases quote : char = '\''
    · subst quote
      exact ih (seen ++ ['\''])
    · rw [literalChar, if_neg quote, ← ih]
      simp only [List.cons_append, List.nil_append]
      rw [literalsFrom]
      · intro others same
        exact absurd same quote
      · intro same
        exact absurd same quote

namespace Sealed

variable {text first second between : String} {texts before behind : List (List Char)}

/-! ### Putting texts together -/

theorem empty : Sealed "" [] :=
  .bare rfl

theorem bare_append (bare : Bare first) (closed : Sealed second behind) :
    Sealed (first ++ second) behind := by
  rcases eq_or_ne first "" with rfl | more
  · rwa [String.empty_append]
  · exact .join empty bare more closed

theorem append_bare (closed : Sealed first before) (bare : Bare second) :
    Sealed (first ++ second) before := by
  rcases eq_or_ne second "" with rfl | more
  · rwa [String.append_empty]
  · have joined := closed.join bare more empty
    rwa [String.append_empty, List.append_nil] at joined

/-- **A list of sealed texts.** -/
theorem intercalate {α : Type} {write : α → String} {texts : α → List (List Char)}
    {elements : List α} (bare : Bare between) (apart : between ≠ "")
    (each : ∀ element ∈ elements, Sealed (write element) (texts element)) :
    Sealed (String.intercalate between (elements.map write)) (elements.flatMap texts) := by
  induction elements with
  | nil => exact empty
  | cons first rest ih =>
    obtain ⟨here, others⟩ := List.forall_mem_cons.mp each
    rw [List.map_cons, List.flatMap_cons]
    rcases eq_or_ne rest [] with rfl | more
    · simpa using here
    · rw [String.intercalate_cons_of_ne_nil (by simpa using more)]
      exact here.join bare apart (ih others)

/-- **A sealed text and more behind it**, each behind the same characters. -/
theorem append_join {α : Type} {write : α → String} {texts : α → List (List Char)}
    {elements : List α} (front : Sealed first before) (bare : Bare between) (apart : between ≠ "")
    (each : ∀ element ∈ elements, Sealed (write element) (texts element)) :
    Sealed (first ++ String.join (elements.map fun element => between ++ write element))
      (before ++ elements.flatMap texts) := by
  induction elements generalizing first before with
  | nil => simpa using front
  | cons element rest ih =>
    obtain ⟨here, others⟩ := List.forall_mem_cons.mp each
    have longer := ih (front.join bare apart here) others
    simpa [String.join_cons, String.append_assoc] using longer

/-! ### Reading sealed texts -/

theorem passes (closed : Sealed text texts) : Passes false text.toList false := by
  induction closed with
  | bare holds => exact passes_of_bare holds
  | literal text => exact passes_literal text
  | join _ between _ _ front back =>
    rw [String.toList_append, String.toList_append]
    exact (front.append (passes_of_bare between)).append back

theorem head?_append_ne {chars : List Char} (bare : chars.all isBare = true)
    (apart : chars ≠ []) (rest : List Char) : (chars ++ rest).head? ≠ some '\'' := by
  obtain ⟨first, others, rfl⟩ := List.exists_cons_of_ne_nil apart
  rw [List.cons_append, List.head?_cons]
  rintro ⟨⟩
  cases bare

/-- **The literals of a sealed text are read**, unless a quote follows. -/
theorem literalsFrom_append (closed : Sealed text texts) {rest : List Char}
    (apart : rest.head? ≠ some '\'') :
    literalsFrom none (text.toList ++ rest) = texts ++ literalsFrom none rest := by
  induction closed generalizing rest with
  | bare holds => exact literalsFrom_bare holds rest
  | literal text =>
    rw [toList_literal, List.cons_append, literalsFrom, if_pos rfl, List.append_assoc]
    exact literalsFrom_flatMap text [] rest apart
  | join _ between more _ front back =>
    have separate := head?_append_ne between (by simpa using more)
    rw [String.toList_append, String.toList_append, List.append_assoc, List.append_assoc,
      front (separate _), literalsFrom_bare between, back apart, List.append_assoc]

/-- **The statement that a sealed text is** ends at the semicolon behind it. -/
theorem ends_append (closed : Sealed text texts) {rest before : List Char} :
    Ends false (text.toList ++ ';' :: rest) before ↔ before = text.toList ∨
      ∃ behind, before = text.toList ++ ';' :: behind ∧ Ends false rest behind := by
  rw [closed.passes.ends_append]
  constructor
  · rintro ⟨behind, rfl, ends⟩
    rcases ends_cons.mp ends with ⟨rfl, _⟩ | ⟨last, rfl, later⟩
    · exact .inl (List.append_nil _)
    · exact .inr ⟨last, rfl, later⟩
  · rintro (rfl | ⟨last, rfl, later⟩)
    · exact ⟨[], (List.append_nil _).symm, ends_cons.mpr (.inl ⟨rfl, rfl, rfl⟩)⟩
    · exact ⟨';' :: last, rfl, ends_cons.mpr (.inr ⟨last, rfl, later⟩)⟩

theorem pieces_append (closed : Sealed text texts) (rest : List Char) :
    pieces false (text.toList ++ ';' :: rest) = (text.toList ++ [';']) :: pieces false rest := by
  rw [closed.passes.pieces_append, pieces, if_pos ⟨rfl, rfl⟩]
  cases text.toList <;> rfl

end Sealed

end AppSchema.Sql
