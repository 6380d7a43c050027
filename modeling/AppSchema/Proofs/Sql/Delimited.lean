/-
**Lists are read in one way.**

A list is written with a text between its elements and a character behind the last. If each element
is read in one way in front of either, and none begins with the character, then the elements are
known from the text, and so is what stands behind them.

* `Delimited`: what this takes of the elements;
* `Delimited.unique`: two lists with the same text;
* `delimited_words`, `delimited_literals`: lists of words, and of literals.
-/

import AppSchema.Proofs.Sql.Term

namespace AppSchema.Sql

/-- What stands behind an element of a list: the text between two of them, or the character that
closes the list. -/
def Parts (between : List Char) (close : Char) (behind : List Char) : Prop :=
  between <+: behind ∨ [close] <+: behind

/-- **Elements that are told apart in a list.** -/
structure Delimited {α : Type} (valid : α → Prop) (write : α → List Char) (between : List Char)
    (close : Char) : Prop where
  element : ∀ {value other : α} {behind behind' : List Char}, valid value → valid other →
    Parts between close behind → Parts between close behind' →
    write value ++ behind = write other ++ behind' → value = other ∧ behind = behind'
  /-- No element is read where the list is closed. -/
  opens : ∀ {value : α} (behind rest : List Char), valid value →
    write value ++ behind ≠ close :: rest
  apart : ∀ behind rest : List Char, between ++ behind ≠ close :: rest

section

variable {α : Type} (write : α → List Char) (between : List Char) (close : Char)

/-- What stands behind the first element of a list. -/
def laterText (behind : List Char) : List α → List Char
  | [] => close :: behind
  | values => between ++ (between.intercalate (values.map write) ++ close :: behind)

theorem parts_laterText (behind : List Char) (values : List α) :
    Parts between close (laterText write between close behind values) := by
  cases values with
  | nil => exact .inr ⟨behind, rfl⟩
  | cons value rest => exact .inl ⟨_, rfl⟩

theorem intercalate_cons (value : α) (rest : List α) (behind : List Char) :
    between.intercalate ((value :: rest).map write) ++ close :: behind =
      write value ++ laterText write between close behind rest := by
  cases rest with
  | nil => rw [List.map_singleton, List.intercalate_singleton, laterText]
  | cons next rest =>
    rw [List.map_cons, List.map_cons, List.intercalate_cons_cons, List.append_assoc,
      List.append_assoc, ← List.map_cons, laterText]
    nofun

end

/-- **A list is read in one way.** -/
theorem Delimited.unique {α : Type} {valid : α → Prop} {write : α → List Char}
    {between : List Char} {close : Char} (delimited : Delimited valid write between close)
    {values others : List α} {behind behind' : List Char} (each : ∀ value ∈ values, valid value)
    (each' : ∀ other ∈ others, valid other)
    (same : between.intercalate (values.map write) ++ close :: behind =
      between.intercalate (others.map write) ++ close :: behind') :
    values = others ∧ behind = behind' := by
  induction values generalizing others with
  | nil =>
    cases others with
    | nil => exact ⟨rfl, (List.cons.inj same).2⟩
    | cons other rest' =>
      rw [intercalate_cons] at same
      exact absurd same.symm (delimited.opens _ _ (each' other List.mem_cons_self))
  | cons value rest ih =>
    obtain ⟨here, later⟩ := List.forall_mem_cons.mp each
    rw [intercalate_cons] at same
    cases others with
    | nil => exact absurd same (delimited.opens _ _ here)
    | cons other rest' =>
      obtain ⟨here', later'⟩ := List.forall_mem_cons.mp each'
      rw [intercalate_cons] at same
      obtain ⟨rfl, more⟩ := delimited.element here here' (parts_laterText ..) (parts_laterText ..)
        same
      cases rest with
      | nil =>
        cases rest' with
        | nil => exact ⟨rfl, (List.cons.inj more).2⟩
        | cons => exact absurd more.symm (delimited.apart _ _)
      | cons =>
        cases rest' with
        | nil => exact absurd more (delimited.apart _ _)
        | cons =>
          obtain ⟨same, rest⟩ := ih later later' (List.append_cancel_left more)
          exact ⟨congrArg (value :: ·) same, rest⟩

/-! ### Words and literals -/

/-- What stands behind an element begins with the character that closes the list, or as the text
between two elements does. -/
theorem Parts.exists_cons {first close : Char} {others behind : List Char}
    (parts : Parts (first :: others) close behind) :
    ∃ char rest, behind = char :: rest ∧ (char = first ∨ char = close) := by
  rcases parts with ⟨rest, rfl⟩ | ⟨rest, rfl⟩
  · exact ⟨first, others ++ rest, rfl, .inl rfl⟩
  · exact ⟨close, rest, rfl, .inr rfl⟩

variable {first close : Char} {others : List Char}

/-- **Words are told apart**, by letters of any kind that stand neither between them nor behind. -/
theorem delimited_words {p : Char → Bool} (separates : p first = false) (closes : p close = false)
    (apart : first ≠ close) :
    Delimited (fun word : String => word.toList.all p = true ∧ word.toList ≠ []) String.toList
      (first :: others) close where
  element := by
    intro word other behind behind' letters letters' parts parts' same
    have ends : ∀ {behind}, Parts (first :: others) close behind → behind.takeWhile p = [] := by
      intro behind parts
      obtain ⟨char, rest, rfl, rfl | rfl⟩ := parts.exists_cons
      · exact List.takeWhile_cons_of_neg (by simp [separates])
      · exact List.takeWhile_cons_of_neg (by simp [closes])
    obtain ⟨words, rest⟩ := word_unique letters.1 (ends parts) letters'.1 (ends parts') same
    exact ⟨String.toList_inj.mp words, rest⟩
  opens := by
    rintro word behind rest ⟨letters, some⟩ same
    obtain ⟨char, more, word⟩ := List.exists_cons_of_ne_nil some
    rw [word, List.all_cons, Bool.and_eq_true] at letters
    rw [word] at same
    obtain rfl := (List.cons.inj same).1
    exact absurd letters.1 (by simp [closes])
  apart := fun _ _ same => apart (List.cons.inj same).1

/-- **Literals are told apart**, if no quote stands between them or behind. -/
theorem delimited_literals (separates : first ≠ '\'') (closes : close ≠ '\'')
    (apart : first ≠ close) :
    Delimited (fun _ : String => True) (fun text => (literal text.toList).toList)
      (first :: others) close where
  element := by
    intro text other behind behind' _ _ parts parts' same
    have ends : ∀ {behind}, Parts (first :: others) close behind → behind.head? ≠ some '\'' := by
      intro behind parts
      obtain ⟨char, rest, rfl, rfl | rfl⟩ := parts.exists_cons
      · simpa using separates
      · simpa using closes
    rw [toList_literal, toList_literal] at same
    obtain ⟨texts, rest⟩ := literal_unique (ends parts) (ends parts') same
    exact ⟨String.toList_inj.mp texts, rest⟩
  opens := by
    intro text behind rest _ same
    rw [toList_literal] at same
    exact closes (List.cons.inj same).1.symm
  apart := fun _ _ same => apart (List.cons.inj same).1

end AppSchema.Sql
