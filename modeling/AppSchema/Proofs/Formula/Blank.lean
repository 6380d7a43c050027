/-
**The blanks around an argument.**

The arguments of a call lose the blanks around them. Dropping them from the pieces of a sequence
gives the pieces of the sequence without them.

* `trimmed_front`: at the start, where a text that becomes empty is left;
* `trimBack_tree`: at the end;
* `trimArgument_tree`: at both ends.
-/

import AppSchema.Proofs.Formula.Grammar

namespace AppSchema.Formula

open Grammar

/-! ### Dropping the blanks around an argument -/

theorem rdropWhile_cons {α : Type} (p : α → Bool) (first : α) (rest : List α) :
    (first :: rest).rdropWhile p =
      if rest.rdropWhile p = [] then if p first then [] else [first]
      else first :: rest.rdropWhile p := by
  unfold List.rdropWhile
  rw [List.reverse_cons, List.dropWhile_append]
  cases rest.reverse.dropWhile p with
  | nil => by_cases drops : p first <;> simp [drops]
  | cons last others => simp

theorem rdropWhile_cons_of_neg {α : Type} {p : α → Bool} {first : α} (kept : p first = false)
    (rest : List α) : (first :: rest).rdropWhile p = first :: rest.rdropWhile p := by
  rw [rdropWhile_cons]
  by_cases empty : rest.rdropWhile p = []
  · simp [empty, kept]
  · rw [if_neg empty]

theorem trimEnd_cons (char : Char) (chars : List Char) :
    Text.trimEnd (char :: chars) =
      if Text.trimEnd chars = [] then if Text.isBlank char then [] else [char]
      else char :: Text.trimEnd chars :=
  rdropWhile_cons Text.isBlank char chars

/-- A text at the start of which only blanks stood stays there as an empty text. -/
theorem trimmed_front (items : List Item) :
    Piece.mapFirst Text.trimStart (tree items) = tree (items.dropWhile Item.isBlank) ∨
      Piece.mapFirst Text.trimStart (tree items) =
        .text [] :: tree (items.dropWhile Item.isBlank) := by
  induction items with
  | nil =>
    left
    rw [List.dropWhile_nil, tree, Piece.mapFirst]
    simp
  | cons item items ih =>
    cases item with
    | reference ref | call function arguments offset =>
      left
      rw [List.dropWhile_cons_of_neg (by simp [Item.isBlank]), tree, Piece.mapFirst]
      simp
    | literal char =>
      rw [tree]
      cases blank : Text.isBlank char with
      | false =>
        left
        rw [List.dropWhile_cons_of_neg (by simp [Item.isBlank, blank]), tree]
        unfold Piece.prepend
        split
        · simp [Piece.mapFirst, Text.trimStart, blank]
        · simp [Piece.mapFirst, Text.trimStart, blank]
      | true =>
        rw [List.dropWhile_cons_of_pos (by simp [Item.isBlank, blank])]
        unfold Piece.prepend
        split
        · rename_i chars rest found
          rw [found] at ih
          simpa [Piece.mapFirst, Text.trimStart, blank] using ih
        · rename_i other
          have unchanged : Piece.mapFirst Text.trimStart (tree items) = tree items := by
            unfold Piece.mapFirst
            split
            · rename_i chars rest found
              exact absurd found (other chars rest)
            · rfl
          rw [unchanged] at ih
          right
          rcases ih with same | empty
          · rw [← same]
            simp [Piece.mapFirst, Text.trimStart, blank]
          · exact absurd empty (other [] _)

/-- Pieces without the texts that are empty. -/
def filled (pieces : List Piece) : List Piece :=
  pieces.filter (!·.isEmptyText)

theorem filled_prepend (char : Char) {pieces : List Piece} (full : filled pieces = pieces) :
    filled (Piece.prepend char pieces) = Piece.prepend char pieces := by
  unfold Piece.prepend
  split
  · rename_i chars rest
    have fullRest : filled rest = rest := by
      simp only [filled, List.filter_eq_self, List.forall_mem_cons] at full ⊢
      exact full.2
    simp [filled, Piece.isEmptyText] at fullRest ⊢
    exact fullRest
  · simpa [filled, Piece.isEmptyText] using full

theorem filled_tree (items : List Item) : filled (tree items) = tree items := by
  induction items with
  | nil =>
    rw [tree]
    rfl
  | cons item items ih =>
    cases item with
    | literal char =>
      rw [tree]
      exact filled_prepend char ih
    | reference ref | call function arguments offset =>
      rw [tree]
      simpa [filled, Piece.isEmptyText] using ih

/-- Pieces without the blanks at their end. -/
def trimBack (pieces : List Piece) : List Piece :=
  filled (Piece.mapLast Text.trimEnd pieces)

theorem trimBack_text (chars : List Char) :
    trimBack [.text chars] =
      if Text.trimEnd chars = [] then [] else [.text (Text.trimEnd chars)] := by
  cases trimmed : Text.trimEnd chars with
  | nil => simp [trimBack, Piece.mapLast, filled, trimmed, Piece.isEmptyText]
  | cons first rest => simp [trimBack, Piece.mapLast, filled, trimmed, Piece.isEmptyText]

/-- What stands before the last piece, or is no text, stays. -/
theorem trimBack_cons (piece : Piece) (rest : List Piece) (full : piece.isEmptyText = false)
    (inner : rest = [] → ∀ chars, piece ≠ .text chars) :
    trimBack (piece :: rest) = piece :: trimBack rest := by
  have last : Piece.mapLast Text.trimEnd (piece :: rest) =
      piece :: Piece.mapLast Text.trimEnd rest := by
    rw [Piece.mapLast]
    rintro chars rfl rfl
    exact inner rfl chars rfl
  simp [trimBack, last, filled, full]

theorem trimBack_prepend_other (char : Char) {piece : Piece}
    (other : ∀ chars, piece ≠ .text chars) (rest : List Piece) :
    trimBack (Piece.prepend char (piece :: rest)) =
      if trimBack (piece :: rest) = [] then if Text.isBlank char then [] else [.text [char]]
      else Piece.prepend char (trimBack (piece :: rest)) := by
  have alone (pieces : List Piece) :
      Piece.prepend char (piece :: pieces) = .text [char] :: piece :: pieces := by
    rw [Piece.prepend]
    exact fun chars _ same => other chars (List.cons.inj same).1
  have full : piece.isEmptyText = false := by
    unfold Piece.isEmptyText
    split
    · exact absurd rfl (other [])
    · rfl
  rw [alone, trimBack_cons (.text [char]) (piece :: rest) rfl nofun,
    trimBack_cons piece rest full fun _ => other, if_neg (List.cons_ne_nil _ _), alone]

/-- A character before pieces is dropped only with all of them. -/
theorem trimBack_prepend (char : Char) {pieces : List Piece} (full : filled pieces = pieces) :
    trimBack (Piece.prepend char pieces) =
      if trimBack pieces = [] then if Text.isBlank char then [] else [.text [char]]
      else Piece.prepend char (trimBack pieces) := by
  match pieces with
  | [] =>
    have nothing : trimBack [] = [] := by
      simp [trimBack, Piece.mapLast, filled]
    rw [if_pos nothing, Piece.prepend, trimBack_text, trimEnd_cons]
    · by_cases blank : Text.isBlank char = true <;> simp [Text.trimEnd, blank]
    · nofun
  | [.text chars] =>
    rw [Piece.prepend, trimBack_text, trimBack_text, trimEnd_cons]
    by_cases empty : Text.trimEnd chars = []
    · by_cases blank : Text.isBlank char = true <;> simp [empty, blank]
    · simp [empty, Piece.prepend]
  | .text chars :: next :: rest =>
    have first : Piece.isEmptyText (.text chars) = false := by
      simp only [filled, List.filter_eq_self, List.forall_mem_cons] at full
      simpa using full.1
    rw [Piece.prepend, trimBack_cons (.text (char :: chars)) (next :: rest) rfl nofun,
      trimBack_cons (.text chars) (next :: rest) first nofun, if_neg (List.cons_ne_nil _ _),
      Piece.prepend]
  | .field _ :: rest | .call _ _ _ :: rest =>
    exact trimBack_prepend_other char (by nofun) rest

theorem tree_eq_nil {items : List Item} : tree items = [] ↔ items = [] := by
  constructor
  · intro empty
    cases items with
    | nil => rfl
    | cons item items =>
      cases item with
      | literal char =>
        rw [tree] at empty
        unfold Piece.prepend at empty
        split at empty <;> cases empty
      | reference ref | call function arguments offset =>
        rw [tree] at empty
        cases empty
  · rintro rfl
    rw [tree]

theorem trimBack_tree (items : List Item) :
    trimBack (tree items) = tree (items.rdropWhile Item.isBlank) := by
  induction items with
  | nil => simp [tree, trimBack, Piece.mapLast, filled]
  | cons item items ih =>
    cases item with
    | literal char =>
      rw [rdropWhile_cons, tree, trimBack_prepend char (filled_tree items), ih]
      by_cases empty : items.rdropWhile Item.isBlank = []
      · by_cases blank : Text.isBlank char = true <;>
          simp [empty, blank, Item.isBlank, tree, Piece.prepend]
      · rw [if_neg (mt tree_eq_nil.mp empty), if_neg empty, tree]
    | reference ref =>
      rw [rdropWhile_cons_of_neg rfl, tree, tree,
        trimBack_cons (.field ref) (tree items) rfl (by simp), ih]
    | call function arguments offset =>
      rw [rdropWhile_cons_of_neg rfl, tree, tree,
        trimBack_cons (.call function (argumentTrees arguments) offset) (tree items) rfl (by simp),
        ih]

/-- **Dropping the blanks around the pieces of a sequence** drops those around the sequence. -/
theorem trimArgument_tree (items : List Item) :
    trimArgument (tree items) = tree (trimmed items) := by
  rw [trimmed, ← trimBack_tree]
  show trimBack (Piece.mapFirst Text.trimStart (tree items)) = _
  rcases trimmed_front items with same | empty
  · rw [same]
  · rw [empty]
    cases tree (items.dropWhile Item.isBlank) with
    | nil => simp [trimBack, Piece.mapLast, filled, Piece.isEmptyText, Text.trimEnd]
    | cons piece rest => simp [trimBack, Piece.mapLast, filled, Piece.isEmptyText]

end AppSchema.Formula
