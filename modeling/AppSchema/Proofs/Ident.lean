/-
**Identifiers that need no quotes.**

A label becomes a plain identifier. So do names that are put together: they begin with an identifier
or with a word of their own, and no reserved word ends or begins as they do.

* `Ident.isPlain_sanitize`: the identifier of a label is plain, whatever the label;
* `Ident.sanitize_of_isPlain`: a plain identifier is its own identifier;
* `Name.ident_ofLabel`: so the plain identifiers are those of labels, and those that stay what they
  are;
* `Ident.isPlain_ending`, `Ident.isPlain_beginning`: so is a name with an ending or a beginning that
  no reserved word has.
-/

import AppSchema.Name

namespace AppSchema.Ident

/-! ### Characters -/

theorem isTail_of_isHead {char : Char} (head : isHead char = true) : isTail char = true := by
  rcases Bool.or_eq_true_iff.mp head with lower | underscore
  · simp [isTail, lower]
  · simp [isTail, underscore]

theorem isHead_of_isTail {char : Char} (tail : isTail char = true) (digit : char.isDigit = false) :
    isHead char = true := by
  simpa [isTail, isHead, digit] using tail

theorem isTail_toLower {char : Char} (upper : char.isUpper = true) :
    isTail char.toLower = true := by
  have lower : char.toLower.isLower = true := by
    have range : 'A'.val ≤ char.val ∧ char.val ≤ 'Z'.val := of_decide_eq_true upper
    unfold Char.toLower Char.isLower
    rw [dif_pos range, Bool.and_eq_true, decide_eq_true_eq, decide_eq_true_eq]
    simp only [ge_iff_le, UInt32.le_iff_toNat_le, UInt32.toNat_add] at range ⊢
    have upperFirst : 'A'.val.toNat = 65 := rfl
    have upperLast : 'Z'.val.toNat = 90 := rfl
    have lowerFirst : 'a'.val.toNat = 97 := rfl
    have lowerLast : 'z'.val.toNat = 122 := rfl
    have distance : ('a'.val - 'A'.val).toNat = 32 := rfl
    omega
  simp [isTail, lower]

/-- **What a character becomes can stand in an identifier.** -/
theorem all_isTail_sanitizeChar (char : Char) : (sanitizeChar char).all isTail = true := by
  unfold sanitizeChar
  split
  · next same =>
    rcases Bool.or_eq_true_iff.mp same with lower | digit
    · simp [isTail, lower]
    · simp [isTail, digit]
  · split
    · next upper => simp [isTail_toLower upper]
    · split
      · rfl
      · split <;> rfl

/-! ### Spelling -/

/-- What is spelled like an identifier can stand in one. -/
theorem all_isTail_of_isSpelled {chars : List Char} (spelled : isSpelled chars = true) :
    chars.all isTail = true := by
  cases chars with
  | nil => rfl
  | cons first rest =>
    obtain ⟨head, tail⟩ := Bool.and_eq_true_iff.mp spelled
    rw [List.all_cons, isTail_of_isHead head, tail]
    rfl

theorem isSpelled_guardStart {chars : List Char} (tail : chars.all isTail = true) :
    isSpelled (guardStart chars) = true := by
  cases chars with
  | nil => rfl
  | cons first rest =>
    obtain ⟨here, others⟩ := Bool.and_eq_true_iff.mp (List.all_cons ▸ tail)
    rw [guardStart]
    split
    · rw [isSpelled, tail]
      rfl
    · next digit =>
      rw [isSpelled, isHead_of_isTail here (by simpa using digit), others]
      rfl

theorem all_isTail_append {front back : String} (first : front.toList.all isTail = true)
    (second : back.toList.all isTail = true) : (front ++ back).toList.all isTail = true := by
  rw [String.toList_append, List.all_append, first, second]
  rfl

theorem isSpelled_append {front back : String} (spelled : isSpelled front.toList = true)
    (tail : back.toList.all isTail = true) : isSpelled (front ++ back).toList = true := by
  rw [String.toList_append]
  cases chars : front.toList with
  | nil =>
    rw [chars] at spelled
    cases spelled
  | cons first rest =>
    rw [chars] at spelled
    obtain ⟨head, others⟩ := Bool.and_eq_true_iff.mp spelled
    rw [List.cons_append, isSpelled, head, List.all_append, others, tail]
    rfl

theorem isPlain_iff {text : String} :
    isPlain text = true ↔ isSpelled text.toList = true ∧ text ∉ reserved := by
  simp [isPlain, isReserved]

theorem isSpelled_of_isPlain {text : String} (plain : isPlain text = true) :
    isSpelled text.toList = true :=
  (isPlain_iff.mp plain).1

theorem all_isTail_of_isPlain {text : String} (plain : isPlain text = true) :
    text.toList.all isTail = true :=
  all_isTail_of_isSpelled (isSpelled_of_isPlain plain)

/-! ### Labels -/

/-- **The identifier of a label is plain**, whatever the label. -/
theorem isPlain_sanitize (label : String) : isPlain (sanitize label) = true := by
  have tail : (label.toList.flatMap sanitizeChar).all isTail = true := by
    rw [List.all_flatMap, List.all_eq_true]
    exact fun char _ => all_isTail_sanitizeChar char
  have spelled : isSpelled (String.ofList (guardStart (label.toList.flatMap sanitizeChar))).toList =
      true := by
    rw [String.toList_ofList]
    exact isSpelled_guardStart tail
  unfold sanitize guardReserved
  split
  · -- No reserved word begins with an underscore.
    have apart : ∀ word ∈ reserved, word.toList.head? ≠ some '_' := by
      decide +kernel
    refine isPlain_iff.mpr ⟨?_, fun word => apart _ word ?_⟩
    · exact isSpelled_append rfl (all_isTail_of_isSpelled spelled)
    · rw [String.toList_append]
      rfl
  · next free =>
    refine isPlain_iff.mpr ⟨spelled, ?_⟩
    simpa [isReserved] using free

/-- What stands in an identifier stays what it is. -/
theorem sanitizeChar_of_isTail {char : Char} (tail : isTail char = true) :
    sanitizeChar char = [char] := by
  rcases Bool.or_eq_true_iff.mp tail with same | underscore
  · rw [sanitizeChar, if_pos same]
  · rw [beq_iff_eq.mp underscore]
    rfl

theorem flatMap_sanitizeChar {chars : List Char} (tail : chars.all isTail = true) :
    chars.flatMap sanitizeChar = chars := by
  induction chars with
  | nil => rfl
  | cons char rest ih =>
    obtain ⟨here, others⟩ := Bool.and_eq_true_iff.mp (List.all_cons ▸ tail)
    rw [List.flatMap_cons, sanitizeChar_of_isTail here, ih others]
    rfl

theorem isDigit_of_isHead {char : Char} (head : isHead char = true) : char.isDigit = false := by
  rcases Bool.or_eq_true_iff.mp head with lower | underscore
  · cases digit : char.isDigit with
    | false => rfl
    | true =>
      have first : 'a'.val ≤ char.val := of_decide_eq_true (Bool.and_eq_true_iff.mp lower).1
      have last : char.val ≤ '9'.val := of_decide_eq_true (Bool.and_eq_true_iff.mp digit).2
      exact absurd (UInt32.le_trans first last) (by decide)
  · rw [beq_iff_eq.mp underscore]
    rfl

/-- What is spelled like an identifier needs no underscore before it. -/
theorem guardStart_of_isSpelled {chars : List Char} (spelled : isSpelled chars = true) :
    guardStart chars = chars := by
  cases chars with
  | nil => cases spelled
  | cons first rest =>
    obtain ⟨head, _⟩ := Bool.and_eq_true_iff.mp spelled
    rw [guardStart, isDigit_of_isHead head]
    rfl

/-- **A plain identifier is its own identifier.** -/
theorem sanitize_of_isPlain {text : String} (plain : isPlain text = true) :
    sanitize text = text := by
  obtain ⟨spelled, free⟩ := isPlain_iff.mp plain
  have unreserved : isReserved text = false := by simpa [isReserved] using free
  rw [sanitize, flatMap_sanitizeChar (all_isTail_of_isPlain plain),
    guardStart_of_isSpelled spelled, String.ofList_toList, guardReserved, unreserved]
  rfl

/-! ### Names that are put together -/

/-- The endings of names that are put together. -/
def endings : List String :=
  ["_id", "_view", "_fkey"]

/-- **A name with one of these endings is plain**, since no reserved word has one. -/
theorem isPlain_ending {front ending : String} (spelled : isSpelled front.toList = true)
    (known : ending ∈ endings) : isPlain (front ++ ending) = true := by
  have tails : ∀ ending ∈ endings, ending.toList.all isTail = true := by
    decide +kernel
  have apart : ∀ ending ∈ endings, ∀ word ∈ reserved, ¬ ending.toList <:+ word.toList := by
    decide +kernel
  refine isPlain_iff.mpr ⟨isSpelled_append spelled (tails ending known), fun word => ?_⟩
  refine apart ending known _ word ?_
  rw [String.toList_append]
  exact List.suffix_append _ _

/-- **A name that begins with `many_` is plain**, since no reserved word does. -/
theorem isPlain_beginning {back : String} (tail : back.toList.all isTail = true) :
    isPlain ("many_" ++ back) = true := by
  have apart : ∀ word ∈ reserved, ¬ "many_".toList <+: word.toList := by
    decide +kernel
  refine isPlain_iff.mpr ⟨isSpelled_append rfl tail, fun word => apart _ word ?_⟩
  rw [String.toList_append]
  exact List.prefix_append _ _

end AppSchema.Ident

namespace AppSchema.Name

/-- **The identifiers of labels are the plain ones.** Whatever the label, its identifier begins with
a letter or an underscore, goes on with letters, digits and underscores, and is no reserved word;
the texts of this kind are those that are their own identifier. So the identifier of an identifier
is itself, and each text of this kind is the identifier of a label. -/
theorem ident_ofLabel :
    (∀ label, Ident.isSpelled (ofLabel label).ident.toList = true ∧
      (ofLabel label).ident ∉ Ident.reserved) ∧
    (∀ text, (ofLabel text).ident = text ↔
      Ident.isSpelled text.toList = true ∧ text ∉ Ident.reserved) ∧
    (∀ label, ofLabel (ofLabel label).ident = ofIdent (ofLabel label).ident) ∧
    ∀ text, (∃ label, (ofLabel label).ident = text) ↔
      Ident.isSpelled text.toList = true ∧ text ∉ Ident.reserved := by
  have fixed : ∀ text, (ofLabel text).ident = text ↔ Ident.isPlain text = true := by
    intro text
    constructor
    · intro same
      rw [← same]
      exact Ident.isPlain_sanitize text
    · exact Ident.sanitize_of_isPlain
  simp only [← Ident.isPlain_iff]
  refine ⟨Ident.isPlain_sanitize, fixed, fun label => ?_, fun text => ⟨?_, fun plain => ?_⟩⟩
  · show ofLabel (Ident.sanitize label) = ofIdent (Ident.sanitize label)
    rw [ofLabel, Ident.sanitize_of_isPlain (Ident.isPlain_sanitize label), ofIdent]
  · rintro ⟨label, rfl⟩
    exact Ident.isPlain_sanitize label
  · exact ⟨text, (fixed text).mpr plain⟩

end AppSchema.Name
