/-
**Classes of characters given by ranges.**

A class is a list of closed intervals of code points in ascending order. Membership walks the list
and stops at the first interval that begins beyond the character.

* `Text.inRanges_iff`: on an ascending list, membership is "some interval holds the character".
-/

namespace AppSchema.Text

/-- Closed intervals of code points, in ascending order. -/
abbrev Ranges := List (Nat × Nat)

/-- Whether a code point lies in an ascending list of intervals. -/
def inRanges (point : Nat) : Ranges → Bool
  | [] => false
  | (low, high) :: rest => low ≤ point && (point ≤ high || inRanges point rest)

/-- Whether intervals ascend from a point on: each is proper and begins behind the one before. -/
def ascends (least : Nat) : Ranges → Bool
  | [] => true
  | (low, high) :: rest => least ≤ low && low ≤ high && ascends (high + 1) rest

theorem ascends_cons {least low high : Nat} {rest : Ranges} :
    ascends least ((low, high) :: rest) = true ↔
      least ≤ low ∧ low ≤ high ∧ ascends (high + 1) rest = true := by
  simp [ascends, and_assoc]

/-- Intervals that ascend from a point on begin there or behind it. -/
theorem le_of_ascends {least : Nat} {ranges : Ranges} (ascending : ascends least ranges = true)
    {range : Nat × Nat} (member : range ∈ ranges) : least ≤ range.1 := by
  induction ranges generalizing least with
  | nil => cases member
  | cons first rest ih =>
      obtain ⟨low, high⟩ := first
      obtain ⟨above, proper, later⟩ := ascends_cons.mp ascending
      rcases List.mem_cons.mp member with rfl | member
      · exact above
      · have := ih later member
        omega

/-- **A point is in an ascending list if some interval holds it.** No interval behind one that
begins beyond the point does. -/
theorem inRanges_iff {least point : Nat} {ranges : Ranges}
    (ascending : ascends least ranges = true) :
    inRanges point ranges = true ↔ ∃ range ∈ ranges, range.1 ≤ point ∧ point ≤ range.2 := by
  induction ranges generalizing least with
  | nil => simp [inRanges]
  | cons range rest ih =>
      obtain ⟨low, high⟩ := range
      obtain ⟨_, proper, later⟩ := ascends_cons.mp ascending
      have beyond : (∃ range ∈ rest, range.1 ≤ point ∧ point ≤ range.2) → low ≤ point := by
        rintro ⟨range, member, above, _⟩
        have := le_of_ascends later member
        omega
      simp only [inRanges, Bool.and_eq_true, Bool.or_eq_true, decide_eq_true_eq, ih later,
        List.mem_cons, exists_eq_or_imp]
      constructor
      · rintro ⟨above, below | later⟩
        · exact Or.inl ⟨above, below⟩
        · exact Or.inr later
      · rintro (⟨above, below⟩ | later)
        · exact ⟨above, Or.inl below⟩
        · exact ⟨beyond later, Or.inr later⟩

end AppSchema.Text
