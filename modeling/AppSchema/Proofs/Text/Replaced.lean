/-
**A character that is replaced.**

Replacing a character goes through a text from match to match and copies what stands between them.
The result is that of replacing each character on its own.

* `replacedChar`: what stands in the place of one character;
* `notMem_between`: what stands between two matches has no match in it;
* `toList_foldl_of_search`: what is written from a position on, step by step;
* `toList_replace`: a text with a character replaced.
-/

import Mathlib.Data.List.Basic

namespace AppSchema.Text

open String.Slice.Pattern (SearchStep ToForwardSearcher)
open String.Slice.Pattern.Model (IsValidSearchFrom LawfulToForwardSearcherModel MatchesAt)

/-- What stands in the place of a character where one is replaced. -/
def replacedChar (char : Char) (replacement : String) (other : Char) : List Char :=
  if other = char then replacement.toList else [other]

variable {char : Char} {replacement : String} {slice : String.Slice}

/-- A text without a character stays as it is. -/
theorem flatMap_replacedChar_of_notMem {chars : List Char} (fresh : char ∉ chars) :
    chars.flatMap (replacedChar char replacement) = chars := by
  induction chars with
  | nil => rfl
  | cons first rest ih =>
    obtain ⟨apart, others⟩ := List.ne_and_not_mem_of_not_mem_cons fresh
    rw [List.flatMap_cons, replacedChar, if_neg apart.symm, ih others]
    rfl

/-- **A character that matches nowhere between two positions is not in the text between them.** -/
theorem notMem_between {start stop : slice.Pos} {before between behind : String}
    (starts : start.Splits before (between ++ behind))
    (stops : stop.Splits (before ++ between) behind)
    (apart : ∀ pos, start ≤ pos → pos < stop → ¬ MatchesAt char pos) :
    char ∉ between.toList := by
  intro member
  obtain ⟨front, back, split⟩ := List.append_of_mem member
  obtain rfl : between = String.ofList front ++ (String.singleton char ++ String.ofList back) :=
    String.toList_inj.mp (by simp [split])
  have whole : slice.copy = before ++ String.ofList front ++
      (String.singleton char ++ (String.ofList back ++ behind)) := by
    rw [starts.eq_append]
    simp only [String.append_assoc]
  have here := String.Slice.Pos.splits_ofEqAppend whole
  refine apart _ ?_ ?_ (String.Slice.Pattern.Model.Char.matchesAt_iff_splits.mpr ⟨_, _, here⟩)
  · refine (starts.le_iff_exists_eq_append here).mpr ⟨String.ofList front, rfl, ?_⟩
    simp only [String.append_assoc]
  · refine (here.lt_iff_exists_eq_append stops).mpr
      ⟨String.singleton char ++ String.ofList back, ?_, ?_, ?_⟩
    · intro empty
      simpa using congrArg String.toList empty
    · simp only [String.append_assoc]
    · simp only [String.append_assoc]

/-- **What is written from a position on.** A match writes the replacement, and the text up to the
next match is copied. The induction is on the steps of the search, from any position. -/
theorem toList_foldl_of_search {pos : slice.Pos} {steps : List (SearchStep slice)}
    (search : IsValidSearchFrom char pos steps) {step : String → SearchStep slice → String}
    (matched : ∀ written start stop, step written (.matched start stop) = written ++ replacement)
    (rejected : ∀ written start stop,
      step written (.rejected start stop) = written ++ (slice.slice! start stop).copy)
    {before behind : String} (splits : pos.Splits before behind) (written : String) :
    (steps.foldl step written).toList =
      written.toList ++ behind.toList.flatMap (replacedChar char replacement) := by
  induction search generalizing before behind written with
  | endPos =>
    obtain ⟨_, rfl⟩ := String.Slice.splits_endPos_iff.mp splits
    simp
  | @matched rest start stop found _ ih =>
    obtain ⟨inside, rfl, here⟩ := String.Slice.Pattern.Model.Char.isLongestMatchAt_iff.mp found
    obtain ⟨later, rfl⟩ := splits.exists_eq_singleton_append inside
    rw [List.foldl_cons, matched, ih splits.next]
    simp [here, replacedChar]
  | @mismatched rest start stop less apart _ ih =>
    have upTo : start ≤ stop := Std.le_of_lt less
    have stops := stop.splits
    obtain ⟨between, front, rfl⟩ := (splits.le_iff_exists_eq_append stops).mp upTo
    rw [front] at stops
    obtain ⟨_, piece⟩ := String.Slice.copy_slice_eq_iff_splits.mpr ⟨_, _, splits, stops⟩
    have fresh := notMem_between splits stops apart
    rw [List.foldl_cons, rejected, ih stops, ← String.Slice.slice_eq_slice! (h := upTo), piece,
      String.toList_append, String.toList_append, List.flatMap_append,
      flatMap_replacedChar_of_notMem fresh, List.append_assoc]

/-- **A text with a character replaced** is that with each of its characters replaced. -/
theorem toList_replace (text : String) (char : Char) (replacement : String) :
    (text.replace char replacement).toList =
      text.toList.flatMap (replacedChar char replacement) := by
  have search : IsValidSearchFrom char text.toSlice.startPos
      (ToForwardSearcher.toSearcher char text.toSlice).toList :=
    LawfulToForwardSearcherModel.isValidSearchFrom_toList text.toSlice
  have starts := String.Slice.splits_startPos text.toSlice
  rw [String.copy_toSlice] at starts
  rw [String.replace, String.Slice.replace, ← Std.Iter.foldl_toList,
    toList_foldl_of_search search (fun _ _ _ => rfl) (fun _ _ _ => rfl) starts]
  show "".toList ++ text.toList.flatMap (replacedChar char replacement.toSlice.copy) = _
  rw [String.copy_toSlice, String.toList_empty, List.nil_append]

end AppSchema.Text
