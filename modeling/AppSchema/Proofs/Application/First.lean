/-
**The first field of every key.**

Of the fields of an object that share a key only the first is classified. The fields are gone
through once, with the keys seen so far; that a field is the first of its key is said of the list as
it stands.

* `FieldSource.withoutRepeats`: the fields whose key no earlier field has;
* `FieldSource.firstOfKeys_eq`: these are the fields that are classified;
* `FieldSource.firstOfKeys_repeated`: a field behind another of its key is passed over.
-/

import AppSchema.Proofs.Application.Classify
import Mathlib.Data.List.Induction

namespace AppSchema.FieldSource

/-- The fields of a list whose key no earlier field has. -/
def withoutRepeats (fields : List FieldSource) : List FieldSource :=
  (fields.zipIdx.filter fun (field, position) =>
    !((fields.take position).map key).contains field.key).map Prod.fst

theorem firstOfKeys_congr {seen seen' : List String} (same : ∀ key, key ∈ seen ↔ key ∈ seen')
    (fields : List FieldSource) : firstOfKeys seen fields = firstOfKeys seen' fields := by
  induction fields generalizing seen seen' with
  | nil => rfl
  | cons field rest ih =>
    have same_cons : ∀ key, key ∈ field.key :: seen ↔ key ∈ field.key :: seen' := by
      intro key
      rw [List.mem_cons, List.mem_cons, same]
    simp only [firstOfKeys, same field.key, ih same, ih same_cons]

/-- **The keys of the fields before are seen**, whether or not these fields were the first. -/
theorem firstOfKeys_append (seen : List String) (front back : List FieldSource) :
    firstOfKeys seen (front ++ back) =
      firstOfKeys seen front ++ firstOfKeys (front.map key ++ seen) back := by
  induction front generalizing seen with
  | nil => rfl
  | cons field rest ih =>
    rw [List.cons_append, firstOfKeys, firstOfKeys, ih, ih]
    by_cases known : field.key ∈ seen
    · rw [if_pos known, if_pos known]
      congr 1
      refine firstOfKeys_congr (fun key => ?_) back
      simp only [List.map_cons, List.cons_append, List.mem_cons, List.mem_append]
      constructor
      · exact .inr
      · rintro (rfl | member)
        · exact .inr known
        · exact member
    · rw [if_neg known, if_neg known, List.cons_append]
      congr 2
      refine firstOfKeys_congr (fun key => ?_) back
      simp only [List.map_cons, List.cons_append, List.mem_cons, List.mem_append]
      exact or_left_comm

/-- **A field behind another of its key is passed over.** -/
theorem firstOfKeys_repeated {front back : List FieldSource} {field : FieldSource}
    (repeated : field.key ∈ front.map key) :
    firstOfKeys [] (front ++ field :: back) = firstOfKeys [] (front ++ back) := by
  have known : field.key ∈ front.map key ++ [] := List.mem_append_left _ repeated
  rw [firstOfKeys_append, firstOfKeys_append, firstOfKeys, if_pos known]

theorem withoutRepeats_append_singleton (fields : List FieldSource) (field : FieldSource) :
    withoutRepeats (fields ++ [field]) =
      withoutRepeats fields ++ if field.key ∈ fields.map key then [] else [field] := by
  have earlier : (fields.zipIdx.filter fun (other, position) =>
      !(((fields ++ [field]).take position).map key).contains other.key) =
        fields.zipIdx.filter fun (other, position) =>
          !((fields.take position).map key).contains other.key := by
    refine List.filter_congr fun (other, position) member => ?_
    have inside : position ≤ fields.length := Nat.le_of_lt (List.mem_zipIdx' member).1
    simp only [List.take_append_of_le_length inside]
  have last : (fields ++ [field]).take fields.length = fields := List.take_left
  rw [withoutRepeats, List.zipIdx_append, List.filter_append, List.map_append, earlier]
  congr 1
  simp only [List.zipIdx_cons, List.zipIdx_nil, Nat.zero_add, List.filter_cons, last]
  by_cases repeated : field.key ∈ fields.map key
  · simp [repeated]
  · simp [repeated]

/-- **The fields that are classified** are those whose key no earlier field has. -/
theorem firstOfKeys_eq (fields : List FieldSource) :
    firstOfKeys [] fields = withoutRepeats fields := by
  induction fields using List.reverseRecOn with
  | nil => rfl
  | append_singleton fields field ih =>
    rw [firstOfKeys_append, withoutRepeats_append_singleton, ih, List.append_nil, firstOfKeys]
    rfl

theorem firstOfKeys_of_nodup {seen : List String} {fields : List FieldSource}
    (distinct : (fields.map key).Nodup) (fresh : ∀ field ∈ fields, field.key ∉ seen) :
    firstOfKeys seen fields = fields := by
  induction fields generalizing seen with
  | nil => rfl
  | cons field rest ih =>
    obtain ⟨apart, distinct⟩ := List.nodup_cons.mp distinct
    obtain ⟨here, fresh⟩ := List.forall_mem_cons.mp fresh
    rw [firstOfKeys, if_neg here, ih distinct]
    intro other member known
    rcases List.mem_cons.mp known with same | known
    · exact apart (same ▸ List.mem_map_of_mem member)
    · exact fresh other member known

/-- Where no field repeats a key, all are classified. -/
theorem firstOfKeys_withoutRepeats (fields : List FieldSource) :
    firstOfKeys [] (withoutRepeats fields) = firstOfKeys [] fields := by
  rw [← firstOfKeys_eq]
  obtain ⟨distinct, fresh⟩ := nodup_firstOfKeys [] fields
  exact firstOfKeys_of_nodup distinct fresh

end AppSchema.FieldSource
