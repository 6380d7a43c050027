/-
**Lists of tagged elements.**

Parts of a list that belong to different owners do not mix: where every element of a part is tagged
with the key of its owner, the elements of one key are the part of one owner.

* `filter_flatMap_of_tagged`: the elements of an owner's key are the part of that owner;
* `nodup_flatMap_of_tagged`: nothing is repeated if no part repeats anything;
* `map_filter_isSome`: what is found for elements, by the tags of the elements.
-/

import Mathlib.Data.List.Nodup

namespace AppSchema

variable {α β κ : Type} {owners list : List α}

/-- No owner has the key of another. -/
theorem ne_key_of_mem {key : α → κ} {first : α} {rest : List α} (distinct : ((first :: rest).map key).Nodup)
    {owner : α} (member : owner ∈ rest) : key owner ≠ key first := by
  rw [List.map_cons, List.nodup_cons] at distinct
  intro same
  exact distinct.1 (same ▸ List.mem_map_of_mem member)

/-- **The elements of an owner's key are the part of that owner.** -/
theorem filter_flatMap_of_tagged [DecidableEq κ] {part : α → List β} {key : α → κ} (tag : β → κ)
    (tagged : ∀ owner ∈ owners, ∀ element ∈ part owner, tag element = key owner)
    (distinct : (owners.map key).Nodup) {owner : α} (member : owner ∈ owners) :
    (owners.flatMap part).filter (tag · = key owner) = part owner := by
  induction owners with
  | nil => cases member
  | cons first rest ih =>
    obtain ⟨here, others⟩ := List.forall_mem_cons.mp tagged
    rw [List.flatMap_cons, List.filter_append]
    rcases List.mem_cons.mp member with rfl | member
    · have own : (part owner).filter (tag · = key owner) = part owner :=
        List.filter_eq_self.mpr fun element inside => by simp [here element inside]
      have foreign : (rest.flatMap part).filter (tag · = key owner) = [] := by
        refine List.filter_eq_nil_iff.mpr fun element inside => ?_
        obtain ⟨other, there, inside⟩ := List.mem_flatMap.mp inside
        simpa [others other there element inside] using ne_key_of_mem distinct there
      rw [own, foreign, List.append_nil]
    · have foreign : (part first).filter (tag · = key owner) = [] := by
        refine List.filter_eq_nil_iff.mpr fun element inside => ?_
        simpa [here element inside] using (ne_key_of_mem distinct member).symm
      rw [foreign, List.nil_append]
      exact ih others (List.nodup_cons.mp distinct).2 member

/-- **Nothing is repeated if no part repeats anything.** -/
theorem nodup_flatMap_of_tagged {part : α → List β} {key : α → κ} (tag : β → κ)
    (tagged : ∀ owner ∈ owners, ∀ element ∈ part owner, tag element = key owner)
    (distinct : (owners.map key).Nodup) (each : ∀ owner ∈ owners, (part owner).Nodup) :
    (owners.flatMap part).Nodup := by
  rw [List.nodup_flatMap]
  refine ⟨each, (List.pairwise_map.mp distinct).imp_of_mem ?_⟩
  intro first second firstIn secondIn apart element here there
  have firstKey := tagged first firstIn element here
  have secondKey := tagged second secondIn element there
  exact apart (firstKey.symm.trans secondKey)

/-- **The one element of its key.** -/
theorem filter_eq_singleton [DecidableEq κ] {key : α → κ} (distinct : (list.map key).Nodup)
    {element : α} (member : element ∈ list) : list.filter (key · = key element) = [element] := by
  have parts : (list.flatMap fun element => [element]).filter (key · = key element) = [element] :=
    filter_flatMap_of_tagged key
      (fun _ _ _ inside => congrArg key (List.mem_singleton.mp inside)) distinct member
  rwa [List.flatMap_singleton'] at parts

/-- Elements for which something is found, by what is found. -/
theorem map_filter_isSome {find : α → Option β} {name : β → κ} (label : α → κ)
    (named : ∀ element ∈ list, ∀ value, find element = some value → name value = label element) :
    (list.filter fun element => (find element).isSome).map label =
      (list.filterMap find).map name := by
  induction list with
  | nil => rfl
  | cons first rest ih =>
    obtain ⟨here, others⟩ := List.forall_mem_cons.mp named
    cases found : find first with
    | none =>
      rw [List.filter_cons_of_neg (by simp [found]), List.filterMap_cons_none found, ih others]
    | some value =>
      rw [List.filter_cons_of_pos (by simp [found]), List.filterMap_cons_some found, List.map_cons,
        List.map_cons, here value found, ih others]

theorem sublist_map_filterMap {find : α → Option β} {name : β → κ} (label : α → κ)
    (named : ∀ element ∈ list, ∀ value, find element = some value → name value = label element) :
    ((list.filterMap find).map name).Sublist (list.map label) := by
  rw [← map_filter_isSome label named]
  exact List.filter_sublist.map label

end AppSchema
