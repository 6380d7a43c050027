/-
**Names that do not collide.**

* `collision?_eq_none_iff`: there is no collision exactly where all identifiers differ.
-/

import AppSchema.Name
import Mathlib.Data.List.Nodup

namespace AppSchema.Name

theorem collision?_eq_none {taken names : List Name} :
    collision? taken names = none ↔ (names.map ident).Nodup ∧
      ∀ name ∈ names, ∀ first ∈ taken, first.ident ≠ name.ident := by
  induction names generalizing taken with
  | nil => simp [collision?]
  | cons name rest ih =>
    rw [collision?]
    cases found : taken.find? (·.ident == name.ident) with
    | some first =>
      have same : first.ident = name.ident := by simpa using List.find?_some found
      have member := List.mem_of_find?_eq_some found
      simp only [reduceCtorEq, false_iff]
      rintro ⟨_, apart⟩
      exact apart name List.mem_cons_self first member same
    | none =>
      have free : ∀ first ∈ taken, first.ident ≠ name.ident := by simpa using found
      rw [ih, List.map_cons, List.nodup_cons, List.forall_mem_cons]
      simp only [List.forall_mem_cons, List.mem_map, not_exists, not_and]
      constructor
      · rintro ⟨distinct, others⟩
        refine ⟨⟨?_, distinct⟩, free, ?_⟩
        · intro other member same
          exact (others other member).1 same.symm
        · intro other member
          exact (others other member).2
      · rintro ⟨⟨apart, distinct⟩, _, others⟩
        refine ⟨distinct, fun other member => ⟨?_, others other member⟩⟩
        intro same
        exact apart other member same.symm

/-- **There is no collision exactly where all identifiers differ.** -/
theorem collision?_eq_none_iff {names : List Name} :
    collision? [] names = none ↔ (names.map ident).Nodup := by
  simp [collision?_eq_none]

end AppSchema.Name
