/-
**Views that stay where they are.**

Views of different names that come after all on which they depend are left as they are: where a view
is visited, what it depends on is done. The views of an order are such views, so that ordering them
once more changes nothing.

* `Arranged`: every view comes after the listed views on which it depends;
* `Arranged.inOrder`: then each leads to earlier ones only;
* `DependencyOrder.arranged`: views in an order are arranged;
* `order_eq_self_iff_arranged`: exactly the arranged views stay as they are, and orders do.
-/

import AppSchema.Proofs.View.Cycle

namespace AppSchema.View

variable {views out : List View}

/-- **Every view comes after the listed views on which it depends.** -/
def Arranged (views : List View) : Prop :=
  ∀ position, ∀ inside : position < views.length, ∀ target, ∀ there : target < views.length,
    views[target].name ∈ views[position].dependsOn → target < position

instance (views : List View) : Decidable (Arranged views) :=
  inferInstanceAs (Decidable (∀ position, ∀ inside : position < views.length,
    ∀ target, ∀ there : target < views.length,
      views[target].name ∈ views[position].dependsOn → target < position))

/-- **Arranged views lead to earlier ones only.** The view that a name stands for is a listed one. -/
theorem Arranged.inOrder (arranged : Arranged views) : InOrder views := by
  intro position inside target member
  obtain ⟨view, found, name, reads, ⟨other, there, named⟩, _⟩ := mem_dependencies_iff.mp member
  obtain ⟨bound, same⟩ := List.getElem?_eq_some_iff.mp there
  obtain ⟨_, here⟩ := List.getElem?_eq_some_iff.mp found
  apply arranged position inside target bound
  rwa [here, same, named]

/-- Where names differ, a name is at one position. -/
theorem position_eq_of_name (distinct : (views.map View.name).Nodup) {first second : Nat}
    (firstInside : first < views.length) (secondInside : second < views.length)
    (same : views[first].name = views[second].name) : first = second := by
  have firstNamed : first < (views.map View.name).length := by simpa using firstInside
  have secondNamed : second < (views.map View.name).length := by simpa using secondInside
  have equal : (views.map View.name)[first] = (views.map View.name)[second] := by simpa using same
  exact distinct.getElem_inj_iff.mp equal

/-- **Views in an order are arranged.** Before a view is one of each name on which it depends, and no
other view has that name. -/
theorem DependencyOrder.arranged {positions : List Nat} (distinct : (views.map View.name).Nodup)
    (order : DependencyOrder views out positions) : Arranged out := by
  intro position inside target there reads
  have names : (out.map View.name).Perm (views.map View.name) := order.perm.map View.name
  have split : out = out.take position ++ out[position] :: out.drop (position + 1) := by simp
  have named : out[target].name ∈ views.map View.name :=
    names.subset (List.mem_map_of_mem (List.getElem_mem there))
  obtain ⟨other, before, same⟩ := order.mem_before split reads named
  obtain ⟨earlier, bound, rfl⟩ := List.mem_take_iff_getElem.mp before
  have meet : earlier = target :=
    position_eq_of_name (names.nodup_iff.mpr distinct) (by omega) there same
  omega

/-- **Exactly the views that are arranged stay as they are**, if their names differ; and what an
order gives stays as it is. -/
theorem order_eq_self_iff_arranged (distinct : (views.map View.name).Nodup) :
    (View.order views = .ok views ↔ Arranged views) ∧
      ∀ out, View.order views = .ok out → View.order out = .ok out := by
  have arranged : ∀ out, View.order views = .ok out → Arranged out := by
    intro out ordered
    obtain ⟨positions, order⟩ := exists_dependencyOrder ordered
    exact order.arranged distinct
  refine ⟨⟨arranged views, fun holds => order_eq_self holds.inOrder⟩, ?_⟩
  intro out ordered
  exact order_eq_self (arranged out ordered).inOrder

/-- Two views that one view depends on and that depend on one themselves, given from the last to the
first. What the order gives is arranged, and stays as it is. -/
theorem order_eq_self_iff_arranged_diamond :
    let bottom : View := { name := "bottom", schema := "s", table := "bottom" }
    let left : View := { name := "left", schema := "s", table := "left", dependsOn := ["bottom"] }
    let right : View :=
      { name := "right", schema := "s", table := "right", dependsOn := ["x", "bottom"] }
    let top : View :=
      { name := "top", schema := "s", table := "top", dependsOn := ["right", "left"] }
    ([top, left, right, bottom].map View.name).Nodup ∧
      View.order [top, left, right, bottom] = .ok [bottom, right, left, top] ∧
      Arranged [bottom, right, left, top] ∧
      View.order [bottom, right, left, top] = .ok [bottom, right, left, top] ∧
      Arranged [bottom, left, right, top] ∧
      View.order [bottom, left, right, top] = .ok [bottom, left, right, top] := by
  intro bottom left right top
  have distinct : ([top, left, right, bottom].map View.name).Nodup := by decide
  have again : ([bottom, right, left, top].map View.name).Nodup := by decide
  have other : ([bottom, left, right, top].map View.name).Nodup := by decide
  have arranged : Arranged [bottom, left, right, top] := by decide
  have ordered : View.order [top, left, right, bottom] = .ok [bottom, right, left, top] := by
    cbv
  have stays := (order_eq_self_iff_arranged distinct).2 _ ordered
  exact ⟨distinct, ordered, (order_eq_self_iff_arranged again).1.mp stays, stays, arranged,
    (order_eq_self_iff_arranged other).1.mpr arranged⟩

/-- Where two views have one name, what the order gives may move: the second of them is put first,
and then the name stands for the other. -/
example :
    let reader : View := { name := "a", schema := "s", table := "a", dependsOn := ["b"] }
    let first : View := { name := "b", schema := "s", table := "b", dependsOn := ["c"] }
    let second : View := { name := "b", schema := "s", table := "b" }
    let last : View := { name := "c", schema := "s", table := "c" }
    View.order [reader, first, second, last] = .ok [second, reader, last, first] ∧
      View.order [second, reader, last, first] = .ok [second, last, first, reader] := by
  cbv

end AppSchema.View
