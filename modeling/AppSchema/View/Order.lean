/-
**The order of views.**

A view is created after the views that it reads. The views are visited in their given order, each
after those on which it depends, depth first. A view that is met again while it is being visited
closes a cycle, and then there is no order.

A name stands for the last view that has it, and a name that no view has for nothing.
-/

import AppSchema.View.Basic

namespace AppSchema.View

/-- Visits nodes and all that they lead to, and gives the nodes that are `done` in the order in
which they were finished. `path` leads to the nodes that are visited, and `free` are the nodes that
are not on it. A node that is on the path gives the cycle that it closes. -/
def visit (next : Nat → List Nat) (free path done : List Nat) :
    List Nat → Except (List Nat) (List Nat)
  | [] => .ok done
  | node :: rest =>
    if node ∈ done then visit next free path done rest
    else if onFree : node ∈ free then
      have : (free.erase node).length < free.length := by
        rw [List.length_erase_of_mem onFree]
        exact Nat.sub_lt (List.length_pos_of_mem onFree) Nat.one_pos
      match visit next (free.erase node) (path ++ [node]) done (next node) with
      | .ok done => visit next free path (done ++ [node]) rest
      | .error cycle => .error cycle
    else .error (path.dropWhile (· != node))
termination_by nodes => (free.length, nodes.length)

/-- The position of the last view of a name, of views that begin at a position. -/
def lastPosition? (name : String) (start : Nat) : List View → Option Nat
  | [] => none
  | view :: rest =>
    match lastPosition? name (start + 1) rest with
    | some position => some position
    | none => if view.name = name then some start else none

/-- The positions of the views on which the view at a position depends. -/
def dependencies (views : List View) (position : Nat) : List Nat :=
  match views[position]? with
  | some view => view.dependsOn.filterMap fun name => lastPosition? name 0 views
  | none => []

/-- The views in an order in which each comes after those that it reads. -/
def order (views : List View) : Except Fault (List View) :=
  let positions := List.range views.length
  match visit (dependencies views) positions [] [] positions with
  | .ok done => .ok (done.filterMap (views[·]?))
  | .error cycle =>
    .error (.cyclicViewDependency (cycle.filterMap fun position =>
      (views[position]?).map View.name))

end AppSchema.View
