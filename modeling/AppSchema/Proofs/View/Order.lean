/-
**The order of views, proved.**

* `visit_eq_append`: a visit keeps what is done and appends nodes that were free;
* `subset_of_visit`: a visit finishes the nodes that it was given;
* `Ordered.visit`: a visit keeps every node behind those that it leads to;
* `lastPosition?_eq_some_iff`: a name stands for the last view that has it;
* `order_dependencyOrder`: an order loses no view, repeats none, and has every view behind those
  that it reads;
* `order_eq_self`: views that are in order already stay as they are.
-/

import AppSchema.View.Order
import Mathlib.Data.List.Nodup
import Mathlib.Data.List.Perm.Basic

namespace AppSchema.View

/-! ### Visits -/

section Visit

variable {next : Nat → List Nat}

/-- **Every node comes after all that it leads to.** -/
def Ordered (next : Nat → List Nat) (nodes : List Nat) : Prop :=
  ∀ earlier node later, nodes = earlier ++ node :: later → ∀ target ∈ next node, target ∈ earlier

theorem ordered_nil : Ordered next [] := by
  intro earlier node later equal
  exact absurd equal (by simp)

/-- A node may come last once all that it leads to is there. -/
theorem Ordered.append {nodes : List Nat} (ordered : Ordered next nodes) {last : Nat}
    (there : next last ⊆ nodes) : Ordered next (nodes ++ [last]) := by
  intro earlier node later equal target member
  rcases List.eq_nil_or_concat later with rfl | ⟨later, final, rfl⟩
  · obtain ⟨rfl, same⟩ := List.append_inj' equal rfl
    cases same
    exact there member
  · rw [List.concat_eq_append, ← List.cons_append, ← List.append_assoc] at equal
    obtain ⟨rfl, _⟩ := List.append_inj' equal rfl
    exact ordered earlier node later rfl target member

/-- **A visit appends nodes that were free**, none of which was done. -/
theorem visit_eq_append {free path done nodes finished : List Nat}
    (visited : visit next free path done nodes = .ok finished) :
    ∃ added, finished = done ++ added ∧ added ⊆ free := by
  fun_induction visit next free path done nodes generalizing finished with
  | case1 free path done =>
    cases visited
    exact ⟨[], by simp, by simp⟩
  | case2 free path done node rest isDone ih => exact ih visited
  | case3 free path done node rest notDone onFree smaller inner innerVisit ihInner ih =>
    obtain ⟨below, rfl, belowFree⟩ := ihInner innerVisit
    obtain ⟨behind, rfl, behindFree⟩ := ih visited
    refine ⟨below ++ [node] ++ behind, by simp, ?_⟩
    intro added member
    rcases List.mem_append.mp member with member | member
    · rcases List.mem_append.mp member with member | member
      · exact List.mem_of_mem_erase (belowFree member)
      · rw [List.mem_singleton.mp member]
        exact onFree
    · exact behindFree member
  | case4 => cases visited
  | case5 => cases visited

theorem done_subset_of_visit {free path done nodes finished : List Nat}
    (visited : visit next free path done nodes = .ok finished) : done ⊆ finished := by
  obtain ⟨added, rfl, _⟩ := visit_eq_append visited
  exact List.subset_append_left done added

/-- **A visit finishes the nodes that it was given.** -/
theorem subset_of_visit {free path done nodes finished : List Nat}
    (visited : visit next free path done nodes = .ok finished) : nodes ⊆ finished := by
  fun_induction visit next free path done nodes generalizing finished with
  | case1 => exact List.nil_subset _
  | case2 free path done node rest isDone ih =>
    exact List.cons_subset.mpr ⟨done_subset_of_visit visited isDone, ih visited⟩
  | case3 free path done node rest notDone onFree smaller inner innerVisit ihInner ih =>
    refine List.cons_subset.mpr ⟨?_, ih visited⟩
    exact done_subset_of_visit visited (by simp)
  | case4 => cases visited
  | case5 => cases visited

/-- **A visit finishes no node twice.** The node of a call is not free inside it. -/
theorem nodup_of_visit {free path done nodes finished : List Nat}
    (visited : visit next free path done nodes = .ok finished)
    (distinctFree : free.Nodup) (distinct : done.Nodup) : finished.Nodup := by
  fun_induction visit next free path done nodes generalizing finished with
  | case1 =>
    cases visited
    exact distinct
  | case2 free path done node rest isDone ih => exact ih visited distinctFree distinct
  | case3 free path done node rest notDone onFree smaller inner innerVisit ihInner ih =>
    have innerDistinct := ihInner innerVisit (distinctFree.erase node) distinct
    have fresh : node ∉ inner := by
      obtain ⟨added, rfl, addedFree⟩ := visit_eq_append innerVisit
      intro member
      rcases List.mem_append.mp member with member | member
      · exact notDone member
      · exact distinctFree.not_mem_erase (addedFree member)
    refine ih visited distinctFree ?_
    rw [List.nodup_append]
    exact ⟨innerDistinct, List.nodup_singleton node, by grind⟩
  | case4 => cases visited
  | case5 => cases visited

/-- **A visit keeps every node behind those that it leads to.** Where a node is finished, the visit
of what it leads to has just finished all of that. -/
theorem Ordered.visit {free path done nodes finished : List Nat} (ordered : Ordered next done)
    (visited : visit next free path done nodes = .ok finished) : Ordered next finished := by
  fun_induction View.visit next free path done nodes generalizing finished with
  | case1 =>
    cases visited
    exact ordered
  | case2 free path done node rest isDone ih => exact ih ordered visited
  | case3 free path done node rest notDone onFree smaller inner innerVisit ihInner ih =>
    have below := ihInner ordered innerVisit
    exact ih (below.append (subset_of_visit innerVisit)) visited
  | case4 => cases visited
  | case5 => cases visited

/-- A visit of nodes that are done does nothing. -/
theorem visit_of_subset {free path done nodes : List Nat} (inside : nodes ⊆ done) :
    visit next free path done nodes = .ok done := by
  induction nodes with
  | nil => rw [visit]
  | cons node rest ih =>
    obtain ⟨here, others⟩ := List.cons_subset.mp inside
    rw [visit, if_pos here]
    exact ih others

/-- **A visit of nodes that lead to earlier ones only keeps their order.** -/
theorem visit_range' {count start : Nat} (free : List Nat) (path : List Nat)
    (onFree : ∀ node, start ≤ node → node < start + count → node ∈ free)
    (backward : ∀ node, start ≤ node → node < start + count → ∀ target ∈ next node, target < node) :
    visit next free path (List.range start) (List.range' start count) =
      .ok (List.range (start + count)) := by
  induction count generalizing start with
  | zero => rw [List.range'_zero, visit, Nat.add_zero]
  | succ count ih =>
    have done : next start ⊆ List.range start := by
      intro target member
      have before := backward start (Nat.le_refl _) (by omega) target member
      exact List.mem_range.mpr before
    have startFree : start ∈ free := onFree start (Nat.le_refl _) (by omega)
    rw [List.range'_succ, visit, if_neg (by simp), dif_pos startFree, visit_of_subset done]
    show visit next free path (List.range start ++ [start]) _ = _
    rw [← List.range_succ, ih (fun node after before => onFree node (by omega) (by omega))
      (fun node after before => backward node (by omega) (by omega))]
    congr 2
    omega

end Visit

/-! ### Names -/

/-- **The view at a position is the last one of a name.** -/
def IsLastNamed (views : List View) (name : String) (position : Nat) : Prop :=
  (∃ view, views[position]? = some view ∧ view.name = name) ∧
    ∀ later view, position < later → views[later]? = some view → view.name ≠ name

theorem isLastNamed_cons_succ {first : View} {rest : List View} {name : String} {position : Nat} :
    IsLastNamed (first :: rest) name (position + 1) ↔ IsLastNamed rest name position := by
  constructor
  · rintro ⟨here, last⟩
    refine ⟨here, fun later view behind found => ?_⟩
    exact last (later + 1) view (Nat.succ_lt_succ behind) found
  · rintro ⟨here, last⟩
    refine ⟨here, fun later view behind found => ?_⟩
    cases later with
    | zero => exact absurd behind (Nat.not_lt_zero _)
    | succ later => exact last later view (Nat.lt_of_succ_lt_succ behind) found

theorem isLastNamed_cons_zero {first : View} {rest : List View} {name : String} :
    IsLastNamed (first :: rest) name 0 ↔ first.name = name ∧ ∀ view ∈ rest, view.name ≠ name := by
  constructor
  · rintro ⟨⟨view, found, named⟩, last⟩
    cases found
    refine ⟨named, fun view member => ?_⟩
    obtain ⟨position, found⟩ := List.mem_iff_getElem?.mp member
    exact last (position + 1) view (Nat.succ_pos _) found
  · rintro ⟨named, others⟩
    refine ⟨⟨first, rfl, named⟩, fun later view behind found => ?_⟩
    cases later with
    | zero => exact absurd behind (Nat.lt_irrefl _)
    | succ later => exact others view (List.mem_of_getElem? found)

theorem lastPosition?_eq_none_iff {name : String} {start : Nat} {views : List View} :
    lastPosition? name start views = none ↔ ∀ view ∈ views, view.name ≠ name := by
  induction views generalizing start with
  | nil => simp [lastPosition?]
  | cons first rest ih =>
    have others : lastPosition? name (start + 1) rest = none ↔
        ∀ view ∈ rest, view.name ≠ name := ih
    rw [lastPosition?, List.forall_mem_cons, ← others]
    cases lastPosition? name (start + 1) rest <;> simp

/-- **A name stands for the last view that has it.** -/
theorem lastPosition?_eq_some_iff {name : String} {start position : Nat} {views : List View} :
    lastPosition? name start views = some position ↔
      ∃ offset, position = start + offset ∧ IsLastNamed views name offset := by
  induction views generalizing start position with
  | nil => simp [lastPosition?, IsLastNamed]
  | cons first rest ih =>
    rw [lastPosition?]
    cases found : lastPosition? name (start + 1) rest with
    | some behind =>
      obtain ⟨offset, same, last⟩ := ih.mp found
      constructor
      · rintro ⟨⟩
        exact ⟨offset + 1, by omega, isLastNamed_cons_succ.mpr last⟩
      · rintro ⟨other, rfl, otherLast⟩
        cases other with
        | zero =>
          obtain ⟨view, here, named⟩ := last.1
          obtain ⟨_, others⟩ := isLastNamed_cons_zero.mp otherLast
          exact absurd named (others view (List.mem_of_getElem? here))
        | succ other =>
          have below : lastPosition? name (start + 1) rest = some (start + 1 + other) :=
            ih.mpr ⟨other, rfl, isLastNamed_cons_succ.mp otherLast⟩
          rw [found] at below
          simp only [Option.some.injEq] at below ⊢
          omega
    | none =>
      have others := lastPosition?_eq_none_iff.mp found
      constructor
      · intro equal
        by_cases named : first.name = name
        · simp only [if_pos named, Option.some.injEq] at equal
          exact ⟨0, by omega, isLastNamed_cons_zero.mpr ⟨named, others⟩⟩
        · simp [if_neg named] at equal
      · rintro ⟨offset, rfl, last⟩
        cases offset with
        | zero => simp [(isLastNamed_cons_zero.mp last).1]
        | succ offset =>
          obtain ⟨view, here, named⟩ := (isLastNamed_cons_succ.mp last).1
          exact absurd named (others view (List.mem_of_getElem? here))

theorem exists_isLastNamed {views : List View} {name : String}
    (named : name ∈ views.map View.name) :
    ∃ position, lastPosition? name 0 views = some position ∧ IsLastNamed views name position := by
  obtain ⟨view, member, rfl⟩ := List.mem_map.mp named
  cases found : lastPosition? view.name 0 views with
  | none => exact absurd rfl (lastPosition?_eq_none_iff.mp found view member)
  | some position =>
    obtain ⟨offset, rfl, last⟩ := lastPosition?_eq_some_iff.mp found
    exact ⟨0 + offset, rfl, by rwa [Nat.zero_add]⟩

/-! ### The order -/

/-- **Positions put views in an order** if they name each view once and every view comes after
those on which it depends. -/
structure DependencyOrder (views out : List View) (positions : List Nat) : Prop where
  each : positions.Perm (List.range views.length)
  out_eq : out = positions.filterMap (views[·]?)
  behind : ∀ earlier position later, positions = earlier ++ position :: later →
    ∀ view, views[position]? = some view → ∀ name ∈ view.dependsOn, name ∈ views.map View.name →
      ∃ target ∈ earlier, IsLastNamed views name target

theorem filterMap_getElem?_range (views : List View) :
    (List.range views.length).filterMap (views[·]?) = views := by
  induction views with
  | nil => rfl
  | cons first rest ih =>
    rw [List.length_cons, List.range_succ_eq_map, List.filterMap_cons, List.filterMap_map]
    exact congrArg (first :: ·) ih

theorem exists_dependencyOrder {views out : List View} (ordered : View.order views = .ok out) :
    ∃ positions, DependencyOrder views out positions := by
  unfold View.order at ordered
  cases visited : visit (dependencies views) (List.range views.length) [] []
      (List.range views.length) with
  | error cycle => simp [visited] at ordered
  | ok positions =>
    simp only [visited, Except.ok.injEq] at ordered
    subst ordered
    have inRange : positions ⊆ List.range views.length := by
      obtain ⟨added, rfl, addedFree⟩ := visit_eq_append visited
      exact addedFree
    have distinct : positions.Nodup := nodup_of_visit visited List.nodup_range List.nodup_nil
    have each : positions.Perm (List.range views.length) := by
      rw [List.perm_ext_iff_of_nodup distinct List.nodup_range]
      intro position
      constructor
      · intro member
        exact inRange member
      · intro member
        exact subset_of_visit visited member
    refine ⟨positions, each, rfl, ?_⟩
    intro earlier position later equal view found name member named
    obtain ⟨target, resolved, last⟩ := exists_isLastNamed named
    refine ⟨target, ?_, last⟩
    refine ordered_nil.visit visited earlier position later equal target ?_
    simp only [dependencies, found]
    exact List.mem_filterMap.mpr ⟨name, member, resolved⟩

/-- Views in an order are the same views. -/
theorem DependencyOrder.perm {views out : List View} {positions : List Nat}
    (order : DependencyOrder views out positions) : out.Perm views := by
  have permuted := order.each.filterMap (views[·]?)
  rwa [filterMap_getElem?_range, ← order.out_eq] at permuted

/-- **What a view depends on is before it**, wherever it stands in the order. -/
theorem DependencyOrder.mem_before {views out before after : List View} {positions : List Nat}
    {view : View} (order : DependencyOrder views out positions)
    (split : out = before ++ view :: after) {name : String} (member : name ∈ view.dependsOn)
    (named : name ∈ views.map View.name) : ∃ other ∈ before, other.name = name := by
  rw [order.out_eq] at split
  obtain ⟨front, back, rfl, front_eq, back_eq⟩ := List.filterMap_eq_append_iff.mp split
  obtain ⟨empty, position, rest, rfl, nothing, found, _⟩ := List.filterMap_eq_cons_iff.mp back_eq
  obtain ⟨target, earlier, ⟨other, there, same⟩, _⟩ := order.behind (front ++ empty) position rest
    (by rw [List.append_assoc]) view found name member named
  refine ⟨other, ?_, same⟩
  rw [← front_eq]
  rcases List.mem_append.mp earlier with earlier | earlier
  · exact List.mem_filterMap.mpr ⟨target, earlier, there⟩
  · rw [nothing target earlier] at there
    cases there

/-- **An order loses no view, repeats none, and has every view after those that it reads**: where a
name is that of a view, its last view comes strictly before. -/
theorem order_dependencyOrder {views out : List View} (ordered : View.order views = .ok out) :
    out.Perm views ∧ ∃ positions, DependencyOrder views out positions := by
  obtain ⟨positions, order⟩ := exists_dependencyOrder ordered
  exact ⟨order.perm, positions, order⟩

/-- A name that two views have stands for the second, and one that no view has for nothing. -/
theorem order_dependencyOrder_repeated :
    let first : View := { name := "b", schema := "s", table := "b", dependsOn := ["c"] }
    let second : View := { name := "b", schema := "s", table := "b" }
    let reader : View := { name := "a", schema := "s", table := "a", dependsOn := ["b", "x"] }
    let last : View := { name := "c", schema := "s", table := "c" }
    View.order [reader, first, second, last] = .ok [second, reader, last, first] ∧
      [second, reader, last, first].Perm [reader, first, second, last] ∧
      ∃ positions, DependencyOrder [reader, first, second, last] [second, reader, last, first]
        positions := by
  intro first second reader last
  have ordered : View.order [reader, first, second, last] =
      .ok [second, reader, last, first] := by
    cbv
  exact ⟨ordered, order_dependencyOrder ordered⟩

/-! ### Views that are in order already -/

/-- **Views are in order already** where each reads earlier ones only. -/
def InOrder (views : List View) : Prop :=
  ∀ position < views.length, ∀ target ∈ dependencies views position, target < position

instance (views : List View) : Decidable (InOrder views) :=
  inferInstanceAs (Decidable (∀ position < views.length,
    ∀ target ∈ dependencies views position, target < position))

/-- **Views that are in order already stay as they are.** -/
theorem order_eq_self {views : List View} (inOrder : InOrder views) :
    View.order views = .ok views := by
  have visited : visit (dependencies views) (List.range views.length) [] (List.range 0)
      (List.range' 0 views.length) = .ok (List.range (0 + views.length)) := by
    refine visit_range' _ _ (fun node _ inside => ?_) fun node _ inside => ?_
    · exact List.mem_range.mpr (by omega)
    · exact inOrder node (by omega)
  rw [← List.range_eq_range', Nat.zero_add, List.range_zero] at visited
  unfold View.order
  simp only [visited, filterMap_getElem?_range]

end AppSchema.View
