/-
**Views that have no order.**

A view leads to the last view of each name on which it depends. The views have an order exactly
where following these leads never comes back, and where they have none a visit has met a node on its path.

* `IsCycle`: different members, each related to the next and the last to the first;
* `isCycle_of_visit`: a visit that fails gives a cycle, without the path that leads to it;
* `DependencyOrder.not_cyclic`: views in an order are on no cycle;
* `order_error_iff_cyclic`: views have no order exactly where there is a cycle, and one is reported;
* `exists_order_of_perm`: whether views of different names have an order does not depend on the
  order in which they are given.
-/

import AppSchema.Proofs.View.Order
import Mathlib.Data.List.Chain
import Mathlib.Logic.Relation

namespace AppSchema.View

/-! ### Cycles -/

section Cycle

variable {α β : Type} {relates : α → α → Prop} {members : List α}

/-- **A cycle**: different members, each related to the next and the last to the first. -/
structure IsCycle (relates : α → α → Prop) (members : List α) : Prop where
  nonempty : members ≠ []
  distinct : members.Nodup
  closed : List.IsChain relates (members ++ members.head?.toList)

/-- What is behind the start of a chain is behind one of its elements. -/
theorem exists_relates_of_isChain {start : α} {rest : List α}
    (chain : List.IsChain relates (start :: rest)) {element : α} (member : element ∈ rest) :
    ∃ before ∈ start :: rest, relates before element := by
  induction rest generalizing start with
  | nil => cases member
  | cons next rest ih =>
    obtain ⟨first, others⟩ := List.isChain_cons_cons.mp chain
    rcases List.mem_cons.mp member with rfl | member
    · exact ⟨start, List.mem_cons_self, first⟩
    · obtain ⟨before, inside, relation⟩ := ih others member
      exact ⟨before, List.mem_cons_of_mem _ inside, relation⟩

/-- **Each member of a cycle has another, or itself, before it.** -/
theorem IsCycle.exists_before (cycle : IsCycle relates members) {member : α}
    (inside : member ∈ members) : ∃ before ∈ members, relates before member := by
  have closed := cycle.closed
  cases members with
  | nil => cases inside
  | cons first rest =>
    have behind : member ∈ rest ++ [first] := by
      rw [List.mem_append, List.mem_singleton]
      exact (List.mem_cons.mp inside).symm
    obtain ⟨before, there, relation⟩ := exists_relates_of_isChain closed behind
    have around : first :: (rest ++ [first]) ⊆ first :: rest := by simp
    exact ⟨before, around there, relation⟩

/-- **Going round a cycle leads back to the start.** -/
theorem IsCycle.exists_transGen (cycle : IsCycle relates members) :
    ∃ member, Relation.TransGen relates member member := by
  have closed := cycle.closed
  cases members with
  | nil => exact absurd rfl cycle.nonempty
  | cons first rest =>
    have steps : List.IsChain (Relation.TransGen relates) (first :: (rest ++ [first])) :=
      closed.imp fun _ _ => Relation.TransGen.single
    have last : first ∈ rest ++ [first] := by simp
    exact ⟨first, List.rel_of_pairwise_cons steps.pairwise last⟩

/-- **A cycle under other names**, which tell its members apart. -/
theorem IsCycle.map {renamed : β → β → Prop} (cycle : IsCycle relates members) {name : α → β}
    (names : ∀ first ∈ members, ∀ second ∈ members, relates first second →
      renamed (name first) (name second))
    (apart : ∀ first ∈ members, ∀ second ∈ members, name first = name second → first = second) :
    IsCycle renamed (members.map name) where
  nonempty := by simpa using cycle.nonempty
  distinct := cycle.distinct.map_on apart
  closed := by
    have inside : members ++ members.head?.toList ⊆ members := by
      cases members <;> simp
    have equal : members.map name ++ (members.map name).head?.toList =
        (members ++ members.head?.toList).map name := by
      cases members <;> simp
    rw [equal, List.isChain_map]
    refine cycle.closed.imp_of_mem_imp fun first second firstIn secondIn => ?_
    exact names first (inside firstIn) second (inside secondIn)

end Cycle

/-! ### Visits that fail -/

section Visit

variable {next : Nat → List Nat} {free path nodes : List Nat} {node : Nat}

/-- **Where a visit stands.** Its path follows what nodes lead to, up to those that it is given, and
every node is either free or on the path. -/
structure Stands (next : Nat → List Nat) (free path nodes : List Nat) : Prop where
  chain : List.IsChain (fun first second => second ∈ next first) path
  reached : ∀ last ∈ path.getLast?, nodes ⊆ next last
  distinct : (free ++ path).Nodup
  known : nodes ⊆ free ++ path
  targets : ∀ node, next node ⊆ free ++ path

theorem Stands.tail (stands : Stands next free path (node :: nodes)) :
    Stands next free path nodes :=
  { stands with
    reached := fun last member => (List.cons_subset.mp (stands.reached last member)).2
    known := (List.cons_subset.mp stands.known).2 }

theorem perm_enter (onFree : node ∈ free) :
    (free.erase node ++ (path ++ [node])).Perm (free ++ path) := by
  have moved : (free.erase node ++ (path ++ [node])).Perm (node :: (free.erase node ++ path)) := by
    rw [← List.append_assoc]
    exact List.perm_append_singleton node _
  exact moved.trans ((List.perm_cons_erase onFree).symm.append_right path)

/-- **Entering a free node.** -/
theorem Stands.enter (stands : Stands next free path (node :: nodes)) (onFree : node ∈ free) :
    Stands next (free.erase node) (path ++ [node]) (next node) where
  chain := by
    refine stands.chain.append (List.isChain_singleton node) ?_
    intro last atEnd first atStart
    obtain rfl : node = first := by simpa using atStart
    exact stands.reached last atEnd List.mem_cons_self
  reached last member := by
    obtain rfl : node = last := by simpa using member
    exact List.Subset.refl _
  distinct := (perm_enter onFree).nodup_iff.mpr stands.distinct
  known := List.Subset.trans (stands.targets node) (perm_enter onFree).symm.subset
  targets other := List.Subset.trans (stands.targets other) (perm_enter onFree).symm.subset

/-- **A node on the path closes a cycle**, which begins with it. -/
theorem Stands.isCycle (stands : Stands next free path (node :: nodes)) (onPath : node ∈ path) :
    IsCycle (fun first second => second ∈ next first) (path.dropWhile (· != node)) := by
  obtain ⟨before, after, split, fresh⟩ := List.eq_append_cons_of_mem onPath
  have cut : path.dropWhile (· != node) = node :: after := by
    rw [split, List.dropWhile_append_of_pos, List.dropWhile_cons_of_neg (by simp)]
    intro other member
    simpa using ne_of_mem_of_not_mem member fresh
  have suffix : node :: after <:+ path := ⟨before, split.symm⟩
  rw [cut]
  refine ⟨List.cons_ne_nil _ _, ?_, ?_⟩
  · exact (List.nodup_append.mp stands.distinct).2.1.sublist suffix.sublist
  · refine (stands.chain.suffix suffix).append (List.isChain_singleton node) ?_
    intro last atEnd first atStart
    obtain rfl : node = first := by simpa using atStart
    have ends : last ∈ path.getLast? := by
      rw [split, List.getLast?_append_of_ne_nil _ (List.cons_ne_nil _ _)]
      exact atEnd
    exact stands.reached last ends List.mem_cons_self

/-- **A visit that fails gives a cycle.** -/
theorem isCycle_of_visit {done cycle : List Nat}
    (visited : visit next free path done nodes = .error cycle)
    (stands : Stands next free path nodes) :
    IsCycle (fun first second => second ∈ next first) cycle := by
  fun_induction visit next free path done nodes with
  | case1 => cases visited
  | case2 free path done node rest isDone ih => exact ih visited stands.tail
  | case3 free path done node rest notDone onFree smaller inner innerVisit ihInner ih =>
    exact ih visited stands.tail
  | case4 free path done node rest notDone onFree smaller found innerVisit ihInner =>
    cases visited
    exact ihInner innerVisit (stands.enter onFree)
  | case5 free path done node rest notDone notFree =>
    cases visited
    have onPath : node ∈ path :=
      (List.mem_append.mp (stands.known List.mem_cons_self)).resolve_left notFree
    exact stands.isCycle onPath

end Visit

/-! ### Views on a cycle -/

variable {views : List View}

/-- **A view leads to the last view of each name on which it depends**, given by their positions. -/
def Leads (views : List View) (first second : Nat) : Prop :=
  ∃ view, views[first]? = some view ∧ ∃ name ∈ view.dependsOn, IsLastNamed views name second

/-- **The view of a name depends on another name.** The view of a name is the last that has it. -/
def DependsOn (views : List View) (first second : String) : Prop :=
  ∃ position view, IsLastNamed views first position ∧ views[position]? = some view ∧
    second ∈ view.dependsOn

theorem mem_dependencies_iff {first second : Nat} :
    second ∈ dependencies views first ↔ Leads views first second := by
  unfold dependencies Leads
  cases found : views[first]? with
  | none => simp
  | some view => simp [lastPosition?_eq_some_iff]

theorem IsLastNamed.lt_length {name : String} {position : Nat}
    (last : IsLastNamed views name position) : position < views.length := by
  obtain ⟨⟨view, found, _⟩, _⟩ := last
  exact (List.getElem?_eq_some_iff.mp found).1

/-- **A name has one last view.** -/
theorem IsLastNamed.unique {name : String} {first second : Nat}
    (firstLast : IsLastNamed views name first) (secondLast : IsLastNamed views name second) :
    first = second := by
  obtain ⟨⟨view, found, named⟩, last⟩ := firstLast
  obtain ⟨⟨other, there, same⟩, final⟩ := secondLast
  rcases Nat.lt_trichotomy first second with before | equal | behind
  · exact absurd same (last second other before there)
  · exact equal
  · exact absurd named (final first view behind found)

/-- The name of the view at a position. -/
def nameAt (views : List View) (position : Nat) : String :=
  (views.getD position default).name

theorem IsLastNamed.nameAt_eq {name : String} {position : Nat}
    (last : IsLastNamed views name position) : nameAt views position = name := by
  obtain ⟨⟨view, found, named⟩, _⟩ := last
  rw [nameAt, List.getD_eq_getElem?_getD, found]
  exact named

/-- **What a cycle of positions is called is a cycle of names.** Each of the positions is led to, so
it is that of the last view of its name. -/
theorem isCycle_names {cycle : List Nat} (isCycle : IsCycle (Leads views) cycle) :
    IsCycle (DependsOn views)
      (cycle.filterMap fun position => (views[position]?).map View.name) := by
  have last : ∀ position ∈ cycle, IsLastNamed views (nameAt views position) position := by
    intro position member
    obtain ⟨before, _, view, _, name, _, last⟩ := isCycle.exists_before member
    rwa [last.nameAt_eq]
  have names : (cycle.filterMap fun position => (views[position]?).map View.name) =
      cycle.map (nameAt views) := by
    rw [← List.filterMap_eq_map]
    refine List.filterMap_congr fun position member => ?_
    obtain ⟨⟨view, found, named⟩, _⟩ := last position member
    rw [found, Option.map_some, named]
    rfl
  rw [names]
  refine isCycle.map ?_ ?_
  · rintro first firstIn second _ ⟨view, found, name, reads, target⟩
    rw [target.nameAt_eq]
    exact ⟨first, view, last first firstIn, found, reads⟩
  · intro first firstIn second secondIn same
    have second_last := last second secondIn
    rw [← same] at second_last
    exact (last first firstIn).unique second_last

/-- **Views in an order are on no cycle.** Each lead goes to an earlier place in the order. -/
theorem DependencyOrder.not_cyclic {out : List View} {positions : List Nat}
    (order : DependencyOrder views out positions) (position : Nat) :
    ¬ Relation.TransGen (Leads views) position position := by
  have earlier : ∀ first second, Leads views first second →
      positions.idxOf second < positions.idxOf first := by
    rintro first second ⟨view, found, name, reads, last⟩
    have inside : first ∈ positions := by
      rw [order.each.mem_iff, List.mem_range]
      exact (List.getElem?_eq_some_iff.mp found).1
    obtain ⟨before, after, split, fresh⟩ := List.eq_append_cons_of_mem inside
    have named : name ∈ views.map View.name := by
      obtain ⟨⟨other, there, same⟩, _⟩ := last
      exact List.mem_map.mpr ⟨other, List.mem_of_getElem? there, same⟩
    obtain ⟨target, there, targetLast⟩ := order.behind before first after split view found name
      reads named
    obtain rfl := targetLast.unique last
    rw [split, List.idxOf_append_of_mem there, List.idxOf_append_of_notMem fresh,
      List.idxOf_cons_self, Nat.add_zero]
    exact List.idxOf_lt_length_of_mem there
  intro cyclic
  have descends : positions.idxOf position < positions.idxOf position := by
    have lifted := cyclic.lift (p := fun first second => second < first) positions.idxOf earlier
    rwa [Relation.transGen_eq_self] at lifted
  exact Nat.lt_irrefl _ descends

theorem stands_start (views : List View) :
    Stands (dependencies views) (List.range views.length) [] (List.range views.length) where
  chain := List.isChain_nil
  reached last member := by cases member
  distinct := by
    rw [List.append_nil]
    exact List.nodup_range
  known := by
    rw [List.append_nil]
    exact List.Subset.refl _
  targets node target member := by
    obtain ⟨_, _, _, _, last⟩ := mem_dependencies_iff.mp member
    rw [List.append_nil, List.mem_range]
    exact last.lt_length

/-- **What is reported where views have no order**: the names on a cycle of positions. -/
theorem exists_cycle_of_order {fault : Fault} (failed : View.order views = .error fault) :
    ∃ cycle, IsCycle (Leads views) cycle ∧ fault = .cyclicViewDependency
      (cycle.filterMap fun position => (views[position]?).map View.name) := by
  unfold View.order at failed
  cases visited : visit (dependencies views) (List.range views.length) [] []
      (List.range views.length) with
  | ok positions => simp [visited] at failed
  | error cycle =>
    simp only [visited, Except.error.injEq] at failed
    have isCycle := isCycle_of_visit visited (stands_start views)
    simp only [mem_dependencies_iff] at isCycle
    exact ⟨cycle, isCycle, failed.symm⟩

/-- **Views have no order exactly where following what they depend on leads back to some view**, and
then the views on such a cycle are reported, each once and before one on which it depends. -/
theorem order_error_iff_cyclic (views : List View) :
    ((∃ fault, View.order views = .error fault) ↔
      ∃ position, Relation.TransGen (Leads views) position position) ∧
    ∀ fault, View.order views = .error fault →
      ∃ members, fault = .cyclicViewDependency members ∧ IsCycle (DependsOn views) members := by
  refine ⟨⟨?_, ?_⟩, ?_⟩
  · rintro ⟨fault, failed⟩
    obtain ⟨cycle, isCycle, _⟩ := exists_cycle_of_order failed
    exact isCycle.exists_transGen
  · rintro ⟨position, cyclic⟩
    cases ordered : View.order views with
    | error fault => exact ⟨fault, rfl⟩
    | ok out =>
      obtain ⟨positions, order⟩ := exists_dependencyOrder ordered
      exact absurd cyclic (order.not_cyclic position)
  · intro fault failed
    obtain ⟨cycle, isCycle, rfl⟩ := exists_cycle_of_order failed
    exact ⟨_, rfl, isCycle_names isCycle⟩

/-- A cycle behind a view that is not on it. Of the two views with one name the second is on it. -/
theorem order_error_iff_cyclic_entered :
    let entry : View := { name := "a", schema := "s", table := "a", dependsOn := ["b"] }
    let first : View := { name := "b", schema := "s", table := "b" }
    let second : View := { name := "b", schema := "s", table := "b", dependsOn := ["x", "c"] }
    let last : View := { name := "c", schema := "s", table := "c", dependsOn := ["b"] }
    View.order [entry, first, second, last] = .error (.cyclicViewDependency ["b", "c"]) ∧
      IsCycle (DependsOn [entry, first, second, last]) ["b", "c"] := by
  intro entry first second last
  have failed : View.order [entry, first, second, last] =
      .error (.cyclicViewDependency ["b", "c"]) := by
    cbv
  obtain ⟨members, same, isCycle⟩ := (order_error_iff_cyclic _).2 _ failed
  obtain rfl := Fault.cyclicViewDependency.inj same
  exact ⟨failed, isCycle⟩

/-! ### Views that are given in another order -/

/-- A view depends on another. -/
def Reads (views : List View) (reader read : View) : Prop :=
  reader ∈ views ∧ read ∈ views ∧ read.name ∈ reader.dependsOn

/-- The position of the view of a name. -/
def positionOf (views : List View) (view : View) : Nat :=
  (views.map View.name).idxOf view.name

theorem getElem?_positionOf (distinct : (views.map View.name).Nodup) {view : View}
    (member : view ∈ views) : views[positionOf views view]? = some view := by
  have named := List.getElem?_idxOf (List.mem_map_of_mem (f := View.name) member)
  rw [List.getElem?_map] at named
  obtain ⟨other, found, same⟩ := Option.map_eq_some_iff.mp named
  rwa [List.inj_on_of_nodup_map distinct (List.mem_of_getElem? found) member same] at found

/-- Where names differ, every view is the last one of its name. -/
theorem isLastNamed_of_nodup (distinct : (views.map View.name).Nodup) {position : Nat}
    {view : View} (found : views[position]? = some view) :
    IsLastNamed views view.name position := by
  refine ⟨⟨view, found, rfl⟩, fun later other behind there same => ?_⟩
  have inside : position < (views.map View.name).length := by
    rw [List.length_map]
    exact (List.getElem?_eq_some_iff.mp found).1
  have equal : (views.map View.name)[position]? = (views.map View.name)[later]? := by
    rw [List.getElem?_map, List.getElem?_map, found, there, Option.map_some, Option.map_some, same]
  exact behind.ne ((List.getElem?_inj inside distinct).mp equal)

theorem Reads.leads (distinct : (views.map View.name).Nodup) {reader read : View}
    (reads : Reads views reader read) :
    Leads views (positionOf views reader) (positionOf views read) := by
  obtain ⟨readers, others, named⟩ := reads
  exact ⟨reader, getElem?_positionOf distinct readers, read.name, named,
    isLastNamed_of_nodup distinct (getElem?_positionOf distinct others)⟩

theorem Leads.reads {first second : Nat} (leads : Leads views first second) :
    Reads views (views.getD first default) (views.getD second default) := by
  obtain ⟨view, found, name, named, ⟨other, there, rfl⟩, _⟩ := leads
  rw [List.getD_eq_getElem?_getD, List.getD_eq_getElem?_getD, found, there]
  exact ⟨List.mem_of_getElem? found, List.mem_of_getElem? there, named⟩

/-- **Views of different names have an order whatever order they are given in.** A cycle is one of
views, and their positions do not matter to it. -/
theorem exists_order_of_perm (distinct : (views.map View.name).Nodup) {others out : List View}
    (perm : others.Perm views) (ordered : View.order views = .ok out) :
    ∃ result, View.order others = .ok result := by
  cases outcome : View.order others with
  | ok result => exact ⟨result, rfl⟩
  | error fault =>
    obtain ⟨cycle, isCycle, _⟩ := exists_cycle_of_order outcome
    obtain ⟨position, cyclic⟩ := isCycle.exists_transGen
    obtain ⟨positions, order⟩ := exists_dependencyOrder ordered
    have same : ∀ reader read, Reads others reader read → Reads views reader read :=
      fun reader read ⟨readers, reads, named⟩ =>
        ⟨perm.subset readers, perm.subset reads, named⟩
    have views_cyclic := cyclic.lift (others.getD · default) fun _ _ leads => same _ _ leads.reads
    have positions_cyclic := views_cyclic.lift (positionOf views) fun _ _ reads =>
      reads.leads distinct
    exact absurd positions_cyclic (order.not_cyclic _)

end AppSchema.View
