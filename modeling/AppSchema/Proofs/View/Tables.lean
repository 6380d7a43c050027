/-
**What views read of tables is there.**

A view reads columns of its own table, of the tables and views that it joins, and in subqueries of
those that they select from. Names are resolved from the inside out, and a scope with two items of
one name does not say which of them is meant.

* `ColumnRef.item?`: what a qualifier stands for;
* `Layout.HasColumn`: a relation has a column if it is a table;
* `Layout.ReadsFrom`: a reference with what it is meant to stand for, which has its column; so are
  all references of a view (`Layout.Checked.readsFrom_of_mem`);
* `Settings.stored_of_build`: what formulas and views read of tables are columns of these tables.
-/

import AppSchema.Proofs.Formula.Stored
import AppSchema.Proofs.View.Joins

namespace AppSchema

open Sql (ColumnRef FromItem Leaf)

/-! ### Names -/

namespace Sql.ColumnRef

/-- **What a qualifier stands for**, in scopes from the inside out: the one item of its name in the
first scope that has any. -/
def item? (ref : ColumnRef) : List (List FromItem) → Option FromItem
  | [] => none
  | scope :: outer =>
    match scope.filter (·.name == ref.qualifier) with
    | [] => ref.item? outer
    | [item] => some item
    | _ => none

variable {ref : ColumnRef} {scope : List FromItem} {outer : List (List FromItem)}
  {item other : FromItem}

/-- A qualifier that an item of a scope has stands for this item or for none. -/
theorem eq_of_item?_cons (member : item ∈ scope) (named : item.name = ref.qualifier)
    (found : ref.item? (scope :: outer) = some other) : other = item := by
  have inside : item ∈ scope.filter (·.name == ref.qualifier) :=
    List.mem_filter.mpr ⟨member, by simpa using named⟩
  unfold item? at found
  split at found
  · next none =>
    rw [none] at inside
    cases inside
  · next one =>
    rw [one] at inside
    rw [← Option.some.inj found, List.mem_singleton.mp inside]
  · cases found

/-- Where no item has the qualifier, the scopes around decide. -/
theorem item?_cons_of_forall_ne (absent : ∀ item ∈ scope, item.name ≠ ref.qualifier) :
    ref.item? (scope :: outer) = ref.item? outer := by
  have none : scope.filter (·.name == ref.qualifier) = [] :=
    List.filter_eq_nil_iff.mpr fun item inside => by simpa using absent item inside
  rw [item?, none]

/-- **In a scope without repeated names** a qualifier stands for the item that has it. -/
theorem item?_cons_of_nodup (distinct : (scope.map FromItem.name).Nodup) (member : item ∈ scope)
    (named : item.name = ref.qualifier) : ref.item? (scope :: outer) = some item := by
  have one : scope.filter (·.name = item.name) = [item] := by
    have parts : (scope.flatMap fun item => [item]).filter (·.name = item.name) = [item] :=
      filter_flatMap_of_tagged FromItem.name
        (fun _ _ _ inside => congrArg FromItem.name (List.mem_singleton.mp inside)) distinct member
    rwa [List.flatMap_singleton'] at parts
  rw [item?, ← named]
  simp [one, beq_eq_decide]

end Sql.ColumnRef

/-- The name of an association is not the alias of tables. -/
theorem Plan.associationName_ne_related (first second : Entity) :
    associationName first second ≠ "related" := by
  intro same
  have heads := congrArg (fun name => name.toList.head?) same
  simp [associationName] at heads

/-! ### References -/

namespace Layout

/-- **A relation has a column if it is a table.** An association has to have it only where each of
them belongs to one pair of tables. -/
structure HasColumn (layout : Layout) (relation column : String) : Prop where
  object : ∀ table ∈ layout.tables, table.name = relation → table.kind = .object →
    column ∈ table.columns.map Column.name
  association : layout.LinksApart → ∀ table ∈ layout.tables, table.name = relation →
    table.kind = .association → column ∈ table.columns.map Column.name

/-- **A reference in the view of a host, with what it is meant to stand for**: an item of its own
subquery, the table of the host, or outside of subqueries a join. This has the column. -/
inductive ReadsFrom (layout : Layout) (host : Entity) (joins : List Join) (items : List FromItem) :
    ColumnRef → Prop
  | item {item : FromItem} {column : String} : item ∈ items →
    layout.HasColumn item.relation column → ReadsFrom layout host joins items ⟨item.name, column⟩
  | host {column : String} : layout.HasColumn host.name.ident column →
    ReadsFrom layout host joins items ⟨host.name.ident, column⟩
  | join {join : Join} {column : String} : items = [] → join ∈ joins →
    layout.HasColumn join.relation column →
    ReadsFrom layout host joins items ⟨join.aliasName, column⟩

variable {layout : Layout} {host : Entity} {joins : List Join} {items : List FromItem}
  {ref : ColumnRef}

theorem HasColumn.of_forall {relation column : String}
    (has : ∀ table ∈ layout.tables, table.name = relation →
      column ∈ table.columns.map Column.name) : layout.HasColumn relation column where
  object table tables named _ := has table tables named
  association _ table tables named _ := has table tables named

/-- **What a reference stands for has its column**, where only the table of the host may have its
name in a subquery. -/
theorem ReadsFrom.hasColumn (reads : layout.ReadsFrom host joins items ref)
    (own : ∀ item ∈ items, item.name = host.name.ident → item.relation = host.name.ident)
    {item : FromItem} (found : ref.item?
      [items, { relation := host.name.ident } :: joins.map Join.item] = some item) :
    layout.HasColumn item.relation ref.column := by
  cases reads with
  | item member has => rwa [ColumnRef.eq_of_item?_cons member rfl found]
  | host has =>
    by_cases shadowed : ∃ other ∈ items, other.name = host.name.ident
    · obtain ⟨other, member, named⟩ := shadowed
      rwa [ColumnRef.eq_of_item?_cons member named found, own other member named]
    · have absent : ∀ other ∈ items, other.name ≠ host.name.ident :=
        fun other member named => shadowed ⟨other, member, named⟩
      rw [ColumnRef.item?_cons_of_forall_ne absent] at found
      rwa [ColumnRef.eq_of_item?_cons List.mem_cons_self rfl found]
  | @join join _ none member has =>
    rw [none, ColumnRef.item?_cons_of_forall_ne fun _ inside => absurd inside List.not_mem_nil]
      at found
    have inside : join.item ∈
        ({ relation := host.name.ident } : FromItem) :: joins.map Join.item :=
      List.mem_cons_of_mem _ (List.mem_map_of_mem member)
    rwa [ColumnRef.eq_of_item?_cons inside rfl found]

/-- **A reference stands for something** where no scope repeats a name. -/
theorem ReadsFrom.exists_item (reads : layout.ReadsFrom host joins items ref)
    (inner : (items.map FromItem.name).Nodup)
    (distinct : (joins.map Join.aliasName).Nodup)
    (apart : host.name.ident ∉ joins.map Join.aliasName) :
    ∃ item, ref.item? [items, { relation := host.name.ident } :: joins.map Join.item] =
      some item := by
  have outer : (({ relation := host.name.ident } :: joins.map Join.item).map
      FromItem.name).Nodup := by
    rw [List.map_cons, List.map_map]
    exact List.nodup_cons.mpr ⟨apart, distinct⟩
  cases reads with
  | item member => exact ⟨_, ColumnRef.item?_cons_of_nodup inner member rfl⟩
  | host =>
    by_cases shadowed : ∃ other ∈ items, other.name = host.name.ident
    · obtain ⟨other, member, named⟩ := shadowed
      exact ⟨_, ColumnRef.item?_cons_of_nodup inner member named⟩
    · have absent : ∀ other ∈ items, other.name ≠ host.name.ident :=
        fun other member named => shadowed ⟨other, member, named⟩
      rw [ColumnRef.item?_cons_of_forall_ne absent]
      exact ⟨_, ColumnRef.item?_cons_of_nodup outer List.mem_cons_self rfl⟩
  | @join join _ none member =>
    rw [none, ColumnRef.item?_cons_of_forall_ne fun _ inside => absurd inside List.not_mem_nil]
    exact ⟨_, ColumnRef.item?_cons_of_nodup outer
      (List.mem_cons_of_mem _ (List.mem_map_of_mem member)) rfl⟩

/-- A column of ids is a column of its holder. -/
theorem HoldsIds.mem_columns {id : FieldId} {holder referenced : TableId} {column : String}
    {array : Bool} (holds : layout.HoldsIds id holder column referenced array) :
    column ∈ (layout.table holder).columns.map Column.name := by
  have only := List.mem_singleton_self (⟨column, if array then .array .integer else .integer, true,
    false, false, none, none, some id⟩ : Column)
  rw [← holds.columns] at only
  exact List.mem_map_of_mem (List.mem_of_mem_filter only)

end Layout

namespace Layout.Checked

open Formula

variable {schema : String} {plan : Plan} {left : List Diagnostic} {layout : Layout}
  {host other : Entity} {column : String}

/-! ### Columns -/

/-- A table is known by its name. -/
theorem eq_of_tableName (checked : layout.Checked schema plan left) {first second : Table}
    (firstIn : first ∈ layout.tables) (secondIn : second ∈ layout.tables)
    (same : first.name = second.name) : first = second :=
  List.inj_on_of_nodup_map (List.nodup_append.mp checked.distinctRelations).1 firstIn secondIn same

theorem hasColumn_of_mem (checked : layout.Checked schema plan left)
    (hosts : host ∈ layout.application.entities)
    (member : column ∈ (layout.table host.id).columns.map Column.name) :
    layout.HasColumn host.name.ident column := by
  refine .of_forall fun table tables named => ?_
  have there : layout.table host.id ∈ layout.tables :=
    checked.mem_tables.mpr (.inl ⟨host, hosts, (checked.table_entity hosts).symm⟩)
  rwa [checked.eq_of_tableName tables there (named.trans (checked.table_name hosts).symm)]

/-- **What is read of a source** has to be a column of the host's table only if the source is the
host itself. -/
theorem hasColumn_source (checked : layout.Checked schema plan left)
    (others : other ∈ layout.application.entities)
    (member : other.id = host.id → column ∈ (layout.table other.id).columns.map Column.name) :
    layout.HasColumn (layout.source host.id other.id).relation column := by
  rw [checked.source_eq others]
  split
  · next self => exact checked.hasColumn_of_mem others (member self)
  · refine .of_forall fun table tables named => ?_
    have named : table.name = other.viewName := named
    exact absurd (named ▸ List.mem_map_of_mem tables) (checked.viewName_not_mem_tables others)

/-- An association has to have a column only where each of them belongs to one pair. -/
theorem hasColumn_of_linksApart (checked : layout.Checked schema plan left) {made : Table}
    (there : made ∈ plan.associations)
    (has : layout.LinksApart → column ∈ (layout.table made.id).columns.map Column.name) :
    layout.HasColumn (layout.table made.id).name column := by
  have only : ∀ table ∈ layout.tables, table.name = (layout.table made.id).name →
      table = layout.table made.id := by
    intro table inside named
    refine checked.eq_of_tableName inside ?_ named
    rw [checked.table_association there]
    exact checked.mem_tables.mpr (.inr there)
  constructor
  · intro table inside named object
    have associates := checked.isAssociation_of_mem there
    rw [← checked.table_association there, ← only table inside named, Table.isAssociation, object]
      at associates
    cases associates
  · intro apart table inside named _
    rw [only table inside named]
    exact has apart

/-- **An association has the columns of its relations** where it belongs to one pair. -/
theorem hasColumn_association (checked : layout.Checked schema plan left) {association : TableId}
    {first second : TableId} {firstColumn secondColumn : String}
    (member : .manyToMany association first second firstColumn secondColumn ∈ layout.manyToMany) :
    layout.HasColumn (layout.table association).name firstColumn ∧
      layout.HasColumn (layout.table association).name secondColumn := by
  obtain ⟨_, _, _, _, made, there, _, same⟩ := checked.stored member
  obtain ⟨rfl, _⟩ := Relation.manyToMany.inj same
  have backs : layout.LinksApart →
      firstColumn ∈ (layout.table made.id).columns.map Column.name ∧
        secondColumn ∈ (layout.table made.id).columns.map Column.name := by
    intro apart
    obtain ⟨_, ⟨one, oneIn, rfl, _⟩, two, twoIn, rfl, _⟩ :=
      checked.backs_iff_linksApart.mpr apart _ member
    exact ⟨List.mem_map_of_mem oneIn, List.mem_map_of_mem twoIn⟩
  exact ⟨checked.hasColumn_of_linksApart there fun apart => (backs apart).1,
    checked.hasColumn_of_linksApart there fun apart => (backs apart).2⟩

/-! ### Leaves -/

variable {joins : List Join} {ref : ColumnRef}

/-- A column that is read of a source. -/
theorem readsFrom_source (checked : layout.Checked schema plan left)
    (others : other ∈ layout.application.entities)
    (own : other.id = host.id → column ∈ (layout.table other.id).columns.map Column.name)
    (items : List FromItem) :
    layout.ReadsFrom host joins (layout.source host.id other.id :: items)
      ⟨(layout.source host.id other.id).name, column⟩ :=
  .item List.mem_cons_self (checked.hasColumn_source others own)

/-- A column that is read of the host. -/
theorem readsFrom_host (checked : layout.Checked schema plan left)
    (hosts : host ∈ layout.application.entities)
    (member : column ∈ (layout.table host.id).columns.map Column.name) (items : List FromItem) :
    layout.ReadsFrom host joins items ⟨host.name.ident, column⟩ :=
  .host (checked.hasColumn_of_mem hosts member)

/-- **References of the rows that an association links.** -/
theorem readsFrom_association (checked : layout.Checked schema plan left)
    (hosts : host ∈ layout.application.entities) (others : other ∈ layout.application.entities)
    {name hostColumn otherColumn : String} (hostSide : layout.HasColumn name hostColumn)
    (otherSide : layout.HasColumn name otherColumn)
    (member : ref ∈ ((Link.association name hostColumn otherColumn).filter
      (layout.source host.id other.id).name host.name.ident).condition.refs) :
    layout.ReadsFrom host joins [layout.source host.id other.id, { relation := name }] ref := by
  have there : ({ relation := name } : FromItem) ∈
      [layout.source host.id other.id, { relation := name }] :=
    List.mem_cons_of_mem _ (List.mem_singleton_self _)
  rcases List.mem_append.mp member with member | member
  · rcases List.mem_pair.mp member with rfl | rfl
    · exact .item there otherSide
    · exact checked.readsFrom_source others (fun _ => checked.mem_columns_id others) _
  · rcases List.mem_pair.mp member with rfl | rfl
    · exact .item there hostSide
    · exact checked.readsFrom_host hosts (checked.mem_columns_id hosts) _

/-- **References of a subquery over linked rows.** -/
theorem readsFrom_rows (checked : layout.Checked schema plan left)
    (stores : layout.StoresConnections) (hosts : host ∈ layout.application.entities)
    {formula : Field} (hosted : formula.id.table = host.id) {connection : String} {outward : Bool}
    {link : Link} (others : other ∈ layout.application.entities)
    (found : linked layout formula connection outward = .ok (link, other.id))
    (own : other.id = host.id → column ∈ (layout.table other.id).columns.map Column.name)
    (member : ref ∈ (Leaf.rows ⟨(layout.source host.id other.id).name, column⟩
      (link.rows (layout.source host.id other.id) host.name.ident)).refs) :
    layout.ReadsFrom host joins (Leaf.rows ⟨(layout.source host.id other.id).name, column⟩
      (link.rows (layout.source host.id other.id) host.name.ident)).items ref := by
  rcases List.mem_cons.mp member with rfl | member
  · exact checked.readsFrom_source others own _
  obtain ⟨_, relation, stored, of⟩ := exists_of_linked found
  rw [hosted] at of
  obtain ⟨id, recorded⟩ := Layout.exists_mem_of_storedAs? stored
  have through : relation.isManyToMany = true → relation ∈ layout.manyToMany :=
    fun many => List.mem_filter.mpr ⟨List.mem_map_of_mem recorded, many⟩
  have key : "id" ∈ (layout.table other.id).columns.map Column.name :=
    checked.mem_columns_id others
  cases of with
  | inbound =>
    have there := (stores.holdsIds _ _ _ _ _ recorded).mem_columns
    rcases List.mem_pair.mp member with rfl | rfl
    · exact checked.readsFrom_source others (fun _ => there) _
    · exact checked.readsFrom_host hosts (checked.mem_columns_id hosts) _
  | @outbound _ array =>
    have there := (stores.holdsIds _ _ _ _ _ recorded).mem_columns
    cases array with
    | false =>
      rcases List.mem_pair.mp member with rfl | rfl
      · exact checked.readsFrom_source others (fun _ => key) _
      · exact checked.readsFrom_host hosts there _
    | true =>
      rcases List.mem_pair.mp member with rfl | rfl
      · exact checked.readsFrom_source others (fun _ => key) _
      · exact checked.readsFrom_host hosts there _
  | association =>
    obtain ⟨hostSide, otherSide⟩ := checked.hasColumn_association (through rfl)
    exact checked.readsFrom_association hosts others hostSide otherSide member
  | reversed =>
    obtain ⟨otherSide, hostSide⟩ := checked.hasColumn_association (through rfl)
    exact checked.readsFrom_association hosts others hostSide otherSide member

/-- **References of what a link reads.** A join that it needs has to be there. -/
theorem readsFrom_read (checked : layout.Checked schema plan left)
    (stores : layout.StoresConnections) (hosts : host ∈ layout.application.entities)
    {formula : Field} (hosted : formula.id.table = host.id) {connection : String}
    {link : Link} (others : other ∈ layout.application.entities)
    (found : linked layout formula connection true = .ok (link, other.id))
    (own : other.id = host.id → column ∈ (layout.table other.id).columns.map Column.name)
    (joined : ∀ join, link.join? (layout.source host.id other.id) host.name.ident = some join →
      join ∈ joins)
    {leaf : Leaf}
    (inside : leaf ∈ (link.read (layout.source host.id other.id) host.name.ident column).leaves)
    (member : ref ∈ leaf.refs) : layout.ReadsFrom host joins leaf.items ref := by
  cases needs : link.join? (layout.source host.id other.id) host.name.ident with
  | none =>
    rw [Link.read_of_join?_eq_none needs, Sql.Expr.leaves, List.mem_singleton] at inside
    subst inside
    exact checked.readsFrom_rows stores hosts hosted others found own member
  | some join =>
    rcases link with _ | ⟨hostColumn, _ | _⟩ | _
    · cases needs
    · rw [Link.read, Sql.Expr.leaves, List.mem_singleton] at inside
      subst inside
      rw [List.mem_singleton.mp member]
      obtain rfl := Option.some.inj needs
      exact .join rfl (joined _ rfl) (checked.hasColumn_source others own)
    · cases needs
    · cases needs

/-! ### Formulas and views -/

section

variable {stored : List (Entity × Field × Connection)}

/-- What is readable of the table of a field is a column of this table. -/
theorem mem_columns_of_readable (checked : layout.Checked schema plan left)
    (follows : Plan.Follows layout.application stored plan)
    (connections : stored ⊆ layout.application.connections) {key : String} {id : FieldId}
    (known : layout.index.field? key = some id)
    (readable : readableColumn layout (layout.field id) true = .ok column) :
    column ∈ (layout.table id.table).columns.map Column.name := by
  have required : layout.index.requireField key key = .ok id := requireField_eq_ok_iff.mpr known
  obtain ⟨owner, owners, table, inside, _⟩ := checked.field_of_requireField required
  obtain ⟨column, stores, rfl⟩ :=
    (checked.readableColumn_eq_ok_iff follows connections owners inside).mp readable
  rw [table]
  exact List.mem_map_of_mem
    (checked.column_cases follows connections owners inside stores).1

/-- What is read of the source of a table is a column of the table if this is the host. -/
theorem mem_columns_of_source (checked : layout.Checked schema plan left)
    (follows : Plan.Follows layout.application stored plan)
    (connections : stored ⊆ layout.application.connections) {key : String} {id : FieldId}
    (known : layout.index.field? key = some id) (table : id.table = other.id)
    (readable : readableColumn layout (layout.field id)
      (!(layout.source host.id other.id).isView) = .ok column) (self : other.id = host.id) :
    column ∈ (layout.table other.id).columns.map Column.name := by
  rw [layout.isView_source, decide_eq_true self, Bool.not_not] at readable
  rw [← table]
  exact checked.mem_columns_of_readable follows connections known readable

/-- **References of a compiled formula.** -/
theorem readsFrom_of_compile (checked : layout.Checked schema plan left)
    (follows : Plan.Follows layout.application stored plan)
    (connections : stored ⊆ layout.application.connections) (stores : layout.StoresConnections)
    (hosts : host ∈ layout.application.entities) {formula : Field} (inside : formula ∈ host.fields)
    {compiled : CompiledFormula} (found : compile layout formula = .ok compiled)
    (joined : compiled.joins ⊆ joins) {leaf : Leaf} (leaves : leaf ∈ compiled.expr.leaves)
    (member : ref ∈ leaf.refs) : layout.ReadsFrom host joins leaf.items ref := by
  have hosted := (checked.wellFormed.field_eq hosts inside).1
  have host_eq : layout.entity formula.id.table = host := by
    rw [hosted, Layout.entity, checked.wellFormed.entity_eq hosts]
  have joinsOf : ∀ join, join ∈ compiled.joins ↔ join ∈ neededJoins layout formula :=
    fun _ => checked.mem_joins_iff hosts inside found
  unfold compile at found
  split at found
  · obtain ⟨link, _, column, linked, summed, rfl⟩ := compileAggregate_eq_ok_iff.mp found
    obtain ⟨other, others, rfl, _⟩ := checked.fits_of_linked hosted linked
    rw [host_eq, hosted] at leaves
    rw [hosted] at summed
    rw [List.mem_singleton.mp leaves] at member ⊢
    refine checked.readsFrom_rows stores hosts hosted others linked (fun self => ?_) member
    rcases aggregateColumn_eq_ok_iff.mp summed with ⟨_, rfl⟩ | ⟨_, _, _, _, known, table, readable⟩
    · exact checked.mem_columns_id others
    · exact checked.mem_columns_of_source follows connections known table readable self
  · next kind =>
    obtain ⟨token, named, _, _, _, resolved, leaves⟩ :=
      (mem_leaves_of_compileConcatenation kind found).2 leaf leaves
    rcases resolver_cases resolved with ⟨_, read, _⟩ | ⟨connection, via, read⟩
    · obtain ⟨id, column, known, table, readable, rfl⟩ := readOwn_eq_ok_iff.mp read
      rw [Sql.Expr.leaves, List.mem_singleton] at leaves
      rw [leaves] at member ⊢
      rw [List.mem_singleton.mp member, host_eq]
      have there := checked.mem_columns_of_readable follows connections known readable
      rw [table, hosted] at there
      exact checked.readsFrom_host hosts there _
    · obtain ⟨link, _, id, column, linked, known, table, readable, rfl, _⟩ :=
        readLinked_eq_ok_iff.mp read
      obtain ⟨other, others, rfl, _⟩ := checked.fits_of_linked hosted linked
      have needs : ∀ join, link.join? (layout.source host.id other.id) host.name.ident =
          some join → join ∈ joins := by
        intro join makes
        rw [← hosted, ← host_eq] at makes
        exact joined ((joinsOf join).mpr (mem_neededJoins.mpr
          ⟨token, named, connection, via, joinBy?_eq_some_iff.mpr ⟨link, _, linked, makes⟩⟩))
      rw [host_eq, hosted] at leaves
      rw [hosted] at readable
      exact checked.readsFrom_read stores hosts hosted others linked
        (checked.mem_columns_of_source follows connections known table readable) needs leaves member
  · cases found

/-- **References of a view.** -/
theorem readsFrom_of_mem (checked : layout.Checked schema plan left)
    (follows : Plan.Follows layout.application stored plan)
    (connections : stored ⊆ layout.application.connections) (stores : layout.StoresConnections)
    (hosts : host ∈ layout.application.entities) {leaf : Leaf}
    (inside : leaf ∈ (View.ofEntity layout (compileAll layout).1 host).leaves)
    (member : ref ∈ leaf.refs) :
    layout.ReadsFrom host (View.ofEntity layout (compileAll layout).1 host).joins leaf.items
      ref := by
  rcases List.mem_append.mp inside with leaves | leaves
  · rw [(checked.collects_ofEntity hosts).1.columns_eq] at leaves
    obtain ⟨_, items, leaves⟩ := List.mem_flatMap.mp leaves
    obtain ⟨compiled, there, rfl⟩ := List.mem_map.mp items
    obtain ⟨formula, own, found⟩ := mem_compiledOf.mp there
    have joined : compiled.joins ⊆ (View.ofEntity layout (compileAll layout).1 host).joins :=
      fun join has =>
        (checked.mem_joins_ofEntity_iff hosts).mpr ⟨formula, own, compiled, found, has⟩
    exact checked.readsFrom_of_compile follows connections stores hosts (List.mem_filter.mp own).1
      found joined leaves member
  · obtain ⟨join, joined, leaves⟩ := List.mem_flatMap.mp leaves
    obtain ⟨compares, inside, rfl⟩ := List.mem_map.mp leaves
    rw [List.mem_singleton.mp member]
    have joinOf := checked.joinOf_of_mem hosts joined
    have column := checked.alias_mem_columns joinOf
    obtain ⟨other, others, field, name, recorded, rfl⟩ := joinOf
    rcases List.mem_pair.mp inside with rfl | rfl
    · rw [← checked.table_entity hosts] at column
      exact checked.readsFrom_host hosts column _
    · exact .join rfl joined
        (checked.hasColumn_source others fun _ => checked.mem_columns_id others)

end

/-- **No two items of a subquery share a name.** -/
theorem nodup_items (checked : layout.Checked schema plan left) {aliases : List String}
    {leaf : Leaf} (leafOf : layout.LeafOf plan host aliases leaf) :
    (leaf.items.map FromItem.name).Nodup := by
  cases leafOf with
  | own => exact List.nodup_nil
  | joined => exact List.nodup_nil
  | @rows other link column others fits _ =>
    cases fits with
    | inbound => exact List.nodup_singleton _
    | @outbound _ _ array => cases array <;> exact List.nodup_singleton _
    | @association table _ _ there =>
      have apart : (layout.source host.id other.id).name ≠ table.name := by
        rw [checked.source_eq others]
        split
        · obtain ⟨position, found⟩ := List.mem_iff_getElem?.mp there
          obtain ⟨_, _, _, _, equal, _⟩ := checked.sound.association position table found
          rw [equal]
          exact (Plan.associationName_ne_related _ _).symm
        · intro same
          have tables := checked.association_mem_tables there
          rw [← same] at tables
          exact checked.viewName_not_mem_tables others tables
      exact List.nodup_cons.mpr ⟨fun member => apart (List.mem_singleton.mp member),
        List.nodup_singleton _⟩

end Layout.Checked

namespace Settings

variable {settings : Settings} {metadata : Metadata} {schema : Schema}

/-- **What formulas read of tables is there.** Every field that a compiled formula reads of its own
table has a column there, so it is no formula, and no connection whose ids are stored elsewhere. And
every reference of a view that stands for the table of an object, be it to the view's own one,
through a join or in a subquery, is to a column of this table. So is every reference that stands for
an association, where associations belong to one pair of tables each. A reference stands for
something unless a join has the name of the view's own table. -/
theorem stored_of_build (built : settings.build metadata = .ok schema) :
    ∃ layout left, settings.layout metadata = .ok (layout, left) ∧
      (∀ host ∈ layout.application.entities, ∀ formula ∈ host.formulaFields, ∀ compiled,
        Formula.compile layout formula = .ok compiled →
        (∃ view ∈ schema.views, view.table = host.name.ident ∧ compiled.item ∈ view.columns ∧
          compiled.joins ⊆ view.joins) ∧
        ∀ id, Formula.ReadsStored layout formula id → ∃ field ∈ host.fields, field.id = id ∧
          field.kind.isFormula = false ∧ ∃ column ∈ (layout.table host.id).columns,
            layout.column? id = some column ∧
              ∃ leaf ∈ compiled.expr.leaves, leaf.ref.column = column.name) ∧
      ∀ view ∈ schema.views, ∀ leaf ∈ view.leaves, ∀ ref ∈ leaf.refs,
        (∀ item, ref.item? [leaf.items, view.scope] = some item →
          (∀ table ∈ schema.tables, table.name = item.relation → table.kind = .object →
            ref.column ∈ table.columns.map Column.name) ∧
          (layout.LinksApart → ∀ table ∈ schema.tables, table.name = item.relation →
            table.kind = .association → ref.column ∈ table.columns.map Column.name)) ∧
        (view.table ∉ view.joins.map Join.aliasName →
          ∃ item, ref.item? [leaf.items, view.scope] = some item) := by
  obtain ⟨layout, left, views, laid, _, ordered, rfl⟩ := build_eq_ok_iff.mp built
  obtain ⟨plan, _, _, checked, follows, sublist, _⟩ := exists_follows_of_layout laid
  obtain ⟨positions, order⟩ := View.exists_dependencyOrder ordered
  have stores := storesConnections_of_layout laid
  refine ⟨layout, left, laid, fun host hosts formula formulas compiled found => ⟨?_, ?_⟩,
    fun view member leaf leaves ref refs => ?_⟩
  · have collects := checked.collects_ofEntity hosts
    refine ⟨_, order.perm.symm.subset (List.mem_map_of_mem hosts), collects.2.2.2, ?_,
      fun join has => (checked.mem_joins_ofEntity_iff hosts).mpr
        ⟨formula, formulas, compiled, found, has⟩⟩
    rw [collects.1.columns_eq]
    exact List.mem_map_of_mem (Formula.mem_compiledOf.mpr ⟨formula, formulas, found⟩)
  · exact fun id reads => checked.exists_column_of_readsStored follows sublist.subset hosts
      (List.mem_filter.mp formulas).1 found reads
  · obtain ⟨host, hosts, rfl⟩ := List.mem_map.mp (order.perm.subset member)
    have reads := checked.readsFrom_of_mem follows sublist.subset stores hosts leaves refs
    obtain ⟨_, leafOf⟩ := checked.leafOf_of_mem hosts leaves
    have distinct := checked.nodup_aliases hosts
    rw [View.scope, (checked.collects_ofEntity hosts).2.2.2]
    refine ⟨fun item stands => ?_, reads.exists_item (checked.nodup_items leafOf) distinct⟩
    have has := reads.hasColumn
      (fun other inside named => ((checked.name_eq_of_mem_items hosts leafOf inside).mp named).2)
      stands
    exact ⟨has.object, has.association⟩

/-- Persons who are named with their parents. -/
def personsWithParents : Metadata :=
  ⟨[⟨"object_1", "Person",
      [{ key := "field_1", name := "Name", sourceType := "short_text" },
       Layout.oneSided "field_2" "Parent" ⟨"object_1", .one, .one⟩,
       textFormula "field_3" "Label" "\x7bfield_1\x7d of \x7bfield_2.field_1\x7d"]⟩]⟩

/-- The name of a parent is read of the same table, through a join. -/
theorem stored_of_build_personsWithParents :
    ∃ schema, ({} : Settings).build personsWithParents = .ok schema ∧
      ∃ view ∈ schema.views, ∃ leaf ∈ view.leaves, ∃ ref ∈ leaf.refs,
        ref = ⟨"parent_rel_person_id", "name"⟩ ∧
        ref.item? [leaf.items, view.scope] =
          some { relation := "person", aliasName := some "parent_rel_person_id" } ∧
        ∃ table ∈ schema.tables, table.name = "person" ∧
          ref.column ∈ table.columns.map Column.name := by
  have compiles : ({} : Settings).compilesTo personsWithParents (fun _ schema =>
      decide (∃ view ∈ schema.views, ∃ leaf ∈ view.leaves, ∃ ref ∈ leaf.refs,
        ref = ⟨"parent_rel_person_id", "name"⟩ ∧
        ref.item? [leaf.items, view.scope] =
          some { relation := "person", aliasName := some "parent_rel_person_id" } ∧
        ∃ table ∈ schema.tables, table.name = "person" ∧ table.kind = .object)) = true := by
    decide +kernel
  obtain ⟨_, _, schema, _, built, holds⟩ := exists_build compiles
  obtain ⟨view, views, leaf, leaves, ref, refs, same, stands, table, tables, named, object⟩ :=
    of_decide_eq_true holds
  obtain ⟨_, _, _, _, reads⟩ := stored_of_build built
  exact ⟨schema, built, view, views, leaf, leaves, ref, refs, same, stands, table, tables, named,
    ((reads view views leaf leaves ref refs).1 _ stands).1 table tables named object⟩

end Settings

end AppSchema
