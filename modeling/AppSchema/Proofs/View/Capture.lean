/-
**Where a view captures the name of its table.**

Inside of a view the name of its table stands for the row that is shown, also in a subquery, unless
a join or a source of the subquery has that name. Two names can be in its way: the alias under which
a table is read from inside its own view, and a column of ids, after which a join is named.

* `View.CaptureFree`: no two joins share an alias, and nothing but the table has its name;
* `View.CaptureFree.find?_scope`: then the name stands for the table at every leaf;
* `Layout.Checked.nodup_aliases`: no two joins of a view share an alias;
* `Layout.Checked.name_eq_of_mem_items`: of what a subquery reads, only the table itself can have
  the name of the table, under its alias;
* `Settings.captureFree_of_build`: when a view of a compiled application is free of captures.

`Settings.captured_related` and `Settings.captured_alias` are applications with views that are not.
-/

import AppSchema.Proofs.View.Shown

namespace AppSchema

open Sql (FromItem Leaf)

namespace View

/-- **A view that captures no name.** -/
structure CaptureFree (view : View) : Prop where
  distinct : (view.joins.map Join.aliasName).Nodup
  joins : view.table ∉ view.joins.map Join.aliasName
  items : ∀ leaf ∈ view.leaves, ∀ item ∈ leaf.items, item.name ≠ view.table

/-- Some subquery of a view reads the view's own table. -/
def ReadsItself (view : View) : Prop :=
  ∃ leaf ∈ view.leaves, ∃ item ∈ leaf.items, item.relation = view.table

instance (view : View) : Decidable view.ReadsItself :=
  inferInstanceAs (Decidable (∃ leaf ∈ view.leaves, ∃ item ∈ leaf.items, _ = _))

/-- **The name of the table stands for the table** at every leaf of a view that captures no name. -/
theorem CaptureFree.find?_scope {view : View} (free : view.CaptureFree) {leaf : Leaf}
    (member : leaf ∈ view.leaves) :
    (leaf.items ++ view.scope).find? (·.name == view.table) =
      some { relation := view.table } := by
  have absent : leaf.items.find? (·.name == view.table) = none :=
    List.find?_eq_none.mpr fun item inside => by simpa using free.items leaf member item inside
  rw [List.find?_append, absent, Option.none_or, scope]
  exact List.find?_cons_of_pos (by simp [FromItem.name])

/-! ### Aliases -/

variable {view : View}

theorem nodup_addJoin (distinct : (view.joins.map Join.aliasName).Nodup) (join : Join) :
    ((view.addJoin join).joins.map Join.aliasName).Nodup := by
  unfold addJoin
  split
  · exact distinct
  · next fresh =>
    have apart : join.aliasName ∉ view.joins.map Join.aliasName := by
      intro known
      obtain ⟨other, member, same⟩ := List.mem_map.mp known
      exact fresh (List.any_eq_true.mpr ⟨other, member, by simpa using same⟩)
    rw [List.map_append, List.map_singleton, List.nodup_append]
    refine ⟨distinct, List.nodup_singleton _, fun name known other same equal => apart ?_⟩
    rwa [← List.mem_singleton.mp same, ← equal]

theorem nodup_addFormula (distinct : (view.joins.map Join.aliasName).Nodup)
    (formula : CompiledFormula) : ((view.addFormula formula).joins.map Join.aliasName).Nodup := by
  have joined : ((formula.joins.foldl addJoin { view with
      columns := view.columns ++ [formula.item] }).joins.map Join.aliasName).Nodup :=
    List.foldlRecOn (motive := fun (view : View) => (view.joins.map Join.aliasName).Nodup)
      formula.joins addJoin distinct fun _ kept join _ => nodup_addJoin kept join
  unfold addFormula
  obtain ⟨dependsOn, depends, _⟩ := foldl_addDependency formula.dependsOn (formula.joins.foldl
    addJoin { view with columns := view.columns ++ [formula.item] })
  rw [depends]
  exact joined

end View

namespace Layout.Checked

open Formula

variable {schema : String} {plan : Plan} {left : List Diagnostic} {layout : Layout}
  {entity : Entity}

/-- **No two joins of a view share an alias.** -/
theorem nodup_aliases (checked : layout.Checked schema plan left)
    (member : entity ∈ layout.application.entities) :
    ((View.ofEntity layout (compileAll layout).1 entity).joins.map Join.aliasName).Nodup := by
  rw [checked.ofEntity_eq member]
  exact List.foldlRecOn (motive := fun (view : View) => (view.joins.map Join.aliasName).Nodup)
    (compiledOf layout entity) View.addFormula List.nodup_nil
      fun _ kept formula _ => View.nodup_addFormula kept formula

/-- **A join is named after a column of the table.** -/
theorem alias_mem_columns (checked : layout.Checked schema plan left) {join : Join}
    (joins : layout.JoinOf plan entity join) :
    join.aliasName ∈
      (entity.table schema (plan.referencesOf entity.id)).columns.map Column.name := by
  obtain ⟨other, _, field, column, recorded, rfl⟩ := joins
  have stores := checked.sound.relation _ recorded
  generalize same : Relation.single entity.id column other.id false = relation at stores
  cases stores with
  | single _ _ reference =>
    obtain ⟨held, rfl, _⟩ := Relation.single.inj same
    rw [← held] at reference
    exact mem_columns_reference reference
  | manyToMany => cases same

/-- **No association has the name of an entity.** -/
theorem ident_ne_association (checked : layout.Checked schema plan left)
    (member : entity ∈ layout.application.entities) {table : Table}
    (association : table ∈ plan.associations) : table.name ≠ entity.name.ident := by
  have distinct := (List.nodup_append.mp checked.distinctRelations).1
  rw [checked.tables_eq, List.map_append] at distinct
  obtain ⟨_, _, apart⟩ := List.nodup_append.mp distinct
  have own : entity.name.ident ∈ (layout.application.entities.map fun entity =>
      entity.table schema (plan.referencesOf entity.id)).map Table.name :=
    List.mem_map_of_mem (List.mem_map_of_mem member)
  exact fun same => apart _ own _ (List.mem_map_of_mem association) same.symm

/-- **What a subquery reads has the name of the table** only if it is the table itself, which has an
alias there. -/
theorem name_eq_of_mem_items (checked : layout.Checked schema plan left)
    (member : entity ∈ layout.application.entities) {aliases : List String} {leaf : Leaf}
    (leafOf : layout.LeafOf plan entity aliases leaf) {item : FromItem}
    (inside : item ∈ leaf.items) :
    item.name = entity.name.ident ↔
      entity.name.ident = "related" ∧ item.relation = entity.name.ident := by
  have apart : item.name = item.relation → item.relation ≠ entity.name.ident →
      (item.name = entity.name.ident ↔
        entity.name.ident = "related" ∧ item.relation = entity.name.ident) :=
    fun named other => ⟨fun same => absurd (named ▸ same) other, fun same => absurd same.2 other⟩
  cases leafOf with
  | own => cases inside
  | joined => cases inside
  | @rows other link column others fits _ =>
    rcases List.mem_cons.mp inside with rfl | filtered
    · show (layout.source entity.id other.id).name = _ ↔
        _ ∧ (layout.source entity.id other.id).relation = _
      rw [checked.source_eq others]
      split
      · next self =>
        obtain rfl := checked.eq_of_id others member self
        exact ⟨fun same => ⟨same.symm, rfl⟩, fun same => same.1.symm⟩
      · have notTable := checked.viewName_not_mem_tables others
        have own := checked.ident_mem_tables member
        refine ⟨fun same => absurd ?_ notTable, fun same => absurd ?_ notTable⟩
        · rwa [show other.viewName = entity.name.ident from same]
        · rwa [show other.viewName = entity.name.ident from same.2]
    · cases fits with
      | inbound => cases filtered
      | @outbound _ _ array => cases array <;> cases filtered
      | association there =>
        rw [List.mem_singleton.mp filtered] at apart ⊢
        exact apart rfl (checked.ident_ne_association member there)

end Layout.Checked

namespace Settings

/-- **When a view captures no name.** No two joins of a view share an alias, and neither another
view nor an association that it reads has the name of its table. So a name is captured exactly where
a join has the name of the table, which has a column of that name then, or where a table that is
named like the alias of tables is read from inside its own view. Otherwise the name of the table
stands for it everywhere in the view. -/
theorem captureFree_of_build {settings : Settings} {metadata : Metadata} {schema : Schema}
    (built : settings.build metadata = .ok schema) :
    ∀ view ∈ schema.views, (view.joins.map Join.aliasName).Nodup ∧
      (view.CaptureFree ↔ view.table ∉ view.joins.map Join.aliasName ∧
        ¬ (view.table = "related" ∧ view.ReadsItself)) ∧
      (view.table ∈ view.joins.map Join.aliasName → ∃ table ∈ schema.tables,
        table.name = view.table ∧ view.table ∈ table.columns.map Column.name) ∧
      (view.CaptureFree → ∀ leaf ∈ view.leaves,
        (leaf.items ++ view.scope).find? (·.name == view.table) =
          some { relation := view.table }) := by
  obtain ⟨layout, left, plan, views, _, checked, order, rfl⟩ := checked_of_build built
  intro view member
  obtain ⟨entity, entities, rfl⟩ := List.mem_map.mp (order.subset member)
  have distinct := checked.nodup_aliases entities
  have columns : ∀ join ∈ (View.ofEntity layout (Formula.compileAll layout).1 entity).joins,
      join.aliasName ∈ (entity.table settings.dataSchema
        (plan.referencesOf entity.id)).columns.map Column.name :=
    fun _ inside => checked.alias_mem_columns (checked.joinOf_of_mem entities inside)
  have table := (checked.collects_ofEntity entities).2.2.2
  have named : ∀ leaf ∈ (View.ofEntity layout (Formula.compileAll layout).1 entity).leaves,
      ∀ item ∈ leaf.items, (item.name = entity.name.ident ↔
        entity.name.ident = "related" ∧ item.relation = entity.name.ident) := by
    intro leaf leaves item items
    obtain ⟨_, leafOf⟩ := checked.leafOf_of_mem entities leaves
    exact checked.name_eq_of_mem_items entities leafOf items
  generalize View.ofEntity layout (Formula.compileAll layout).1 entity = view at *
  refine ⟨distinct, ⟨fun free => ⟨free.joins, ?_⟩, ?_⟩, fun joined => ?_,
    fun free leaf => free.find?_scope⟩
  · rintro ⟨related, leaf, leaves, item, items, own⟩
    rw [table] at related own
    refine free.items leaf leaves item items ?_
    rw [table]
    exact (named leaf leaves item items).mpr ⟨related, own⟩
  · rintro ⟨joins, notItself⟩
    refine ⟨distinct, joins, fun leaf leaves item items same => notItself ?_⟩
    rw [table] at same ⊢
    obtain ⟨related, own⟩ := (named leaf leaves item items).mp same
    exact ⟨related, leaf, leaves, item, items, own.trans table.symm⟩
  · obtain ⟨join, inside, same⟩ := List.mem_map.mp joined
    refine ⟨_, checked.mem_tables.mpr (.inl ⟨entity, entities, rfl⟩), table.symm, ?_⟩
    rw [← same]
    exact columns join inside

/-- Records that are connected to one of their own kind, and count the records that are connected to
them. -/
def countedRecords (label : String) : Metadata :=
  ⟨[⟨"object_1", label,
    [{ key := "field_1", name := "Parent", sourceType := "connection"
       relationship := some ⟨"object_1", .one, .one⟩ },
     { key := "field_2", name := "Children", sourceType := "count"
       format := some (.object [("connection", .string "field_1")]) }]⟩]⟩

/-- Persons are read from inside their own view, which captures no name. -/
theorem captureFree_of_build_persons :
    ∃ schema, ({} : Settings).build (countedRecords "Person") = .ok schema ∧
      ∃ view ∈ schema.views, view.ReadsItself ∧ view.CaptureFree := by
  have compiles : ({} : Settings).compilesTo (countedRecords "Person") (fun _ schema =>
      decide (∃ view ∈ schema.views, view.ReadsItself ∧
        view.table ∉ view.joins.map Join.aliasName ∧
          ¬ (view.table = "related" ∧ view.ReadsItself))) = true := by
    decide +kernel
  obtain ⟨_, _, schema, _, built, holds⟩ := exists_build compiles
  obtain ⟨view, member, itself, notCaptured⟩ := of_decide_eq_true holds
  obtain ⟨_, free, _⟩ := captureFree_of_build built view member
  exact ⟨schema, built, view, member, itself, free.mpr notCaptured⟩

/-- **The alias of tables may capture the name of a table**: where the records are called related,
the subquery compares a record with itself and never with the row that is shown. -/
theorem captured_related :
    ∃ schema, ({} : Settings).build (countedRecords "Related") = .ok schema ∧
      ∃ view ∈ schema.views, ∃ leaf ∈ view.leaves,
        (∃ item ∈ leaf.items, item.name = view.table) ∧
        (leaf.items ++ view.scope).find? (·.name == view.table) ≠
          some { relation := view.table } := by
  have compiles : ({} : Settings).compilesTo (countedRecords "Related") (fun _ schema =>
      decide (∃ view ∈ schema.views, ∃ leaf ∈ view.leaves,
        (∃ item ∈ leaf.items, item.name = view.table) ∧
        (leaf.items ++ view.scope).find? (·.name == view.table) ≠
          some { relation := view.table })) = true := by
    decide +kernel
  obtain ⟨_, _, schema, _, built, holds⟩ := exists_build compiles
  exact ⟨schema, built, of_decide_eq_true holds⟩

/-- Records whose label is the name of their column of ids. -/
def namedAfterColumn : Metadata :=
  ⟨[⟨"object_1", "B", [{ key := "field_1", name := "Text", sourceType := "short_text" }]⟩,
    ⟨"object_2", "A rel B id",
      [{ key := "field_2", name := "A", sourceType := "connection"
         relationship := some ⟨"object_1", .one, .one⟩ },
       textFormula "field_3" "Label" "\x7bfield_2.field_1\x7d"]⟩]⟩

/-- **A join may capture the name of a table**, which has a column of ids of that name. -/
theorem captured_alias :
    ∃ schema, ({} : Settings).build namedAfterColumn = .ok schema ∧
      ∃ view ∈ schema.views, view.table ∈ view.joins.map Join.aliasName := by
  have compiles : ({} : Settings).compilesTo namedAfterColumn (fun _ schema =>
      decide (∃ view ∈ schema.views, view.table ∈ view.joins.map Join.aliasName)) = true := by
    decide +kernel
  obtain ⟨_, _, schema, _, built, holds⟩ := exists_build compiles
  exact ⟨schema, built, of_decide_eq_true holds⟩

end Settings

end AppSchema
