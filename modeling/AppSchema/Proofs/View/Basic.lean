/-
**What views read.**

The view of an entity collects the columns, joins and dependencies of its compiled formulas. Its
scope is its own table and, behind it, what it joins.

* `View.reads`: the columns that a view reads, each with its relation;
* `View.Collects`: a view has the columns of some formulas, their joins under each alias once, and
  their dependencies;
* `Layout.Checked.collects_of_mem`: the views of a layout collect the compiled formulas of their
  entities;
* `Layout.Checked.provides_of_reads`: what they read is a column of a table, or one that a view is
  to show.
-/

import AppSchema.Proofs.Formula.Compile
import AppSchema.Proofs.Schema

namespace AppSchema

open Sql (ColumnRef FromItem Leaf Read)

/-- A join as an item of a scope. -/
def Join.item (join : Join) : FromItem :=
  { relation := join.relation, aliasName := some join.aliasName }

/-- The leaves of a selected expression. -/
def SelectItem.leaves : SelectItem → List Leaf
  | raw _ => []
  | named expr _ => expr.leaves

/-- The name of a selected expression. -/
def SelectItem.name? : SelectItem → Option String
  | raw _ => none
  | named _ name => some name

namespace View

/-- What the names of a view stand for: its table first. -/
def scope (view : View) : List FromItem :=
  { relation := view.table } :: view.joins.map Join.item

/-- The leaves of a view: those of its columns, and the columns that its joins compare. -/
def leaves (view : View) : List Leaf :=
  view.columns.flatMap SelectItem.leaves ++
    view.joins.flatMap fun join => join.on.refs.map Leaf.column

/-- **The columns that a view reads.** -/
def reads (view : View) : List Read :=
  view.leaves.flatMap (·.reads view.scope)

/-- **A view that collects formulas.** -/
structure Collects (formulas : List CompiledFormula) (view : View) : Prop where
  columns_eq : view.columns = formulas.map CompiledFormula.item
  joins : ∀ join ∈ view.joins, ∃ formula ∈ formulas, join ∈ formula.joins
  aliases : ∀ formula ∈ formulas, formula.joins.map Join.aliasName ⊆ view.joins.map Join.aliasName
  dependsOn : ∀ name, name ∈ view.dependsOn ↔
    name ≠ view.name ∧ ∃ formula ∈ formulas, name ∈ formula.dependsOn

/-- The fields of a view that adding formulas leaves as they are. -/
structure SameTable (first second : View) : Prop where
  name_eq : second.name = first.name
  schema_eq : second.schema = first.schema
  table_eq : second.table = first.table

/-! ### Collecting formulas -/

variable {view : View}

theorem addJoin_cases (view : View) (join : Join) :
    join.aliasName ∈ view.joins.map Join.aliasName ∧ view.addJoin join = view ∨
      view.addJoin join = { view with joins := view.joins ++ [join] } := by
  unfold addJoin
  split
  · next known =>
    obtain ⟨other, member, same⟩ := List.any_eq_true.mp known
    have named : other.aliasName = join.aliasName := by simpa using same
    exact .inl ⟨List.mem_map.mpr ⟨other, member, named⟩, rfl⟩
  · exact .inr rfl

theorem foldl_addJoin (joins : List Join) (view : View) :
    ∃ added, joins.foldl addJoin view = { view with joins := view.joins ++ added } ∧
      added ⊆ joins ∧ joins.map Join.aliasName ⊆ (view.joins ++ added).map Join.aliasName := by
  induction joins generalizing view with
  | nil => exact ⟨[], by simp, by simp, by simp⟩
  | cons join rest ih =>
    rw [List.foldl_cons]
    rcases addJoin_cases view join with ⟨known, same⟩ | same
    · obtain ⟨added, equal, inside, known'⟩ := ih view
      rw [same]
      refine ⟨added, equal, List.subset_cons_of_subset _ inside, ?_⟩
      rw [List.map_cons, List.cons_subset]
      refine ⟨?_, known'⟩
      rw [List.map_append]
      exact List.mem_append_left _ known
    · obtain ⟨added, equal, inside, known⟩ := ih { view with joins := view.joins ++ [join] }
      rw [same, equal]
      refine ⟨join :: added, by simp, List.cons_subset_cons _ inside, ?_⟩
      simp only [List.append_assoc, List.singleton_append] at known
      exact List.cons_subset.mpr ⟨by simp, known⟩

theorem foldl_addDependency (names : List String) (view : View) :
    ∃ dependsOn, names.foldl addDependency view = { view with dependsOn } ∧
      ∀ name, name ∈ dependsOn ↔ name ∈ view.dependsOn ∨ name ≠ view.name ∧ name ∈ names := by
  induction names generalizing view with
  | nil => exact ⟨view.dependsOn, rfl, by simp⟩
  | cons first rest ih =>
    rw [List.foldl_cons]
    unfold addDependency
    split
    · next known =>
      obtain ⟨dependsOn, equal, same⟩ := ih view
      refine ⟨dependsOn, equal, fun name => ?_⟩
      rw [same, List.mem_cons]
      constructor
      · rintro (there | ⟨apart, inside⟩)
        · exact .inl there
        · exact .inr ⟨apart, .inr inside⟩
      · rintro (there | ⟨apart, rfl | inside⟩)
        · exact .inl there
        · exact .inl (known.resolve_left apart)
        · exact .inr ⟨apart, inside⟩
    · next fresh =>
      obtain ⟨dependsOn, equal, same⟩ := ih { view with dependsOn := view.dependsOn ++ [first] }
      refine ⟨dependsOn, equal, fun name => ?_⟩
      rw [same, List.mem_append, List.mem_singleton, List.mem_cons]
      constructor
      · rintro ((there | rfl) | ⟨apart, inside⟩)
        · exact .inl there
        · exact .inr ⟨fun own => fresh (.inl own), .inl rfl⟩
        · exact .inr ⟨apart, .inr inside⟩
      · rintro (there | ⟨apart, rfl | inside⟩)
        · exact .inl (.inl there)
        · exact .inl (.inr rfl)
        · exact .inr ⟨apart, inside⟩

/-- **Adding one formula.** -/
theorem Collects.addFormula {formulas : List CompiledFormula} (collects : Collects formulas view)
    (formula : CompiledFormula) :
    Collects (formulas ++ [formula]) (view.addFormula formula) ∧
      SameTable view (view.addFormula formula) := by
  unfold View.addFormula
  obtain ⟨added, joined, inside, known⟩ :=
    foldl_addJoin formula.joins { view with columns := view.columns ++ [formula.item] }
  rw [joined]
  obtain ⟨dependsOn, depends, same⟩ := foldl_addDependency formula.dependsOn
    { view with columns := view.columns ++ [formula.item], joins := view.joins ++ added }
  rw [depends]
  refine ⟨⟨?_, fun join member => ?_, fun other member => ?_, fun name => ?_⟩, rfl, rfl, rfl⟩
  · simp [collects.columns_eq]
  · rcases List.mem_append.mp member with member | member
    · obtain ⟨other, there, has⟩ := collects.joins join member
      exact ⟨other, List.mem_append_left _ there, has⟩
    · exact ⟨formula, by simp, inside member⟩
  · rcases List.mem_append.mp member with member | member
    · rw [List.map_append]
      exact List.subset_append_of_subset_left _ (collects.aliases other member)
    · rw [List.mem_singleton.mp member]
      exact known
  · rw [same, collects.dependsOn]
    constructor
    · rintro (⟨apart, other, there, has⟩ | ⟨apart, has⟩)
      · exact ⟨apart, other, List.mem_append_left _ there, has⟩
      · exact ⟨apart, formula, by simp, has⟩
    · rintro ⟨apart, other, member, has⟩
      rcases List.mem_append.mp member with member | member
      · exact .inl ⟨apart, other, member, has⟩
      · rw [List.mem_singleton.mp member] at has
        exact .inr ⟨apart, has⟩

/-- **Adding all formulas.** -/
theorem Collects.foldl {seen : List CompiledFormula} (formulas : List CompiledFormula)
    (collects : Collects seen view) :
    Collects (seen ++ formulas) (formulas.foldl View.addFormula view) ∧
      SameTable view (formulas.foldl View.addFormula view) := by
  induction formulas generalizing seen view with
  | nil => exact ⟨by simpa using collects, rfl, rfl, rfl⟩
  | cons formula rest ih =>
    obtain ⟨step, same⟩ := collects.addFormula formula
    obtain ⟨all, others⟩ := ih step
    rw [List.append_cons]
    exact ⟨all, others.name_eq.trans same.name_eq, others.schema_eq.trans same.schema_eq,
      others.table_eq.trans same.table_eq⟩

/-- The columns of a view are named after its formulas. -/
theorem Collects.names_columns {formulas : List CompiledFormula}
    (collects : Collects formulas view) :
    view.columns.filterMap SelectItem.name? = formulas.map CompiledFormula.name := by
  rw [collects.columns_eq, List.filterMap_map]
  exact congrFun (List.filterMap_eq_map (f := CompiledFormula.name)) _

end View

/-- The compiled formulas of an entity. -/
def Formula.compiledOf (layout : Layout) (entity : Entity) : List CompiledFormula :=
  entity.formulaFields.filterMap fun field => (compile layout field).toOption

theorem Formula.mem_compiledOf {layout : Layout} {entity : Entity} {compiled : CompiledFormula} :
    compiled ∈ compiledOf layout entity ↔
      ∃ field ∈ entity.formulaFields, compile layout field = .ok compiled := by
  rw [compiledOf, List.mem_filterMap]
  refine exists_congr fun field => and_congr_right fun _ => ?_
  cases compile layout field <;> simp [Except.toOption]

/-- **What a view names**: its table, and tables and views that its joins and subqueries read. -/
structure Layout.Names (layout : Layout) (schema : String) (view : View) : Prop where
  schema_eq : view.schema = schema
  table : view.table ∈ layout.tables.map Table.name
  join : ∀ join ∈ view.joins, layout.Sees view.dependsOn join.relation
  item : ∀ item ∈ view.columns, ∀ leaf ∈ item.leaves, ∀ source ∈ leaf.items,
    layout.Sees view.dependsOn source.relation
  dependsOn : ∀ name ∈ view.dependsOn, name ∈ (Settings.viewsOf layout).map View.name

namespace Layout.Checked

open Formula

variable {schema : String} {plan : Plan} {left : List Diagnostic} {layout : Layout}

theorem eq_of_fieldId (checked : layout.Checked schema plan left) {first second : Entity}
    (firstIn : first ∈ layout.application.entities)
    (secondIn : second ∈ layout.application.entities) {field other : Field}
    (inside : field ∈ first.fields) (within : other ∈ second.fields) (same : field.id = other.id) :
    field = other := by
  rw [← (checked.wellFormed.field_eq firstIn inside).2, same,
    (checked.wellFormed.field_eq secondIn within).2]

/-- **The compiled formula of a field is found by its position.** -/
theorem find?_compileAll (checked : layout.Checked schema plan left) {entity : Entity}
    (member : entity ∈ layout.application.entities) {field : Field}
    (inside : field ∈ entity.formulaFields) :
    (compileAll layout).1.find? (·.field == field.id) = (compile layout field).toOption := by
  have own := (List.mem_filter.mp inside).1
  have same : ∀ compiled ∈ (compileAll layout).1, compiled.field = field.id →
      compile layout field = .ok compiled := by
    intro compiled there numbered
    obtain ⟨other, others, formula, within, found⟩ := mem_compileAll.mp there
    have within := (List.mem_filter.mp within).1
    have sound := checked.sound_of_compile others within found
    rwa [checked.eq_of_fieldId member others own within (numbered.symm.trans sound.field_eq)]
  cases found : (compileAll layout).1.find? (·.field == field.id) with
  | some compiled =>
    have numbered : compiled.field = field.id := by simpa using List.find?_some found
    rw [same compiled (List.mem_of_find?_eq_some found) numbered]
    rfl
  | none =>
    cases outcome : compile layout field with
    | error fault => rfl
    | ok compiled =>
      have there := mem_compileAll.mpr ⟨entity, member, field, inside, outcome⟩
      have sound := checked.sound_of_compile member own outcome
      exact absurd (List.find?_eq_none.mp found compiled there) (by simp [sound.field_eq])

/-- The view of an entity adds the compiled formulas to its table. -/
theorem ofEntity_eq (checked : layout.Checked schema plan left) {entity : Entity}
    (member : entity ∈ layout.application.entities) :
    View.ofEntity layout (compileAll layout).1 entity =
      (compiledOf layout entity).foldl View.addFormula
        { name := entity.viewName, schema, table := entity.name.ident } := by
  have compiled : (entity.formulaFields.filterMap fun field =>
      (compileAll layout).1.find? (·.field == field.id)) = compiledOf layout entity :=
    List.filterMap_congr fun field inside => checked.find?_compileAll member inside
  unfold View.ofEntity
  simp only [compiled, checked.table_entity member]
  rfl

/-- **The views of a layout collect the compiled formulas of their entities.** -/
theorem collects_ofEntity (checked : layout.Checked schema plan left) {entity : Entity}
    (member : entity ∈ layout.application.entities) :
    (View.ofEntity layout (compileAll layout).1 entity).Collects (compiledOf layout entity) ∧
      (View.ofEntity layout (compileAll layout).1 entity).name = entity.viewName ∧
      (View.ofEntity layout (compileAll layout).1 entity).schema = schema ∧
      (View.ofEntity layout (compileAll layout).1 entity).table = entity.name.ident := by
  have start : View.Collects []
      { name := entity.viewName, schema, table := entity.name.ident } :=
    ⟨rfl, by simp, by simp, by simp⟩
  obtain ⟨collects, same⟩ := start.foldl (compiledOf layout entity)
  rw [checked.ofEntity_eq member]
  exact ⟨collects, same.name_eq, same.schema_eq, same.table_eq⟩

theorem sound_of_mem (checked : layout.Checked schema plan left) {entity : Entity}
    (member : entity ∈ layout.application.entities) {formula : CompiledFormula}
    (inside : formula ∈ compiledOf layout entity) :
    ∃ field, formula.Sound layout plan entity field := by
  obtain ⟨field, formulas, found⟩ := mem_compiledOf.mp inside
  have own := (List.mem_filter.mp formulas).1
  exact ⟨field, checked.sound_of_compile member own found⟩

/-! ### Reads -/

/-- **An alias is that of one join.** The column of ids after which it is named stores one
relation. -/
theorem join_eq_of_alias (checked : layout.Checked schema plan left) {host : Entity}
    {first second : Join} (firstOf : layout.JoinOf plan host first)
    (secondOf : layout.JoinOf plan host second) (same : first.aliasName = second.aliasName) :
    first = second := by
  obtain ⟨other, others, field, column, recorded, rfl⟩ := firstOf
  obtain ⟨another, anothers, formula, name, again, rfl⟩ := secondOf
  obtain rfl : column = name := same
  have one := checked.sound.oneRelation _ recorded _ again (host.id, column) rfl rfl
  simp only [Prod.mk.injEq, Relation.single.injEq] at one
  rw [one.2.2.2.1]

/-- **What a leaf reads is provided**, in the scope of its host and of joins of the host. -/
theorem provides_of_leaf (checked : layout.Checked schema plan left) {host : Entity}
    (hosts : host ∈ layout.application.entities) {joins : List Join}
    (joinOf : ∀ join ∈ joins, layout.JoinOf plan host join) {aliases : List String}
    {leaf : Leaf} (leafOf : layout.LeafOf plan host aliases leaf) {read : Read}
    (member : read ∈ leaf.reads ({ relation := host.name.ident } :: joins.map Join.item)) :
    layout.Provides plan read := by
  cases leafOf with
  | own =>
    obtain ⟨ref, inside, found⟩ := List.mem_filterMap.mp member
    rw [List.mem_singleton.mp inside, Leaf.items, List.nil_append,
      ColumnRef.read?_cons_self rfl] at found
    cases found
    exact .inl (checked.ident_mem_tables hosts)
  | @joined join column isJoin known provides =>
    obtain ⟨ref, inside, found⟩ := List.mem_filterMap.mp member
    rw [List.mem_singleton.mp inside, Leaf.items, List.nil_append] at found
    obtain ⟨item, here, named, rfl⟩ := ColumnRef.exists_of_read? found
    rcases List.mem_cons.mp here with rfl | here
    · exact .inl (checked.ident_mem_tables hosts)
    · obtain ⟨other, otherIn, rfl⟩ := List.mem_map.mp here
      rwa [checked.join_eq_of_alias (joinOf other otherIn) isJoin named]
  | rows others fits offers => exact checked.provides_of_rows hosts others fits offers member

/-- The columns that a join compares are its host's and the ids of what it joins. -/
theorem leafOf_of_on (checked : layout.Checked schema plan left) {host : Entity} {join : Join}
    (joinOf : layout.JoinOf plan host join) {ref : ColumnRef} (member : ref ∈ join.on.refs) :
    layout.LeafOf plan host [join.aliasName] (.column ref) := by
  have isJoin := joinOf
  obtain ⟨other, others, field, column, recorded, rfl⟩ := joinOf
  rcases List.mem_pair.mp member with rfl | rfl
  · exact .own
  · have provides := checked.provides_source others host.id (checked.offers_id others)
    exact .joined isJoin (List.mem_singleton_self _) provides

/-- **The joins of a view are joins of its host.** -/
theorem joinOf_of_mem (checked : layout.Checked schema plan left) {entity : Entity}
    (member : entity ∈ layout.application.entities) {join : Join}
    (inside : join ∈ (View.ofEntity layout (compileAll layout).1 entity).joins) :
    layout.JoinOf plan entity join := by
  obtain ⟨formula, there, has⟩ := (checked.collects_ofEntity member).1.joins join inside
  obtain ⟨field, sound⟩ := checked.sound_of_mem member there
  exact (sound.reads.join join has).1

/-- **The leaves of a view are leaves of its host.** -/
theorem leafOf_of_mem (checked : layout.Checked schema plan left) {entity : Entity}
    (member : entity ∈ layout.application.entities) {leaf : Leaf}
    (inside : leaf ∈ (View.ofEntity layout (compileAll layout).1 entity).leaves) :
    ∃ aliases, layout.LeafOf plan entity aliases leaf := by
  rcases List.mem_append.mp inside with leaves | leaves
  · rw [(checked.collects_ofEntity member).1.columns_eq] at leaves
    obtain ⟨_, items, leaves⟩ := List.mem_flatMap.mp leaves
    obtain ⟨formula, there, rfl⟩ := List.mem_map.mp items
    obtain ⟨field, sound⟩ := checked.sound_of_mem member there
    exact ⟨_, (sound.leaf leaf leaves).1⟩
  · obtain ⟨join, joined, leaves⟩ := List.mem_flatMap.mp leaves
    obtain ⟨ref, compares, rfl⟩ := List.mem_map.mp leaves
    exact ⟨_, checked.leafOf_of_on (checked.joinOf_of_mem member joined) compares⟩

/-- **What a view of a layout reads is provided.** -/
theorem provides_of_reads (checked : layout.Checked schema plan left) {view : View}
    (member : view ∈ Settings.viewsOf layout) {read : Read} (reads : read ∈ view.reads) :
    layout.Provides plan read := by
  obtain ⟨entity, entities, rfl⟩ := List.mem_map.mp member
  obtain ⟨leaf, leaves, reads⟩ := List.mem_flatMap.mp reads
  obtain ⟨_, leafOf⟩ := checked.leafOf_of_mem entities leaves
  rw [View.scope, (checked.collects_ofEntity entities).2.2.2] at reads
  exact checked.provides_of_leaf entities (fun _ => checked.joinOf_of_mem entities) leafOf reads

/-! ### Names -/

/-- The views of a layout have the names of those of its entities. -/
theorem viewNames_eq (checked : layout.Checked schema plan left) :
    (Settings.viewsOf layout).map View.name =
      layout.application.entities.map Entity.viewName := by
  rw [Settings.viewsOf, View.ofLayout, List.map_map]
  exact List.map_congr_left fun entity member => (checked.collects_ofEntity member).2.1

/-- **No two views of a layout share a name.** -/
theorem nodup_viewNames (checked : layout.Checked schema plan left) :
    ((Settings.viewsOf layout).map View.name).Nodup := by
  rw [checked.viewNames_eq]
  exact (List.nodup_append.mp checked.distinctRelations).2.1

/-- **What a view of a layout names is a table or a view on which it depends**, and it depends on
views of the layout only. -/
theorem names_of_mem (checked : layout.Checked schema plan left) {view : View}
    (member : view ∈ Settings.viewsOf layout) :
    layout.Names schema view := by
  obtain ⟨entity, entities, rfl⟩ := List.mem_map.mp member
  obtain ⟨collects, name, sameSchema, table⟩ := checked.collects_ofEntity entities
  generalize View.ofEntity layout (compileAll layout).1 entity = view at *
  have depends : ∀ formula ∈ compiledOf layout entity, ∀ relation,
      layout.Sees formula.dependsOn relation → layout.Sees view.dependsOn relation := by
    rintro formula inside relation (table | reads)
    · exact .inl table
    · obtain ⟨field, sound⟩ := checked.sound_of_mem entities inside
      obtain ⟨other, others, apart, same⟩ := sound.reads.view relation reads
      have notOwn : relation ≠ view.name := by
        intro own
        have one := checked.eq_of_viewName others entities (same.symm.trans (own.trans name))
        rw [one] at apart
        exact apart rfl
      exact .inr ((collects.dependsOn relation).mpr ⟨notOwn, formula, inside, reads⟩)
  refine ⟨sameSchema, table ▸ checked.ident_mem_tables entities, fun join inside => ?_,
    fun item inside leaf leaves source sources => ?_, fun relation reads => ?_⟩
  · obtain ⟨formula, there, has⟩ := collects.joins join inside
    obtain ⟨field, sound⟩ := checked.sound_of_mem entities there
    exact depends formula there _ (sound.reads.join join has).2
  · rw [collects.columns_eq] at inside
    obtain ⟨formula, there, rfl⟩ := List.mem_map.mp inside
    obtain ⟨field, sound⟩ := checked.sound_of_mem entities there
    exact depends formula there _ ((sound.leaf leaf leaves).2 source sources)
  · obtain ⟨_, formula, there, has⟩ := (collects.dependsOn relation).mp reads
    obtain ⟨field, sound⟩ := checked.sound_of_mem entities there
    obtain ⟨other, others, _, rfl⟩ := sound.reads.view relation has
    rw [← (checked.collects_ofEntity others).2.1]
    exact List.mem_map_of_mem (List.mem_map_of_mem others)

end Layout.Checked

end AppSchema
