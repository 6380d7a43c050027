/-
**The order of the objects does not matter.**

Objects are numbered in their order, and connections are stored and views made in it. Another order
gives the same entities under other numbers, and no name depends on a number. So an application is
compiled whatever the order of its objects, or in no order; and all orders give the same tables,
columns, foreign keys, views and rows of the catalog.

* `Schema.Alike`: two schemas with the same parts;
* `Layout.Renumbered.ofEntity_eq`, `Layout.Renumbered.ofTable_perm`: the views and the rows of two
  layouts under either numbers;
* `Settings.exists_layout_of_perm`: objects in another order have such a layout;
* `Settings.alike_of_perm`: they are compiled to a schema with the same parts.
-/

import AppSchema.Proofs.Catalog
import AppSchema.Proofs.Formula.Renumbered
import AppSchema.Proofs.View.Cycle

namespace AppSchema

/-- A column without the number of its field. -/
def Column.unnumbered (column : Column) : Column :=
  { column with field := none }

namespace Schema

/-- The tables of objects. -/
def objects (schema : Schema) : List Table :=
  schema.tables.filter (!·.isAssociation)

/-- The rows of the catalog for the tables of objects. -/
def objectRows (schema : Schema) : List CatalogEntry :=
  schema.catalog.filter fun row => schema.objects.any (·.name == row.tableName)

/-- **Two schemas with the same parts.** Objects have tables of the same names with the same
columns, numbers of fields apart; associations have the same names; and the foreign keys, the views
and the rows for the tables of objects are the same. -/
structure Alike (first second : Schema) : Prop where
  objects : (first.objects.map Table.name).Perm (second.objects.map Table.name)
  columns : ∀ table ∈ first.objects, ∀ other ∈ second.objects, table.name = other.name →
    (table.columns.map Column.unnumbered).Perm (other.columns.map Column.unnumbered)
  associations : (first.associations.map Table.name).Perm (second.associations.map Table.name)
  foreignKeys : first.foreignKeys.Perm second.foreignKeys
  views : first.views.Perm second.views
  rows : first.objectRows.Perm second.objectRows

end Schema

/-! ### The parts of a checked layout -/

/-- Where no position is part of a key, a row does not depend on the position of its column. -/
theorem CatalogEntry.ofColumns_of_primaryKey_nil {layout : Layout} {table : Table}
    (noKey : table.primaryKey = []) :
    ofColumns layout table = table.columns.map (ofColumn layout table · 0) := by
  have rows : ∀ column ∈ table.columns.zipIdx, ofColumn layout table column.1 column.2 =
      ((ofColumn layout table · 0) ∘ Prod.fst) column := by
    intro column _
    simp [ofColumn, noKey]
  rw [ofColumns, List.map_congr_left rows, ← List.map_map, List.zipIdx_map_fst]

namespace Layout.Checked

open Formula CatalogEntry

variable {schema : String} {plan : Plan} {left : List Diagnostic} {layout : Layout}
  {compiled : Schema}

theorem objects_eq (checked : layout.Checked schema plan left)
    (tables : compiled.tables = layout.tables) :
    compiled.objects = layout.application.entities.map fun entity =>
      entity.table schema (plan.referencesOf entity.id) := by
  have objects : ∀ table ∈ layout.application.entities.map (fun entity =>
      entity.table schema (plan.referencesOf entity.id)), (!table.isAssociation) = true := by
    intro table member
    obtain ⟨_, _, rfl⟩ := List.mem_map.mp member
    rfl
  have associations : ∀ table ∈ plan.associations, ¬ (!table.isAssociation) = true := by
    intro table member
    simp [checked.isAssociation_of_mem member]
  rw [Schema.objects, tables, checked.tables_eq, List.filter_append,
    List.filter_eq_self.mpr objects, List.filter_eq_nil_iff.mpr associations, List.append_nil]

theorem associations_eq (checked : layout.Checked schema plan left)
    (tables : compiled.tables = layout.tables) : compiled.associations = plan.associations := by
  have objects : ∀ table ∈ layout.application.entities.map (fun entity =>
      entity.table schema (plan.referencesOf entity.id)), ¬ table.isAssociation = true := by
    intro table member
    obtain ⟨_, _, rfl⟩ := List.mem_map.mp member
    exact Bool.false_ne_true
  rw [Schema.associations, tables, checked.tables_eq, List.filter_append,
    List.filter_eq_nil_iff.mpr objects, List.nil_append]
  exact List.filter_eq_self.mpr fun table => checked.isAssociation_of_mem

/-- **The rows for the tables of objects** are those of the entities. -/
theorem objectRows_eq (checked : layout.Checked schema plan left)
    (tables : compiled.tables = layout.tables)
    (catalog : compiled.catalog = ofLayout layout (compileAll layout).1) :
    compiled.objectRows = layout.application.entities.flatMap fun entity =>
      ofTable layout (compileAll layout).1
        (entity.table schema (plan.referencesOf entity.id)) := by
  have distinct := (List.nodup_append.mp checked.distinctRelations).1
  rw [checked.tables_eq, List.map_append, List.map_map, List.nodup_append] at distinct
  have objects : ∀ row ∈ (layout.application.entities.map fun entity =>
      entity.table schema (plan.referencesOf entity.id)).flatMap
        (ofTable layout (compileAll layout).1),
      compiled.objects.any (·.name == row.tableName) = true := by
    intro row member
    obtain ⟨table, there, inside⟩ := List.mem_flatMap.mp member
    rw [checked.objects_eq tables]
    exact List.any_eq_true.mpr ⟨table, there, by simp [tableName_of_mem inside]⟩
  have associations : ∀ row ∈ plan.associations.flatMap (ofTable layout (compileAll layout).1),
      ¬ compiled.objects.any (·.name == row.tableName) = true := by
    intro row member named
    obtain ⟨table, there, inside⟩ := List.mem_flatMap.mp member
    rw [checked.objects_eq tables, tableName_of_mem inside] at named
    obtain ⟨other, others, same⟩ := List.any_eq_true.mp named
    obtain ⟨entity, entities, rfl⟩ := List.mem_map.mp others
    exact distinct.2.2 _ (List.mem_map_of_mem entities) _ (List.mem_map_of_mem there)
      (by simpa using same)
  rw [Schema.objectRows, catalog, ofLayout, checked.tables_eq, List.flatMap_append,
    List.filter_append]
  refine Eq.trans (congrArg₂ _ (List.filter_eq_self.mpr objects)
    (List.filter_eq_nil_iff.mpr associations)) ?_
  rw [List.append_nil, List.flatMap_map]
  rfl

end Layout.Checked

/-! ### Layouts under either numbers -/

namespace Layout.Renumbered

open Formula CatalogEntry

variable {renumber : TableId → TableId} {schema : String} {first second : Layout}
  {plan plan' : Plan} {host : Entity}

/-- **An entity has the same view.** -/
theorem ofEntity_eq (renumbered : Renumbered renumber schema first second plan plan')
    (hosts : host ∈ first.application.entities) :
    View.ofEntity second (compileAll second).1 (host.renumbered renumber) =
      View.ofEntity first (compileAll first).1 host := by
  rw [renumbered.checked.ofEntity_eq hosts, renumbered.checked'.ofEntity_eq (renumbered.mem hosts),
    renumbered.compiledOf_eq hosts, List.foldl_map]
  rfl

theorem viewsOf_perm (renumbered : Renumbered renumber schema first second plan plan') :
    (Settings.viewsOf second).Perm (Settings.viewsOf first) :=
  renumbered.map_perm fun _ hosts => renumbered.ofEntity_eq hosts

/-- **A column has the same row.** -/
theorem ofColumn_eq (renumbered : Renumbered renumber schema first second plan plan')
    (hosts : host ∈ first.application.entities) {column : Column}
    (has : column ∈ (host.table schema (plan.referencesOf host.id)).columns) :
    ofColumn second ((host.renumbered renumber).table schema
        (plan'.referencesOf (renumber host.id))) (column.renumbered renumber) 0 =
      ofColumn first (host.table schema (plan.referencesOf host.id)) column 0 := by
  obtain ⟨owner, owners, field, own, stores⟩ :=
    renumbered.checked.exists_field_of_mem_columns hosts has
  have found : first.field field.id = field := (renumbered.wellFormed.field_eq owners own).2
  have found' : second.field (field.id.renumbered renumber) = field.renumbered renumber :=
    renumbered.field_eq owners own
  have table : second.entity ((host.renumbered renumber).table schema
      (plan'.referencesOf (renumber host.id))).id =
        (first.entity host.id).renumbered renumber := renumbered.layoutEntity_eq hosts
  simp only [ofColumn, Column.renumbered, stores, Option.map_some, Option.bind_some, found, found',
    Field.renumbered_kind, table]
  cases field.kind.stored? <;> rfl

/-- **The formulas of an entity have the same rows.** -/
theorem ofFormulas_eq (renumbered : Renumbered renumber schema first second plan plan')
    (hosts : host ∈ first.application.entities) (references references' : List Column) :
    ofFormulas second (compileAll second).1
        ((host.renumbered renumber).table schema references') =
      ofFormulas first (compileAll first).1 (host.table schema references) := by
  have own : first.entity (host.table schema references).id = host :=
    renumbered.wellFormed.entity_eq hosts
  have moved : second.entity ((host.renumbered renumber).table schema references').id =
      host.renumbered renumber := renumbered.entity_eq hosts
  have kept : ∀ field ∈ host.formulaFields,
      ((fun field => (compileAll second).1.any (·.field == field.id)) ∘
        Field.renumbered renumber) field =
      (compileAll first).1.any (·.field == field.id) := by
    intro field inside
    have there : field.renumbered renumber ∈ (host.renumbered renumber).formulaFields := by
      rw [renumbered.formulaFields_eq hosts]
      exact List.mem_map_of_mem inside
    rw [Function.comp_apply, renumbered.checked.any_compileAll hosts inside,
      renumbered.checked'.any_compileAll (renumbered.mem hosts) there,
      renumbered.compile_eq hosts (List.mem_of_mem_filter inside)]
    cases compile first field <;> rfl
  have row : ∀ field ∈ host.formulaFields,
      (ofFormula second ((host.renumbered renumber).table schema references') ∘
        Field.renumbered renumber) field =
      ofFormula first (host.table schema references) field := by
    intro field _
    simp only [Function.comp_apply, ofFormula, moved, own]
    rfl
  show ((second.entity ((host.renumbered renumber).table schema references').id).formulaFields.filter
      _).map _ = ((first.entity (host.table schema references).id).formulaFields.filter _).map _
  rw [own, moved, renumbered.formulaFields_eq hosts, List.filter_map, List.map_map,
    List.filter_congr kept]
  exact List.map_congr_left fun field inside => row field (List.mem_of_mem_filter inside)

/-- **The table of an entity has the same rows.** -/
theorem ofTable_perm (renumbered : Renumbered renumber schema first second plan plan')
    (hosts : host ∈ first.application.entities) :
    (ofTable second (compileAll second).1 ((host.renumbered renumber).table schema
        (plan'.referencesOf (renumber host.id)))).Perm
      (ofTable first (compileAll first).1 (host.table schema (plan.referencesOf host.id))) := by
  refine List.Perm.append ?_ (List.Perm.of_eq (renumbered.ofFormulas_eq hosts _ _))
  rw [ofColumns_of_primaryKey_nil rfl, ofColumns_of_primaryKey_nil rfl]
  refine ((renumbered.columns_perm hosts).map _).trans (List.Perm.of_eq ?_)
  rw [List.map_map]
  exact List.map_congr_left fun column => renumbered.ofColumn_eq hosts

/-- Tables of one name are those of one entity. -/
theorem exists_of_named (renumbered : Renumbered renumber schema first second plan plan')
    {compiled compiled' : Schema} (tables : compiled.tables = first.tables)
    (tables' : compiled'.tables = second.tables) {table table' : Table}
    (member : table ∈ compiled.objects) (member' : table' ∈ compiled'.objects)
    (named : table.name = table'.name) :
    ∃ host ∈ first.application.entities,
      table = host.table schema (plan.referencesOf host.id) ∧
      table' = (host.renumbered renumber).table schema
        (plan'.referencesOf (renumber host.id)) := by
  rw [renumbered.checked.objects_eq tables] at member
  rw [renumbered.checked'.objects_eq tables'] at member'
  obtain ⟨host, hosts, rfl⟩ := List.mem_map.mp member
  obtain ⟨moved, moves, rfl⟩ := List.mem_map.mp member'
  obtain ⟨other, others, rfl⟩ := renumbered.exists_of_mem moves
  obtain rfl := renumbered.checked.eq_of_ident hosts others named
  exact ⟨host, hosts, rfl, rfl⟩

/-- **The schemas of both layouts have the same parts.** -/
theorem alike (renumbered : Renumbered renumber schema first second plan plan')
    (settings : Settings) (left left' : List Diagnostic) {views views' : List View}
    (all : views.Perm (Settings.viewsOf first)) (all' : views'.Perm (Settings.viewsOf second)) :
    (settings.schemaOf first left views).Alike (settings.schemaOf second left' views') where
  objects := by
    rw [renumbered.checked.objects_eq rfl, renumbered.checked'.objects_eq rfl, List.map_map,
      List.map_map]
    refine List.Perm.symm (renumbered.map_perm fun _ _ => ?_)
    rfl
  columns table member table' member' named := by
    obtain ⟨host, hosts, rfl, rfl⟩ := renumbered.exists_of_named rfl rfl member member' named
    have columns := (renumbered.columns_perm hosts).map Column.unnumbered
    rw [List.map_map] at columns
    exact columns.symm
  associations := by
    rw [renumbered.checked.associations_eq rfl, renumbered.checked'.associations_eq rfl]
    exact renumbered.associations_perm.symm
  foreignKeys := by
    show first.foreignKeys.Perm second.foreignKeys
    rw [renumbered.checked.layout_eq, renumbered.checked'.layout_eq]
    exact renumbered.foreignKeys_perm.symm
  views := all.trans (renumbered.viewsOf_perm.symm.trans all'.symm)
  rows := by
    rw [renumbered.checked.objectRows_eq rfl rfl, renumbered.checked'.objectRows_eq rfl rfl]
    refine List.Perm.symm ((renumbered.entities.flatMap_right _).trans ?_)
    rw [List.flatMap_map]
    exact List.Perm.flatMap_left _ fun host hosts => renumbered.ofTable_perm hosts

end Layout.Renumbered

/-! ### Objects in another order -/

namespace Settings

variable {settings : Settings} {first second : Metadata} {layout : Layout}
  {left : List Diagnostic} {schema : Schema}

theorem left_sources_perm (perm : first.objects.Perm second.objects) :
    (settings.sources first).2.Perm (settings.sources second).2 := by
  rw [sources, sources, Application.left_ofSources, Application.left_ofSources]
  exact (perm.filter _).flatMap_right _

/-- **Objects in another order give the same entities**, up to their numbers. -/
theorem entities_sources_perm (perm : first.objects.Perm second.objects) :
    ((settings.sources first).1.entities.map (·.numbered 0)).Perm
      ((settings.sources second).1.entities.map (·.numbered 0)) := by
  rw [sources, sources, Application.entities_ofSources, Application.entities_ofSources]
  exact ((perm.filter _).filterMap _).map _

/-- **Objects in another order have a layout**, under other numbers. -/
theorem exists_layout_of_perm (strict : settings.strict = true)
    (perm : first.objects.Perm second.objects) (laid : settings.layout first = .ok (layout, left)) :
    ∃ layout' left' renumber plan plan', settings.layout second = .ok (layout', left') ∧
      layout.Renumbered renumber settings.dataSchema layout' plan plan' := by
  obtain ⟨settled, names, index, indexed, unstored, laid, stored, tables, relations, lengths, _⟩ :=
    layout_eq_ok_iff.mp laid
  have wellFormed : (settings.sources first).1.WellFormed :=
    (Application.classified_ofSources _).toWellFormed
  have wellFormed' : (settings.sources second).1.WellFormed :=
    (Application.classified_ofSources _).toWellFormed
  have keys := Index.nodup_keys indexed
  have renumbers :=
    Application.renumbers_numberIn wellFormed wellFormed' keys (entities_sources_perm perm)
  obtain ⟨index', indexed'⟩ := renumbers.exists_index_iff.mpr ⟨index, indexed⟩
  rw [strict] at settled stored
  -- No connection was left out, so none is in the other order.
  obtain ⟨_, _, _, _, _, _, errors, _⟩ :=
    Layout.exists_follows wellFormed indexed settings.dataSchema
  rw [laid] at errors
  obtain rfl := Diagnostic.eq_nil_of_settle errors stored
  obtain ⟨plan, sound, follows, whole⟩ :=
    Layout.exists_follows_of_left_eq_nil wellFormed indexed (congrArg Prod.snd laid)
  obtain rfl := congrArg Prod.fst (laid.symm.trans whole)
  obtain ⟨plan', renumbered, laid'⟩ :=
    Plan.exists_renumbered renumbers keys indexed' sound follows
  have distinct' : ((settings.sources second).1.entities.map (·.name.ident)).Nodup :=
    (renumbers.map_perm fun _ _ => rfl).nodup_iff.mpr (Application.checkNames_eq_ok_iff.mp names)
  have names' := Application.checkNames_eq_ok_iff.mpr distinct'
  refine ⟨_, _, _, plan, plan', layout_eq_ok_iff.mpr ⟨?_, names', index', indexed', [], laid', ?_,
    renumbered.checkTables distinct' tables, renumbered.checkRelationNames relations,
    renumbered.checkLengths lengths, rfl⟩, { renumbered with checked := ?_, checked' := ?_ }⟩
  · refine Diagnostic.settle_eq_ok.mpr fun _ diagnostic member => ?_
    exact Diagnostic.settle_eq_ok.mp settled rfl diagnostic
      ((left_sources_perm perm).mem_iff.mpr member)
  · exact Diagnostic.settle_eq_ok.mpr (by simp)
  · exact .of_checks wellFormed indexed sound names tables relations (by simp)
  · exact .of_checks wellFormed' indexed' renumbered.sound' names'
      (renumbered.checkTables distinct' tables) (renumbered.checkRelationNames relations) (by simp)

/-- **Objects in another order are compiled**, to a schema with the same parts. -/
theorem exists_build_of_perm (strict : settings.strict = true)
    (perm : first.objects.Perm second.objects) (built : settings.build first = .ok schema) :
    ∃ other, settings.build second = .ok other ∧ schema.Alike other := by
  obtain ⟨layout, left, views, laid, settled, ordered, rfl⟩ := build_eq_ok_iff.mp built
  obtain ⟨layout', left', renumber, plan, plan', laid', renumbered⟩ :=
    exists_layout_of_perm strict perm laid
  rw [strict] at settled
  have compiled : (Formula.compileAll layout).2 = [] := by
    refine Diagnostic.eq_nil_of_settle (fun diagnostic member => ?_) settled
    obtain ⟨_, _, _, _, _, _, rfl⟩ := Formula.mem_left_compileAll.mp member
    rfl
  obtain ⟨views', ordered'⟩ := View.exists_order_of_perm renumbered.checked.nodup_viewNames
    renumbered.viewsOf_perm ordered
  obtain ⟨_, order⟩ := View.exists_dependencyOrder ordered
  obtain ⟨_, order'⟩ := View.exists_dependencyOrder ordered'
  refine ⟨_, build_eq_ok_iff.mpr ⟨layout', left', views', laid', ?_, ordered', rfl⟩,
    renumbered.alike settings left left' order.perm order'.perm⟩
  rw [renumbered.left_compileAll compiled]
  exact Diagnostic.settle_eq_ok.mpr (by simp)

/-- **The order of the objects does not matter** where the first error ends the compilation. Objects
are compiled in one order exactly if they are in another, and then to schemas with the same parts. -/
theorem alike_of_perm {settings : Settings} (strict : settings.strict = true)
    {first second : Metadata} (perm : first.objects.Perm second.objects) :
    ((∃ schema, settings.build first = .ok schema) ↔
      ∃ schema, settings.build second = .ok schema) ∧
    ∀ schema other, settings.build first = .ok schema → settings.build second = .ok other →
      schema.Alike other := by
  refine ⟨⟨?_, ?_⟩, fun schema other built builtOther => ?_⟩
  · rintro ⟨schema, built⟩
    obtain ⟨other, builtOther, _⟩ := exists_build_of_perm strict perm built
    exact ⟨other, builtOther⟩
  · rintro ⟨schema, built⟩
    obtain ⟨other, builtOther, _⟩ := exists_build_of_perm strict perm.symm built
    exact ⟨other, builtOther⟩
  · obtain ⟨result, found, alike⟩ := exists_build_of_perm strict perm built
    rw [builtOther] at found
    cases found
    exact alike

/-- Books before their authors, whose table is then the second. -/
theorem alike_of_perm_labelledBooks :
    let books : Metadata := ⟨(labelledBooks "upper(x)").objects.reverse⟩
    ({} : Settings).strict = true ∧ (labelledBooks "upper(x)").objects.Perm books.objects ∧
    ∃ schema, ({} : Settings).build (labelledBooks "upper(x)") = .ok schema ∧
      schema.tables.map Table.name = ["author", "book"] ∧
      ∃ other, ({} : Settings).build books = .ok other ∧ schema.Alike other := by
  intro books
  have strict : ({} : Settings).strict = true := rfl
  have perm : (labelledBooks "upper(x)").objects.Perm books.objects :=
    (List.reverse_perm _).symm
  have compiles : ({} : Settings).compilesTo (labelledBooks "upper(x)") (fun _ schema =>
      decide (schema.tables.map Table.name = ["author", "book"])) = true := by
    decide +kernel
  obtain ⟨_, _, schema, _, built, holds⟩ := exists_build compiles
  obtain ⟨together, alike⟩ := alike_of_perm strict perm
  obtain ⟨other, builtOther⟩ := together.mp ⟨schema, built⟩
  exact ⟨strict, perm, schema, built, of_decide_eq_true holds, other, builtOther,
    alike schema other built builtOther⟩

end Settings

end AppSchema
