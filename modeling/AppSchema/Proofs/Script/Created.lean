/-
**Scripts that create everything once.**

A table is created unless there is one of its name already, so a second statement with that name
would be skipped. Tables and views have different names; the table of the catalog is added behind
them, with a name of its own, into a schema that may be theirs.

* `Script.created`: the names that a script creates;
* `each_fresh`: where they are different, no statement is skipped;
* `Settings.createdOnce_of_build`: only the table of the catalog may be skipped, and it is where
  some table of its schema has its name.

`Settings.catalog_skipped` is an application for which it is.
-/

import AppSchema.Proofs.Script

namespace AppSchema

open Statement

/-- **The names that a script creates**, in the order of its statements. -/
def Script.created (script : Script) : List QualifiedName :=
  script.statements.filterMap creates?

/-- The names of the tables and views of a schema. -/
def Schema.relations (schema : Schema) : List QualifiedName :=
  (schema.tables.map fun table => [table.schema, table.name]) ++
    schema.views.map fun view => [view.schema, view.name]

/-- **No statement creates again what one before it creates**, if all that they create is
different. -/
theorem each_fresh {statements : List Statement}
    (distinct : (statements.filterMap creates?).Nodup) :
    Each (fun earlier statement => ∀ name, statement.creates? = some name →
      ¬ Creates earlier name) [] statements := by
  rintro before statement after rfl name creates ⟨other, member, again⟩
  rw [List.filterMap_append, List.filterMap_cons, creates] at distinct
  obtain ⟨_, _, apart⟩ := List.nodup_append.mp distinct
  have known : name ∈ before.filterMap creates? := List.mem_filterMap.mpr ⟨other, member, again⟩
  exact apart name known name List.mem_cons_self rfl

namespace Script

/-- The statements of a script before the table of its catalog. -/
def beforeCatalog (schema : Schema) : List Statement :=
  start schema ++ schema.tables.map ofTable ++
    schema.foreignKeys.map (ofForeignKey schema.dataSchema) ++ schema.views.map ofView

theorem created_beforeCatalog (schema : Schema) :
    (beforeCatalog schema).filterMap creates? = schema.relations := by
  have starts : (start schema).filterMap creates? = [] := by
    unfold start
    split <;> rfl
  have foreignKeys : (schema.foreignKeys.map (ofForeignKey schema.dataSchema)).filterMap
      creates? = [] := by
    rw [List.filterMap_map]
    exact List.filterMap_eq_nil_iff.mpr fun _ _ => rfl
  have tables : (schema.tables.map ofTable).filterMap creates? =
      schema.tables.map fun table => [table.schema, table.name] := by
    rw [List.filterMap_map]
    exact congrFun List.filterMap_eq_map _
  have views : (schema.views.map ofView).filterMap creates? =
      schema.views.map fun view => [view.schema, view.name] := by
    rw [List.filterMap_map]
    exact congrFun List.filterMap_eq_map _
  rw [beforeCatalog, List.filterMap_append, List.filterMap_append, List.filterMap_append, starts,
    foreignKeys, tables, views, List.nil_append, List.append_nil, Schema.relations]

/-- **A script creates the tables and views of its schema, and the table of its catalog.** -/
theorem created_ofSchema (schema : Schema) :
    (ofSchema schema).created = schema.relations ++ [catalogName schema.metadataSchema] := by
  have rows : (schema.catalog.map (ofCatalogEntry schema.metadataSchema)).filterMap creates? =
      [] := by
    rw [List.filterMap_map]
    exact List.filterMap_eq_nil_iff.mpr fun _ _ => rfl
  have parts : (ofSchema schema).statements = beforeCatalog schema ++
      ([catalogTable schema.metadataSchema] ++
        schema.catalog.map (ofCatalogEntry schema.metadataSchema)) := statements_ofSchema schema
  rw [created, parts, List.filterMap_append, List.filterMap_append, created_beforeCatalog, rows]
  rfl

end Script

namespace Layout.Checked

variable {schema : String} {plan : Plan} {left : List Diagnostic} {layout : Layout}

/-- **Tables and views have different names.** -/
theorem nodup_relationNames (checked : layout.Checked schema plan left) {views : List View}
    (same : views.Perm (Settings.viewsOf layout)) :
    (layout.tables.map Table.name ++ views.map View.name).Nodup := by
  have perm := (same.map View.name).append_left (layout.tables.map Table.name)
  rw [checked.viewNames_eq] at perm
  exact perm.nodup_iff.mpr checked.distinctRelations

/-- No view has the name of the table of the catalog. -/
theorem viewName_ne_fields (checked : layout.Checked schema plan left) {view : View}
    (member : view ∈ Settings.viewsOf layout) : view.name ≠ "fields" := by
  obtain ⟨entity, entities, rfl⟩ := List.mem_map.mp member
  rw [(checked.collects_ofEntity entities).2.1]
  intro same
  have ends : "_view".toList <:+ "fields".toList := by
    rw [← same, Entity.viewName, String.toList_append]
    exact List.suffix_append _ _
  exact absurd ends (by decide)

/-- The names of tables and views are those of the schema that both are in. -/
theorem schemaRelations_eq (checked : layout.Checked schema plan left) {compiled : Schema}
    (tables : compiled.tables = layout.tables)
    (same : compiled.views.Perm (Settings.viewsOf layout)) :
    compiled.relations = (layout.tables.map Table.name ++ compiled.views.map View.name).map
      fun name => [schema, name] := by
  rw [Schema.relations, tables, List.map_append, List.map_map, List.map_map]
  congr 1
  · exact List.map_congr_left fun table member => by rw [checked.schema_of_mem member]; rfl
  · refine List.map_congr_left fun view member => ?_
    rw [(checked.names_of_mem (same.subset member)).schema_eq]
    rfl

end Layout.Checked

namespace Settings

/-- **Only the table of the catalog may be skipped.** Tables and views have different names, and so
all that a script creates has, unless the catalog is in their schema and some table has the name of
its table. -/
theorem createdOnce_of_build {settings : Settings} {metadata : Metadata} {schema : Schema}
    (built : settings.build metadata = .ok schema) :
    ((Script.ofSchema schema).created.Nodup ↔
      ¬ (schema.metadataSchema = schema.dataSchema ∧ "fields" ∈ schema.tables.map Table.name)) ∧
    ∀ earlier statement later,
      (Script.ofSchema schema).statements = earlier ++ statement :: later →
        ∀ name, statement.creates? = some name → Creates earlier name →
          statement = catalogTable schema.metadataSchema := by
  obtain ⟨layout, left, plan, views, _, checked, order, rfl⟩ := checked_of_build built
  have relations : (settings.schemaOf layout left views).relations = _ :=
    checked.schemaRelations_eq rfl order
  have distinct : (settings.schemaOf layout left views).relations.Nodup := by
    rw [relations]
    refine (checked.nodup_relationNames order).map fun first second same => ?_
    exact (List.cons.inj (List.cons.inj same).2).1
  have taken :
      catalogName settings.metadataSchema ∈ (settings.schemaOf layout left views).relations ↔
        settings.metadataSchema = settings.dataSchema ∧
          "fields" ∈ layout.tables.map Table.name := by
    rw [relations, List.mem_map]
    constructor
    · rintro ⟨name, inside, same⟩
      obtain ⟨sameSchema, rest⟩ := List.cons.inj same
      obtain rfl : name = "fields" := (List.cons.inj rest).1
      refine ⟨sameSchema.symm, (List.mem_append.mp inside).resolve_right fun isView => ?_⟩
      obtain ⟨view, member, named⟩ := List.mem_map.mp isView
      exact checked.viewName_ne_fields (order.subset member) named
    · rintro ⟨sameSchema, table⟩
      exact ⟨"fields", List.mem_append_left _ table, by rw [catalogName, sameSchema]⟩
  constructor
  · rw [Script.created_ofSchema, ← List.concat_eq_append, List.nodup_concat]
    exact ⟨fun apart shared => apart.1 (taken.mpr shared),
      fun apart => ⟨fun inside => apart (taken.mp inside), distinct⟩⟩
  · have fresh : Each (fun earlier statement => ∀ name, statement.creates? = some name →
        Creates earlier name → statement = catalogTable settings.metadataSchema) []
        (Script.ofSchema (settings.schemaOf layout left views)).statements := by
      rw [Script.statements_ofSchema]
      refine Each.append ?_ (Each.append (.of_forall ?_) (.of_forall ?_))
      · rw [← Script.created_beforeCatalog] at distinct
        intro before statement after split name creates again
        exact absurd again (each_fresh distinct before statement after split name creates)
      · intro statement member _ _ _ _
        exact List.mem_singleton.mp member
      · intro statement member _ name creates _
        obtain ⟨entry, _, rfl⟩ := List.mem_map.mp member
        cases creates
    exact fresh

/-- Objects of one name. -/
def titled (label : String) : Metadata :=
  ⟨[⟨"object_1", label, [{ key := "field_1", name := "Title", sourceType := "short_text" }]⟩]⟩

/-- Settings that put the catalog among the tables. -/
def sharedSchema : Settings :=
  ({} : Settings).setMetadataSchema "public"

/-- The catalog may share the schema of books. -/
theorem createdOnce_of_build_books :
    ∃ schema, sharedSchema.build (titled "Book") = .ok schema ∧
      schema.metadataSchema = schema.dataSchema ∧ (Script.ofSchema schema).created.Nodup := by
  have compiles : sharedSchema.compilesTo (titled "Book") (fun _ schema =>
      decide (schema.metadataSchema = schema.dataSchema ∧
        "fields" ∉ schema.tables.map Table.name)) = true := by
    decide +kernel
  obtain ⟨_, _, schema, _, built, holds⟩ := exists_build compiles
  obtain ⟨shared, free⟩ := of_decide_eq_true holds
  obtain ⟨once, _⟩ := createdOnce_of_build built
  exact ⟨schema, built, shared, once.mpr fun taken => free taken.2⟩

/-- **The table of the catalog is skipped where objects are called fields**: they have its name. -/
theorem catalog_skipped :
    ∃ schema, sharedSchema.build (titled "Fields") = .ok schema ∧
      ¬ (Script.ofSchema schema).created.Nodup ∧
      ∃ table ∈ schema.tables, [table.schema, table.name] = catalogName schema.metadataSchema := by
  have compiles : sharedSchema.compilesTo (titled "Fields") (fun _ schema =>
      decide (¬ (Script.ofSchema schema).created.Nodup ∧ ∃ table ∈ schema.tables,
        [table.schema, table.name] = catalogName schema.metadataSchema)) = true := by
    decide +kernel
  obtain ⟨_, _, schema, _, built, holds⟩ := exists_build compiles
  exact ⟨schema, built, of_decide_eq_true holds⟩

end Settings

end AppSchema
