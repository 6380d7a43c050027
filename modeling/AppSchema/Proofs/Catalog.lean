/-
**The catalog describes every column once.**

A row of the catalog is found by its table and its column, so the database keeps one row of each
pair. No two rows share one: tables have different names, and so have the columns that a view shows.

* `CatalogEntry.place`: the table and the column of a row;
* `Layout.Checked.nodup_shown`: no two columns of a view share a name, whether they are stored, have
  ids, or are computed;
* `Layout.Checked.places_entity`: the rows of the table of an entity are the columns of its view;
* `Settings.distinct_of_build`: both, for every application that is compiled.
-/

import AppSchema.Proofs.Tagged
import AppSchema.Proofs.View.Shown
import Mathlib.Data.Prod.Basic

namespace AppSchema

namespace CatalogEntry

/-- Where the column of a row is: its table and its name. -/
def place (entry : CatalogEntry) : String × String :=
  (entry.tableName, entry.columnName)

/-- The rows of a table. -/
def ofTable (layout : Layout) (formulas : List CompiledFormula) (table : Table) :
    List CatalogEntry :=
  ofColumns layout table ++ ofFormulas layout formulas table

theorem place_ofColumns (layout : Layout) (table : Table) :
    (ofColumns layout table).map place =
      (table.columns.map Column.name).map fun name => (table.name, name) := by
  have columns : (table.columns.zipIdx.map fun column => (table.name, column.1.name)) =
      (table.columns.zipIdx.map Prod.fst).map fun column => (table.name, column.name) := by
    rw [List.map_map]
    rfl
  rw [ofColumns, List.map_map, List.map_map]
  refine Eq.trans columns ?_
  rw [List.zipIdx_map_fst]
  rfl

/-- **A row is tagged with its table.** -/
theorem tableName_of_mem {layout : Layout} {formulas : List CompiledFormula} {table : Table}
    {entry : CatalogEntry} (member : entry ∈ ofTable layout formulas table) :
    entry.tableName = table.name := by
  rcases List.mem_append.mp member with member | member
  · obtain ⟨_, _, rfl⟩ := List.mem_map.mp member
    rfl
  · unfold ofFormulas at member
    split at member
    · cases member
    · obtain ⟨_, _, rfl⟩ := List.mem_map.mp member
      rfl

end CatalogEntry

namespace Layout.Checked

open Formula CatalogEntry

variable {schema : String} {plan : Plan} {left : List Diagnostic} {layout : Layout}
  {entity : Entity}

/-- The compiled formulas of an entity are named after their fields. -/
theorem names_compiledOf (checked : layout.Checked schema plan left)
    (member : entity ∈ layout.application.entities) :
    (compiledOf layout entity).map CompiledFormula.name =
      (entity.formulaFields.filter fun field => (compile layout field).toOption.isSome).map
        (·.name.ident) := by
  refine (map_filter_isSome (fun field : Field => field.name.ident)
    fun field inside compiled found => ?_).symm
  have own := (List.mem_filter.mp inside).1
  cases outcome : compile layout field with
  | error fault => simp [outcome, Except.toOption] at found
  | ok value =>
    simp only [outcome, Except.toOption, Option.some.injEq] at found
    subst found
    exact (checked.sound_of_compile member own outcome).name_eq

/-- **No two columns of a view share a name.** The fields of an entity have different names, and a
column of ids has none of theirs. -/
theorem nodup_shown (checked : layout.Checked schema plan left)
    (member : entity ∈ layout.application.entities) :
    ((entity.table schema (plan.referencesOf entity.id)).columns.map Column.name ++
      (compiledOf layout entity).map CompiledFormula.name).Nodup := by
  have columns := checked.distinctColumns _ (checked.mem_tables.mpr (.inl ⟨entity, member, rfl⟩))
  rw [checked.names_compiledOf member, List.nodup_append]
  refine ⟨columns, ?_, fun stored inside computed there same => ?_⟩
  · have fields := (checked.wellFormed.entity entity member).distinctNames
    have formulas : (entity.formulaFields.filter fun field =>
        (compile layout field).toOption.isSome).Sublist entity.fields :=
      List.filter_sublist.trans List.filter_sublist
    exact fields.sublist (formulas.map _)
  · obtain ⟨field, kept, rfl⟩ := List.mem_map.mp there
    exact checked.ident_not_mem_columns member (List.mem_filter.mp kept).1 (same ▸ inside)

theorem any_compileAll (checked : layout.Checked schema plan left)
    (member : entity ∈ layout.application.entities) {field : Field}
    (inside : field ∈ entity.formulaFields) :
    (compileAll layout).1.any (·.field == field.id) =
      (compile layout field).toOption.isSome := by
  rw [← checked.find?_compileAll member inside, List.isSome_find?]

/-- The rows of the formulas of an entity are those of the formulas that were compiled. -/
theorem ofFormulas_eq (checked : layout.Checked schema plan left)
    (member : entity ∈ layout.application.entities) :
    ofFormulas layout (compileAll layout).1 (entity.table schema (plan.referencesOf entity.id)) =
      (entity.formulaFields.filter fun field => (compile layout field).toOption.isSome).map
        (ofFormula layout (entity.table schema (plan.referencesOf entity.id))) := by
  have host : layout.entity entity.id = entity := checked.wellFormed.entity_eq member
  have compiled : ∀ field ∈ entity.formulaFields,
      (compileAll layout).1.any (·.field == field.id) =
        (compile layout field).toOption.isSome := fun _ => checked.any_compileAll member
  show ((layout.entity entity.id).formulaFields.filter _).map _ = _
  rw [host, List.filter_congr compiled]

/-- **The rows of the table of an entity are the columns of its view.** -/
theorem places_entity (checked : layout.Checked schema plan left)
    (member : entity ∈ layout.application.entities) :
    (ofTable layout (compileAll layout).1
        (entity.table schema (plan.referencesOf entity.id))).map place =
      ((entity.table schema (plan.referencesOf entity.id)).columns.map Column.name ++
        (compiledOf layout entity).map CompiledFormula.name).map fun name =>
          (entity.name.ident, name) := by
  have formulas : (ofFormulas layout (compileAll layout).1
      (entity.table schema (plan.referencesOf entity.id))).map place =
        ((compiledOf layout entity).map CompiledFormula.name).map fun name =>
          (entity.name.ident, name) := by
    rw [checked.ofFormulas_eq member, checked.names_compiledOf member, List.map_map, List.map_map]
    rfl
  rw [ofTable, List.map_append, place_ofColumns, formulas, List.map_append]
  rfl

/-- The rows of an association are its columns. -/
theorem places_association (checked : layout.Checked schema plan left) {table : Table}
    (member : table ∈ plan.associations) (formulas : List CompiledFormula) :
    (ofTable layout formulas table).map place =
      (table.columns.map Column.name).map fun name => (table.name, name) := by
  rw [ofTable, ofFormulas, if_pos (checked.isAssociation_of_mem member), List.append_nil,
    place_ofColumns]

/-- **No two rows of the catalog are in one place.** -/
theorem nodup_places (checked : layout.Checked schema plan left) :
    ((ofLayout layout (compileAll layout).1).map place).Nodup := by
  have tables := (List.nodup_append.mp checked.distinctRelations).1
  have apart : ∀ name : String, Function.Injective fun column : String => (name, column) :=
    fun name => Prod.mk_right_injective name
  rw [ofLayout, List.map_flatMap]
  refine nodup_flatMap_of_tagged Prod.fst (fun table there pair inside => ?_) tables
    fun table there => ?_
  · obtain ⟨entry, row, rfl⟩ := List.mem_map.mp inside
    exact tableName_of_mem row
  · rcases checked.mem_tables.mp there with ⟨entity, member, rfl⟩ | member
    · show ((ofTable layout _ _).map place).Nodup
      rw [checked.places_entity member]
      exact (checked.nodup_shown member).map (apart _)
    · show ((ofTable layout _ _).map place).Nodup
      rw [checked.places_association member]
      exact (checked.distinctColumns table there).map (apart _)

/-- **The rows of the table of a view are the columns that the view shows**, in their order. -/
theorem shown_eq_rows (checked : layout.Checked schema plan left)
    (member : entity ∈ layout.application.entities) {compiled : Schema}
    (tables : compiled.tables = layout.tables)
    (catalog : compiled.catalog = ofLayout layout (compileAll layout).1) :
    compiled.shown (View.ofEntity layout (compileAll layout).1 entity) =
      (compiled.catalog.filter (·.tableName = entity.name.ident)).map columnName := by
  have distinct := (List.nodup_append.mp checked.distinctRelations).1
  have there := checked.mem_tables.mpr (.inl ⟨entity, member, rfl⟩)
  have tagged : ∀ table ∈ layout.tables, ∀ entry ∈ ofTable layout (compileAll layout).1 table,
      entry.tableName = table.name :=
    fun _ _ _ => tableName_of_mem
  have rows := filter_flatMap_of_tagged tableName tagged distinct there
  have columns := congrArg (List.map Prod.snd) (checked.places_entity member)
  rw [List.map_map, List.map_map] at columns
  rw [checked.shown_ofEntity member tables, catalog]
  refine Eq.trans ?_ (congrArg (List.map columnName) rows).symm
  exact ((List.map_id _).symm.trans columns.symm)

end Layout.Checked

namespace Settings

/-- **Every column is described once.** No two rows of the catalog are in one place; and no two
columns of a view share a name, since the rows of its table are the columns that it shows. -/
theorem distinct_of_build {settings : Settings} {metadata : Metadata} {schema : Schema}
    (built : settings.build metadata = .ok schema) :
    (schema.catalog.map fun entry => (entry.tableName, entry.columnName)).Nodup ∧
      ∀ view ∈ schema.views, (schema.shown view).Nodup ∧
        schema.shown view =
          (schema.catalog.filter (·.tableName = view.table)).map CatalogEntry.columnName := by
  obtain ⟨layout, left, views, laid, _, ordered, rfl⟩ := build_eq_ok_iff.mp built
  obtain ⟨plan, checked⟩ := checked_of_layout laid
  obtain ⟨positions, order⟩ := View.exists_dependencyOrder ordered
  refine ⟨checked.nodup_places, fun view member => ?_⟩
  obtain ⟨entity, entities, rfl⟩ := List.mem_map.mp (order.perm.subset member)
  have table := (checked.collects_ofEntity entities).2.2.2
  refine ⟨?_, ?_⟩
  · rw [checked.shown_ofEntity entities rfl]
    exact checked.nodup_shown entities
  · rw [table]
    exact checked.shown_eq_rows entities rfl rfl

/-- The view of books shows a column of ids, the two keys and a label. -/
theorem distinct_of_build_labelledBooks :
    ∃ schema, ({} : Settings).build (labelledBooks "upper(x)") = .ok schema ∧
      (schema.catalog.map fun entry => (entry.tableName, entry.columnName)).Nodup ∧
      ∃ view ∈ schema.views,
        schema.shown view = ["author_rel_author_id", "id", "knack_id", "label"] ∧
          (schema.shown view).Nodup := by
  have compiles : ({} : Settings).compilesTo (labelledBooks "upper(x)") (fun _ schema =>
      decide (∃ view ∈ schema.views,
        schema.shown view = ["author_rel_author_id", "id", "knack_id", "label"])) = true := by
    decide +kernel
  obtain ⟨_, _, schema, _, built, holds⟩ := exists_build compiles
  obtain ⟨view, member, shown⟩ := of_decide_eq_true holds
  obtain ⟨rows, views⟩ := distinct_of_build built
  exact ⟨schema, built, rows, view, member, shown, (views view member).1⟩

end Settings

end AppSchema
