/-
**The names of a compiled application.**

* `Schema.identifiers`: all names in a schema, those inside of formulas included;
* `Settings.plain_of_build`: all of them are plain identifiers, whatever the labels;
* `Schema.stored`, `Schema.computed`: the names that the database is to keep, those of formulas
  apart;
* `Settings.fits_of_build`: the database keeps them in full exactly where no formula that is
  compiled has a longer name.

`Settings.cutOff_longFormulas` is an application in which two formulas of one view have names that
the database cuts off alike.
-/

import AppSchema.Proofs.Catalog
import AppSchema.Proofs.Script.Sealed

namespace AppSchema

/-! ### The names of a schema -/

/-- The names of a view: its own, those that it gives to columns, and those of what it reads. -/
def View.names (view : View) : List String :=
  view.name :: view.table :: (view.columns.filterMap SelectItem.name? ++
    view.joins.flatMap Join.words ++ view.leaves.flatMap Sql.Leaf.names ++ view.dependsOn)

/-- The names in a row of the catalog. -/
def CatalogEntry.names (entry : CatalogEntry) : List String :=
  entry.tableName :: entry.columnName :: entry.viewName.toList

namespace Schema

/-- **All identifiers of a schema.** -/
def identifiers (schema : Schema) : List String :=
  schema.dataSchema :: schema.metadataSchema ::
    (schema.tables.flatMap (fun table => table.schema :: table.names) ++
      schema.foreignKeys.flatMap ForeignKey.words ++
      schema.views.flatMap (fun view => view.schema :: view.names) ++
      schema.catalog.flatMap CatalogEntry.names)

/-- The names of tables with their columns, of foreign keys, and of views. -/
def stored (schema : Schema) : List String :=
  (schema.tables.flatMap fun table => table.name :: table.columns.map Column.name) ++
    schema.foreignKeys.map ForeignKey.name ++ schema.views.map View.name

/-- The names of the columns that views compute. -/
def computed (schema : Schema) : List String :=
  schema.views.flatMap fun view => view.columns.filterMap SelectItem.name?

end Schema

namespace Layout.Checked

open Formula

variable {schema : String} {plan : Plan} {left : List Diagnostic} {layout : Layout}

/-- **The names of a view** are those of the application. -/
theorem named_view (checked : layout.Checked schema plan left) {view : View}
    (member : view ∈ Settings.viewsOf layout) :
    ∀ name ∈ view.names, layout.application.Named name := by
  obtain ⟨_, _, _, _, depends⟩ := checked.names_of_mem member
  obtain ⟨entity, entities, rfl⟩ := List.mem_map.mp member
  obtain ⟨collects, named, _, table⟩ := checked.collects_ofEntity entities
  have formulas : ∀ formula ∈ compiledOf layout entity, ∃ field ∈ entity.fields,
      compile layout field = .ok formula := by
    intro formula inside
    obtain ⟨field, computed, found⟩ := mem_compiledOf.mp inside
    exact ⟨field, (List.mem_filter.mp computed).1, found⟩
  have joins : ∀ join ∈ (View.ofEntity layout (compileAll layout).1 entity).joins,
      ∀ word ∈ join.words, layout.application.Named word :=
    fun _ inside => checked.named_joinOf entities (checked.joinOf_of_mem entities inside)
  have views : ∀ name ∈ (Settings.viewsOf layout).map View.name, layout.application.Named name := by
    intro name inside
    obtain ⟨view, there, rfl⟩ := List.mem_map.mp inside
    obtain ⟨other, others, rfl⟩ := List.mem_map.mp there
    rw [(checked.collects_ofEntity others).2.1]
    exact .view others
  rw [View.names, List.forall_mem_cons, List.forall_mem_cons]
  simp only [List.forall_mem_append, List.forall_mem_flatMap]
  refine ⟨?_, ?_, ⟨⟨fun name inside => ?_, joins⟩, fun leaf inside => ?_⟩, fun name inside => ?_⟩
  · rw [named]
    exact .view entities
  · rw [table]
    exact .entity entities
  · rw [collects.names_columns] at inside
    obtain ⟨formula, there, rfl⟩ := List.mem_map.mp inside
    obtain ⟨field, own, found⟩ := formulas formula there
    rw [(checked.sound_of_compile entities own found).name_eq]
    exact .field entities own
  · rcases List.mem_append.mp inside with inside | inside
    · rw [collects.columns_eq] at inside
      obtain ⟨_, items, leaves⟩ := List.mem_flatMap.mp inside
      obtain ⟨formula, there, rfl⟩ := List.mem_map.mp items
      obtain ⟨field, own, found⟩ := formulas formula there
      exact checked.named_compile entities own found leaf leaves
    · obtain ⟨join, joined, leaves⟩ := List.mem_flatMap.mp inside
      obtain ⟨ref, compares, rfl⟩ := List.mem_map.mp leaves
      intro name there
      refine joins join joined name ?_
      have words : name ∈ join.on.refs.flatMap Sql.ColumnRef.words := by
        simp only [Sql.Leaf.names, Sql.Leaf.refs, Sql.Leaf.items, List.flatMap_singleton,
          List.flatMap_nil, List.append_nil] at there
        exact List.mem_flatMap.mpr ⟨ref, compares, there⟩
      exact List.mem_cons_of_mem _ (List.mem_cons_of_mem _ (join.on.refs_subset_words words))
  · exact views name (depends name inside)

/-- **The column of a row of the catalog** is one of a table, or that of a compiled formula. -/
theorem columnName_of_mem (checked : layout.Checked schema plan left) {entry : CatalogEntry}
    (member : entry ∈ CatalogEntry.ofLayout layout (compileAll layout).1) :
    (∃ table ∈ layout.tables, entry.columnName ∈ table.columns.map Column.name) ∨
      ∃ entity ∈ layout.application.entities,
        entry.columnName ∈ (compiledOf layout entity).map CompiledFormula.name := by
  obtain ⟨table, there, row⟩ := List.mem_flatMap.mp member
  have place := List.mem_map_of_mem (f := CatalogEntry.place) row
  have ofPlace : ∀ {names : List String} {tableName : String},
      entry.place ∈ names.map (fun name => (tableName, name)) → entry.columnName ∈ names := by
    intro names tableName inside
    obtain ⟨name, known, same⟩ := List.mem_map.mp inside
    have named : entry.columnName = name := (congrArg Prod.snd same).symm
    rwa [named]
  rcases checked.mem_tables.mp there with ⟨entity, entities, rfl⟩ | association
  · have inside := ofPlace ((checked.places_entity entities) ▸ place)
    rcases List.mem_append.mp inside with column | formula
    · exact .inl ⟨_, there, column⟩
    · exact .inr ⟨entity, entities, formula⟩
  · exact .inl ⟨table, there, ofPlace ((checked.places_association association _) ▸ place)⟩

/-- The view of a row of the catalog is that of an entity. -/
theorem viewName_of_mem (checked : layout.Checked schema plan left) {table : Table}
    (there : table ∈ layout.tables) {formulas : List CompiledFormula} {entry : CatalogEntry}
    (row : entry ∈ CatalogEntry.ofTable layout formulas table) {name : String}
    (shown : entry.viewName = some name) :
    ∃ entity ∈ layout.application.entities, name = entity.viewName := by
  have shows : table.isAssociation = false ∧ (layout.entity table.id).viewName = name := by
    rcases List.mem_append.mp row with row | row
    · obtain ⟨_, _, rfl⟩ := List.mem_map.mp row
      simp only [CatalogEntry.ofColumn] at shown
      split at shown
      · cases shown
      · next object => exact ⟨by simpa using object, Option.some.inj shown⟩
    · unfold CatalogEntry.ofFormulas at row
      split at row
      · cases row
      · next object =>
        obtain ⟨_, _, rfl⟩ := List.mem_map.mp row
        exact ⟨by simpa using object, Option.some.inj shown⟩
  obtain ⟨object, rfl⟩ := shows
  rcases checked.mem_tables.mp there with ⟨entity, entities, rfl⟩ | association
  · have same : layout.entity entity.id = entity := checked.wellFormed.entity_eq entities
    exact ⟨entity, entities, congrArg Entity.viewName same⟩
  · rw [checked.isAssociation_of_mem association] at object
    cases object

/-- **The names in a row of the catalog** are those of the application. -/
theorem named_catalog (checked : layout.Checked schema plan left) {entry : CatalogEntry}
    (member : entry ∈ CatalogEntry.ofLayout layout (compileAll layout).1) :
    ∀ name ∈ entry.names, layout.application.Named name := by
  obtain ⟨table, there, row⟩ := List.mem_flatMap.mp member
  rw [CatalogEntry.names, List.forall_mem_cons, List.forall_mem_cons]
  refine ⟨?_, ?_, fun name shown => ?_⟩
  · rw [CatalogEntry.tableName_of_mem row]
    exact checked.named_table there _ List.mem_cons_self
  · rcases checked.columnName_of_mem member with
      ⟨other, others, column⟩ | ⟨entity, entities, formula⟩
    · obtain ⟨column, inside, same⟩ := List.mem_map.mp column
      rw [← same]
      refine checked.named_table others _ (List.mem_cons_of_mem _ ?_)
      exact List.mem_flatMap.mpr ⟨column, inside, List.mem_cons_self⟩
    · rw [checked.names_compiledOf entities] at formula
      obtain ⟨field, kept, same⟩ := List.mem_map.mp formula
      rw [← same]
      exact .field entities (List.mem_filter.mp (List.mem_filter.mp kept).1).1
  · obtain ⟨entity, entities, rfl⟩ := checked.viewName_of_mem there row (Option.mem_toList.mp shown)
    exact .view entities

end Layout.Checked

/-! ### Plain names -/

namespace Settings

variable {settings : Settings} {metadata : Metadata} {schema : Schema}

/-- **Every identifier of a compiled application is plain**, whatever the labels. It is spelled with
lower case letters, digits and underscores, does not begin with a digit, and is no reserved word. -/
theorem plain_of_build (configured : settings.Configured)
    (built : settings.build metadata = .ok schema) :
    ∀ ident ∈ schema.identifiers,
      Ident.isSpelled ident.toList = true ∧ ident ∉ Ident.reserved := by
  obtain ⟨layout, left, plan, views, laid, checked, order, rfl⟩ := checked_of_build built
  obtain ⟨data, catalog⟩ := configured.plain
  have plain : ∀ {names : List String}, (∀ name ∈ names, layout.application.Named name) →
      ∀ name ∈ names, Ident.isPlain name = true :=
    fun named name member => (named name member).isPlain (plain_of_layout laid)
  suffices all : ∀ ident ∈ (settings.schemaOf layout left views).identifiers,
      Ident.isPlain ident = true from fun ident member => Ident.isPlain_iff.mp (all ident member)
  simp only [Schema.identifiers, List.forall_mem_cons, List.forall_mem_append,
    List.forall_mem_flatMap]
  refine ⟨data, catalog, ⟨⟨fun table member => ⟨?_, ?_⟩, fun key member => ?_⟩,
    fun view member => ⟨?_, ?_⟩⟩, fun entry member => ?_⟩
  · rw [checked.schema_of_mem member]
    exact data
  · exact plain (checked.named_table member)
  · exact plain (checked.named_foreignKey member)
  · rw [(checked.names_of_mem (order.subset member)).schema_eq]
    exact data
  · exact plain (checked.named_view (order.subset member))
  · exact plain (checked.named_catalog member)

/-- Users whose labels are reserved words, or have letters that no identifier has. -/
def reservedLabels : Metadata :=
  ⟨[⟨"object_1", "View", [{ key := "field_1", name := "İd", sourceType := "short_text" }]⟩,
    ⟨"object_2", "User",
    [{ key := "field_2", name := "2. Größe", sourceType := "short_text" },
     { key := "field_3", name := "Order", sourceType := "connection"
       relationship := some ⟨"object_2", .many, .many⟩ },
     { key := "field_4", name := "Table", sourceType := "connection"
       relationship := some ⟨"object_1", .one, .one⟩ },
     textFormula "field_5" "Select" "\x7bfield_4.field_1\x7d"]⟩]⟩

/-- The names that are put together from them are plain too. -/
theorem plain_of_build_reservedLabels :
    ∃ schema, (({} : Settings).setDataSchema "Größe").build reservedLabels = .ok schema ∧
      ["gr__e", "_user", "_2__gr__e", "_table_rel__view_id", "_user__table_rel__view_id_fkey",
        "many__user_to_many__user", "_user_id", "related__user_id", "i_d", "_view_view",
        "_select"] ⊆ schema.identifiers ∧
      ∀ ident ∈ schema.identifiers,
        Ident.isSpelled ident.toList = true ∧ ident ∉ Ident.reserved := by
  have configured : (({} : Settings).setDataSchema "Größe").Configured :=
    .setDataSchema "Größe" .initial
  have compiles : (({} : Settings).setDataSchema "Größe").compilesTo reservedLabels
      (fun _ schema => decide (["gr__e", "_user", "_2__gr__e", "_table_rel__view_id",
        "_user__table_rel__view_id_fkey", "many__user_to_many__user", "_user_id",
        "related__user_id", "i_d", "_view_view", "_select"] ⊆ schema.identifiers)) = true := by
    decide +kernel
  obtain ⟨_, _, schema, _, built, holds⟩ := exists_build compiles
  exact ⟨schema, built, of_decide_eq_true holds, plain_of_build configured built⟩

end Settings

/-! ### Names that are cut off -/

namespace Layout.Checked

open Formula

variable {schema : String} {plan : Plan} {left : List Diagnostic} {layout : Layout}

/-- **The columns that views compute** are named after the formulas that are compiled. -/
theorem mem_computed (checked : layout.Checked schema plan left) {views : List View}
    (same : views.Perm (Settings.viewsOf layout)) {name : String} :
    name ∈ views.flatMap (fun view => view.columns.filterMap SelectItem.name?) ↔
      ∃ entity ∈ layout.application.entities, ∃ field ∈ entity.formulaFields,
        (compile layout field).toOption.isSome = true ∧ field.name.ident = name := by
  have ofEntity : ∀ entity ∈ layout.application.entities,
      (name ∈ (View.ofEntity layout (compileAll layout).1 entity).columns.filterMap
        SelectItem.name? ↔ ∃ field ∈ entity.formulaFields,
          (compile layout field).toOption.isSome = true ∧ field.name.ident = name) := by
    intro entity member
    obtain ⟨collects, _⟩ := checked.collects_ofEntity member
    rw [collects.names_columns, checked.names_compiledOf member]
    simp only [List.mem_map, List.mem_filter, and_assoc]
  rw [(same.flatMap_right _).mem_iff, Settings.viewsOf, View.ofLayout, List.mem_flatMap]
  constructor
  · rintro ⟨_, view, inside⟩
    obtain ⟨entity, member, rfl⟩ := List.mem_map.mp view
    exact ⟨entity, member, (ofEntity entity member).mp inside⟩
  · rintro ⟨entity, member, formula⟩
    exact ⟨_, List.mem_map_of_mem member, (ofEntity entity member).mpr formula⟩

end Layout.Checked

namespace Settings

variable {settings : Settings} {metadata : Metadata} {schema : Schema}

/-- **The database keeps all names in full exactly where it keeps those of formulas.** The names of
tables, of their columns, of foreign keys and of views are never too long; the names of formulas are
not checked. -/
theorem fits_of_build (built : settings.build metadata = .ok schema) :
    ∃ layout left, settings.layout metadata = .ok (layout, left) ∧
      (∀ name ∈ schema.stored, name.utf8ByteSize ≤ Layout.longest) ∧
      ((∀ name ∈ schema.stored ++ schema.computed ++ schema.catalog.map CatalogEntry.columnName,
          name.utf8ByteSize ≤ Layout.longest) ↔
        ∀ entity ∈ layout.application.entities, ∀ field ∈ entity.formulaFields,
          (Formula.compile layout field).toOption.isSome = true →
            field.name.ident.utf8ByteSize ≤ Layout.longest) := by
  obtain ⟨layout, left, plan, views, laid, checked, order, rfl⟩ := checked_of_build built
  obtain ⟨_, _, _, _, _, _, _, _, _, lengths, _⟩ := layout_eq_ok_iff.mp laid
  have lengths := Layout.checkLengths_eq_ok_iff.mp lengths
  rw [Layout.identifiers] at lengths
  simp only [List.forall_mem_append] at lengths
  obtain ⟨⟨tables, foreignKeys⟩, viewNames⟩ := lengths
  have computed : ∀ name, name ∈ (settings.schemaOf layout left views).computed ↔ _ :=
    fun _ => checked.mem_computed order
  have stored : ∀ name ∈ (settings.schemaOf layout left views).stored,
      name.utf8ByteSize ≤ Layout.longest := by
    simp only [Schema.stored, List.forall_mem_append]
    refine ⟨⟨tables, foreignKeys⟩, fun name member => ?_⟩
    obtain ⟨view, inside, rfl⟩ := List.mem_map.mp member
    obtain ⟨entity, entities, rfl⟩ := List.mem_map.mp (order.subset inside)
    rw [(checked.collects_ofEntity entities).2.1]
    exact viewNames _ (List.mem_map_of_mem entities)
  refine ⟨layout, left, laid, stored, ?_⟩
  simp only [List.forall_mem_append]
  constructor
  · rintro ⟨⟨_, fits⟩, _⟩ entity entities field formula compiled
    exact fits _ ((computed _).mpr ⟨entity, entities, field, formula, compiled, rfl⟩)
  · intro fits
    refine ⟨⟨stored, fun name member => ?_⟩, fun name member => ?_⟩
    · obtain ⟨entity, entities, field, formula, compiled, rfl⟩ := (computed name).mp member
      exact fits entity entities field formula compiled
    · obtain ⟨entry, row, rfl⟩ := List.mem_map.mp member
      rcases checked.columnName_of_mem row with ⟨table, there, column⟩ | ⟨entity, entities, named⟩
      · exact tables _ (List.mem_flatMap.mpr ⟨table, there, List.mem_cons_of_mem _ column⟩)
      · rw [checked.names_compiledOf entities] at named
        obtain ⟨field, kept, same⟩ := List.mem_map.mp named
        obtain ⟨formula, compiled⟩ := List.mem_filter.mp kept
        rw [← same]
        exact fits entity entities field formula compiled

/-- The names of books fit, that of their label too. -/
theorem fits_of_build_labelledBooks :
    ∃ schema, ({} : Settings).build (labelledBooks "upper(x)") = .ok schema ∧
      "label" ∈ schema.computed ∧
      ∀ name ∈ schema.stored ++ schema.computed ++ schema.catalog.map CatalogEntry.columnName,
        name.utf8ByteSize ≤ Layout.longest := by
  have compiles : ({} : Settings).compilesTo (labelledBooks "upper(x)") (fun layout schema =>
      decide ("label" ∈ schema.computed ∧
        ∀ entity ∈ layout.application.entities, ∀ field ∈ entity.formulaFields,
          field.name.ident.utf8ByteSize ≤ Layout.longest)) = true := by
    decide +kernel
  obtain ⟨layout, left, schema, laid, built, holds⟩ := exists_build compiles
  obtain ⟨label, short⟩ := of_decide_eq_true holds
  obtain ⟨other, _, again, _, fits⟩ := fits_of_build built
  obtain rfl : other = layout := by
    rw [laid] at again
    exact (Prod.mk.inj (Except.ok.inj again)).1.symm
  exact ⟨schema, built, label, fits.mpr fun entity member field formula _ =>
    short entity member field formula⟩

/-- A name that is as long as the database keeps it, but for its last character. -/
def longLabel (last : Char) : String :=
  String.ofList (List.replicate Layout.longest 'a' ++ [last])

/-- Authors with two formulas whose names differ in the last character. -/
def longFormulas : Metadata :=
  ⟨[⟨"object_1", "Author",
    [textFormula "field_1" (longLabel 'b') "x", textFormula "field_2" (longLabel 'c') "y"]⟩]⟩

/-- **The database may cut off two names alike**: both formulas are compiled, though of their names
the database keeps the same. -/
theorem cutOff_longFormulas :
    ∃ schema, ({} : Settings).build longFormulas = .ok schema ∧
      ∃ view ∈ schema.views, ∃ first ∈ schema.shown view, ∃ second ∈ schema.shown view,
        first ≠ second ∧
          first.toList.take Layout.longest = second.toList.take Layout.longest ∧
          ∃ name ∈ schema.catalog.map CatalogEntry.columnName,
            Layout.longest < name.utf8ByteSize := by
  have compiles : ({} : Settings).compilesTo longFormulas (fun _ schema =>
      decide (∃ view ∈ schema.views, ∃ first ∈ schema.shown view, ∃ second ∈ schema.shown view,
        first ≠ second ∧
          first.toList.take Layout.longest = second.toList.take Layout.longest ∧
          ∃ name ∈ schema.catalog.map CatalogEntry.columnName,
            Layout.longest < name.utf8ByteSize)) = true := by
    decide +kernel
  obtain ⟨_, _, schema, _, built, holds⟩ := exists_build compiles
  exact ⟨schema, built, of_decide_eq_true holds⟩

end Settings

end AppSchema
