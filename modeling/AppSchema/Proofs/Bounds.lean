/-
**Nothing is read beyond a layout.**

A number beyond a layout leads to an empty entity, field or table. Formulas, views and the catalog
never come to see one: they give the same on every layout that agrees with theirs within its bounds,
whatever the other one has beyond them.

* `Layout.AgreesWithin`: a layout that agrees with another one within its bounds;
* `Layout.ReadsAlike`: formulas, views and catalogs that are the same on two layouts;
* `Layout.Positional.compile_eq`, `Layout.Positional.ofEntity_eq`, `Layout.Positional.ofTable_eq`:
  they are, where numbers are positions;
* `Settings.positional_of_sources`: so it is for the objects of any metadata.
-/

import AppSchema.Proofs.Catalog
import AppSchema.Proofs.Storage.Association
import AppSchema.Proofs.Storage.Positional

namespace AppSchema

namespace Layout

/-- **A layout that agrees with another one within its bounds.** Every number leads to the same in
both if it leads to anything in the first, but an entity may have more fields behind its own that
are no formulas. -/
structure AgreesWithin (layout other : Layout) : Prop where
  index_eq : other.index = layout.index
  relations_eq : other.relations = layout.relations
  entity : ∀ id entity, layout.application.entityAt? id = some entity →
    (other.entity id).name = entity.name ∧ (other.entity id).formulaFields = entity.formulaFields
  field : ∀ id field, layout.application.fieldAt? id = some field → other.field id = field
  table : ∀ (id : TableId) (table : Table), layout.tables[id]? = some table →
    other.table id = table

/-- **What is read by numbers is the same.** -/
structure ReadsAlike (layout other : Layout) : Prop where
  formula : ∀ entity ∈ layout.application.entities, ∀ formula ∈ entity.fields,
    Formula.compile other formula = Formula.compile layout formula
  view : ∀ formulas, ∀ entity ∈ layout.application.entities,
    View.ofEntity other formulas entity = View.ofEntity layout formulas entity
  catalog : ∀ formulas, ∀ table ∈ layout.tables,
    CatalogEntry.ofTable other formulas table = CatalogEntry.ofTable layout formulas table

/-- A layout with more entities and tables behind its own. -/
def extended (layout : Layout) (entities : List Entity) (tables : List Table) : Layout :=
  { layout with
    application := { layout.application with
      entities := layout.application.entities ++ entities }
    tables := layout.tables ++ tables }

variable {layout other : Layout} {id : TableId} {entity : Entity}

theorem entityAt?_extended {entities : List Entity} {tables : List Table}
    (found : layout.application.entityAt? id = some entity) :
    (layout.extended entities tables).application.entityAt? id = some entity := by
  obtain ⟨inside, _⟩ := List.getElem?_eq_some_iff.mp found
  exact (List.getElem?_append_left inside).trans found

/-- What is put behind a layout is beyond its bounds. -/
theorem agreesWithin_extended (layout : Layout) (entities : List Entity) (tables : List Table) :
    layout.AgreesWithin (layout.extended entities tables) where
  index_eq := rfl
  relations_eq := rfl
  entity id entity found := by
    have same : (layout.extended entities tables).entity id = entity :=
      Application.entity_eq_of_entityAt? (entityAt?_extended found)
    rw [same]
    exact ⟨rfl, rfl⟩
  field id field found := by
    obtain ⟨entity, there, inside⟩ := Application.fieldAt?_eq_some.mp found
    exact Application.field_eq_of_fieldAt?
      (Application.fieldAt?_eq_some.mpr ⟨entity, entityAt?_extended there, inside⟩)
  table id table found := by
    obtain ⟨inside, _⟩ := List.getElem?_eq_some_iff.mp found
    show (layout.tables ++ tables).getD id default = table
    rw [List.getD_eq_getElem?_getD, List.getElem?_append_left inside, found]
    rfl

/-! ### Lookups within bounds -/

namespace AgreesWithin

theorem name_eq (agrees : layout.AgreesWithin other)
    (found : layout.application.entityAt? id = some entity) :
    (other.entity id).name = (layout.entity id).name := by
  have own : layout.entity id = entity := Application.entity_eq_of_entityAt? found
  rw [own]
  exact (agrees.entity id entity found).1

theorem viewName_eq (agrees : layout.AgreesWithin other)
    (found : layout.application.entityAt? id = some entity) :
    (other.entity id).viewName = (layout.entity id).viewName := by
  rw [Entity.viewName, Entity.viewName, agrees.name_eq found]

theorem formulaFields_eq (agrees : layout.AgreesWithin other)
    (found : layout.application.entityAt? id = some entity) :
    (other.entity id).formulaFields = (layout.entity id).formulaFields := by
  have own : layout.entity id = entity := Application.entity_eq_of_entityAt? found
  rw [own]
  exact (agrees.entity id entity found).2

theorem field_eq (agrees : layout.AgreesWithin other) {id : FieldId} {field : Field}
    (found : layout.application.fieldAt? id = some field) : other.field id = layout.field id := by
  have own : layout.field id = field := Application.field_eq_of_fieldAt? found
  rw [own]
  exact agrees.field id field found

theorem table_eq (agrees : layout.AgreesWithin other) {table : Table}
    (found : layout.tables[id]? = some table) : other.table id = layout.table id := by
  have own : layout.table id = table := by
    rw [Layout.table, List.getD_eq_getElem?_getD, found]
    rfl
  rw [own]
  exact agrees.table id table found

theorem source_eq (agrees : layout.AgreesWithin other)
    (found : layout.application.entityAt? id = some entity) (host : TableId) :
    other.source host id = layout.source host id := by
  simp only [source, agrees.name_eq found, agrees.viewName_eq found]

/-- A relation is followed alike, since its association is within bounds. -/
theorem of?_eq (agrees : layout.AgreesWithin other) {field : FieldId} {relation : Relation}
    (records : layout.Records field relation) (host : TableId) (outward : Bool) :
    Link.of? other relation host outward = Link.of? layout relation host outward := by
  cases records with
  | single => rfl
  | manyToMany _ _ found => simp only [Link.of?, agrees.table_eq found]

end AgreesWithin

namespace Positional

open Formula

/-- **The keys that a formula has lead to fields within bounds.** -/
theorem exists_field (positional : layout.Positional) {referencing key : String} {id : FieldId}
    (found : layout.index.requireField referencing key = .ok id) :
    ∃ field entity, layout.application.fieldAt? id = some field ∧
      layout.application.entityAt? id.table = some entity := by
  rw [Index.requireField] at found
  cases looked : layout.index.field? key with
  | none => simp [looked] at found
  | some other =>
    simp only [looked, Except.ok.injEq] at found
    subst found
    obtain ⟨field, there, _⟩ :=
      positional.indexedField key other (Index.mem_of_lookup_eq_some looked)
    obtain ⟨entity, owner, _⟩ := Application.fieldAt?_eq_some.mp there
    exact ⟨field, entity, there, owner⟩

theorem hostAt (positional : layout.Positional) {field : FieldId} {host target : Entity}
    {source : Field} {connection : Connection}
    (connects : layout.Connects field host source connection target) :
    layout.application.entityAt? host.id = some host := by
  have found := connects.hostAt
  rwa [← positional.application.entity _ _ found] at found

/-- The sides of a relation are within bounds. -/
theorem exists_other (positional : layout.Positional) {field : FieldId} {relation : Relation}
    (records : layout.Records field relation) {host : TableId}
    (leads : relation.other? host = some id) :
    ∃ entity, layout.application.entityAt? id = some entity := by
  have sides : ∃ first second, layout.application.entityAt? relation.sides.1 = some first ∧
      layout.application.entityAt? relation.sides.2 = some second := by
    cases records with
    | single connects placed =>
      rcases Connection.placement?_sides placed with ⟨rfl, rfl⟩ | ⟨rfl, rfl⟩
      · exact ⟨_, _, positional.hostAt connects, connects.targetAt⟩
      · exact ⟨_, _, connects.targetAt, positional.hostAt connects⟩
    | manyToMany connects => exact ⟨_, _, positional.hostAt connects, connects.targetAt⟩
  obtain ⟨first, second, firstAt, secondAt⟩ := sides
  rcases Relation.other?_cases leads with ⟨_, rfl⟩ | ⟨_, _, rfl⟩
  · exact ⟨second, secondAt⟩
  · exact ⟨first, firstAt⟩

/-- **A link leads within bounds.** -/
theorem exists_linked (positional : layout.Positional) {formula : Field} {connection : String}
    {outward : Bool} {link : Link}
    (links : linked layout formula connection outward = .ok (link, id)) :
    ∃ entity, layout.application.entityAt? id = some entity := by
  obtain ⟨relation, follows, rest⟩ := bind_eq_ok.mp links
  obtain ⟨field, recorded⟩ := exists_mem_of_followed follows
  split at rest
  · next leads =>
    cases rest
    exact positional.exists_other (positional.relation field relation recorded) leads
  · cases rest

/-! ### Formulas -/

theorem readableColumn_eq (positional : layout.Positional) (agrees : layout.AgreesWithin other)
    {field : Field} (found : layout.application.entityAt? field.id.table = some entity)
    (stored : Bool) : readableColumn other field stored = readableColumn layout field stored := by
  obtain ⟨table, there, _⟩ := positional.object _ entity found
  simp only [readableColumn, column?, agrees.name_eq found, agrees.table_eq there]

/-- **A key is read from the same column.** -/
theorem readKey_eq (positional : layout.Positional) (agrees : layout.AgreesWithin other)
    {referencing key : String} {id : FieldId}
    (found : layout.index.requireField referencing key = .ok id) (stored : Bool) :
    readableColumn other (other.field id) stored =
      readableColumn layout (layout.field id) stored := by
  obtain ⟨field, entity, there, owner⟩ := positional.exists_field found
  have own : layout.field id = field := Application.field_eq_of_fieldAt? there
  obtain ⟨_, _, _, rfl⟩ := positional.application.fieldAt?_eq_some_iff.mp there
  rw [agrees.field_eq there, own]
  exact positional.readableColumn_eq agrees owner stored

theorem followed_eq (positional : layout.Positional) (agrees : layout.AgreesWithin other)
    (formula : Field) (connection : String) :
    followed other formula connection = followed layout formula connection := by
  unfold followed
  rw [agrees.index_eq]
  cases found : layout.index.requireField formula.key connection with
  | error fault => rfl
  | ok id =>
    obtain ⟨field, _, there, _⟩ := positional.exists_field found
    simp only [bind, Except.bind, agrees.field_eq there, relation?, agrees.relations_eq]

theorem linked_eq (positional : layout.Positional) (agrees : layout.AgreesWithin other)
    {formula : Field} (hosts : layout.application.entityAt? formula.id.table = some entity)
    (connection : String) (outward : Bool) :
    linked other formula connection outward = linked layout formula connection outward := by
  unfold linked
  rw [positional.followed_eq agrees]
  cases follows : followed layout formula connection with
  | error fault => rfl
  | ok relation =>
    obtain ⟨field, recorded⟩ := exists_mem_of_followed follows
    have records := positional.relation field relation recorded
    simp only [bind, Except.bind, agrees.of?_eq records, agrees.name_eq hosts]

theorem aggregateColumn_eq (positional : layout.Positional) (agrees : layout.AgreesWithin other)
    (found : layout.application.entityAt? id = some entity) (formula : Field)
    (aggregate : Aggregate) (stored : Bool) :
    aggregateColumn other formula aggregate id stored =
      aggregateColumn layout formula aggregate id stored := by
  unfold aggregateColumn
  cases aggregate.target with
  | none => rfl
  | some target =>
    rw [agrees.index_eq]
    cases looked : layout.index.requireField formula.key target with
    | error fault => simp only [looked, bind, Except.bind]
    | ok read =>
      simp only [looked, bind, Except.bind, agrees.name_eq found,
        positional.readKey_eq agrees looked]

theorem compileAggregate_eq (positional : layout.Positional) (agrees : layout.AgreesWithin other)
    {formula : Field} (hosts : layout.application.entityAt? formula.id.table = some entity)
    (aggregate : Aggregate) :
    compileAggregate other formula aggregate = compileAggregate layout formula aggregate := by
  unfold compileAggregate
  rw [positional.linked_eq agrees hosts]
  cases links : linked layout formula aggregate.connection false with
  | error fault => rfl
  | ok found =>
    obtain ⟨link, id⟩ := found
    obtain ⟨_, leads⟩ := positional.exists_linked links
    simp only [bind, Except.bind, agrees.source_eq leads, agrees.name_eq hosts,
      positional.aggregateColumn_eq agrees leads]

theorem readOwn_eq (positional : layout.Positional) (agrees : layout.AgreesWithin other)
    {formula : Field} (hosts : layout.application.entityAt? formula.id.table = some entity)
    (key : String) : readOwn other formula key = readOwn layout formula key := by
  unfold readOwn
  rw [agrees.index_eq]
  cases looked : layout.index.requireField formula.key key with
  | error fault => rfl
  | ok id =>
    obtain ⟨_, owner, _, owns⟩ := positional.exists_field looked
    simp only [bind, Except.bind, agrees.name_eq hosts, agrees.name_eq owns,
      positional.readKey_eq agrees looked]

theorem readLinked_eq (positional : layout.Positional) (agrees : layout.AgreesWithin other)
    {formula : Field} (hosts : layout.application.entityAt? formula.id.table = some entity)
    (connection key : String) (reads : Reads) :
    readLinked other formula connection key reads =
      readLinked layout formula connection key reads := by
  unfold readLinked
  rw [positional.linked_eq agrees hosts, agrees.index_eq]
  cases links : linked layout formula connection true with
  | error fault => rfl
  | ok found =>
    obtain ⟨link, id⟩ := found
    obtain ⟨_, leads⟩ := positional.exists_linked links
    cases looked : layout.index.requireField formula.key key with
    | error fault => rfl
    | ok read =>
      simp only [bind, Except.bind, agrees.name_eq hosts, agrees.name_eq leads,
        agrees.source_eq leads, positional.readKey_eq agrees looked]

theorem resolver_eq (positional : layout.Positional) (agrees : layout.AgreesWithin other)
    {formula : Field} (hosts : layout.application.entityAt? formula.id.table = some entity) :
    resolver other formula = resolver layout formula := by
  funext ref
  unfold resolver
  cases ref.via with
  | none => simp only [positional.readOwn_eq agrees hosts]
  | some connection =>
    funext reads
    exact positional.readLinked_eq agrees hosts connection ref.field reads

/-- **A formula compiles to the same**, or fails alike. -/
theorem compile_eq (positional : layout.Positional) (agrees : layout.AgreesWithin other)
    {formula : Field} (hosts : layout.application.entityAt? formula.id.table = some entity) :
    compile other formula = compile layout formula := by
  unfold compile
  cases formula.kind with
  | aggregate aggregate => exact positional.compileAggregate_eq agrees hosts aggregate
  | concatenation equation =>
    simp only [compileConcatenation, positional.resolver_eq agrees hosts]
  | stored => rfl
  | connection => rfl

/-! ### Views and the catalog -/

/-- **The view of an entity is the same.** -/
theorem ofEntity_eq (positional : layout.Positional) (agrees : layout.AgreesWithin other)
    (found : layout.application.entityAt? entity.id = some entity)
    (formulas : List CompiledFormula) :
    View.ofEntity other formulas entity = View.ofEntity layout formulas entity := by
  obtain ⟨table, there, _⟩ := positional.object _ entity found
  simp only [View.ofEntity, agrees.table_eq there]

/-- A column that stores a field has the number of one. -/
theorem exists_stored (positional : layout.Positional) {table : Table}
    (member : table ∈ layout.tables) {column : Column} (inside : column ∈ table.columns)
    {id : FieldId} (stores : column.field = some id) :
    ∃ field, layout.application.fieldAt? id = some field := by
  cases positional.column table member column inside id stores with
  | stored found => exact ⟨_, found⟩
  | connection recorded =>
    obtain ⟨_, _, _, _, connects⟩ := (positional.relation _ _ recorded).exists_connects
    exact ⟨_, connects.fieldAt⟩

/-- The entity of a table that is no association is within bounds. -/
theorem exists_entity (positional : layout.Positional) {table : Table}
    (member : table ∈ layout.tables) (object : table.isAssociation = false) :
    ∃ entity, layout.application.entityAt? table.id = some entity := by
  obtain ⟨position, found⟩ := List.mem_iff_getElem?.mp member
  obtain rfl := positional.table position table found
  rcases Nat.lt_or_ge table.id layout.application.entities.length with inside | behind
  · exact ⟨_, List.getElem?_eq_getElem inside⟩
  · have kind := positional.association _ table found behind
    simp [Table.isAssociation, kind] at object

/-- **The entries of a table are the same.** -/
theorem ofTable_eq (positional : layout.Positional) (agrees : layout.AgreesWithin other)
    {table : Table} (member : table ∈ layout.tables) (formulas : List CompiledFormula) :
    CatalogEntry.ofTable other formulas table = CatalogEntry.ofTable layout formulas table := by
  have fields : ∀ column ∈ table.columns,
      column.field.map other.field = column.field.map layout.field := by
    intro column inside
    cases stores : column.field with
    | none => rfl
    | some id =>
      obtain ⟨field, found⟩ := positional.exists_stored member inside stores
      exact congrArg some (agrees.field_eq found)
  have columns : CatalogEntry.ofColumns other table = CatalogEntry.ofColumns layout table := by
    refine List.map_congr_left fun numbered inside => ?_
    have there := List.mem_of_getElem? (List.mem_zipIdx_iff_getElem?.mp inside)
    cases object : table.isAssociation with
    | true => simp only [CatalogEntry.ofColumn, fields _ there, object]; rfl
    | false =>
      obtain ⟨entity, found⟩ := positional.exists_entity member object
      simp only [CatalogEntry.ofColumn, fields _ there, agrees.viewName_eq found]
  have computed : CatalogEntry.ofFormulas other formulas table =
      CatalogEntry.ofFormulas layout formulas table := by
    cases object : table.isAssociation with
    | true => simp only [CatalogEntry.ofFormulas, object, if_true]
    | false =>
      obtain ⟨entity, found⟩ := positional.exists_entity member object
      have entry : CatalogEntry.ofFormula other table = CatalogEntry.ofFormula layout table := by
        funext field
        simp only [CatalogEntry.ofFormula, agrees.viewName_eq found]
      simp only [CatalogEntry.ofFormulas, agrees.formulaFields_eq found, entry]
  rw [CatalogEntry.ofTable, CatalogEntry.ofTable, columns, computed]

/-- **Where numbers are positions, nothing is read beyond the layout.** -/
theorem readsAlike (positional : layout.Positional) (agrees : layout.AgreesWithin other) :
    layout.ReadsAlike other where
  formula entity member formula own := by
    have found : layout.application.fieldAt? formula.id = some formula :=
      positional.application.fieldAt?_eq_some_iff.mpr ⟨entity, member, own, rfl⟩
    obtain ⟨host, hosts, _⟩ := Application.fieldAt?_eq_some.mp found
    exact positional.compile_eq agrees hosts
  view formulas entity member :=
    positional.ofEntity_eq agrees
      (positional.application.entityAt?_eq_some_iff.mpr ⟨member, rfl⟩) formulas
  catalog formulas _ member := positional.ofTable_eq agrees member formulas

end Positional

end Layout

/-! ### The objects of metadata -/

namespace Settings

/-- **The numbers of an application are positions at every level**, whichever objects, fields and
connections were left out. Each leads to what it was written down for: from the index, from the key
and the sides of a relation, and from a column. The target of a connection that is being stored is
within bounds, and formulas, views and the catalog are the same whatever is beyond the layout. Where
two pairs of entities have one name for their association, both relations lead to the association of
that name. -/
theorem positional_of_sources (settings : Settings) (metadata : Metadata) :
    (settings.sources metadata).1.Positional ∧
    ∀ index, Index.ofApplication (settings.sources metadata).1 = .ok index →
      (∀ connected ∈ (settings.sources metadata).1.connections, ∀ id,
        index.requireEntity connected.2.1.key connected.2.2.target = .ok id →
          ∃ target, (settings.sources metadata).1.entityAt? id = some target ∧
            target.key = connected.2.2.target) ∧
      ∀ layout left, Layout.ofApplication (settings.sources metadata).1 index
          settings.dataSchema = (layout, left) →
        layout.Positional ∧ ∀ other, layout.AgreesWithin other → layout.ReadsAlike other := by
  have wellFormed : (settings.sources metadata).1.WellFormed :=
    (Application.classified_ofSources _).toWellFormed
  refine ⟨wellFormed.positional, fun index indexed => ⟨fun connected _ id required => ?_,
    fun layout left laid => ?_⟩⟩
  · obtain ⟨target, targets, key, numbered⟩ := Index.requireEntity_eq_ok indexed required
    exact ⟨target, wellFormed.positional.entityAt?_eq_some_iff.mpr ⟨targets, numbered⟩, key⟩
  · have positional := Layout.positional_of_ofApplication wellFormed indexed settings.dataSchema
    rw [laid] at positional
    exact ⟨positional, fun other agrees => positional.readsAlike agrees⟩

/-- Readers that are not compiled, a shelf with a field of no known type, authors whose first field
has no compiled form, and books of theirs. -/
def movedBooks : Metadata :=
  ⟨[⟨"object_1", "Reader", [{ key := "field_1", name := "Name", sourceType := "short_text" }]⟩,
    ⟨"object_2", "Shelf", [{ key := "field_2", name := "Mood", sourceType := "mood" }]⟩,
    ⟨"object_3", "Author",
      [{ key := "field_3", name := "Age", sourceType := "equation" },
       manyToMany "field_4" "Edited" "object_4",
       Layout.oneSided "field_5" "Works" ⟨"object_4", .one, .many⟩]⟩,
    ⟨"object_4", "Book",
      [{ key := "field_6", name := "Title", sourceType := "short_text" },
       textFormula "field_7" "Label" "\x7bfield_6\x7d"]⟩]⟩

/-- The authors come first where the readers and the shelf are left out, and what is put behind the
tables changes nothing. -/
theorem positional_of_sources_movedBooks :
    let settings : Settings :=
      { objects := some ["object_2", "object_3", "object_4"], strict := false }
    ∃ index layout left, Index.ofApplication (settings.sources movedBooks).1 = .ok index ∧
      Layout.ofApplication (settings.sources movedBooks).1 index settings.dataSchema =
        (layout, left) ∧
      (settings.sources movedBooks).2.map Diagnostic.part =
        [.object "object_2", .field "object_3" "field_3"] ∧
      layout.tables.map (fun table => (table.id, table.name)) =
        [(0, "author"), (1, "book"), (2, "many_author_to_many_book")] ∧
      layout.relations = [(⟨0, 0⟩, .manyToMany 2 0 1 "author_id" "book_id"),
        (⟨0, 1⟩, .single 1 "works_rel_author_id" 0 false)] ∧
      (settings.sources movedBooks).1.Positional ∧ layout.Positional ∧
      (∃ target, (settings.sources movedBooks).1.entityAt? 1 = some target ∧
        target.key = "object_4") ∧
      ∀ entities tables, layout.ReadsAlike (layout.extended entities tables) := by
  intro settings
  have unclassified : (settings.sources movedBooks).2.map Diagnostic.part =
      [.object "object_2", .field "object_3" "field_3"] := by
    decide +kernel
  have runs : (Index.ofApplication (settings.sources movedBooks).1).toOption.any
      (fun index =>
        let layout := (Layout.ofApplication (settings.sources movedBooks).1 index
          settings.dataSchema).1
        decide ((layout.tables.map (fun table => (table.id, table.name)) =
            [(0, "author"), (1, "book"), (2, "many_author_to_many_book")] ∧
          layout.relations = [(⟨0, 0⟩, .manyToMany 2 0 1 "author_id" "book_id"),
            (⟨0, 1⟩, .single 1 "works_rel_author_id" 0 false)]) ∧
          ∃ connected ∈ (settings.sources movedBooks).1.connections,
            (index.requireEntity connected.2.1.key connected.2.2.target).toOption = some 1 ∧
              connected.2.2.target = "object_4")) = true := by
    decide +kernel
  obtain ⟨index, indexed, runs⟩ := exists_of_any runs
  obtain ⟨⟨tables, relations⟩, connected, member, required, named⟩ := of_decide_eq_true runs
  obtain ⟨positional, each⟩ := positional_of_sources settings movedBooks
  obtain ⟨targets, stores⟩ := each index indexed
  obtain ⟨numbered, alike⟩ := stores _ _ rfl
  obtain ⟨target, found, key⟩ := targets connected member 1 (toOption_eq_some.mp required)
  exact ⟨index, _, _, indexed, rfl, unclassified, tables, relations, positional, numbered,
    ⟨target, found, key.trans named⟩,
    fun entities tables => alike _ (Layout.agreesWithin_extended _ entities tables)⟩

end Settings

end AppSchema
