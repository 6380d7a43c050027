/-
**Every table has different columns and one key.**

The columns of a table come from fields, from connections of any table, and from the two keys that
every entity has. Each takes its name before the next is made, so the check behind that never fails.

* `Table.Keyed`: the columns of a table have names of their own, and it has one key;
* `Plan.Follows.keyed_entity`, `Plan.Sound.keyed_association`: the tables of a plan;
* `Settings.keyed_of_sources`: every classified application whose names and keys pass their checks
  has only such tables, so that a layout is the same without the check on them.
-/

import AppSchema.Proofs.Application.Numbered
import AppSchema.Proofs.Storage.Renumbered

namespace AppSchema

/-- **A table with different columns and one key**: a column of its own where the table stores an
entity, and two columns that are never empty where it is an association. -/
structure Table.Keyed (table : Table) : Prop where
  distinct : (table.columns.map Column.name).Nodup
  object : table.kind = .object →
    table.primaryKey = [] ∧ ∃ key, table.columns.filter (·.primaryKey) = [key]
  association : table.kind = .association →
    table.columns.filter (·.primaryKey) = [] ∧
      ∃ first second, table.primaryKey = [first, second] ∧ first ≠ second ∧
        ∀ position ∈ table.primaryKey, ∃ column, table.columns[position]? = some column ∧
          column.nullable = false

/-- Such a table passes its check. -/
theorem Table.Keyed.check_eq_ok {table : Table} (keyed : table.Keyed) : table.check = .ok () := by
  refine check_eq_ok_iff.mpr ⟨keyed.distinct, ?_⟩
  cases kind : table.kind with
  | object =>
    obtain ⟨_, key, one⟩ := keyed.object kind
    obtain ⟨member, isKey⟩ := List.mem_filter.mp (one ▸ List.mem_singleton_self key)
    have any : table.columns.any (·.primaryKey) = true := List.any_eq_true.mpr ⟨key, member, isKey⟩
    rw [any, Bool.not_true, Bool.and_false]
  | association =>
    obtain ⟨_, first, second, pair, _⟩ := keyed.association kind
    rw [pair]
    rfl

/-! ### Columns of fields -/

namespace Entity

/-- The synthetic fields of an entity are its two keys. -/
theorem WellFormed.syntheticFields_eq {entity : Entity} (wellFormed : entity.WellFormed) :
    entity.syntheticFields = keyFields entity.id entity.domainFields.length := by
  have domain : entity.domainFields.filter (·.synthetic) = [] := by
    refine List.filter_eq_nil_iff.mpr fun field inside => ?_
    have own := (List.mem_filter.mp inside).2
    simpa using own
  rw [syntheticFields, wellFormed.fields_eq, List.filter_append, domain, List.nil_append]
  exact List.filter_eq_self.mpr fun field => synthetic_of_mem_keyFields

/-- The names of the columns of fields are those of the fields. -/
theorem sublist_columnNames (fields : List Field) :
    ((fields.filterMap storedColumn?).map Column.name).Sublist (fields.map (·.name.ident)) := by
  refine sublist_map_filterMap _ fun field _ column stores => ?_
  obtain ⟨_, _, rfl⟩ := Option.map_eq_some_iff.mp stores
  rfl

end Entity

/-- **No field of the metadata is a primary key.** -/
theorem Application.primaryKey_eq_false {objects : List ObjectSource} {entity : Entity}
    (member : entity ∈ (ofSources objects).1.entities) {field : Field}
    (own : field ∈ entity.domainFields) {stored : StoredField}
    (stores : field.kind.stored? = some stored) : stored.primaryKey = false := by
  obtain ⟨object, _, _, classified, _⟩ := exists_source member
  obtain ⟨draft, sound, _, same, _⟩ := Entity.ofSource_eq_ok classified
  rw [same, sound.domainFields_eq] at own
  obtain ⟨source, _, _, read⟩ := sound.read field own
  obtain ⟨type, _, rfl⟩ := Reading.stored_ofSource read stores
  rfl

/-! ### The tables of a plan -/

namespace Plan

variable {application : Application} {plan : Plan} {schema : String} {entity : Entity}
  {stored : List (Entity × Field × Connection)}

/-- The columns of ids of a table have names of their own. -/
theorem Follows.nodup_referenceNames (follows : Follows application stored plan) (id : TableId) :
    ((plan.referencesOf id).map Column.name).Nodup := by
  have held : ((stored.filterMap application.claim?).filter (·.holder.id == id)).map Claim.place =
      ((plan.referencesOf id).map Column.name).map fun name => (id, name) := by
    rw [follows.referencesOf_eq, List.map_map, List.map_map]
    refine List.map_congr_left fun claim inside => ?_
    have holder : claim.holder.id = id := by simpa using (List.mem_filter.mp inside).2
    exact Prod.ext holder rfl
  have distinct : (((stored.filterMap application.claim?).filter
      (·.holder.id == id)).map Claim.place).Nodup :=
    follows.distinct.sublist (List.filter_sublist.map Claim.place)
  rw [held] at distinct
  exact distinct.of_map _

/-- **The columns of an entity have names of their own**: those of its fields, and those of the
columns of ids, which were claimed beside them. -/
theorem Follows.nodup_columnNames (follows : Follows application stored plan)
    (sound : plan.Sound application schema) (wellFormed : application.WellFormed)
    (member : entity ∈ application.entities) :
    ((entity.table schema (plan.referencesOf entity.id)).columns.map Column.name).Nodup := by
  have fields : entity.fields = entity.domainFields ++ entity.syntheticFields := by
    have own := wellFormed.entity entity member
    rw [own.syntheticFields_eq]
    exact own.fields_eq
  have parts : (entity.table schema (plan.referencesOf entity.id)).columns.Perm
      (entity.fields.filterMap Entity.storedColumn? ++ plan.referencesOf entity.id) := by
    rw [fields, List.filterMap_append, Entity.table, List.append_assoc, List.append_assoc]
    exact List.perm_append_comm.append_left _
  rw [(parts.map Column.name).nodup_iff, List.map_append, List.nodup_append]
  have names := Entity.sublist_columnNames entity.fields
  refine ⟨(wellFormed.entity entity member).distinctNames.sublist names,
    follows.nodup_referenceNames entity.id, ?_⟩
  rintro first firstIn second secondIn rfl
  obtain ⟨field, own, named⟩ := List.mem_map.mp (names.subset firstIn)
  obtain ⟨column, refers, same⟩ := List.mem_map.mp secondIn
  obtain ⟨holder, holders, numbered, apart⟩ :=
    sound.reference _ (Layout.Checked.mem_referencesOf.mp refers)
  obtain rfl := wellFormed.eq_of_id holders member numbered
  exact apart field own (named.trans same.symm)

/-- **The table of an entity has one key**, the numeric one. -/
theorem Follows.keyed_entity (follows : Follows application stored plan)
    (sound : plan.Sound application schema) (wellFormed : application.WellFormed)
    (member : entity ∈ application.entities)
    (domain : ∀ field ∈ entity.domainFields, ∀ stored, field.kind.stored? = some stored →
      stored.primaryKey = false) :
    (entity.table schema (plan.referencesOf entity.id)).Keyed := by
  have own : (entity.domainFields.filterMap Entity.storedColumn?).filter (·.primaryKey) = [] := by
    refine List.filter_eq_nil_iff.mpr fun column inside => ?_
    obtain ⟨field, there, stores⟩ := List.mem_filterMap.mp inside
    obtain ⟨stored, kind, rfl⟩ := Option.map_eq_some_iff.mp stores
    simp [domain field there stored kind]
  have references : (plan.referencesOf entity.id).filter (·.primaryKey) = [] := by
    refine List.filter_eq_nil_iff.mpr fun column inside => ?_
    obtain ⟨_, _, _, _, _, _, _, equal⟩ :=
      sound.made _ (Layout.Checked.mem_referencesOf.mp inside)
    have equal : column = _ := equal
    rw [equal]
    exact Bool.false_ne_true
  refine ⟨follows.nodup_columnNames sound wellFormed member, fun _ => ⟨rfl, ?_⟩, fun kind => ?_⟩
  · rw [Entity.table, List.filter_append, List.filter_append, own, references,
      (wellFormed.entity entity member).syntheticFields_eq]
    exact ⟨_, rfl⟩
  · cases kind

/-- **An association has one key**, of its two columns. -/
theorem Sound.keyed_association (sound : plan.Sound application schema)
    (wellFormed : application.WellFormed)
    (distinct : (application.entities.map (·.name.ident)).Nodup) {table : Table}
    (member : table ∈ plan.associations) : table.Keyed := by
  obtain ⟨position, found⟩ := List.mem_iff_getElem?.mp member
  obtain ⟨host, hosts, target, targets, equal, _⟩ := sound.association position table found
  obtain ⟨firsts, seconds⟩ := ordered_mem hosts targets
  have apart := associationColumns_ne (wellFormed.eq_of_id firsts seconds)
    (List.inj_on_of_nodup_map distinct firsts seconds)
  rw [equal]
  refine ⟨?_, fun kind => ?_, fun _ => ⟨rfl, 0, 1, rfl, Nat.zero_ne_one, ?_⟩⟩
  · refine List.nodup_cons.mpr ⟨fun inside => ?_, List.nodup_singleton _⟩
    exact apart (List.mem_singleton.mp inside)
  · cases kind
  · intro position inside
    rcases List.mem_pair.mp inside with rfl | rfl
    · exact ⟨_, rfl, rfl⟩
    · exact ⟨_, rfl, rfl⟩

end Plan

/-! ### Classified applications -/

/-- **Every table of a classified application is keyed**, whichever connections were left out. -/
theorem Layout.keyed_of_mem {objects : List ObjectSource} {index : Index}
    (names : (Application.ofSources objects).1.checkNames = .ok ())
    (indexed : Index.ofApplication (Application.ofSources objects).1 = .ok index)
    {schema : String} {table : Table}
    (member : table ∈ (ofApplication (Application.ofSources objects).1 index schema).1.tables) :
    table.Keyed := by
  have wellFormed := (Application.classified_ofSources objects).toWellFormed
  obtain ⟨plan, stored, sound, follows, _, laid, _⟩ := exists_follows wellFormed indexed schema
  rw [laid] at member
  rcases List.mem_append.mp member with member | member
  · obtain ⟨entity, entities, rfl⟩ := List.mem_map.mp member
    exact follows.keyed_entity sound wellFormed entities fun field own stored stores =>
      Application.primaryKey_eq_false entities own stores
  · exact sound.keyed_association wellFormed (Application.checkNames_eq_ok_iff.mp names) member

theorem bind_eq_of_ok {ε α β : Type} {first : Except ε α} {next other : α → Except ε β}
    (same : ∀ value, first = .ok value → next value = other value) :
    (first >>= next) = (first >>= other) := by
  cases first with
  | error fault => rfl
  | ok value => exact same value rfl

namespace Settings

/-- The layout of an application whose tables are not checked. -/
def layoutUnchecked (settings : Settings) (metadata : Metadata) :
    Except Error (Layout × List Diagnostic) := do
  let (application, unclassified) := settings.sources metadata
  Diagnostic.settle settings.strict unclassified
  require application.checkNames
  let index ← require (Index.ofApplication application)
  let (layout, unstored) := Layout.ofApplication application index settings.dataSchema
  Diagnostic.settle settings.strict unstored
  require layout.checkRelationNames
  require layout.checkLengths
  return (layout, unclassified ++ unstored)

/-- **The tables of an application have different columns and one key each.** So it is for all
objects whose names and keys pass their checks, with every connection or without those that were
left out; the check on the tables passes, and without it every layout, of strict and of lenient
settings, is the same, as is every error. -/
theorem keyed_of_sources (settings : Settings) (metadata : Metadata) :
    (∀ index, (settings.sources metadata).1.checkNames = .ok () →
      Index.ofApplication (settings.sources metadata).1 = .ok index →
      ∀ layout left, Layout.ofApplication (settings.sources metadata).1 index
          settings.dataSchema = (layout, left) →
        layout.checkTables = .ok () ∧ ∀ table ∈ layout.tables, table.Keyed) ∧
    settings.layoutUnchecked metadata = settings.layout metadata := by
  have keyed : ∀ index, (settings.sources metadata).1.checkNames = .ok () →
      Index.ofApplication (settings.sources metadata).1 = .ok index →
      let layout := (Layout.ofApplication (settings.sources metadata).1 index
        settings.dataSchema).1
      layout.checkTables = .ok () ∧ ∀ table ∈ layout.tables, table.Keyed := by
    intro index names indexed layout
    have tables : ∀ table ∈ layout.tables, table.Keyed :=
      fun table member => Layout.keyed_of_mem names indexed member
    exact ⟨forM_eq_ok_iff.mpr fun table member => (tables table member).check_eq_ok, tables⟩
  constructor
  · intro index names indexed layout left laid
    have tables := keyed index names indexed
    rwa [laid] at tables
  · -- The steps before the check are the same, and where they succeed the check does.
    refine bind_eq_of_ok fun _ _ => bind_eq_of_ok fun _ named => bind_eq_of_ok fun index found =>
      bind_eq_of_ok fun _ _ => ?_
    have passes := (keyed index (require_eq_ok.mp named) (require_eq_ok.mp found)).1
    show _ = (require (Layout.ofApplication (settings.sources metadata).1 index
      settings.dataSchema).1.checkTables >>= _)
    rw [require_eq_ok.mpr passes]
    rfl

/-- Readers who know each other, and a column of ids whose name a field of the books has taken. -/
def acquaintedReaders : Metadata :=
  ⟨[⟨"object_1", "Reader",
      [manyToMany "field_1" "Friends" "object_1",
       Layout.oneSided "field_2" "Lent" ⟨"object_2", .one, .many⟩,
       Layout.oneSided "field_3" "Owned" ⟨"object_2", .one, .many⟩]⟩,
    ⟨"object_2", "Book",
      [{ key := "field_4", name := "Lent rel reader id", sourceType := "short_text" }]⟩]⟩

/-- The connection whose name is taken is left out, and a table that is linked to itself names the
columns of its association apart. -/
theorem keyed_of_sources_acquaintedReaders :
    let settings : Settings := { strict := false }
    ∃ index layout left, (settings.sources acquaintedReaders).1.checkNames = .ok () ∧
      Index.ofApplication (settings.sources acquaintedReaders).1 = .ok index ∧
      Layout.ofApplication (settings.sources acquaintedReaders).1 index settings.dataSchema =
        (layout, left) ∧
      left.map Diagnostic.part = [.field "object_1" "field_2"] ∧
      layout.tables.map (fun table => (table.name, table.primaryKey,
          (table.columns.filter (·.primaryKey)).map Column.name)) =
        [("reader", [], ["id"]), ("book", [], ["id"]),
          ("many_reader_to_many_reader", [0, 1], [])] ∧
      layout.checkTables = .ok () ∧ (∀ table ∈ layout.tables, table.Keyed) ∧
      settings.layoutUnchecked acquaintedReaders = settings.layout acquaintedReaders := by
  intro settings
  have names : (settings.sources acquaintedReaders).1.checkNames = .ok () :=
    Application.checkNames_eq_ok_iff.mpr (by decide +kernel)
  have runs : (Index.ofApplication (settings.sources acquaintedReaders).1).toOption.any
      (fun index =>
        let built := Layout.ofApplication (settings.sources acquaintedReaders).1 index
          settings.dataSchema
        decide (built.2.map Diagnostic.part = [.field "object_1" "field_2"] ∧
          built.1.tables.map (fun table => (table.name, table.primaryKey,
              (table.columns.filter (·.primaryKey)).map Column.name)) =
            [("reader", [], ["id"]), ("book", [], ["id"]),
              ("many_reader_to_many_reader", [0, 1], [])])) = true := by
    decide +kernel
  obtain ⟨index, indexed, runs⟩ := exists_of_any runs
  obtain ⟨left, tables⟩ := of_decide_eq_true runs
  obtain ⟨keyed, same⟩ := keyed_of_sources settings acquaintedReaders
  obtain ⟨passes, each⟩ := keyed index names indexed _ _ rfl
  exact ⟨index, _, _, names, indexed, rfl, left, tables, passes, each, same⟩

end Settings

end AppSchema
