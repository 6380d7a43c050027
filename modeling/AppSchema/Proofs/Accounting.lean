/-
**Nothing is lost, and nothing is reported twice.**

A field may be left out where it is classified, where its connection is stored, or where its formula
is compiled. Each of these steps reports what it leaves out and passes on the rest, so in the end
every object has a table or is reported, and of an object that has one every field whose key no
earlier field has is somewhere in what is compiled or is reported, once.

* `Schema.reports`: how often a part is reported;
* `Schema.occurrences`: how often a field is a column of its table, a relation, or a column of the
  view;
* `Schema.Accounts`: a field occurs once or is reported once;
* `Settings.accounts_of_build`: so it is for every application that is compiled from objects whose
  keys differ.
-/

import AppSchema.Proofs.Application.First
import AppSchema.Proofs.Application.Numbered
import AppSchema.Proofs.Catalog
import AppSchema.Proofs.Storage.Reference
import Mathlib.Data.List.Count
import Mathlib.Data.Option.Basic

namespace AppSchema

/-- Whether a table is that of the object of a key. -/
def Layout.isTableOf (layout : Layout) (key : String) (table : Table) : Bool :=
  !table.isAssociation && (layout.entity table.id).key == key

namespace Schema

/-- How often a part is reported. -/
def reports (schema : Schema) (part : Part) : Nat :=
  (schema.diagnostics.map Diagnostic.part).count part

/-- How often a field occurs in what is compiled: a stored field as a column of the table of its
entity, a connection as a relation, and a formula as a column of the view. -/
def occurrences (schema : Schema) (layout : Layout) (entity : Entity) (field : Field) : Nat :=
  match field.kind with
  | .stored _ =>
    (((schema.tables.filter (·.name = entity.name.ident)).flatMap Table.columns).map
      Column.field).count (some field.id)
  | .connection _ => (layout.relations.map Prod.fst).count field.id
  | .aggregate _ | .concatenation _ =>
    (((schema.views.filter (·.name = entity.viewName)).flatMap View.columns).map
      SelectItem.name?).count (some field.name.ident)

/-- **A field of an object is compiled or reported, once.** -/
inductive Accounts (schema : Schema) (layout : Layout) (entity : Entity) (source : FieldSource) :
    Prop
  | compiled {field : Field} :
    entity.domainFields.filter (·.key = source.key) = [field] →
    Reading.ofSource source = .kept field.kind →
    schema.occurrences layout entity field = 1 →
    schema.reports (.field entity.key source.key) = 0 →
    Accounts schema layout entity source
  | reported :
    (∀ field ∈ entity.domainFields, field.key = source.key →
      schema.occurrences layout entity field = 0) →
    schema.reports (.field entity.key source.key) = 1 →
    Accounts schema layout entity source

end Schema

/-! ### Fields of a kind -/

theorem FieldKind.computed_of_isFormula (kind : FieldKind) (formula : kind.isFormula = true) :
    kind.stored? = none := by
  cases kind <;> first | rfl | cases formula

theorem FieldKind.computed_of_isConnection (kind : FieldKind)
    (connection : kind.connection?.isSome = true) : kind.stored? = none := by
  cases kind <;> first | rfl | cases connection

namespace Application

variable {application : Application} {kind : FieldKind → Bool} {entity : Entity}

/-- The fields of a kind, as parts. -/
def parts (application : Application) (kind : FieldKind → Bool) : List Part :=
  application.entities.flatMap fun entity =>
    (entity.fields.filter (kind ·.kind)).map fun field => .field entity.key field.key

/-- **The fields of a kind that is not stored are different parts.** -/
theorem nodup_parts (wellFormed : application.WellFormed)
    (distinct : (application.entities.map Entity.key).Nodup)
    (computed : ∀ value, kind value = true → value.stored? = none) :
    (application.parts kind).Nodup := by
  refine nodup_flatMap_of_tagged Part.objectKey (fun entity _ part inside => ?_) distinct
    fun entity member => ?_
  · obtain ⟨_, _, rfl⟩ := List.mem_map.mp inside
    rfl
  · have sound := wellFormed.entity entity member
    have keys : (Entity.keyFields entity.id entity.domainFields.length).filter (kind ·.kind) = [] := by
      refine List.filter_eq_nil_iff.mpr fun field inside kept => ?_
      have none := computed _ kept
      rcases List.mem_pair.mp inside with rfl | rfl <;> cases none
    have own : (entity.fields.filter (kind ·.kind)).Sublist entity.domainFields := by
      rw [sound.fields_eq, List.filter_append, keys, List.append_nil]
      exact List.filter_sublist
    have injective : Function.Injective (Part.field entity.key) :=
      fun first second same => (Part.field.inj same).2
    have fields := (sound.distinctKeys.sublist (own.map _)).map injective
    rwa [List.map_map] at fields

theorem mem_parts (wellFormed : application.WellFormed)
    (distinct : (application.entities.map Entity.key).Nodup)
    (computed : ∀ value, kind value = true → value.stored? = none)
    (member : entity ∈ application.entities) {key : String} :
    .field entity.key key ∈ application.parts kind ↔
      ∃ field ∈ entity.domainFields, field.key = key ∧ kind field.kind = true := by
  simp only [parts, List.mem_flatMap, List.mem_map, List.mem_filter, Part.field.injEq]
  constructor
  · rintro ⟨other, there, field, ⟨inside, kept⟩, same, keyed⟩
    obtain rfl := List.inj_on_of_nodup_map distinct there member same
    have own := (wellFormed.entity other there).mem_domainFields inside (computed _ kept)
    exact ⟨field, own, keyed, kept⟩
  · rintro ⟨field, own, keyed, kept⟩
    exact ⟨entity, member, field, ⟨List.mem_of_mem_filter own, kept⟩, rfl, keyed⟩

theorem parts_connections (application : Application) :
    application.connections.map Plan.connectedPart =
      application.parts (·.connection?.isSome) := by
  rw [connections, List.map_flatMap]
  refine List.flatMap_congr fun entity _ => ?_
  refine (map_filter_isSome (fun field => Part.field entity.key field.key)
    fun field _ connected found => ?_).symm.trans ?_
  · obtain ⟨_, _, rfl⟩ := Option.map_eq_some_iff.mp found
    rfl
  · simp only [Option.isSome_map]

end Application

/-! ### What is reported -/

namespace Application

variable {objects : List ObjectSource} {object : ObjectSource} {entity : Entity}

/-- What is reported of an object tells its key. -/
theorem objectKey_of_mem_leftOf {part : Part}
    (member : part ∈ (Entity.leftOf object).map Diagnostic.part) : part.objectKey = object.key := by
  obtain ⟨diagnostic, inside, rfl⟩ := List.mem_map.mp member
  unfold Entity.leftOf at inside
  cases classified : Entity.ofSource 0 object with
  | error fault =>
    simp only [classified] at inside
    rw [List.mem_singleton.mp inside]
    rfl
  | ok read =>
    simp only [classified] at inside
    have parts := (Entity.wellFormed_of_ofSource classified).2.2.2
    have there := parts.subset (List.mem_append_right _ (List.mem_map_of_mem inside))
    obtain ⟨source, _, same⟩ := List.mem_map.mp there
    rw [← same]
    rfl

/-- **What is reported of an object** is what is left out of it. -/
theorem count_left_ofSources (distinct : (objects.map ObjectSource.key).Nodup)
    (member : object ∈ objects) {part : Part} (same : part.objectKey = object.key) :
    ((ofSources objects).2.map Diagnostic.part).count part =
      ((Entity.leftOf object).map Diagnostic.part).count part := by
  have own : ((ofSources objects).2.map Diagnostic.part).filter
      (·.objectKey = object.key) = (Entity.leftOf object).map Diagnostic.part := by
    rw [left_ofSources, List.map_flatMap]
    exact filter_flatMap_of_tagged Part.objectKey
      (fun _ _ _ inside => objectKey_of_mem_leftOf inside) distinct member
  rw [← own, List.count_filter (by simpa using same)]

/-- **A field of an object is read or reported.** -/
theorem read_or_left (distinct : (objects.map ObjectSource.key).Nodup)
    (member : object ∈ objects) (entities : entity ∈ (ofSources objects).1.entities)
    (same : entity.key = object.key) {source : FieldSource}
    (inside : source ∈ FieldSource.firstOfKeys [] object.fields) :
    (∃ field, entity.domainFields.filter (·.key = source.key) = [field] ∧
      Reading.ofSource source = .kept field.kind ∧
      ((ofSources objects).2.map Diagnostic.part).count (.field entity.key source.key) = 0) ∨
    ((∀ field ∈ entity.domainFields, field.key ≠ source.key) ∧
      ((ofSources objects).2.map Diagnostic.part).count (.field entity.key source.key) = 1) := by
  obtain ⟨other, others, skipped, classified, left⟩ := exists_source entities
  have sound := Entity.wellFormed_of_ofSource classified
  obtain rfl : other = object :=
    List.inj_on_of_nodup_map distinct others member (sound.2.2.1.symm.trans same)
  have parts := sound.2.2.2.count_eq (.field other.key source.key)
  have once : ((FieldSource.firstOfKeys [] other.fields).map fun source =>
      Part.field other.key source.key).count (.field other.key source.key) = 1 :=
    List.count_eq_one_of_mem (FieldSource.nodup_parts other.key other.fields)
      (List.mem_map_of_mem inside)
  rw [once, List.count_append] at parts
  rw [same, count_left_ofSources distinct member rfl, left]
  by_cases kept : ∃ field ∈ entity.domainFields, field.key = source.key
  · obtain ⟨field, own, keyed⟩ := kept
    refine .inl ⟨field, ?_, Entity.read_of_ofSource classified own inside keyed, ?_⟩
    · rw [← keyed]
      exact filter_eq_singleton sound.1.distinctKeys own
    · have here : Part.field other.key source.key ∈
          entity.domainFields.map fun field => Part.field other.key field.key :=
        List.mem_map.mpr ⟨field, own, by rw [keyed]⟩
      have positive := List.count_pos_iff.mpr here
      omega
  · have absent : Part.field other.key source.key ∉
        entity.domainFields.map fun field => Part.field other.key field.key := by
      rintro there
      obtain ⟨field, own, part⟩ := List.mem_map.mp there
      exact kept ⟨field, own, (Part.field.inj part).2⟩
    have zero := List.count_eq_zero.mpr absent
    exact .inr ⟨fun field own keyed => kept ⟨field, own, keyed⟩, by omega⟩

/-- **An object is classified or reported.** -/
theorem classified_or_left (distinct : (objects.map ObjectSource.key).Nodup)
    (member : object ∈ objects) :
    ((ofSources objects).1.entities.map Entity.key).count object.key +
      ((ofSources objects).2.map Diagnostic.part).count (.object object.key) = 1 := by
  rw [keys_ofSources, count_left_ofSources distinct member rfl]
  have kept : ((objects.filter fun object => (Entity.ofSource? object).isSome).map
      ObjectSource.key).Nodup := distinct.sublist (List.filter_sublist.map _)
  cases classified : Entity.ofSource 0 object with
  | error fault =>
    have absent : object.key ∉ (objects.filter fun object =>
        (Entity.ofSource? object).isSome).map ObjectSource.key := by
      intro there
      obtain ⟨other, inside, same⟩ := List.mem_map.mp there
      obtain ⟨others, some⟩ := List.mem_filter.mp inside
      obtain rfl := List.inj_on_of_nodup_map distinct others member same
      simp [Entity.ofSource?, classified, Except.toOption] at some
    have left : Entity.leftOf object = [⟨.object object.key, .error, fault⟩] := by
      rw [Entity.leftOf, classified]
    rw [List.count_eq_zero.mpr absent, left]
    simp
  | ok read =>
    have there : object.key ∈ (objects.filter fun object =>
        (Entity.ofSource? object).isSome).map ObjectSource.key := by
      refine List.mem_map_of_mem (List.mem_filter.mpr ⟨member, ?_⟩)
      rw [Entity.ofSource?, classified]
      rfl
    have absent : Part.object object.key ∉ (Entity.leftOf object).map Diagnostic.part := by
      intro inside
      rw [Entity.leftOf, classified] at inside
      have parts := (Entity.wellFormed_of_ofSource classified).2.2.2
      obtain ⟨_, _, same⟩ := List.mem_map.mp (parts.subset (List.mem_append_right _ inside))
      cases same
    rw [List.count_eq_one_of_mem kept there, List.count_eq_zero.mpr absent]

end Application

/-- What is reported of formulas are formulas, each once. -/
theorem Formula.nodup_left_compileAll {layout : Layout}
    (wellFormed : layout.application.WellFormed)
    (distinct : (layout.application.entities.map Entity.key).Nodup) :
    ((compileAll layout).2.map Diagnostic.part).Nodup := by
  have all := Application.nodup_parts wellFormed distinct FieldKind.computed_of_isFormula
  have formulas : (layout.application.entities.flatMap fun entity =>
      entity.formulaFields.map (entity, ·)).map (fun formula =>
        Part.field formula.1.key formula.2.key) = layout.application.parts FieldKind.isFormula := by
    rw [List.map_flatMap]
    refine List.flatMap_congr fun entity _ => ?_
    rw [List.map_map]
    rfl
  rw [← formulas] at all
  rw [compileAll, foldl_attempt]
  refine all.sublist (sublist_map_filterMap _ fun formula _ diagnostic found => ?_)
  cases outcome : compile layout formula.2 with
  | ok value => simp [outcome] at found
  | error fault =>
    simp only [outcome, Option.some.injEq] at found
    rw [← found]

/-! ### Where fields occur -/

namespace Layout.Checked

open Formula

variable {schema : String} {plan : Plan} {left : List Diagnostic} {layout : Layout}
  {entity : Entity} {field : Field} {compiled : Schema}
  {stored : List (Entity × Field × Connection)}

/-- **A stored field is one column of its table.** -/
theorem occurrences_stored (checked : layout.Checked schema plan left)
    (follows : Plan.Follows layout.application stored plan)
    (connections : stored ⊆ layout.application.connections)
    (tables : compiled.tables = layout.tables) (member : entity ∈ layout.application.entities)
    (own : field ∈ entity.domainFields) {value : StoredField} (kind : field.kind = .stored value) :
    compiled.occurrences layout entity field = 1 := by
  have there := checked.mem_tables.mpr (.inl ⟨entity, member, rfl⟩)
  have one : compiled.tables.filter (·.name = entity.name.ident) =
      [entity.table schema (plan.referencesOf entity.id)] :=
    tables ▸ filter_eq_singleton (List.nodup_append.mp checked.distinctRelations).1 there
  have inside := List.mem_of_mem_filter own
  have domain : ((entity.domainFields.filterMap Entity.storedColumn?).map Column.field).count
      (some field.id) = 1 := by
    have ids : (entity.domainFields.map fun other => some other.id).Nodup := by
      have distinct : (entity.domainFields.map Field.id).Nodup :=
        (checked.wellFormed.entity entity member).nodup_ids.sublist
          (List.filter_sublist.map Field.id)
      have some := distinct.map (Option.some_injective FieldId)
      rwa [List.map_map] at some
    refine List.count_eq_one_of_mem (ids.sublist (sublist_map_filterMap _ fun _ _ _ is =>
      Entity.field_of_storedColumn? is)) ?_
    obtain ⟨column, stores⟩ : ∃ column, Entity.storedColumn? field = some column := by
      rw [Entity.storedColumn?, kind]
      exact ⟨_, rfl⟩
    exact List.mem_map.mpr ⟨column, List.mem_filterMap.mpr ⟨field, own, stores⟩,
      Entity.field_of_storedColumn? stores⟩
  have synthetic : ((entity.syntheticFields.filterMap Entity.storedColumn?).map Column.field).count
      (some field.id) = 0 := by
    refine List.count_eq_zero.mpr fun there => ?_
    obtain ⟨column, stores, same⟩ := List.mem_map.mp there
    obtain ⟨other, others, is⟩ := List.mem_filterMap.mp stores
    have numbered : other.id = field.id :=
      Option.some.inj ((Entity.field_of_storedColumn? is).symm.trans same)
    obtain rfl := checked.eq_of_fieldId member member (List.mem_of_mem_filter others) inside numbered
    have domain := (List.mem_filter.mp own).2
    rw [(List.mem_filter.mp others).2] at domain
    cases domain
  have references : ((plan.referencesOf entity.id).map Column.field).count (some field.id) = 0 := by
    refine List.count_eq_zero.mpr fun there => ?_
    obtain ⟨column, refers, same⟩ := List.mem_map.mp there
    obtain ⟨host, hosts, other, others, isConnection, fieldOf⟩ :=
      follows.exists_connection connections refers
    have numbered : other.id = field.id := Option.some.inj (fieldOf.symm.trans same)
    obtain rfl := checked.eq_of_fieldId hosts member others inside numbered
    rw [kind] at isConnection
    cases isConnection
  simp only [Schema.occurrences, kind, one, List.flatMap_cons, List.flatMap_nil, List.append_nil,
    Entity.table, List.map_append, List.count_append, domain, synthetic, references]

/-- **A connection is one relation if it is stored.** -/
theorem occurrences_connection (checked : layout.Checked schema plan left)
    (follows : Plan.Follows layout.application stored plan)
    (connections : stored ⊆ layout.application.connections)
    (member : entity ∈ layout.application.entities) (own : field ∈ entity.domainFields)
    {connection : Connection} (kind : field.kind = .connection connection) :
    compiled.occurrences layout entity field =
      (stored.map Plan.connectedPart).count (.field entity.key field.key) := by
  simp only [Schema.occurrences, kind]
  rw [checked.relations_eq, follows.fields_eq, List.count_eq_countP, List.count_eq_countP,
    List.countP_map, List.countP_map]
  refine List.countP_congr fun ⟨host, other, connection⟩ there => ?_
  obtain ⟨hosts, others, isConnection⟩ := Application.mem_connections.mp (connections there)
  have inside := List.mem_of_mem_filter own
  simp only [Function.comp_apply, Plan.connectedPart, beq_iff_eq, Part.field.injEq]
  constructor
  · intro numbered
    obtain rfl := checked.eq_of_fieldId hosts member others inside numbered
    have sameTable := (checked.wellFormed.field_eq hosts others).1.symm.trans
      (checked.wellFormed.field_eq member inside).1
    obtain rfl := checked.eq_of_id hosts member sameTable
    exact ⟨rfl, rfl⟩
  · rintro ⟨sameKey, keyed⟩
    obtain rfl := Application.eq_of_key checked.indexed hosts member sameKey
    have sound := checked.wellFormed.entity host hosts
    have domain := sound.mem_domainFields others
      (FieldKind.computed_of_isConnection _ (by simp [isConnection]))
    rw [List.inj_on_of_nodup_map sound.distinctKeys domain own keyed]

/-- **A formula is one column of the view if it is compiled.** -/
theorem occurrences_formula (checked : layout.Checked schema plan left)
    (views : compiled.views.Perm (Settings.viewsOf layout))
    (member : entity ∈ layout.application.entities) (own : field ∈ entity.domainFields)
    (kind : field.kind.isFormula = true) :
    compiled.occurrences layout entity field =
      if (compile layout field).toOption.isSome then 1 else 0 := by
  obtain ⟨collects, named, _⟩ := checked.collects_ofEntity member
  have distinct : (compiled.views.map View.name).Nodup :=
    (views.map View.name).nodup_iff.mpr checked.nodup_viewNames
  have there : View.ofEntity layout (compileAll layout).1 entity ∈ compiled.views :=
    views.mem_iff.mpr (List.mem_map_of_mem member)
  have one := filter_eq_singleton distinct there
  rw [named] at one
  have names : (View.ofEntity layout (compileAll layout).1 entity).columns.map SelectItem.name? =
      (((entity.formulaFields.filter fun field => (compile layout field).toOption.isSome).map
        (·.name.ident)).map some) := by
    rw [← checked.names_compiledOf member, collects.columns_eq, List.map_map, List.map_map]
    rfl
  have fields := (checked.wellFormed.entity entity member).distinctNames
  have formulas : ((entity.formulaFields.filter fun field =>
      (compile layout field).toOption.isSome).map (·.name.ident)).Nodup :=
    fields.sublist ((List.filter_sublist.trans List.filter_sublist).map _)
  have count : compiled.occurrences layout entity field =
      ((entity.formulaFields.filter fun field => (compile layout field).toOption.isSome).map
        (·.name.ident)).count field.name.ident := by
    rw [← List.count_map_of_injective _ _ (Option.some_injective String), ← names]
    cases is : field.kind <;>
      simp_all [Schema.occurrences, FieldKind.isFormula]
  have inside := List.mem_of_mem_filter own
  rw [count]
  split
  · next outcome =>
    refine List.count_eq_one_of_mem formulas (List.mem_map_of_mem ?_)
    exact List.mem_filter.mpr ⟨List.mem_filter.mpr ⟨inside, kind⟩, outcome⟩
  · next outcome =>
    refine List.count_eq_zero.mpr fun there => outcome ?_
    obtain ⟨other, kept, same⟩ := List.mem_map.mp there
    obtain ⟨others, compiles⟩ := List.mem_filter.mp kept
    rwa [← List.inj_on_of_nodup_map fields (List.mem_of_mem_filter others) inside same]

end Layout.Checked

/-! ### Every object and every field -/

namespace Layout.Checked

open Formula

variable {schema : String} {plan : Plan} {left unstored : List Diagnostic} {layout : Layout}
  {entity : Entity} {field : Field} {compiled : Schema}
  {stored : List (Entity × Field × Connection)}

/-- A field that is no connection is not among the connections that were left out. -/
theorem count_unstored_eq_zero (checked : layout.Checked schema plan left)
    (parts : (stored.map Plan.connectedPart ++ unstored.map Diagnostic.part).Perm
      (layout.application.connections.map Plan.connectedPart))
    (member : entity ∈ layout.application.entities) {key : String}
    (other : ∀ field ∈ entity.domainFields, field.key = key →
      field.kind.connection?.isSome = false) :
    (unstored.map Diagnostic.part).count (.field entity.key key) = 0 := by
  refine List.count_eq_zero.mpr fun there => ?_
  have connects := parts.subset (List.mem_append_right _ there)
  rw [Application.parts_connections] at connects
  obtain ⟨field, own, keyed, isConnection⟩ := (Application.mem_parts checked.wellFormed
    (Index.nodup_keys checked.indexed) FieldKind.computed_of_isConnection member).mp connects
  rw [other field own keyed] at isConnection
  cases isConnection

/-- A field that is no formula is not among the formulas that were left out. -/
theorem count_uncompiled_eq_zero (checked : layout.Checked schema plan left)
    (member : entity ∈ layout.application.entities) {key : String}
    (other : ∀ field ∈ entity.domainFields, field.key = key → field.kind.isFormula = false) :
    ((compileAll layout).2.map Diagnostic.part).count (.field entity.key key) = 0 := by
  refine List.count_eq_zero.mpr fun there => ?_
  obtain ⟨diagnostic, inside, part⟩ := List.mem_map.mp there
  obtain ⟨host, hosts, field, formulas, fault, outcome, rfl⟩ := mem_left_compileAll.mp inside
  obtain ⟨sameKey, keyed⟩ := Part.field.inj part
  obtain rfl := Application.eq_of_key checked.indexed hosts member sameKey
  obtain ⟨own, formula⟩ := List.mem_filter.mp formulas
  have domain := (checked.wellFormed.entity host hosts).mem_domainFields own
    (FieldKind.computed_of_isFormula _ formula)
  rw [other field domain keyed] at formula
  cases formula

/-- **A formula is left out if it is not compiled.** -/
theorem count_uncompiled (checked : layout.Checked schema plan left)
    (member : entity ∈ layout.application.entities) (own : field ∈ entity.domainFields)
    (formula : field.kind.isFormula = true) :
    ((compileAll layout).2.map Diagnostic.part).count (.field entity.key field.key) =
      if (compile layout field).toOption.isSome then 0 else 1 := by
  have keys := Index.nodup_keys checked.indexed
  have formulas : field ∈ entity.formulaFields :=
    List.mem_filter.mpr ⟨List.mem_of_mem_filter own, formula⟩
  cases outcome : compile layout field with
  | error fault =>
    refine List.count_eq_one_of_mem (nodup_left_compileAll checked.wellFormed keys) ?_
    exact List.mem_map_of_mem (f := Diagnostic.part)
      (mem_left_compileAll.mpr ⟨entity, member, field, formulas, fault, outcome, rfl⟩)
  | ok value =>
    refine List.count_eq_zero.mpr fun there => ?_
    obtain ⟨diagnostic, inside, part⟩ := List.mem_map.mp there
    obtain ⟨host, hosts, other, others, fault, failed, rfl⟩ := mem_left_compileAll.mp inside
    obtain ⟨sameKey, keyed⟩ := Part.field.inj part
    obtain rfl := Application.eq_of_key checked.indexed hosts member sameKey
    obtain ⟨within, isFormula⟩ := List.mem_filter.mp others
    have sound := checked.wellFormed.entity host hosts
    have domain := sound.mem_domainFields within (FieldKind.computed_of_isFormula _ isFormula)
    rw [List.inj_on_of_nodup_map sound.distinctKeys domain own keyed, outcome] at failed
    cases failed

/-- **A field that is classified occurs once or is left out once.** -/
theorem occurrences_add_left (checked : layout.Checked schema plan left)
    (follows : Plan.Follows layout.application stored plan)
    (connections : stored ⊆ layout.application.connections)
    (parts : (stored.map Plan.connectedPart ++ unstored.map Diagnostic.part).Perm
      (layout.application.connections.map Plan.connectedPart))
    (tables : compiled.tables = layout.tables)
    (views : compiled.views.Perm (Settings.viewsOf layout))
    (member : entity ∈ layout.application.entities) (own : field ∈ entity.domainFields) :
    compiled.occurrences layout entity field +
        (unstored.map Diagnostic.part).count (.field entity.key field.key) +
        ((compileAll layout).2.map Diagnostic.part).count (.field entity.key field.key) = 1 := by
  have same : ∀ other ∈ entity.domainFields, other.key = field.key → other = field :=
    fun other others keyed => List.inj_on_of_nodup_map
      (checked.wellFormed.entity entity member).distinctKeys others own keyed
  have unconnected (other : field.kind.connection?.isSome = false) :=
    checked.count_unstored_eq_zero parts member fun _ others keyed => same _ others keyed ▸ other
  have unformulated (other : field.kind.isFormula = false) :=
    checked.count_uncompiled_eq_zero member fun _ others keyed => same _ others keyed ▸ other
  have formula (isFormula : field.kind.isFormula = true)
      (other : field.kind.connection?.isSome = false) : compiled.occurrences layout entity field +
        (unstored.map Diagnostic.part).count (.field entity.key field.key) +
        ((compileAll layout).2.map Diagnostic.part).count (.field entity.key field.key) = 1 := by
    rw [checked.occurrences_formula views member own isFormula, unconnected other,
      checked.count_uncompiled member own isFormula]
    split <;> rfl
  cases kind : field.kind with
  | stored value =>
    rw [checked.occurrences_stored follows connections tables member own kind,
      unconnected (by rw [kind]; rfl), unformulated (by rw [kind]; rfl)]
  | connection connection =>
    have inside : Part.field entity.key field.key ∈
        layout.application.parts (·.connection?.isSome) :=
      (Application.mem_parts checked.wellFormed (Index.nodup_keys checked.indexed)
        FieldKind.computed_of_isConnection member).mpr ⟨field, own, rfl, by rw [kind]; rfl⟩
    have once := parts.count_eq (Part.field entity.key field.key)
    rw [Application.parts_connections, List.count_append, List.count_eq_one_of_mem
      (Application.nodup_parts checked.wellFormed (Index.nodup_keys checked.indexed)
        FieldKind.computed_of_isConnection) inside] at once
    rw [checked.occurrences_connection follows connections member own kind,
      unformulated (by rw [kind]; rfl), once]
  | aggregate aggregate => exact formula (by rw [kind]; rfl) (by rw [kind]; rfl)
  | concatenation equation => exact formula (by rw [kind]; rfl) (by rw [kind]; rfl)

end Layout.Checked

/-- **The tables of an object** are its entities. -/
theorem Layout.Checked.countP_isTableOf {schema : String} {plan : Plan} {left : List Diagnostic}
    {layout : Layout} (checked : layout.Checked schema plan left) (key : String) :
    layout.tables.countP (layout.isTableOf key) =
      (layout.application.entities.map Entity.key).count key := by
  have associations : plan.associations.countP (layout.isTableOf key) = 0 := by
    refine List.countP_eq_zero.mpr fun table member => ?_
    simp [Layout.isTableOf, checked.isAssociation_of_mem member]
  rw [checked.tables_eq, List.countP_append, associations, Nat.add_zero, List.countP_map,
    List.count_eq_countP, List.countP_map]
  refine List.countP_congr fun entity member => ?_
  have found : layout.entity entity.id = entity := checked.wellFormed.entity_eq member
  simp [Layout.isTableOf, Entity.table, Table.isAssociation, found]

/-- **What is reported was left out by one of the three steps.** -/
def Schema.ReportsSteps (schema : Schema) (layout : Layout)
    (unclassified unstored : List Diagnostic) : Prop :=
  ∀ part, schema.reports part = (unclassified.map Diagnostic.part).count part +
    (unstored.map Diagnostic.part).count part +
    ((Formula.compileAll layout).2.map Diagnostic.part).count part

namespace Layout.Checked

variable {schema : String} {plan : Plan} {left unclassified unstored : List Diagnostic}
  {layout : Layout} {entity : Entity} {compiled : Schema}
  {stored : List (Entity × Field × Connection)} {source : FieldSource}

/-- **An object has a table or is reported**, since only fields are left out behind the first
step. -/
theorem countP_add_reports (checked : layout.Checked schema plan left)
    (parts : (stored.map Plan.connectedPart ++ unstored.map Diagnostic.part).Perm
      (layout.application.connections.map Plan.connectedPart))
    (tables : compiled.tables = layout.tables)
    (reports : compiled.ReportsSteps layout unclassified unstored) {key : String}
    (once : (layout.application.entities.map Entity.key).count key +
      (unclassified.map Diagnostic.part).count (.object key) = 1) :
    compiled.tables.countP (layout.isTableOf key) + compiled.reports (.object key) = 1 := by
  have noField : Part.object key ∉ unstored.map Diagnostic.part := by
    intro there
    obtain ⟨_, _, same⟩ := List.mem_map.mp (parts.subset (List.mem_append_right _ there))
    cases same
  have noFormula : Part.object key ∉ (Formula.compileAll layout).2.map Diagnostic.part := by
    intro there
    obtain ⟨diagnostic, inside, same⟩ := List.mem_map.mp there
    obtain ⟨_, _, _, _, _, _, rfl⟩ := Formula.mem_left_compileAll.mp inside
    cases same
  rw [reports, List.count_eq_zero.mpr noField, List.count_eq_zero.mpr noFormula, tables,
    checked.countP_isTableOf]
  exact once

/-- **A field that is not read is reported**, and not again behind the first step. -/
theorem accounts_of_absent (checked : layout.Checked schema plan left)
    (parts : (stored.map Plan.connectedPart ++ unstored.map Diagnostic.part).Perm
      (layout.application.connections.map Plan.connectedPart))
    (reports : compiled.ReportsSteps layout unclassified unstored)
    (member : entity ∈ layout.application.entities)
    (absent : ∀ field ∈ entity.domainFields, field.key ≠ source.key)
    (once : (unclassified.map Diagnostic.part).count (.field entity.key source.key) = 1) :
    compiled.Accounts layout entity source := by
  have other {property : Field → Prop} : ∀ field ∈ entity.domainFields,
      field.key = source.key → property field :=
    fun field own same => absurd same (absent field own)
  refine .reported other ?_
  rw [reports, once, checked.count_unstored_eq_zero parts member other,
    checked.count_uncompiled_eq_zero member other]

end Layout.Checked

namespace Schema

variable {schema : Schema} {layout : Layout} {unclassified unstored : List Diagnostic}
  {entity : Entity} {source : FieldSource} {field : Field}

theorem ReportsSteps.add_occurrences
    (reports : schema.ReportsSteps layout unclassified unstored)
    (only : entity.domainFields.filter (·.key = source.key) = [field])
    (none : (unclassified.map Diagnostic.part).count (.field entity.key source.key) = 0)
    (once : schema.occurrences layout entity field +
      (unstored.map Diagnostic.part).count (.field entity.key field.key) +
      ((Formula.compileAll layout).2.map Diagnostic.part).count
        (.field entity.key field.key) = 1) :
    schema.occurrences layout entity field +
      schema.reports (.field entity.key source.key) = 1 := by
  obtain ⟨_, same⟩ := List.mem_filter.mp (only ▸ List.mem_singleton_self field)
  rw [of_decide_eq_true same] at once
  rw [reports, none]
  omega

/-- **A field that is read is compiled or reported**, as it occurs or not. -/
theorem Accounts.of_read (only : entity.domainFields.filter (·.key = source.key) = [field])
    (read : Reading.ofSource source = .kept field.kind)
    (once : schema.occurrences layout entity field +
      schema.reports (.field entity.key source.key) = 1) :
    schema.Accounts layout entity source := by
  rcases Nat.eq_zero_or_pos (schema.occurrences layout entity field) with none | some
  · refine .reported (fun other others same => ?_) (by omega)
    have one : other = field := List.mem_singleton.mp
      (only ▸ List.mem_filter.mpr ⟨others, decide_eq_true same⟩)
    rw [one, none]
  · exact .compiled only read (by omega) (by omega)

end Schema

namespace Settings

variable {settings : Settings} {metadata : Metadata} {schema : Schema}

/-- **Everything is accounted for.** Where the keys of the compiled objects differ, each of them has
a table or is reported, once; and of one that has a table each field whose key no earlier field has
is compiled or reported, once, whichever step left it out. -/
theorem accounts_of_build
    (distinct : ((metadata.objects.filter settings.includes).map ObjectSource.key).Nodup)
    (built : settings.build metadata = .ok schema) :
    ∃ layout left, settings.layout metadata = .ok (layout, left) ∧
      ∀ object ∈ metadata.objects, settings.includes object = true →
        schema.tables.countP (layout.isTableOf object.key) +
            schema.reports (.object object.key) = 1 ∧
          ∀ entity ∈ layout.application.entities, entity.key = object.key →
            ∀ source ∈ FieldSource.withoutRepeats object.fields,
              schema.Accounts layout entity source := by
  obtain ⟨layout, left, views, laid, _, ordered, equal⟩ := build_eq_ok_iff.mp built
  obtain ⟨plan, stored, unstored, checked, follows, sublist, same, rfl, parts⟩ :=
    exists_follows_of_layout laid
  obtain ⟨_, order⟩ := View.exists_dependencyOrder ordered
  have tables : schema.tables = layout.tables := by
    rw [equal]
    rfl
  have shown : schema.views.Perm (viewsOf layout) := by
    rw [equal]
    exact order.perm
  have reports : schema.ReportsSteps layout (settings.sources metadata).2 unstored := by
    intro part
    simp [equal, Schema.reports, schemaOf, Nat.add_assoc]
  refine ⟨layout, _, laid, fun object objects included => ?_⟩
  have member : object ∈ metadata.objects.filter settings.includes :=
    List.mem_filter.mpr ⟨objects, included⟩
  refine ⟨?_, fun entity entities keyed source inside => ?_⟩
  · refine checked.countP_add_reports parts tables reports ?_
    rw [same]
    exact Application.classified_or_left distinct member
  · rw [← FieldSource.firstOfKeys_eq] at inside
    rcases Application.read_or_left distinct member (same ▸ entities) keyed inside with
      ⟨field, only, read, classified⟩ | ⟨absent, classified⟩
    · have once := checked.occurrences_add_left follows sublist.subset parts tables shown entities
        (List.mem_of_mem_filter (only ▸ List.mem_singleton_self field))
      exact .of_read only read (reports.add_occurrences only classified once)
    · exact checked.accounts_of_absent parts reports entities absent classified

/-- Authors with a name, an equation, a formula that does not compile, and books; but no book can be
classified. -/
def authorsWithoutBooks : Metadata :=
  ⟨[⟨"object_1", "Author",
      [{ key := "field_1", name := "Name", sourceType := "short_text" },
       { key := "field_2", name := "Age", sourceType := "equation" },
       textFormula "field_3" "Code" "random(x)",
       Layout.oneSided "field_4" "Books" ⟨"object_2", .one, .many⟩]⟩,
    ⟨"object_2", "Book", [{ key := "field_5", name := "Text", sourceType := "scroll" }]⟩]⟩

/-- All but the name of the author is left out, by each of the steps in its turn. -/
theorem accounts_of_build_authorsWithoutBooks :
    ∃ layout left schema, ({ strict := false } : Settings).layout authorsWithoutBooks =
        .ok (layout, left) ∧
      ({ strict := false } : Settings).build authorsWithoutBooks = .ok schema ∧
      schema.diagnostics.map Diagnostic.part = [.field "object_1" "field_2", .object "object_2",
        .field "object_1" "field_4", .field "object_1" "field_3"] ∧
      ∀ object ∈ authorsWithoutBooks.objects,
        schema.tables.countP (layout.isTableOf object.key) +
            schema.reports (.object object.key) = 1 ∧
          ∀ entity ∈ layout.application.entities, entity.key = object.key →
            ∀ source ∈ FieldSource.withoutRepeats object.fields,
              schema.Accounts layout entity source := by
  have compiles : ({ strict := false } : Settings).compilesTo authorsWithoutBooks
      (fun _ schema => decide (schema.diagnostics.map Diagnostic.part =
        [.field "object_1" "field_2", .object "object_2", .field "object_1" "field_4",
          .field "object_1" "field_3"])) = true := by
    decide +kernel
  obtain ⟨layout, left, schema, laid, built, holds⟩ := exists_build compiles
  obtain ⟨_, _, sameLaid, accounts⟩ := accounts_of_build (by decide) built
  rw [laid] at sameLaid
  cases sameLaid
  exact ⟨layout, left, schema, laid, built, of_decide_eq_true holds,
    fun object member => accounts object member rfl⟩

end Settings

end AppSchema
