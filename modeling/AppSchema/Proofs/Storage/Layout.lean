/-
**What the checks on a layout ensure.**

* `Layout.Checked`: the layout comes from a sound plan, no two columns of a table and no two tables
  or views share a name, and no formula is among what was left out;
* `Settings.layout_eq_ok_iff`: the layout that settings give is the one that passes all checks;
* `Settings.exists_follows_of_layout`: it is a checked one, and has the connections that were not
  left out.

The rest reads the tables of a checked layout: that of an entity is at its position, and has a
column for each of its stored fields, its column `id` among them.
-/

import AppSchema.Proofs.Storage.Connection
import AppSchema.Schema

namespace AppSchema

/-! ### Checks -/

/-- A table passes where its columns have different names and it has a key. -/
theorem Table.check_eq_ok_iff {table : Table} : table.check = .ok () ↔
    (table.columns.map Column.name).Nodup ∧
      (table.primaryKey.isEmpty && !table.columns.any (·.primaryKey)) = false := by
  have names : (table.columns.map fun column => Name.ofIdent column.name).map Name.ident =
      table.columns.map Column.name := by
    rw [List.map_map]
    rfl
  rw [← names, ← Name.collision?_eq_none_iff, Table.check]
  cases Name.collision? [] (table.columns.map fun column => .ofIdent column.name) with
  | some names => simp
  | none => cases table.primaryKey.isEmpty && !table.columns.any (·.primaryKey) <;> simp

theorem forM_eq_ok_iff {ε α : Type} {check : α → Except ε Unit} {list : List α} :
    list.forM check = .ok () ↔ ∀ element ∈ list, check element = .ok () := by
  induction list with
  | nil => exact ⟨fun _ _ member => absurd member List.not_mem_nil, fun _ => rfl⟩
  | cons first rest ih =>
    rw [List.forall_mem_cons, ← ih]
    refine Iff.trans bind_eq_ok ?_
    constructor
    · rintro ⟨_, here, others⟩
      exact ⟨here, others⟩
    · rintro ⟨here, others⟩
      exact ⟨(), here, others⟩

theorem Application.checkNames_eq_ok_iff {application : Application} :
    application.checkNames = .ok () ↔ (application.entities.map (·.name.ident)).Nodup := by
  have names : (application.entities.map Entity.name).map Name.ident =
      application.entities.map (·.name.ident) := List.map_map
  rw [← names, ← Name.collision?_eq_none_iff, Application.checkNames]
  cases Name.collision? [] (application.entities.map Entity.name) <;> simp

theorem Layout.checkRelationNames_eq_ok_iff {layout : Layout} :
    layout.checkRelationNames = .ok () ↔ (layout.tables.map Table.name ++
      layout.application.entities.map Entity.viewName).Nodup := by
  have names : layout.relationNames.map Name.ident = layout.tables.map Table.name ++
      layout.application.entities.map Entity.viewName := by
    rw [Layout.relationNames, List.map_append, List.map_map, List.map_map]
    rfl
  rw [← names, ← Name.collision?_eq_none_iff, Layout.checkRelationNames]
  cases Name.collision? [] layout.relationNames <;> simp

theorem Layout.checkLengths_eq_ok_iff {layout : Layout} : layout.checkLengths = .ok () ↔
    ∀ name ∈ layout.identifiers, name.utf8ByteSize ≤ longest := by
  rw [checkLengths]
  cases found : layout.identifiers.find? (longest < ·.utf8ByteSize) with
  | none => simpa using found
  | some name =>
    have tooLong := List.find?_some found
    have member := List.mem_of_find?_eq_some found
    simpa using ⟨name, member, by simpa using tooLong⟩

theorem Diagnostic.settle_eq_ok {strict : Bool} {diagnostics : List Diagnostic} :
    settle strict diagnostics = .ok () ↔
      (strict = true → ∀ diagnostic ∈ diagnostics, diagnostic.isError = false) := by
  unfold settle
  cases found : diagnostics.find? isError with
  | none => simpa using fun _ => List.find?_eq_none.mp found
  | some first =>
    have wrong := List.find?_some found
    have member := List.mem_of_find?_eq_some found
    cases strict with
    | false => simp
    | true => simpa using ⟨first, member, wrong⟩

/-- Where the first error ends the compilation, nothing that is left out with an error is. -/
theorem Diagnostic.eq_nil_of_settle {diagnostics : List Diagnostic}
    (errors : ∀ diagnostic ∈ diagnostics, diagnostic.isError = true)
    (settled : settle true diagnostics = .ok ()) : diagnostics = [] := by
  refine List.eq_nil_iff_forall_not_mem.mpr fun diagnostic member => ?_
  have harmless := settle_eq_ok.mp settled rfl diagnostic member
  rw [errors diagnostic member] at harmless
  cases harmless

theorem Settings.require_eq_ok {α : Type} {check : Except Fault α} {value : α} :
    require check = .ok value ↔ check = .ok value := by
  cases check with
  | error fault => simp [require, Except.mapError]
  | ok result => simp [require, Except.mapError]

/-! ### Checked layouts -/

namespace Layout

/-- **A checked layout**, with the plan that it comes from and what was left out of it. -/
structure Checked (schema : String) (plan : Plan) (left : List Diagnostic) (layout : Layout) :
    Prop where
  layout_eq : layout = plan.layout layout.application layout.index schema
  wellFormed : layout.application.WellFormed
  indexed : Index.ofApplication layout.application = .ok layout.index
  sound : plan.Sound layout.application schema
  distinctEntities : (layout.application.entities.map (·.name.ident)).Nodup
  distinctColumns : ∀ table ∈ layout.tables, (table.columns.map Column.name).Nodup
  distinctRelations :
    (layout.tables.map Table.name ++ layout.application.entities.map Entity.viewName).Nodup
  reported : ∀ diagnostic ∈ left, ¬ layout.application.Reports FieldKind.isFormula diagnostic

/-- **The layout of a sound plan is checked once it passes the checks.** -/
theorem Checked.of_checks {application : Application} {index : Index} {plan : Plan}
    {schema : String} {left : List Diagnostic} (wellFormed : application.WellFormed)
    (indexed : Index.ofApplication application = .ok index)
    (sound : plan.Sound application schema) (names : application.checkNames = .ok ())
    (tables : (plan.layout application index schema).checkTables = .ok ())
    (relations : (plan.layout application index schema).checkRelationNames = .ok ())
    (reported : ∀ diagnostic ∈ left, ¬ application.Reports FieldKind.isFormula diagnostic) :
    (plan.layout application index schema).Checked schema plan left where
  layout_eq := rfl
  wellFormed := wellFormed
  indexed := indexed
  sound := sound
  distinctEntities := Application.checkNames_eq_ok_iff.mp names
  distinctColumns table member :=
    (Table.check_eq_ok_iff.mp (forM_eq_ok_iff.mp tables table member)).1
  distinctRelations := checkRelationNames_eq_ok_iff.mp relations
  reported := reported

end Layout

/-! ### What was left out -/

theorem Entity.WellFormed.mem_domainFields {entity : Entity} (wellFormed : entity.WellFormed)
    {field : Field} (inside : field ∈ entity.fields) (computed : field.kind.stored? = none) :
    field ∈ entity.domainFields := by
  rw [wellFormed.fields_eq] at inside
  rcases List.mem_append.mp inside with inside | inside
  · exact inside
  · rcases List.mem_pair.mp inside with rfl | rfl <;> cases computed

namespace Application

variable {application : Application} {index : Index} {left : List Diagnostic}
  {diagnostic : Diagnostic}

theorem eq_of_key (indexed : Index.ofApplication application = .ok index)
    {first second : Entity} (firstIn : first ∈ application.entities)
    (secondIn : second ∈ application.entities) (same : first.key = second.key) : first = second :=
  List.inj_on_of_nodup_map (Index.nodup_keys indexed) firstIn secondIn same

/-- Classifying leaves no formula out that it also keeps. -/
theorem Classified.not_reports (classified : application.Classified left)
    (indexed : Index.ofApplication application = .ok index) (member : diagnostic ∈ left) :
    ¬ application.Reports FieldKind.isFormula diagnostic := by
  rintro ⟨entity, present, field, inside, formula, part⟩
  have computed : field.kind.stored? = none := by
    cases kind : field.kind <;> simp_all [FieldKind.isFormula, FieldKind.stored?]
  rcases classified.reported diagnostic member with
    ⟨key, object⟩ | ⟨other, there, key, same, absent⟩
  · rw [object] at part
    cases part
  · rw [same, Part.field.injEq] at part
    obtain ⟨sameOwner, rfl⟩ := part
    obtain rfl := eq_of_key indexed there present sameOwner
    have own := (classified.entity other there).mem_domainFields inside computed
    exact absent (List.mem_map_of_mem own)

/-- A diagnostic about a connection is not about a formula. -/
theorem WellFormed.not_reports (wellFormed : application.WellFormed)
    (indexed : Index.ofApplication application = .ok index)
    (connection : application.Reports (·.connection?.isSome) diagnostic) :
    ¬ application.Reports FieldKind.isFormula diagnostic := by
  rintro ⟨entity, present, field, inside, formula, part⟩
  obtain ⟨other, there, second, within, connects, samePart⟩ := connection
  rw [samePart, Part.field.injEq] at part
  obtain rfl := eq_of_key indexed there present part.1
  have computed : ∀ kind : FieldKind, kind.isFormula = true ∨ kind.connection?.isSome = true →
      kind.stored? = none := by
    intro kind
    cases kind <;> simp [FieldKind.isFormula, FieldKind.connection?, FieldKind.stored?]
  have sound := wellFormed.entity other there
  have secondOwn := sound.mem_domainFields within (computed _ (.inr connects))
  have fieldOwn := sound.mem_domainFields inside (computed _ (.inl formula))
  obtain rfl : second = field :=
    List.inj_on_of_nodup_map sound.distinctKeys secondOwn fieldOwn part.2
  cases kind : second.kind <;> simp_all [FieldKind.isFormula, FieldKind.connection?]

end Application

/-- The part of a connection is a field that is one. -/
theorem Plan.reports_of_mem_connectedPart {application : Application} {diagnostic : Diagnostic}
    (member : diagnostic.part ∈ application.connections.map connectedPart) :
    application.Reports (·.connection?.isSome) diagnostic := by
  obtain ⟨⟨host, field, connection⟩, there, part⟩ := List.mem_map.mp member
  obtain ⟨hosts, own, isConnection⟩ := Application.mem_connections.mp there
  exact ⟨host, hosts, field, own, by simp [isConnection], part.symm⟩

namespace Settings

variable {settings : Settings} {metadata : Metadata} {layout : Layout} {left : List Diagnostic}

/-- The classified application of metadata, and what was left out of it. -/
def sources (settings : Settings) (metadata : Metadata) : Application × List Diagnostic :=
  Application.ofSources (metadata.objects.filter settings.includes)

/-- **What the layout of an application takes.** -/
theorem layout_eq_ok_iff : settings.layout metadata = .ok (layout, left) ↔
    Diagnostic.settle settings.strict (settings.sources metadata).2 = .ok () ∧
    (settings.sources metadata).1.checkNames = .ok () ∧
    ∃ index, Index.ofApplication (settings.sources metadata).1 = .ok index ∧
      ∃ unstored, Layout.ofApplication (settings.sources metadata).1 index settings.dataSchema =
          (layout, unstored) ∧
        Diagnostic.settle settings.strict unstored = .ok () ∧
        layout.checkTables = .ok () ∧ layout.checkRelationNames = .ok () ∧
        layout.checkLengths = .ok () ∧ left = (settings.sources metadata).2 ++ unstored := by
  unfold Settings.layout sources
  generalize Application.ofSources (metadata.objects.filter settings.includes) = sources
  obtain ⟨application, unclassified⟩ := sources
  constructor
  · intro found
    obtain ⟨_, settled, found⟩ := bind_eq_ok.mp found
    obtain ⟨_, names, found⟩ := bind_eq_ok.mp found
    obtain ⟨index, indexed, found⟩ := bind_eq_ok.mp found
    obtain ⟨_, stored, found⟩ := bind_eq_ok.mp found
    obtain ⟨_, tables, found⟩ := bind_eq_ok.mp found
    obtain ⟨_, relations, found⟩ := bind_eq_ok.mp found
    obtain ⟨_, lengths, found⟩ := bind_eq_ok.mp found
    cases found
    exact ⟨settled, require_eq_ok.mp names, index, require_eq_ok.mp indexed, _, rfl, stored,
      require_eq_ok.mp tables, require_eq_ok.mp relations, require_eq_ok.mp lengths, rfl⟩
  · rintro ⟨settled, names, index, indexed, unstored, laid, stored, tables, relations, lengths,
      rfl⟩
    refine bind_eq_ok.mpr ⟨(), settled, bind_eq_ok.mpr ⟨(), require_eq_ok.mpr names,
      bind_eq_ok.mpr ⟨index, require_eq_ok.mpr indexed, ?_⟩⟩⟩
    rw [laid]
    exact bind_eq_ok.mpr ⟨(), stored, bind_eq_ok.mpr ⟨(), require_eq_ok.mpr tables,
      bind_eq_ok.mpr ⟨(), require_eq_ok.mpr relations,
        bind_eq_ok.mpr ⟨(), require_eq_ok.mpr lengths, rfl⟩⟩⟩⟩

/-- **The layout that settings give is a checked one**, and has the connections that were not left
out. -/
theorem exists_follows_of_layout (found : settings.layout metadata = .ok (layout, left)) :
    ∃ plan stored unstored, layout.Checked settings.dataSchema plan left ∧
      Plan.Follows layout.application stored plan ∧
      stored.Sublist layout.application.connections ∧
      layout.application = (settings.sources metadata).1 ∧
      left = (settings.sources metadata).2 ++ unstored ∧
      (stored.map Plan.connectedPart ++ unstored.map Diagnostic.part).Perm
        (layout.application.connections.map Plan.connectedPart) := by
  obtain ⟨_, names, index, indexed, unstored, laid, _, tables, relations, _, rfl⟩ :=
    layout_eq_ok_iff.mp found
  have classified : (settings.sources metadata).1.Classified (settings.sources metadata).2 :=
    Application.classified_ofSources _
  obtain ⟨plan, stored, sound, follows, sublist, layout_eq, _, parts⟩ :=
    Layout.exists_follows classified.toWellFormed indexed settings.dataSchema
  rw [laid] at layout_eq parts
  subst layout_eq
  refine ⟨plan, stored, unstored, .of_checks classified.toWellFormed indexed sound names tables
    relations fun diagnostic member => ?_, follows, sublist, rfl, rfl, parts⟩
  rcases List.mem_append.mp member with member | member
  · exact classified.not_reports indexed member
  · have part := parts.subset (List.mem_append_right _ (List.mem_map_of_mem member))
    exact classified.toWellFormed.not_reports indexed (Plan.reports_of_mem_connectedPart part)

theorem checked_of_layout (found : settings.layout metadata = .ok (layout, left)) :
    ∃ plan, layout.Checked settings.dataSchema plan left := by
  obtain ⟨plan, _, _, checked, _⟩ := exists_follows_of_layout found
  exact ⟨plan, checked⟩

end Settings

/-! ### Tables -/

theorem Entity.field_of_storedColumn? {field : Field} {column : Column}
    (stored : storedColumn? field = some column) : column.field = some field.id := by
  obtain ⟨_, _, rfl⟩ := Option.map_eq_some_iff.mp stored
  rfl

/-- The table of an entity is at its position, whether or not the layout passes the checks. -/
theorem Plan.table_layout {plan : Plan} {application : Application} {index : Index}
    {schema : String} (wellFormed : application.WellFormed) {entity : Entity}
    (member : entity ∈ application.entities) :
    (plan.layout application index schema).table entity.id =
      entity.table schema (plan.referencesOf entity.id) := by
  have inside := wellFormed.lt_length member
  rw [Layout.table, Plan.layout, List.getD_eq_getElem?_getD,
    List.getElem?_append_left (by rwa [List.length_map]), List.getElem?_map,
    wellFormed.getElem? member]
  rfl

namespace Layout.Checked

variable {schema : String} {plan : Plan} {left : List Diagnostic} {layout : Layout}

theorem tables_eq (checked : layout.Checked schema plan left) :
    layout.tables = (layout.application.entities.map fun entity =>
      entity.table schema (plan.referencesOf entity.id)) ++ plan.associations := by
  rw [checked.layout_eq]
  rfl

theorem relations_eq (checked : layout.Checked schema plan left) :
    layout.relations = plan.relations := by
  rw [checked.layout_eq]
  rfl

theorem mem_tables (checked : layout.Checked schema plan left) {table : Table} :
    table ∈ layout.tables ↔
      (∃ entity ∈ layout.application.entities,
        entity.table schema (plan.referencesOf entity.id) = table) ∨ table ∈ plan.associations := by
  rw [checked.tables_eq, List.mem_append, List.mem_map]

/-- **The table of an entity is at its position.** -/
theorem table_entity (checked : layout.Checked schema plan left) {entity : Entity}
    (member : entity ∈ layout.application.entities) :
    layout.table entity.id = entity.table schema (plan.referencesOf entity.id) := by
  rw [checked.layout_eq]
  exact Plan.table_layout checked.wellFormed member

/-- **An association is behind the tables of the entities.** -/
theorem getElem?_association (checked : layout.Checked schema plan left) {table : Table}
    (member : table ∈ plan.associations) : layout.tables[table.id]? = some table := by
  obtain ⟨position, found⟩ := List.mem_iff_getElem?.mp member
  obtain ⟨host, _, target, _, equal, _⟩ := checked.sound.association position table found
  have numbered : table.id = layout.application.entities.length + position := by
    rw [equal]
    rfl
  rw [checked.tables_eq, numbered, List.getElem?_append_right (by simp), List.length_map,
    Nat.add_sub_cancel_left, found]

theorem table_association (checked : layout.Checked schema plan left) {table : Table}
    (member : table ∈ plan.associations) : layout.table table.id = table := by
  rw [Layout.table, List.getD_eq_getElem?_getD, checked.getElem?_association member]
  rfl

theorem isAssociation_of_mem (checked : layout.Checked schema plan left) {table : Table}
    (member : table ∈ plan.associations) : table.isAssociation = true := by
  obtain ⟨position, found⟩ := List.mem_iff_getElem?.mp member
  obtain ⟨host, _, target, _, equal, _⟩ := checked.sound.association position table found
  rw [equal]
  rfl

theorem eq_of_id (checked : layout.Checked schema plan left) {first second : Entity}
    (firstIn : first ∈ layout.application.entities)
    (secondIn : second ∈ layout.application.entities) (same : first.id = second.id) :
    first = second :=
  checked.wellFormed.eq_of_id firstIn secondIn same

/-- **No two entities share a name.** -/
theorem eq_of_ident (checked : layout.Checked schema plan left) {first second : Entity}
    (firstIn : first ∈ layout.application.entities)
    (secondIn : second ∈ layout.application.entities)
    (same : first.name.ident = second.name.ident) : first = second :=
  List.inj_on_of_nodup_map checked.distinctEntities firstIn secondIn same

theorem eq_of_viewName (checked : layout.Checked schema plan left) {first second : Entity}
    (firstIn : first ∈ layout.application.entities)
    (secondIn : second ∈ layout.application.entities)
    (same : first.viewName = second.viewName) : first = second := by
  obtain ⟨_, distinctViews, _⟩ := List.nodup_append.mp checked.distinctRelations
  exact List.inj_on_of_nodup_map distinctViews firstIn secondIn same

theorem mem_referencesOf {id : TableId} {column : Column} :
    column ∈ plan.referencesOf id ↔ (id, column) ∈ plan.references := by
  simp only [Plan.referencesOf, List.mem_map, List.mem_filter, beq_iff_eq]
  constructor
  · rintro ⟨⟨_, _⟩, ⟨member, rfl⟩, rfl⟩
    exact member
  · intro member
    exact ⟨(id, column), ⟨member, rfl⟩, rfl⟩

/-- The columns of an entity are those of its stored fields and its columns of ids. -/
theorem mem_columns {entity : Entity} {references : List Column} {column : Column} :
    column ∈ (entity.table schema references).columns ↔
      (∃ field ∈ entity.fields, Entity.storedColumn? field = some column) ∨
        column ∈ references := by
  simp only [Entity.table, List.mem_append, List.mem_filterMap, Entity.domainFields,
    Entity.syntheticFields, List.mem_filter]
  constructor
  · rintro ((⟨field, ⟨inside, _⟩, stored⟩ | member) | ⟨field, ⟨inside, _⟩, stored⟩)
    · exact .inl ⟨field, inside, stored⟩
    · exact .inr member
    · exact .inl ⟨field, inside, stored⟩
  · rintro (⟨field, inside, stored⟩ | member)
    · cases synthetic : field.synthetic with
      | false => exact .inl (.inl ⟨field, ⟨inside, by simp [synthetic]⟩, stored⟩)
      | true => exact .inr ⟨field, ⟨inside, synthetic⟩, stored⟩
    · exact .inl (.inr member)

/-- **Every column of an entity stores a field.** -/
theorem exists_field_of_mem_columns (checked : layout.Checked schema plan left) {entity : Entity}
    (member : entity ∈ layout.application.entities) {column : Column}
    (has : column ∈ (entity.table schema (plan.referencesOf entity.id)).columns) :
    ∃ owner ∈ layout.application.entities, ∃ field ∈ owner.fields,
      column.field = some field.id := by
  rcases mem_columns.mp has with ⟨field, own, is⟩ | reference
  · exact ⟨entity, member, field, own, Entity.field_of_storedColumn? is⟩
  · obtain ⟨owner, owners, field, own, _, _, _, equal⟩ :=
      checked.sound.made _ (mem_referencesOf.mp reference)
    exact ⟨owner, owners, field, own, congrArg Column.field equal⟩

/-- A stored field has a column of its name. -/
theorem mem_columns_stored {entity : Entity} {references : List Column} {field : Field}
    {stored : StoredField} (inside : field ∈ entity.fields) (kind : field.kind = .stored stored) :
    field.name.ident ∈ (entity.table schema references).columns.map Column.name := by
  have column : ∃ column, Entity.storedColumn? field = some column ∧
      column.name = field.name.ident := by
    rw [Entity.storedColumn?, kind]
    exact ⟨_, rfl, rfl⟩
  obtain ⟨column, is, named⟩ := column
  have there : column ∈ (entity.table schema references).columns :=
    mem_columns.mpr (.inl ⟨field, inside, is⟩)
  exact List.mem_map.mpr ⟨column, there, named⟩

/-- A column of ids is a column of its holder. -/
theorem mem_columns_reference {entity : Entity} {column : Column}
    (reference : (entity.id, column) ∈ plan.references) :
    column.name ∈
      (entity.table schema (plan.referencesOf entity.id)).columns.map Column.name :=
  List.mem_map_of_mem (mem_columns.mpr (.inr (mem_referencesOf.mpr reference)))

/-- **Every entity has a column `id`.** -/
theorem mem_columns_id (checked : layout.Checked schema plan left) {entity : Entity}
    (member : entity ∈ layout.application.entities) :
    "id" ∈ (layout.table entity.id).columns.map Column.name := by
  rw [checked.table_entity member]
  obtain ⟨field, inside, named, kind⟩ := (checked.wellFormed.entity entity member).mem_key
  have same : field.name.ident = "id" := by
    rw [named]
    rfl
  rw [← same]
  exact mem_columns_stored inside kind

theorem schema_of_mem (checked : layout.Checked schema plan left) {table : Table}
    (member : table ∈ layout.tables) : table.schema = schema := by
  rcases checked.mem_tables.mp member with ⟨entity, _, rfl⟩ | there
  · rfl
  · obtain ⟨position, found⟩ := List.mem_iff_getElem?.mp there
    obtain ⟨host, _, target, _, equal, _⟩ := checked.sound.association position table found
    rw [equal]
    rfl

/-- The tables of entities reference nothing. -/
theorem references_eq_none (checked : layout.Checked schema plan left) {entity : Entity}
    {column : Column} (has : column ∈ (entity.table schema (plan.referencesOf entity.id)).columns) :
    column.references = none := by
  rcases mem_columns.mp has with ⟨field, _, is⟩ | reference
  · obtain ⟨stored, _, rfl⟩ := Option.map_eq_some_iff.mp is
    rfl
  · exact checked.sound.references_eq_none (mem_referencesOf.mp reference)

/-- The columns of an association reference entities. -/
theorem references_association (checked : layout.Checked schema plan left) {table : Table}
    (member : table ∈ plan.associations) {column : Column} (has : column ∈ table.columns) :
    ∃ entity ∈ layout.application.entities, column.references = some entity.name.ident := by
  obtain ⟨position, found⟩ := List.mem_iff_getElem?.mp member
  obtain ⟨host, hosts, target, targets, equal, _⟩ := checked.sound.association position table found
  obtain ⟨first, second⟩ := Plan.ordered_mem hosts targets
  rw [equal] at has
  rcases List.mem_pair.mp has with rfl | rfl
  · exact ⟨_, first, rfl⟩
  · exact ⟨_, second, rfl⟩

end Layout.Checked

end AppSchema
