/-
**What formulas read of other tables.**

* `Entity.Offers`: the columns that the view of an entity is to show; what is read of a field is one
  of them (`Layout.Checked.offers_of_readableColumn`);
* `Link.Fits`: how a link joins two entities; every link that is followed does
  (`Layout.Checked.fits_of_linked`);
* `Layout.Provides`: a read of a table, or of a column that a view is to show;
* `Layout.Checked.provides_of_rows`: all reads of a subquery over linked rows are such.
-/

import AppSchema.Proofs.Sql.Reads
import AppSchema.Proofs.Storage.Layout

namespace AppSchema

open Sql (ColumnRef FromItem Leaf Read)

/-- **The columns that the view of an entity is to show.** -/
inductive Entity.Offers (plan : Plan) (entity : Entity) : String → Prop
  | stored {field : Field} {stored : StoredField} :
    field ∈ entity.fields → field.kind = .stored stored → Offers plan entity field.name.ident
  | reference {column : Column} :
    (entity.id, column) ∈ plan.references → Offers plan entity column.name
  | formula {field : Field} :
    field ∈ entity.formulaFields → Offers plan entity field.name.ident

/-- **How a link joins a host to another entity.** -/
inductive Link.Fits (plan : Plan) (host other : Entity) : Link → Prop
  | inbound {column : Column} :
    (other.id, column) ∈ plan.references → Fits plan host other (.inbound column.name)
  | outbound {field : FieldId} {column : String} {array : Bool} :
    (field, .single host.id column other.id array) ∈ plan.relations →
    Fits plan host other (.outbound column array)
  | association {table : Table} {hostColumn otherColumn : String} :
    table ∈ plan.associations →
    Fits plan host other (.association table.name hostColumn otherColumn)

/-- **A read of a table, or of a column that a view is to show.** -/
def Layout.Provides (layout : Layout) (plan : Plan) (read : Read) : Prop :=
  read.relation ∈ layout.tables.map Table.name ∨
    ∃ entity ∈ layout.application.entities, read.relation = entity.viewName ∧
      entity.Offers plan read.column

theorem Relation.other?_cases {relation : Relation} {table other : TableId}
    (opposite : relation.other? table = some other) :
    (relation.sides.1 = table ∧ relation.sides.2 = other) ∨
      (relation.sides.1 ≠ table ∧ relation.sides.2 = table ∧ relation.sides.1 = other) := by
  unfold Relation.other? at opposite
  split at opposite
  · next first => exact .inl ⟨first, Option.some.inj opposite⟩
  · next apart =>
    split at opposite
    · next second => exact .inr ⟨apart, second, Option.some.inj opposite⟩
    · cases opposite

/-- **The relation that a formula follows is recorded.** -/
theorem Formula.exists_mem_of_followed {layout : Layout} {formula : Field} {connection : String}
    {relation : Relation} (follows : followed layout formula connection = .ok relation) :
    ∃ field, (field, relation) ∈ layout.relations := by
  obtain ⟨id, _, follows⟩ := bind_eq_ok.mp follows
  split at follows
  · cases follows
  · split at follows
    · next stored =>
      cases follows
      exact ⟨id, Index.mem_of_lookup_eq_some stored⟩
    · cases follows

namespace Layout.Checked

variable {schema : String} {plan : Plan} {left : List Diagnostic} {layout : Layout}

/-! ### Fields and relations -/

/-- **A key that a formula refers to leads to a field.** -/
theorem field_of_requireField (checked : layout.Checked schema plan left)
    {referencing key : String} {id : FieldId}
    (found : layout.index.requireField referencing key = .ok id) :
    ∃ entity ∈ layout.application.entities, id.table = entity.id ∧
      layout.field id ∈ entity.fields ∧ (layout.field id).id = id := by
  obtain ⟨entity, member, field, inside, _, rfl⟩ :=
    Index.requireField_eq_ok checked.indexed found
  have own := (List.mem_filter.mp inside).1
  obtain ⟨table, same⟩ := checked.wellFormed.field_eq member own
  have same : layout.field field.id = field := same
  refine ⟨entity, member, table, ?_, ?_⟩
  · rwa [same]
  · rw [same]

/-- **What is read of a field is offered.** -/
theorem offers_of_readableColumn (checked : layout.Checked schema plan left) {entity : Entity}
    (member : entity ∈ layout.application.entities) {field : Field} (inside : field ∈ entity.fields)
    {stored : Bool} {column : String}
    (readable : Formula.readableColumn layout field stored = .ok column) :
    entity.Offers plan column := by
  obtain ⟨table, _⟩ := checked.wellFormed.field_eq member inside
  unfold Formula.readableColumn at readable
  cases kind : field.kind with
  | stored value =>
    simp only [kind, Except.ok.injEq] at readable
    exact readable ▸ .stored inside kind
  | aggregate aggregate =>
    simp only [kind] at readable
    split at readable
    · cases readable
    · cases readable
      exact .formula (List.mem_filter.mpr ⟨inside, by simp [kind, FieldKind.isFormula]⟩)
  | concatenation equation =>
    simp only [kind] at readable
    split at readable
    · cases readable
    · cases readable
      exact .formula (List.mem_filter.mpr ⟨inside, by simp [kind, FieldKind.isFormula]⟩)
  | connection connection =>
    simp only [kind] at readable
    cases found : layout.column? field.id with
    | none => simp [found] at readable
    | some stored =>
      simp only [found, Except.ok.injEq] at readable
      have there := List.mem_of_find?_eq_some found
      rw [table, checked.table_entity member] at there
      subst readable
      rcases mem_columns.mp there with ⟨other, within, is⟩ | reference
      · obtain ⟨value, stores, rfl⟩ := Option.map_eq_some_iff.mp is
        cases otherKind : other.kind with
        | stored value => exact .stored within otherKind
        | _ => simp [otherKind, FieldKind.stored?] at stores
      · exact .reference (mem_referencesOf.mp reference)

/-- **A relation of a host links it to the entity on its other side.** -/
theorem fits_of_relation (checked : layout.Checked schema plan left) {host : Entity}
    {field : FieldId} {relation : Relation} (member : (field, relation) ∈ plan.relations)
    {outward : Bool} {link : Link} {other : TableId}
    (linked : Link.of? layout relation host.id outward = some link)
    (opposite : relation.other? host.id = some other) :
    ∃ entity ∈ layout.application.entities, entity.id = other ∧ link.Fits plan host entity := by
  have stores : Plan.Stores layout.application plan relation := checked.sound.relation _ member
  have sides := Relation.other?_cases opposite
  cases stores with
  | @single holder referenced column array holds refers reference =>
    simp only [Link.of?] at linked
    simp only [Relation.sides] at sides
    rcases sides with ⟨held, rfl⟩ | ⟨apart, back, rfl⟩
    · rw [held] at member
      split at linked
      · cases linked
        exact ⟨referenced, refers, rfl, .outbound member⟩
      · split at linked
        · next self =>
          cases linked
          refine ⟨referenced, refers, rfl, .inbound ?_⟩
          rwa [self, ← held]
        · cases linked
    · rw [if_neg fun outbound => apart outbound.1, if_pos back] at linked
      cases linked
      exact ⟨holder, holds, rfl, .inbound reference⟩
  | @manyToMany first second table firstIn secondIn there named =>
    simp only [Link.of?, checked.table_association there] at linked
    simp only [Relation.sides] at sides
    rcases sides with ⟨forward, rfl⟩ | ⟨apart, backward, rfl⟩
    · rw [if_pos forward] at linked
      cases linked
      exact ⟨second, secondIn, rfl, .association there⟩
    · rw [if_neg apart, if_pos backward] at linked
      cases linked
      exact ⟨first, firstIn, rfl, .association there⟩

/-- **A link that a formula follows is that of a recorded relation.** -/
theorem relation_of_linked (checked : layout.Checked schema plan left) {formula : Field}
    {connection : String} {outward : Bool} {link : Link} {other : TableId}
    (found : Formula.linked layout formula connection outward = .ok (link, other)) :
    ∃ field relation, (field, relation) ∈ plan.relations ∧
      Link.of? layout relation formula.id.table outward = some link ∧
      relation.other? formula.id.table = some other := by
  unfold Formula.linked at found
  obtain ⟨relation, followed, found⟩ := bind_eq_ok.mp found
  obtain ⟨field, member⟩ := Formula.exists_mem_of_followed followed
  rw [checked.relations_eq] at member
  split at found
  · next linked opposite =>
    cases found
    exact ⟨field, relation, member, linked, opposite⟩
  · cases found

/-- **A link that a formula follows fits.** -/
theorem fits_of_linked (checked : layout.Checked schema plan left) {host : Entity}
    {formula : Field} (hosted : formula.id.table = host.id) {connection : String} {outward : Bool}
    {link : Link} {other : TableId}
    (found : Formula.linked layout formula connection outward = .ok (link, other)) :
    ∃ entity ∈ layout.application.entities, entity.id = other ∧ link.Fits plan host entity := by
  obtain ⟨field, relation, member, linked, opposite⟩ := checked.relation_of_linked found
  rw [hosted] at linked opposite
  exact checked.fits_of_relation member linked opposite

/-! ### Subqueries -/

theorem ident_mem_tables (checked : layout.Checked schema plan left) {entity : Entity}
    (member : entity ∈ layout.application.entities) :
    entity.name.ident ∈ layout.tables.map Table.name :=
  List.mem_map.mpr ⟨_, checked.mem_tables.mpr (.inl ⟨entity, member, rfl⟩), rfl⟩

theorem association_mem_tables (checked : layout.Checked schema plan left) {table : Table}
    (member : table ∈ plan.associations) : table.name ∈ layout.tables.map Table.name :=
  List.mem_map.mpr ⟨table, checked.mem_tables.mpr (.inr member), rfl⟩

/-- **No view has the name of a table.** -/
theorem viewName_not_mem_tables (checked : layout.Checked schema plan left) {entity : Entity}
    (member : entity ∈ layout.application.entities) :
    entity.viewName ∉ layout.tables.map Table.name := by
  obtain ⟨_, _, apart⟩ := List.nodup_append.mp checked.distinctRelations
  intro inside
  exact apart _ inside _ (List.mem_map_of_mem member) rfl

theorem source_eq (checked : layout.Checked schema plan left) {other : Entity}
    (member : other ∈ layout.application.entities) (host : TableId) :
    layout.source host other.id =
      if other.id = host then { relation := other.name.ident, aliasName := some "related" }
      else { relation := other.viewName } := by
  rw [Layout.source, Layout.entity, checked.wellFormed.entity_eq member]

/-- What the other entity offers may be read of its source. -/
theorem provides_source (checked : layout.Checked schema plan left) {other : Entity}
    (member : other ∈ layout.application.entities) (host : TableId) {column : String}
    (offers : other.Offers plan column) :
    layout.Provides plan ⟨(layout.source host other.id).relation, column⟩ := by
  rw [checked.source_eq member]
  split
  · exact .inl (checked.ident_mem_tables member)
  · exact .inr ⟨other, member, rfl, offers⟩

/-- A source that is named like a table is one. -/
theorem provides_of_named (checked : layout.Checked schema plan left) {other : Entity}
    (member : other ∈ layout.application.entities) {host : TableId} {column : String}
    (named : (layout.source host other.id).name ∈ layout.tables.map Table.name) :
    layout.Provides plan ⟨(layout.source host other.id).relation, column⟩ := by
  rw [checked.source_eq member] at named ⊢
  split at named
  · next self =>
    rw [if_pos self]
    exact .inl (checked.ident_mem_tables member)
  · exact absurd named (checked.viewName_not_mem_tables member)

/-- **What the filter of a link compares**: offered columns of the source, the host's, and those of
the association. -/
theorem refs_filter {host other : Entity} {link : Link} (fits : link.Fits plan host other)
    (key : other.Offers plan "id") {source table : String} {ref : ColumnRef}
    (member : ref ∈ (link.filter source table).condition.refs) :
    (ref.qualifier = source ∧ other.Offers plan ref.column) ∨ ref.qualifier = table ∨
      ∃ item, (link.filter source table).items = [item] ∧ ref.qualifier = item.name := by
  cases fits with
  | inbound reference =>
    rcases List.mem_pair.mp member with rfl | rfl
    · exact .inl ⟨rfl, .reference reference⟩
    · exact .inr (.inl rfl)
  | @outbound field column array recorded =>
    cases array with
    | false =>
      rcases List.mem_pair.mp member with rfl | rfl
      · exact .inl ⟨rfl, key⟩
      · exact .inr (.inl rfl)
    | true =>
      rcases List.mem_pair.mp member with rfl | rfl
      · exact .inl ⟨rfl, key⟩
      · exact .inr (.inl rfl)
  | association there =>
    rcases List.mem_append.mp member with member | member
    · rcases List.mem_pair.mp member with rfl | rfl
      · exact .inr (.inr ⟨_, rfl, rfl⟩)
      · exact .inl ⟨rfl, key⟩
    · rcases List.mem_pair.mp member with rfl | rfl
      · exact .inr (.inr ⟨_, rfl, rfl⟩)
      · exact .inr (.inl rfl)

/-- What a filter reads next to the source is a table. -/
theorem items_filter (checked : layout.Checked schema plan left) {host other : Entity}
    {link : Link} (fits : link.Fits plan host other) {source table : String} {item : FromItem}
    (member : item ∈ (link.filter source table).items) :
    item.name = item.relation ∧ item.relation ∈ layout.tables.map Table.name := by
  cases fits with
  | inbound => cases member
  | @outbound _ _ array => cases array <;> cases member
  | association there =>
    rw [List.mem_singleton.mp member]
    exact ⟨rfl, checked.association_mem_tables there⟩

theorem offers_id (checked : layout.Checked schema plan left) {entity : Entity}
    (member : entity ∈ layout.application.entities) : entity.Offers plan "id" := by
  obtain ⟨field, inside, named, kind⟩ := (checked.wellFormed.entity entity member).mem_key
  have offers : entity.Offers plan field.name.ident := .stored inside kind
  rwa [named] at offers

/-- **All reads of a subquery over linked rows are provided.** -/
theorem provides_of_rows (checked : layout.Checked schema plan left) {host other : Entity}
    (hosts : host ∈ layout.application.entities) (others : other ∈ layout.application.entities)
    {link : Link} (fits : link.Fits plan host other) {column : String}
    (offers : other.Offers plan column) {scope : List FromItem} {read : Read}
    (member : read ∈ (Leaf.rows ⟨(layout.source host.id other.id).name, column⟩
      (link.rows (layout.source host.id other.id) host.name.ident)).reads
        ({ relation := host.name.ident } :: scope)) :
    layout.Provides plan read := by
  obtain ⟨ref, inside, found⟩ := List.mem_filterMap.mp member
  have found : ref.read? (layout.source host.id other.id ::
      ((link.filter (layout.source host.id other.id).name host.name.ident).items ++
        { relation := host.name.ident } :: scope)) = some read := found
  have ofSource : ref.qualifier = (layout.source host.id other.id).name →
      other.Offers plan ref.column → layout.Provides plan read := by
    intro named offers
    rw [ColumnRef.read?_cons_self named.symm] at found
    cases found
    exact checked.provides_source others host.id offers
  -- A name of a table stands for a table, also where a source before it has that name.
  have ofItem : ∀ item, item.name = ref.qualifier → read = ⟨item.relation, ref.column⟩ →
      ref.qualifier ∈ layout.tables.map Table.name →
      (item = layout.source host.id other.id ∨ item.relation ∈ layout.tables.map Table.name) →
      layout.Provides plan read := by
    rintro item named rfl table (rfl | there)
    · exact checked.provides_of_named others (named ▸ table)
    · exact .inl there
  rcases List.mem_cons.mp inside with rfl | inside
  · exact ofSource rfl offers
  · rcases refs_filter fits (checked.offers_id others) inside with
      ⟨named, offers⟩ | named | ⟨assoc, alone, named⟩
    · exact ofSource named offers
    · have hostTable := checked.ident_mem_tables hosts
      rw [← List.cons_append] at found
      obtain ⟨item, here, same, equal⟩ := ColumnRef.read?_append found named.symm
      refine ofItem item same equal (by rwa [named]) ?_
      rcases List.mem_append.mp here with here | here
      · rcases List.mem_cons.mp here with rfl | here
        · exact .inl rfl
        · exact .inr (checked.items_filter fits here).2
      · rw [List.mem_singleton.mp here]
        exact .inr hostTable
    · have inFilter : assoc ∈ (link.filter (layout.source host.id other.id).name
          host.name.ident).items := by
        rw [alone]
        exact List.mem_singleton_self assoc
      obtain ⟨ownName, table⟩ := checked.items_filter fits inFilter
      rw [alone, List.singleton_append, ← List.singleton_append] at found
      obtain ⟨item, here, same, equal⟩ := ColumnRef.read?_append found named.symm
      refine ofItem item same equal (by rwa [named, ownName]) ?_
      rcases List.mem_pair.mp here with rfl | rfl
      · exact .inl rfl
      · exact .inr table

end Layout.Checked

end AppSchema
