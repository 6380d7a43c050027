/-
**Numbers in a layout.**

Whatever was left out on the way, the numbers in a layout are positions. Those of the entities come
first and those of the associations behind them; an association gets its number before any table is
made. A number that the index, a relation or a column has leads to what it was written down for.

* `Layout.Connects`: a number leads to a connection, and its key to an entity;
* `Layout.Records`: what the numbers of a relation lead to;
* `Layout.Fills`: what the number of a column leads to;
* `Layout.Positional`: the numbers of a layout are positions;
* `Plan.Follows.records`, `Plan.Follows.fills`: the numbers that storing connections writes down;
* `Layout.positional_of_ofApplication`: those of the layout of an application are.
-/

import AppSchema.Proofs.Application.Lookup
import AppSchema.Proofs.Storage.Reference

namespace AppSchema

namespace Layout

/-- **A number leads to a connection**, and the key of its target to an entity. -/
structure Connects (layout : Layout) (id : FieldId) (host : Entity) (field : Field)
    (connection : Connection) (target : Entity) : Prop where
  hostAt : layout.application.entityAt? id.table = some host
  fieldAt : layout.application.fieldAt? id = some field
  kind : field.kind = .connection connection
  targetAt : layout.application.entityAt? target.id = some target
  key : target.key = connection.target

/-- **What a relation was recorded for.** A column of ids is on the table that its holder's number
leads to, and an association is the table of that name. -/
inductive Records (layout : Layout) (id : FieldId) : Relation → Prop
  | single {host target : Entity} {field : Field} {connection : Connection}
    {holder referenced : TableId} {array : Bool} {table : Table} {column : Column} :
    layout.Connects id host field connection target →
    connection.placement? host.id target.id = some (holder, referenced, array) →
    layout.tables[holder]? = some table → column ∈ table.columns → column.field = some id →
    Records layout id (.single holder column.name referenced array)
  | manyToMany {host target : Entity} {field : Field} {connection : Connection} {table : Table} :
    layout.Connects id host field connection target → connection.isManyToMany = true →
    layout.tables[table.id]? = some table → table.kind = .association →
    table.name = Plan.linkName host target →
    Records layout id (.manyToMany table.id host.id target.id
      (Plan.associationColumns host target).1 (Plan.associationColumns host target).2)

/-- **What a column of a table was made for**: a field that the entity of the table stores as it is,
or a connection that is recorded with this column. -/
inductive Fills (layout : Layout) (table : Table) (column : Column) (id : FieldId) : Prop
  | stored {field : Field} :
    layout.application.fieldAt? id = some field → id.table = table.id →
    Entity.storedColumn? field = some column → Fills layout table column id
  | connection {referenced : TableId} {array : Bool} :
    (id, .single table.id column.name referenced array) ∈ layout.relations →
    Fills layout table column id

/-- **Numbers are positions, and lead to what they were written down for.** -/
structure Positional (layout : Layout) : Prop where
  application : layout.application.Positional
  indexedEntity : ∀ key id, (key, id) ∈ layout.index.entities →
    ∃ entity, layout.application.entityAt? id = some entity ∧ entity.key = key
  indexedField : ∀ key id, (key, id) ∈ layout.index.fields →
    ∃ field, layout.application.fieldAt? id = some field ∧ field.synthetic = false ∧
      field.key = key
  table : ∀ (id : TableId) (table : Table), layout.tables[id]? = some table → table.id = id
  object : ∀ id entity, layout.application.entityAt? id = some entity →
    ∃ table, layout.tables[id]? = some table ∧ table.kind = .object ∧
      table.name = entity.name.ident
  association : ∀ (id : TableId) (table : Table), layout.tables[id]? = some table →
    layout.application.entities.length ≤ id → table.kind = .association
  relation : ∀ id relation, (id, relation) ∈ layout.relations → layout.Records id relation
  column : ∀ table ∈ layout.tables, ∀ column ∈ table.columns, ∀ id, column.field = some id →
    layout.Fills table column id

/-- **A relation is recorded for a connection.** -/
theorem Records.exists_connects {layout : Layout} {id : FieldId} {relation : Relation}
    (records : layout.Records id relation) : ∃ host field connection target,
      layout.Connects id host field connection target := by
  cases records with
  | single connects => exact ⟨_, _, _, _, connects⟩
  | manyToMany connects => exact ⟨_, _, _, _, connects⟩

end Layout

/-! ### Tables at their positions -/

theorem Application.WellFormed.fieldAt?_eq {application : Application}
    (wellFormed : application.WellFormed) {entity : Entity}
    (member : entity ∈ application.entities) {field : Field} (own : field ∈ entity.fields) :
    application.fieldAt? field.id = some field :=
  wellFormed.positional.fieldAt?_eq_some_iff.mpr ⟨entity, member, own, rfl⟩

namespace Plan

variable {application : Application} {index : Index} {schema : String} {plan : Plan}
  {stored : List (Entity × Field × Connection)}

theorem getElem?_entity {id : TableId} {entity : Entity}
    (found : application.entityAt? id = some entity) :
    (plan.layout application index schema).tables[id]? =
      some (entity.table schema (plan.referencesOf entity.id)) := by
  obtain ⟨inside, _⟩ := List.getElem?_eq_some_iff.mp found
  show (_ ++ plan.associations)[id]? = _
  rw [List.getElem?_append_left (by rwa [List.length_map]), List.getElem?_map]
  exact congrArg (Option.map _) found

theorem getElem?_behind (plan : Plan) (application : Application) (index : Index)
    (schema : String) (position : Nat) :
    (plan.layout application index schema).tables[application.entities.length + position]? =
      plan.associations[position]? := by
  show (_ ++ plan.associations)[_]? = _
  rw [List.getElem?_append_right (by simp), List.length_map, Nat.add_sub_cancel_left]

/-- **A position is that of an entity or, behind them, that of an association.** -/
theorem getElem?_cases {id : TableId} {table : Table}
    (found : (plan.layout application index schema).tables[id]? = some table) :
    (∃ entity, application.entityAt? id = some entity ∧
      table = entity.table schema (plan.referencesOf entity.id)) ∨
    ∃ position, id = application.entities.length + position ∧
      plan.associations[position]? = some table := by
  rcases Nat.lt_or_ge id application.entities.length with inside | behind
  · have there : application.entityAt? id = some application.entities[id] :=
      List.getElem?_eq_getElem inside
    rw [getElem?_entity there] at found
    exact .inl ⟨_, there, (Option.some.inj found).symm⟩
  · obtain ⟨position, rfl⟩ := Nat.exists_eq_add_of_le behind
    rw [getElem?_behind] at found
    exact .inr ⟨position, rfl, found⟩

/-- **An association was given the number of its position.** -/
theorem Sound.association_at (sound : plan.Sound application schema) {position : Nat}
    {table : Table} (found : plan.associations[position]? = some table) :
    table.id = application.entities.length + position ∧ table.kind = .association ∧
      ∀ column ∈ table.columns, column.field = none := by
  obtain ⟨host, _, target, _, rfl, _⟩ := sound.association position table found
  refine ⟨rfl, rfl, fun column inside => ?_⟩
  rcases List.mem_pair.mp inside with rfl | rfl <;> rfl

/-! ### Relations -/

/-- The number of a connection that is stored leads to it. -/
theorem connects (wellFormed : application.WellFormed)
    {host target : Entity} {field : Field} {connection : Connection}
    (member : (host, field, connection) ∈ application.connections)
    (found : application.target? connection.target = some target) :
    (plan.layout application index schema).Connects field.id host field connection target := by
  obtain ⟨hosts, own, isConnection⟩ := Application.mem_connections.mp member
  obtain ⟨targets, key⟩ := Application.target?_eq_some found
  have hostAt : application.entityAt? field.id.table = some host := by
    rw [(wellFormed.field_eq hosts own).1]
    exact wellFormed.getElem? hosts
  exact ⟨hostAt, wellFormed.fieldAt?_eq hosts own, FieldKind.connection?_eq_some.mp isConnection,
    wellFormed.getElem? targets, key⟩

/-- **The relations of a plan lead to what its connections added.** -/
theorem Follows.records (follows : Follows application stored plan)
    (sound : plan.Sound application schema) (wellFormed : application.WellFormed)
    (connections : stored ⊆ application.connections) {id : FieldId} {relation : Relation}
    (recorded : (id, relation) ∈ plan.relations) :
    (plan.layout application index schema).Records id relation := by
  obtain ⟨⟨host, field, connection⟩, there, records⟩ :=
    exists_of_mem_right follows.relations recorded
  have member := connections there
  cases records with
  | @single _ claim claims =>
    obtain ⟨rfl, target, found, placed⟩ := Application.claim?_eq_some.mp claims
    have holds := (Application.claim?_mem member claims).1
    have there : claim.reference ∈ plan.references := by
      rw [follows.references_eq]
      exact List.mem_map_of_mem (List.mem_filterMap.mpr ⟨_, there, claims⟩)
    have inside : claim.reference.2 ∈
        (claim.holder.table schema (plan.referencesOf claim.holder.id)).columns :=
      Layout.Checked.mem_columns.mpr (.inr (Layout.Checked.mem_referencesOf.mpr there))
    refine .single (connects wellFormed member found) ?_
      (getElem?_entity (wellFormed.getElem? holds)) inside rfl
    rw [Connection.placement?_map, placed]
    rfl
  | @manyToMany _ target _ _ table both found associated named =>
    obtain ⟨position, placed⟩ := List.mem_iff_getElem?.mp associated
    obtain ⟨numbered, kind, _⟩ := sound.association_at placed
    refine .manyToMany (connects wellFormed member found) both ?_ kind named
    rw [numbered, getElem?_behind, placed]

/-- **The columns of a plan lead to what they store.** -/
theorem Follows.fills (follows : Follows application stored plan)
    (sound : plan.Sound application schema) (wellFormed : application.WellFormed)
    {table : Table} (member : table ∈ (plan.layout application index schema).tables)
    {column : Column} (inside : column ∈ table.columns) {id : FieldId}
    (stores : column.field = some id) :
    (plan.layout application index schema).Fills table column id := by
  obtain ⟨position, found⟩ := List.mem_iff_getElem?.mp member
  rcases getElem?_cases found with ⟨entity, there, rfl⟩ | ⟨behind, _, associated⟩
  · have entities := List.mem_of_getElem? there
    rcases Layout.Checked.mem_columns.mp inside with ⟨field, own, is⟩ | reference
    · obtain rfl : field.id = id :=
        Option.some.inj ((Entity.field_of_storedColumn? is).symm.trans stores)
      exact .stored (wellFormed.fieldAt?_eq entities own) (wellFormed.field_eq entities own).1 is
    · have refers := Layout.Checked.mem_referencesOf.mp reference
      rw [follows.references_eq] at refers
      obtain ⟨claim, claimed, same⟩ := List.mem_map.mp refers
      obtain ⟨connected, there, claims⟩ := List.mem_filterMap.mp claimed
      obtain ⟨entry, recorded, records⟩ := exists_of_mem_left follows.relations there
      rw [records.eq_relation claims] at recorded
      obtain ⟨holds, rfl⟩ := Prod.mk.inj same
      obtain rfl : claim.field.id = id := Option.some.inj stores
      have kept : (claim.field.id,
          .single entity.id claim.name claim.referenced.id claim.array) ∈ plan.relations := by
        rw [← holds]
        exact recorded
      exact .connection kept
  · rw [(sound.association_at associated).2.2 column inside] at stores
    cases stores

/-! ### The layout of an application -/

/-- **The numbers of a plan's layout are positions.** -/
theorem Follows.positional (follows : Follows application stored plan)
    (sound : plan.Sound application schema) (wellFormed : application.WellFormed)
    (indexed : Index.ofApplication application = .ok index)
    (connections : stored ⊆ application.connections) :
    (plan.layout application index schema).Positional where
  application := wellFormed.positional
  indexedEntity key id member := by
    have lists := Index.lists_of_ofApplication indexed
    obtain ⟨entity, entities, same⟩ := List.mem_map.mp (lists.entities_eq ▸ member)
    obtain ⟨rfl, rfl⟩ := Prod.mk.inj same
    exact ⟨entity, wellFormed.getElem? entities, rfl⟩
  indexedField key id member := by
    have lists := Index.lists_of_ofApplication indexed
    obtain ⟨entity, entities, listed⟩ := List.mem_flatMap.mp (lists.fields_eq ▸ member)
    obtain ⟨field, domain, same⟩ := List.mem_map.mp listed
    obtain ⟨rfl, rfl⟩ := Prod.mk.inj same
    obtain ⟨own, natural⟩ := List.mem_filter.mp domain
    exact ⟨field, wellFormed.fieldAt?_eq entities own, by simpa using natural, rfl⟩
  table id table found := by
    rcases getElem?_cases found with ⟨entity, there, rfl⟩ | ⟨position, rfl, associated⟩
    · exact wellFormed.entityId id entity there
    · exact (sound.association_at associated).1
  object id entity found := ⟨_, getElem?_entity found, rfl, rfl⟩
  association id table found outside := by
    rcases getElem?_cases found with ⟨entity, there, rfl⟩ | ⟨position, rfl, associated⟩
    · obtain ⟨inside, _⟩ := List.getElem?_eq_some_iff.mp there
      exact absurd inside (Nat.not_lt.mpr outside)
    · exact (sound.association_at associated).2.1
  relation _ _ recorded := follows.records sound wellFormed connections recorded
  column _ member _ inside _ stores := follows.fills sound wellFormed member inside stores

end Plan

/-- **The numbers of the layout of an application are positions**, whichever connections were left
out. -/
theorem Layout.positional_of_ofApplication {application : Application} {index : Index}
    (wellFormed : application.WellFormed)
    (indexed : Index.ofApplication application = .ok index) (schema : String) :
    (ofApplication application index schema).1.Positional := by
  obtain ⟨plan, stored, sound, follows, sublist, laid, _⟩ :=
    exists_follows wellFormed indexed schema
  rw [laid]
  exact follows.positional sound wellFormed indexed sublist.subset

end AppSchema
