/-
**What numbers and keys lead to.**

Where numbers are positions, a number leads to the one entity or field that has it. An index turns
that around: it leads from a key to the number of the one entity or field that has the key, and from
any other key to nothing. The two keys of an entity are under no key, also where a field of the
metadata has a key like theirs.

* `Application.Positional`: the numbers of entities and fields are their positions;
* `Application.Positional.entityAt?_eq_some_iff`, `Application.Positional.fieldAt?_eq_some_iff`:
  what numbers lead to;
* `Index.Inverts`: what an index finds, and how it fails;
* `Index.inverts_of_positional`: which applications have an index, and that it is such a one.
-/

import AppSchema.Proofs.Application.Index

namespace AppSchema

namespace Application

/-- The entity at a position, if there is one. -/
def entityAt? (application : Application) (id : TableId) : Option Entity :=
  application.entities[id]?

/-- The field at a position, if there is one. -/
def fieldAt? (application : Application) (id : FieldId) : Option Field :=
  (application.entityAt? id.table).bind fun entity => entity.fields[id.index]?

/-- **Numbers are positions**: an entity has that of its place, and a field those of its entity's
place and its own. -/
structure Positional (application : Application) : Prop where
  entity : ∀ (id : TableId) (entity : Entity), application.entities[id]? = some entity →
    entity.id = id
  field : ∀ (id : TableId) (entity : Entity), application.entities[id]? = some entity →
    ∀ (index : Nat) (field : Field), entity.fields[index]? = some field → field.id = ⟨id, index⟩

variable {application : Application} {entity : Entity} {field : Field}

/-- The numbers of a well-formed application are positions. -/
theorem WellFormed.positional (wellFormed : application.WellFormed) : application.Positional where
  entity := wellFormed.entityId
  field id entity found index field inside := by
    have member := List.mem_of_getElem? found
    rw [(wellFormed.entity entity member).fieldId index field inside,
      wellFormed.entityId id entity found]

theorem fieldAt?_eq_some {id : FieldId} :
    application.fieldAt? id = some field ↔
      ∃ entity, application.entityAt? id.table = some entity ∧
        entity.fields[id.index]? = some field :=
  Option.bind_eq_some_iff

/-- What is at a position is what the total lookup gives. -/
theorem entity_eq_of_entityAt? {id : TableId} (found : application.entityAt? id = some entity) :
    application.entity id = entity := by
  rw [entityAt?] at found
  rw [Application.entity, List.getD_eq_getElem?_getD, found]
  rfl

theorem field_eq_of_fieldAt? {id : FieldId} (found : application.fieldAt? id = some field) :
    application.field id = field := by
  obtain ⟨entity, there, inside⟩ := fieldAt?_eq_some.mp found
  rw [Application.field, entity_eq_of_entityAt? there, List.getD_eq_getElem?_getD, inside]
  rfl

namespace Positional

/-- **The number of an entity leads to it**, and to no other. -/
theorem entityAt?_eq_some_iff (positional : application.Positional) {id : TableId} :
    application.entityAt? id = some entity ↔ entity ∈ application.entities ∧ entity.id = id := by
  constructor
  · intro found
    exact ⟨List.mem_of_getElem? found, positional.entity id entity found⟩
  · rintro ⟨member, rfl⟩
    obtain ⟨position, found⟩ := List.mem_iff_getElem?.mp member
    rwa [entityAt?, positional.entity position entity found]

/-- **The number of a field leads to it**, and to no other. -/
theorem fieldAt?_eq_some_iff (positional : application.Positional) {id : FieldId} :
    application.fieldAt? id = some field ↔
      ∃ entity ∈ application.entities, field ∈ entity.fields ∧ field.id = id := by
  rw [fieldAt?_eq_some]
  constructor
  · rintro ⟨entity, there, inside⟩
    exact ⟨entity, List.mem_of_getElem? there, List.mem_of_getElem? inside,
      positional.field id.table entity there id.index field inside⟩
  · rintro ⟨entity, member, inside, rfl⟩
    obtain ⟨position, found⟩ := List.mem_iff_getElem?.mp member
    obtain ⟨index, own⟩ := List.mem_iff_getElem?.mp inside
    rw [positional.field position entity found index field own]
    exact ⟨entity, found, own⟩

end Positional

end Application

namespace Index

/-- **What an index of an application finds, and how it fails.** -/
structure Inverts (application : Application) (index : Index) : Prop where
  entity? : ∀ (key : String) (id : TableId), index.entity? key = some id ↔
    ∃ entity, application.entityAt? id = some entity ∧ entity.key = key
  field? : ∀ (key : String) (id : FieldId), index.field? key = some id ↔
    ∃ field, application.fieldAt? id = some field ∧ field.synthetic = false ∧ field.key = key
  requireEntity : ∀ (referencing key : String) (id : TableId),
    index.requireEntity referencing key = .ok id ↔ index.entity? key = some id
  requireField : ∀ (referencing key : String) (id : FieldId),
    index.requireField referencing key = .ok id ↔ index.field? key = some id
  missingEntity : ∀ (referencing key : String) (fault : Fault),
    index.requireEntity referencing key = .error fault ↔
      fault = .missingFieldReference referencing key ∧
        ∀ entity ∈ application.entities, entity.key ≠ key
  missingField : ∀ (referencing key : String) (fault : Fault),
    index.requireField referencing key = .error fault ↔
      fault = .missingFieldReference referencing key ∧
        ∀ entity ∈ application.entities, ∀ field ∈ entity.fields,
          field.synthetic = false → field.key ≠ key

/-- The keys of all fields but the synthetic ones, entity by entity. -/
def fieldKeys (application : Application) : List String :=
  application.entities.flatMap fun entity => entity.domainFields.map Field.key

theorem map_listedFields (application : Application) :
    (listedFields application.entities).map Prod.fst = fieldKeys application := by
  rw [listedFields, List.map_flatMap]
  exact List.flatMap_congr fun entity _ => List.map_map

namespace Lists

variable {application : Application} {index : Index}

theorem entity?_eq_some_iff
    (lists : Lists application.entities (listedFields application.entities) index)
    {key : String} {id : TableId} : index.entity? key = some id ↔
      ∃ entity ∈ application.entities, entity.id = id ∧ entity.key = key := by
  rw [Index.entity?, lookup_eq_some_iff_mem lists.distinctEntities, lists.entities_eq]
  simp only [List.mem_map, Prod.mk.injEq, and_comm]

theorem field?_eq_some_iff
    (lists : Lists application.entities (listedFields application.entities) index)
    {key : String} {id : FieldId} : index.field? key = some id ↔
      ∃ entity ∈ application.entities, ∃ field ∈ entity.fields,
        field.id = id ∧ field.synthetic = false ∧ field.key = key := by
  rw [Index.field?, lookup_eq_some_iff_mem lists.distinctFields, lists.fields_eq, listedFields]
  simp only [List.mem_flatMap, List.mem_map, Entity.domainFields, List.mem_filter,
    Bool.not_eq_true', Prod.mk.injEq]
  constructor
  · rintro ⟨entity, member, field, ⟨inside, own⟩, keyed, numbered⟩
    exact ⟨entity, member, field, inside, numbered, own, keyed⟩
  · rintro ⟨entity, member, field, inside, numbered, own, keyed⟩
    exact ⟨entity, member, field, ⟨inside, own⟩, keyed, numbered⟩

theorem entity?_eq_none_iff
    (lists : Lists application.entities (listedFields application.entities) index)
    {key : String} : index.entity? key = none ↔
      ∀ entity ∈ application.entities, entity.key ≠ key := by
  simp only [Option.eq_none_iff_forall_not_mem, Option.mem_def, lists.entity?_eq_some_iff]
  constructor
  · intro absent entity member keyed
    exact absent entity.id ⟨entity, member, rfl, keyed⟩
  · rintro others id ⟨entity, member, _, keyed⟩
    exact others entity member keyed

theorem field?_eq_none_iff
    (lists : Lists application.entities (listedFields application.entities) index)
    {key : String} : index.field? key = none ↔
      ∀ entity ∈ application.entities, ∀ field ∈ entity.fields,
        field.synthetic = false → field.key ≠ key := by
  simp only [Option.eq_none_iff_forall_not_mem, Option.mem_def, lists.field?_eq_some_iff]
  constructor
  · intro absent entity member field inside own keyed
    exact absent field.id ⟨entity, member, field, inside, rfl, own, keyed⟩
  · rintro others id ⟨entity, member, field, inside, _, own, keyed⟩
    exact others entity member field inside own keyed

/-- **An index of an application whose numbers are positions inverts its keys.** -/
theorem inverts (lists : Lists application.entities (listedFields application.entities) index)
    (positional : application.Positional) : index.Inverts application where
  entity? key id := by
    rw [lists.entity?_eq_some_iff]
    simp only [positional.entityAt?_eq_some_iff, and_assoc]
  field? key id := by
    rw [lists.field?_eq_some_iff]
    simp only [positional.fieldAt?_eq_some_iff]
    constructor
    · rintro ⟨entity, member, field, inside, numbered, own, keyed⟩
      exact ⟨field, ⟨entity, member, inside, numbered⟩, own, keyed⟩
    · rintro ⟨field, ⟨entity, member, inside, numbered⟩, own, keyed⟩
      exact ⟨entity, member, field, inside, numbered, own, keyed⟩
  requireEntity referencing key id := by
    rw [Index.requireEntity]
    cases index.entity? key <;> simp
  requireField referencing key id := by
    rw [Index.requireField]
    cases index.field? key <;> simp
  missingEntity referencing key fault := by
    rw [← lists.entity?_eq_none_iff, Index.requireEntity]
    cases index.entity? key <;> simp [eq_comm]
  missingField referencing key fault := by
    rw [← lists.field?_eq_none_iff, Index.requireField]
    cases index.field? key <;> simp [eq_comm]

end Lists

/-- **Where numbers are positions, an index exists exactly if no key is used twice**, neither by two
entities nor by two fields that are not synthetic, and it inverts the keys. -/
theorem inverts_of_positional {application : Application} (positional : application.Positional) :
    ((∃ index, ofApplication application = .ok index) ↔
      (application.entities.map Entity.key).Nodup ∧ (fieldKeys application).Nodup) ∧
    ∀ index, ofApplication application = .ok index → index.Inverts application := by
  refine ⟨?_, fun index indexed => (lists_of_ofApplication indexed).inverts positional⟩
  rw [exists_ofApplication_iff, map_listedFields]

/-- Two objects, and a field of the metadata whose key is that of a synthetic field. -/
def catalogued : List ObjectSource :=
  [⟨"object_1", "Author", [{ key := "field_1", name := "Name", sourceType := "short_text" }]⟩,
    ⟨"object_2", "Book",
      [{ key := "knack_id", name := "Shelf mark", sourceType := "short_text" }]⟩]

/-- A field of the metadata is found under a key like that of a synthetic field, and the synthetic
fields are not. -/
theorem inverts_of_positional_catalogued :
    (Application.ofSources catalogued).1.Positional ∧
    ∃ index, ofApplication (Application.ofSources catalogued).1 = .ok index ∧
      index.entity? "object_2" = some 1 ∧ index.field? "knack_id" = some ⟨1, 0⟩ ∧
      (∀ fault, index.requireField "field_9" "id" = .error fault ↔
        fault = .missingFieldReference "field_9" "id") ∧
      ∀ fault, index.requireEntity "field_9" "object_1" ≠ .error fault := by
  have positional := (Application.classified_ofSources catalogued).toWellFormed.positional
  obtain ⟨exists_iff, inverts⟩ := inverts_of_positional positional
  obtain ⟨index, indexed⟩ := exists_iff.mpr (by decide +kernel)
  have inverts := inverts index indexed
  refine ⟨positional, index, indexed, (inverts.entity? _ _).mpr ?_, (inverts.field? _ _).mpr ?_,
    fun fault => ?_, fun fault missing => ?_⟩
  · exact ⟨_, rfl, by decide +kernel⟩
  · exact ⟨_, rfl, by decide +kernel⟩
  · rw [inverts.missingField, and_iff_left (by decide +kernel)]
  · exact absurd ((inverts.missingEntity _ _ _).mp missing).2 (by decide +kernel)

end Index

end AppSchema
