/-
**Applications that differ in the numbers of their entities.**

The objects of an application may come in any order. Another order gives the same entities under
other numbers, and all that is looked up by a key is found under its new number.

* `Application.Renumbers`: an application has the entities of another under new numbers;
* `Application.renumbers_numberIn`: entities that differ in their numbers only are such;
* `Renumbers.target?_eq`, `Renumbers.requireField_eq`: what keys lead to;
* `Renumbers.connections`: it has the same connections.
-/

import AppSchema.Proofs.Storage.Connection
import AppSchema.Proofs.Application.Numbered

namespace AppSchema

variable {renumber : TableId → TableId}

/-- A number of a field under the new number of its table. -/
def FieldId.renumbered (renumber : TableId → TableId) (id : FieldId) : FieldId :=
  ⟨renumber id.table, id.index⟩

/-- A field under the new number of its table. -/
def Field.renumbered (renumber : TableId → TableId) (field : Field) : Field :=
  { field with id := field.id.renumbered renumber }

/-- An entity under its new number. -/
def Entity.renumbered (renumber : TableId → TableId) (entity : Entity) : Entity :=
  entity.numbered (renumber entity.id)

/-- A connection of a field of an entity, under new numbers. -/
def renumberedConnection (renumber : TableId → TableId)
    (connected : Entity × Field × Connection) : Entity × Field × Connection :=
  (connected.1.renumbered renumber, connected.2.1.renumbered renumber, connected.2.2)

@[simp] theorem FieldId.renumbered_table (id : FieldId) :
    (id.renumbered renumber).table = renumber id.table := rfl

namespace Field

@[simp] theorem renumbered_id (field : Field) :
    (field.renumbered renumber).id = field.id.renumbered renumber := rfl

@[simp] theorem renumbered_key (field : Field) : (field.renumbered renumber).key = field.key := rfl

@[simp] theorem renumbered_name (field : Field) :
    (field.renumbered renumber).name = field.name := rfl

@[simp] theorem renumbered_kind (field : Field) :
    (field.renumbered renumber).kind = field.kind := rfl

end Field

namespace Entity

@[simp] theorem renumbered_id (entity : Entity) :
    (entity.renumbered renumber).id = renumber entity.id := rfl

@[simp] theorem renumbered_key (entity : Entity) :
    (entity.renumbered renumber).key = entity.key := rfl

@[simp] theorem renumbered_name (entity : Entity) :
    (entity.renumbered renumber).name = entity.name := rfl

/-- The fields of an entity under its new number. -/
theorem WellFormed.renumbered_fields {entity : Entity} (wellFormed : entity.WellFormed) :
    (entity.renumbered renumber).fields = entity.fields.map (Field.renumbered renumber) := by
  refine List.map_congr_left fun field inside => ?_
  obtain ⟨index, found⟩ := List.mem_iff_getElem?.mp inside
  rw [Field.numbered, Field.renumbered, FieldId.renumbered,
    wellFormed.fieldId index field found]

theorem WellFormed.renumbered_filter {entity : Entity} (wellFormed : entity.WellFormed)
    {keep : Field → Bool} (same : ∀ field, keep (field.renumbered renumber) = keep field) :
    (entity.renumbered renumber).fields.filter keep =
      (entity.fields.filter keep).map (Field.renumbered renumber) := by
  rw [wellFormed.renumbered_fields, List.filter_map]
  exact congrArg _ (List.filter_congr fun field _ => same field)

end Entity

namespace Application

/-- **An application that has the entities of another under new numbers.** -/
structure Renumbers (renumber : TableId → TableId) (first second : Application) : Prop where
  wellFormed : first.WellFormed
  wellFormed' : second.WellFormed
  entities : second.entities.Perm (first.entities.map (Entity.renumbered renumber))

/-- The entity that a key leads to. -/
theorem target?_eq_some_iff {application : Application}
    (distinct : (application.entities.map Entity.key).Nodup) {key : String} {target : Entity} :
    application.target? key = some target ↔ target ∈ application.entities ∧ target.key = key := by
  refine ⟨target?_eq_some, ?_⟩
  rintro ⟨member, rfl⟩
  cases found : application.target? target.key with
  | none => simpa using List.find?_eq_none.mp found target member
  | some other =>
    obtain ⟨others, same⟩ := target?_eq_some found
    rw [List.inj_on_of_nodup_map distinct others member same]

/-- The number that the entity of a number has in another application: that of the entity of its
key. -/
def numberIn (first second : Application) (id : TableId) : TableId :=
  ((second.target? (first.entity id).key).map Entity.id).getD 0

theorem numberIn_eq {first second : Application} (wellFormed : first.WellFormed)
    (distinct : (second.entities.map Entity.key).Nodup) {entity other : Entity}
    (member : entity ∈ first.entities) (others : other ∈ second.entities)
    (same : entity.key = other.key) : first.numberIn second entity.id = other.id := by
  rw [numberIn, wellFormed.entity_eq member, same,
    (target?_eq_some_iff distinct).mpr ⟨others, rfl⟩]
  rfl

/-- **Entities that differ in their numbers only are renumbered**, by their keys. -/
theorem renumbers_numberIn {first second : Application} (wellFormed : first.WellFormed)
    (wellFormed' : second.WellFormed) (distinct : (first.entities.map Entity.key).Nodup)
    (alike : (first.entities.map (·.numbered 0)).Perm (second.entities.map (·.numbered 0))) :
    Renumbers (first.numberIn second) first second := by
  have keys : (first.entities.map Entity.key).Perm (second.entities.map Entity.key) := by
    have same := alike.map Entity.key
    rw [List.map_map, List.map_map] at same
    exact same
  have distinct' := keys.nodup_iff.mp distinct
  have renumbered : ∀ entity ∈ first.entities, ∀ other ∈ second.entities,
      entity.key = other.key → entity.renumbered (first.numberIn second) = other := by
    intro entity member other others keyed
    obtain ⟨twin, twins, equal⟩ := List.mem_map.mp
      (alike.subset (List.mem_map_of_mem (f := (·.numbered 0)) member))
    have sameKey : twin.key = other.key := (congrArg Entity.key equal).trans keyed
    obtain rfl := List.inj_on_of_nodup_map distinct' twins others sameKey
    rw [Entity.renumbered, numberIn_eq wellFormed distinct' member twins keyed,
      ← Entity.numbered_numbered entity 0, ← equal, Entity.numbered_numbered,
      (wellFormed'.entity twin twins).numbered_self]
  refine ⟨wellFormed, wellFormed', (List.perm_ext_iff_of_nodup (List.Nodup.of_map _ distinct')
    (List.Nodup.of_map Entity.key ?_)).mpr fun other => ?_⟩
  · rw [List.map_map]
    exact distinct
  · rw [List.mem_map]
    constructor
    · intro others
      obtain ⟨entity, member, keyed⟩ := List.mem_map.mp
        (keys.mem_iff.mpr (List.mem_map_of_mem (f := Entity.key) others))
      exact ⟨entity, member, renumbered entity member other others keyed⟩
    · rintro ⟨entity, member, rfl⟩
      obtain ⟨twin, twins, keyed⟩ := List.mem_map.mp
        (keys.mem_iff.mp (List.mem_map_of_mem (f := Entity.key) member))
      rwa [renumbered entity member twin twins keyed.symm]

namespace Renumbers

variable {first second : Application} {entity : Entity} {field : Field} {index index' : Index}

theorem mem (renumbers : Renumbers renumber first second) (member : entity ∈ first.entities) :
    entity.renumbered renumber ∈ second.entities :=
  renumbers.entities.mem_iff.mpr (List.mem_map_of_mem member)

theorem exists_of_mem (renumbers : Renumbers renumber first second)
    (member : entity ∈ second.entities) :
    ∃ other ∈ first.entities, other.renumbered renumber = entity :=
  List.mem_map.mp (renumbers.entities.mem_iff.mp member)

/-- What does not depend on numbers is the same of all entities. -/
theorem map_perm (renumbers : Renumbers renumber first second) {β : Type}
    {value value' : Entity → β}
    (same : ∀ entity ∈ first.entities, value' (entity.renumbered renumber) = value entity) :
    (second.entities.map value').Perm (first.entities.map value) := by
  refine (renumbers.entities.map value').trans (List.Perm.of_eq ?_)
  rw [List.map_map]
  exact List.map_congr_left same

theorem entity_eq (renumbers : Renumbers renumber first second)
    (member : entity ∈ first.entities) :
    second.entity (renumber entity.id) = entity.renumbered renumber :=
  renumbers.wellFormed'.entity_eq (renumbers.mem member)

theorem mem_fields (renumbers : Renumbers renumber first second)
    (member : entity ∈ first.entities) (inside : field ∈ entity.fields) :
    field.renumbered renumber ∈ (entity.renumbered renumber).fields := by
  rw [(renumbers.wellFormed.entity entity member).renumbered_fields]
  exact List.mem_map_of_mem inside

theorem field_eq (renumbers : Renumbers renumber first second)
    (member : entity ∈ first.entities) (inside : field ∈ entity.fields) :
    second.field (field.id.renumbered renumber) = field.renumbered renumber :=
  (renumbers.wellFormed'.field_eq (renumbers.mem member) (renumbers.mem_fields member inside)).2

/-- **No two entities get one number.** -/
theorem injective (renumbers : Renumbers renumber first second) {other : Entity}
    (member : entity ∈ first.entities) (others : other ∈ first.entities)
    (same : renumber entity.id = renumber other.id) : entity = other := by
  have ids : (first.entities.map fun entity => renumber entity.id).Nodup := by
    have distinct := (renumbers.entities.map Entity.id).nodup_iff.mp
      renumbers.wellFormed'.nodup_ids
    rwa [List.map_map] at distinct
  exact List.inj_on_of_nodup_map ids member others same

theorem renumber_eq_iff (renumbers : Renumbers renumber first second) {other : Entity}
    (member : entity ∈ first.entities) (others : other ∈ first.entities) :
    renumber entity.id = renumber other.id ↔ entity.id = other.id := by
  refine ⟨fun same => ?_, congrArg renumber⟩
  rw [renumbers.injective member others same]

/-- **A key leads to the same entity.** -/
theorem target?_eq (renumbers : Renumbers renumber first second)
    (distinct : (first.entities.map Entity.key).Nodup) (key : String) :
    second.target? key = (first.target? key).map (Entity.renumbered renumber) := by
  have distinct' : (second.entities.map Entity.key).Nodup :=
    (renumbers.map_perm fun _ _ => rfl).nodup_iff.mpr distinct
  cases found : first.target? key with
  | some target =>
    obtain ⟨member, keyed⟩ := target?_eq_some found
    exact (target?_eq_some_iff distinct').mpr ⟨renumbers.mem member, keyed⟩
  | none =>
    refine List.find?_eq_none.mpr fun other others => ?_
    obtain ⟨entity, member, rfl⟩ := renumbers.exists_of_mem others
    exact List.find?_eq_none.mp found entity member

/-- **The connections are the same.** -/
theorem connections (renumbers : Renumbers renumber first second) :
    second.connections.Perm (first.connections.map (renumberedConnection renumber)) := by
  refine (renumbers.entities.flatMap_right _).trans (List.Perm.of_eq ?_)
  rw [Application.connections, List.flatMap_map, List.map_flatMap]
  refine List.flatMap_congr fun entity member => ?_
  rw [(renumbers.wellFormed.entity entity member).renumbered_fields, List.filterMap_map,
    List.map_filterMap]
  refine List.filterMap_congr fun field _ => ?_
  simp only [Function.comp_apply, Option.map_map]
  rfl

theorem renumberedConnection_mem (renumbers : Renumbers renumber first second)
    {connected : Entity × Field × Connection} (member : connected ∈ first.connections) :
    renumberedConnection renumber connected ∈ second.connections :=
  renumbers.connections.mem_iff.mpr (List.mem_map_of_mem member)

/-- The keys of the fields, with their new numbers. -/
theorem listedFields (renumbers : Renumbers renumber first second) :
    (Index.listedFields second.entities).Perm ((Index.listedFields first.entities).map
      fun listed => (listed.1, listed.2.renumbered renumber)) := by
  refine (renumbers.entities.flatMap_right _).trans (List.Perm.of_eq ?_)
  rw [Index.listedFields, List.flatMap_map, List.map_flatMap]
  refine List.flatMap_congr fun entity member => ?_
  rw [Entity.domainFields, (renumbers.wellFormed.entity entity member).renumbered_filter
    (fun _ => rfl), List.map_map, List.map_map]
  rfl

/-- **One has an index where the other has.** -/
theorem exists_index_iff (renumbers : Renumbers renumber first second) :
    (∃ index, Index.ofApplication second = .ok index) ↔
      ∃ index, Index.ofApplication first = .ok index := by
  have entities : (second.entities.map Entity.key).Perm (first.entities.map Entity.key) :=
    renumbers.map_perm fun _ _ => rfl
  have fields := renumbers.listedFields.map Prod.fst
  rw [List.map_map] at fields
  rw [Index.exists_ofApplication_iff, Index.exists_ofApplication_iff, entities.nodup_iff,
    fields.nodup_iff]
  rfl

/-- **A key leads to the same field.** -/
theorem requireField_eq (renumbers : Renumbers renumber first second)
    (indexed : Index.ofApplication first = .ok index)
    (indexed' : Index.ofApplication second = .ok index') (referencing key : String) :
    index'.requireField referencing key =
      FieldId.renumbered renumber <$> index.requireField referencing key := by
  have lists := Index.lists_of_ofApplication indexed
  have lists' := Index.lists_of_ofApplication indexed'
  have found : index'.field? key = (index.field? key).map (FieldId.renumbered renumber) := by
    refine Option.ext fun id => ?_
    have distinct := lists.fields_eq ▸ lists.distinctFields
    have distinct' := lists'.fields_eq ▸ lists'.distinctFields
    rw [Index.field?, lists'.fields_eq, Index.lookup_eq_some_iff_mem distinct',
      renumbers.listedFields.mem_iff, Index.field?, lists.fields_eq, Option.map_eq_some_iff]
    constructor
    · intro member
      obtain ⟨⟨_, other⟩, there, same⟩ := List.mem_map.mp member
      obtain ⟨rfl, rfl⟩ := Prod.mk.inj same
      exact ⟨other, (Index.lookup_eq_some_iff_mem distinct).mpr there, rfl⟩
    · rintro ⟨other, there, rfl⟩
      exact List.mem_map.mpr ⟨_, (Index.lookup_eq_some_iff_mem distinct).mp there, rfl⟩
  rw [Index.requireField, Index.requireField, found]
  cases index.field? key <;> rfl

end Renumbers

end Application

end AppSchema
