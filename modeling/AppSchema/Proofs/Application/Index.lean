/-
**The index of an application, proved.**

* `Index.lists_of_ofApplication`: the index lists every entity, and every field that is not a key,
  under its key, and no key is listed twice;
* `Index.exists_ofApplication_iff`: which applications have an index;
* `Index.requireEntity_eq_ok`, `Index.requireField_eq_ok`: what a key leads to is there.
-/

import AppSchema.Application.Index
import AppSchema.Proofs.Application.Classify

namespace AppSchema.Index

/-- The listed fields of entities. -/
def listedFields (entities : List Entity) : List (String × FieldId) :=
  entities.flatMap fun entity => entity.domainFields.map fun field => (field.key, field.id)

theorem not_mem_of_lookup_eq_none {κ β : Type} [BEq κ] [LawfulBEq κ] {list : List (κ × β)}
    {key : κ} (absent : list.lookup key = none) : key ∉ list.map Prod.fst := by
  intro member
  obtain ⟨pair, inside, rfl⟩ := List.mem_map.mp member
  simpa using List.lookup_eq_none_iff.mp absent pair inside

theorem nodup_append_key {β : Type} {list : List (String × β)} {key : String} {value : β}
    (distinct : (list.map Prod.fst).Nodup) (absent : list.lookup key = none) :
    ((list ++ [(key, value)]).map Prod.fst).Nodup := by
  rw [List.map_append, List.nodup_append]
  refine ⟨distinct, List.nodup_singleton _, fun first member second same => ?_⟩
  rw [List.mem_singleton.mp same]
  rintro rfl
  exact not_mem_of_lookup_eq_none absent member

/-- What adding entities keeps of an index. -/
structure Lists (entities : List Entity) (fields : List (String × FieldId)) (index : Index) :
    Prop where
  entities_eq : index.entities = entities.map fun entity => (entity.key, entity.id)
  fields_eq : index.fields = fields
  distinctEntities : (index.entities.map Prod.fst).Nodup
  distinctFields : (index.fields.map Prod.fst).Nodup

/-- **Adding one field.** -/
theorem Lists.addField {application : Application} {owner : String} {entities : List Entity}
    {fields : List (String × FieldId)} {index result : Index} {field : Field}
    (lists : Lists entities fields index)
    (added : addField application owner index field = .ok result) :
    Lists entities (fields ++ [(field.key, field.id)]) result := by
  unfold Index.addField at added
  cases found : index.fields.lookup field.key with
  | some other => simp [found] at added
  | none =>
    simp only [found, Except.ok.injEq] at added
    subst added
    exact ⟨lists.entities_eq, by rw [lists.fields_eq], lists.distinctEntities,
      nodup_append_key lists.distinctFields found⟩

/-- **Adding one entity.** -/
theorem Lists.addEntity {application : Application} {entities : List Entity} {index result : Index}
    {entity : Entity} (lists : Lists entities (listedFields entities) index)
    (added : addEntity application index entity = .ok result) :
    Lists (entities ++ [entity]) (listedFields (entities ++ [entity])) result := by
  unfold Index.addEntity at added
  cases found : index.entities.lookup entity.key with
  | some other => simp [found] at added
  | none =>
    simp only [found] at added
    have start : Lists (entities ++ [entity]) (listedFields entities)
        { index with entities := index.entities ++ [(entity.key, entity.id)] } := by
      refine ⟨?_, lists.fields_eq, nodup_append_key lists.distinctEntities found,
        lists.distinctFields⟩
      rw [lists.entities_eq, List.map_append]
      rfl
    -- The fields of the entity are added behind those of the entities before it.
    have folded := foldlM_induction
      (fun seen current => Lists (entities ++ [entity])
        (listedFields entities ++ seen.map fun field => (field.key, field.id)) current)
      (fun seen current field next holds stepped => by
        have step := holds.addField stepped
        rw [List.append_assoc] at step
        simpa using step)
      (by simpa using start) added
    have all : listedFields (entities ++ [entity]) =
        listedFields entities ++ entity.domainFields.map fun field => (field.key, field.id) := by
      simp [listedFields]
    rw [all]
    exact folded

/-- **The index lists every entity and every field that is not a key**, and no key twice. -/
theorem lists_of_ofApplication {application : Application} {index : Index}
    (indexed : ofApplication application = .ok index) :
    Lists application.entities (listedFields application.entities) index := by
  have empty : Lists [] (listedFields []) {} := ⟨rfl, rfl, List.nodup_nil, List.nodup_nil⟩
  exact foldlM_induction (fun seen current => Lists seen (listedFields seen) current)
    (fun _ _ _ _ lists stepped => lists.addEntity stepped) empty indexed

theorem mem_of_lookup_eq_some {κ β : Type} [BEq κ] [LawfulBEq κ] {list : List (κ × β)} {key : κ}
    {value : β} (found : list.lookup key = some value) : (key, value) ∈ list := by
  obtain ⟨before, after, listed, _⟩ := List.lookup_eq_some_iff.mp found
  simp [listed]

/-- What a key that is listed once leads to. -/
theorem lookup_eq_some_iff_mem {κ β : Type} [BEq κ] [LawfulBEq κ] {list : List (κ × β)}
    (distinct : (list.map Prod.fst).Nodup) {key : κ} {value : β} :
    list.lookup key = some value ↔ (key, value) ∈ list := by
  constructor
  · exact mem_of_lookup_eq_some
  · intro member
    cases found : list.lookup key with
    | none => exact absurd (List.mem_map_of_mem member) (not_mem_of_lookup_eq_none found)
    | some other =>
      have same := List.inj_on_of_nodup_map distinct (mem_of_lookup_eq_some found) member rfl
      rw [(Prod.mk.inj same).2]

variable {application : Application} {index : Index}

/-- **A key of an object leads to an entity.** -/
theorem requireEntity_eq_ok (indexed : ofApplication application = .ok index)
    {referencing key : String} {id : TableId}
    (found : index.requireEntity referencing key = .ok id) :
    ∃ entity ∈ application.entities, entity.key = key ∧ entity.id = id := by
  unfold requireEntity entity? at found
  cases looked : index.entities.lookup key with
  | none => simp [looked] at found
  | some other =>
    simp only [looked, Except.ok.injEq] at found
    subst found
    have lists := lists_of_ofApplication indexed
    have member := mem_of_lookup_eq_some looked
    rw [lists.entities_eq] at member
    obtain ⟨entity, inside, same⟩ := List.mem_map.mp member
    exact ⟨entity, inside, congrArg Prod.fst same, congrArg Prod.snd same⟩

/-- **A key of a field leads to a field of an entity.** -/
theorem requireField_eq_ok (indexed : ofApplication application = .ok index)
    {referencing key : String} {id : FieldId}
    (found : index.requireField referencing key = .ok id) :
    ∃ entity ∈ application.entities, ∃ field ∈ entity.domainFields,
      field.key = key ∧ field.id = id := by
  unfold requireField field? at found
  cases looked : index.fields.lookup key with
  | none => simp [looked] at found
  | some other =>
    simp only [looked, Except.ok.injEq] at found
    subst found
    have lists := lists_of_ofApplication indexed
    have member := mem_of_lookup_eq_some looked
    rw [lists.fields_eq] at member
    obtain ⟨entity, inside, member⟩ := List.mem_flatMap.mp member
    obtain ⟨field, own, same⟩ := List.mem_map.mp member
    exact ⟨entity, inside, field, own, congrArg Prod.fst same, congrArg Prod.snd same⟩

/-- **No two entities share a key.** -/
theorem nodup_keys (indexed : ofApplication application = .ok index) :
    (application.entities.map Entity.key).Nodup := by
  have lists := lists_of_ofApplication indexed
  have distinct := lists.distinctEntities
  rwa [lists.entities_eq, List.map_map] at distinct

/-! ### Indexes that exist -/

theorem lookup_eq_none_iff_not_mem {β : Type} {list : List (String × β)} {key : String} :
    list.lookup key = none ↔ key ∉ list.map Prod.fst := by
  refine ⟨not_mem_of_lookup_eq_none, fun absent => ?_⟩
  refine List.lookup_eq_none_iff.mpr fun pair member => ?_
  have apart : key ≠ pair.1 := fun same => absent (same ▸ List.mem_map_of_mem member)
  simpa using apart

/-- **An entity whose keys are new can be added.** -/
theorem exists_addEntity {entities : List Entity} {entity : Entity}
    (lists : Lists entities (listedFields entities) index)
    (distinct : ((entities ++ [entity]).map Entity.key).Nodup)
    (distinctFields : ((listedFields (entities ++ [entity])).map Prod.fst).Nodup) :
    ∃ result, addEntity application index entity = .ok result ∧
      Lists (entities ++ [entity]) (listedFields (entities ++ [entity])) result := by
  have fresh : index.entities.lookup entity.key = none := by
    rw [lookup_eq_none_iff_not_mem, lists.entities_eq, List.map_map]
    rw [List.map_append, List.nodup_append] at distinct
    intro known
    exact distinct.2.2 _ known _ (List.mem_singleton_self _) rfl
  have all : (listedFields (entities ++ [entity])).map Prod.fst =
      (listedFields entities).map Prod.fst ++ entity.domainFields.map Field.key := by
    simp [listedFields, Function.comp_def]
  have added : ∃ result, addEntity application index entity = .ok result := by
    rw [addEntity, fresh]
    refine exists_foldlM
      (fun seen value => value.fields.map Prod.fst =
        (listedFields entities).map Prod.fst ++ seen.map Field.key)
      (fun seen value field rest split keys => ?_) (by simp [lists.fields_eq])
    rw [all, split, List.map_append, List.map_cons] at distinctFields
    have new : field.key ∉ value.fields.map Prod.fst := by
      rw [keys]
      rw [← List.append_assoc] at distinctFields
      intro known
      exact (List.nodup_append.mp distinctFields).2.2 _ known _ List.mem_cons_self rfl
    refine ⟨_, by rw [addField, lookup_eq_none_iff_not_mem.mpr new], ?_⟩
    simp [keys]
  obtain ⟨result, added⟩ := added
  exact ⟨result, added, lists.addEntity added⟩

/-- **Which applications have an index**: those whose keys of entities differ, and whose keys of
fields. -/
theorem exists_ofApplication_iff :
    (∃ index, ofApplication application = .ok index) ↔
      (application.entities.map Entity.key).Nodup ∧
        ((listedFields application.entities).map Prod.fst).Nodup := by
  constructor
  · rintro ⟨index, indexed⟩
    have lists := lists_of_ofApplication indexed
    exact ⟨nodup_keys indexed, lists.fields_eq ▸ lists.distinctFields⟩
  · rintro ⟨distinct, distinctFields⟩
    have empty : Lists [] (listedFields []) {} := ⟨rfl, rfl, List.nodup_nil, List.nodup_nil⟩
    refine exists_foldlM (fun seen value => Lists seen (listedFields seen) value)
      (fun seen value entity rest split lists => ?_) empty
    have before : application.entities = (seen ++ [entity]) ++ rest := by
      rw [split, List.append_cons]
    rw [before] at distinct distinctFields
    refine exists_addEntity lists ?_ ?_
    · rw [List.map_append] at distinct
      exact (List.nodup_append.mp distinct).1
    · rw [listedFields, List.flatMap_append, List.map_append] at distinctFields
      exact (List.nodup_append.mp distinctFields).1

end AppSchema.Index
