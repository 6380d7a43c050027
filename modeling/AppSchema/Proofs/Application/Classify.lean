/-
**What classifying gives.**

* `Entity.WellFormed`: an entity numbers its fields by position, ends with its two keys, and no two
  of its fields share a name or, the keys aside, a key;
* `Entity.wellFormed_of_ofSource`: an object that is classified gives such an entity, and each of
  its fields is either kept or reported, once;
* `Application.classified_ofSources`: the entities are numbered by position, and what is reported
  of an entity is none of its fields.
-/

import AppSchema.Application.Classify
import AppSchema.Proofs.Name
import AppSchema.Proofs.Success
import Mathlib.Data.List.Perm.Basic

namespace AppSchema

/-! ### Fields -/

theorem getElem?_append_singleton {α : Type} {list : List α} {last element : α} {index : Nat} :
    (list ++ [last])[index]? = some element ↔
      list[index]? = some element ∨ index = list.length ∧ element = last := by
  rcases Nat.lt_trichotomy index list.length with inside | rfl | outside
  · rw [List.getElem?_append_left inside]
    simp [Nat.ne_of_lt inside]
  · rw [List.getElem?_append_right (Nat.le_refl _)]
    simp [eq_comm]
  · rw [List.getElem?_append_right (Nat.le_of_lt outside),
      List.getElem?_eq_none (Nat.le_of_lt outside), List.getElem?_eq_none (by simp; omega)]
    simp [Nat.ne_of_gt outside]

theorem FieldSource.nodup_firstOfKeys (seen : List String) (fields : List FieldSource) :
    ((FieldSource.firstOfKeys seen fields).map FieldSource.key).Nodup ∧
      ∀ field ∈ FieldSource.firstOfKeys seen fields, field.key ∉ seen := by
  induction fields generalizing seen with
  | nil => simp [FieldSource.firstOfKeys]
  | cons field rest ih =>
    rw [FieldSource.firstOfKeys]
    by_cases known : field.key ∈ seen
    · rw [if_pos known]
      exact ih seen
    · rw [if_neg known, List.map_cons, List.nodup_cons, List.forall_mem_cons]
      obtain ⟨distinct, fresh⟩ := ih (field.key :: seen)
      refine ⟨⟨?_, distinct⟩, known, fun other member inside => ?_⟩
      · intro inside
        obtain ⟨other, member, same⟩ := List.mem_map.mp inside
        exact fresh other member (by simp [same])
      · exact fresh other member (List.mem_cons_of_mem _ inside)

theorem FieldSource.firstOfKeys_sublist (seen : List String) (fields : List FieldSource) :
    (FieldSource.firstOfKeys seen fields).Sublist fields := by
  induction fields generalizing seen with
  | nil => exact List.Sublist.slnil
  | cons field rest ih =>
    rw [FieldSource.firstOfKeys]
    split
    · exact (ih seen).cons field
    · exact (ih (field.key :: seen)).cons_cons field

theorem FieldSource.nodup_parts (object : String) (fields : List FieldSource) :
    ((FieldSource.firstOfKeys [] fields).map fun source => Part.field object source.key).Nodup := by
  have injective : Function.Injective (Part.field object) := by
    intro first second same
    exact (Part.field.inj same).2
  have distinct := (FieldSource.nodup_firstOfKeys [] fields).1.map injective
  rwa [List.map_map] at distinct

namespace Entity

/-- **A well-formed entity.** Behind its own fields it has the two keys. -/
structure WellFormed (entity : Entity) : Prop where
  fieldId : ∀ index (field : Field), entity.fields[index]? = some field →
    field.id = ⟨entity.id, index⟩
  fields_eq : entity.fields =
    entity.domainFields ++ keyFields entity.id entity.domainFields.length
  distinctNames : (entity.fields.map (·.name.ident)).Nodup
  distinctKeys : (entity.domainFields.map Field.key).Nodup

/-- A well-formed entity has the key `id`. -/
theorem WellFormed.mem_key {entity : Entity} (wellFormed : entity.WellFormed) :
    ∃ field ∈ entity.fields, field.name = .ofIdent "id" ∧ field.kind = .stored .surrogateKey := by
  rw [wellFormed.fields_eq]
  exact ⟨_, List.mem_append_right _ List.mem_cons_self, rfl, rfl⟩

/-- What adding fields keeps of a draft: its fields are numbered, and every field of the metadata
was either kept or skipped. -/
structure Draft.Sound (id : TableId) (object : String) (seen : List FieldSource)
    (draft : Draft) : Prop where
  fieldId : ∀ index (field : Field), draft.fields[index]? = some field →
    field.id = ⟨id, index⟩
  own : ∀ field ∈ draft.fields, field.synthetic = false
  read : ∀ field ∈ draft.fields, ∃ source ∈ seen, field.key = source.key ∧
    Reading.ofSource source = .kept field.kind
  parts : (draft.fields.map (fun field => Part.field object field.key) ++
      draft.skipped.map Diagnostic.part).Perm (seen.map fun source => .field object source.key)

theorem Draft.Sound.empty (id : TableId) (object : String) : Draft.Sound id object [] {} :=
  ⟨by simp, by simp, by simp, by simp⟩

/-- **Adding one field.** -/
theorem Draft.Sound.add {id : TableId} {object : String} {seen : List FieldSource}
    {draft result : Draft} {source : FieldSource} (sound : Draft.Sound id object seen draft)
    (added : Draft.add id object draft source = .ok result) :
    Draft.Sound id object (seen ++ [source]) result := by
  unfold Draft.add at added
  cases read : Reading.ofSource source with
  | unusable fault => simp [read] at added
  | skipped severity fault =>
    simp only [read, Except.ok.injEq] at added
    subst added
    refine ⟨sound.fieldId, sound.own, fun field member => ?_, ?_⟩
    · obtain ⟨other, there, same⟩ := sound.read field member
      exact ⟨other, List.mem_append_left _ there, same⟩
    · simp only [List.map_append, List.map_cons, List.map_nil, ← List.append_assoc]
      exact sound.parts.append_right _
  | kept kind =>
    simp only [read, Except.ok.injEq] at added
    subst added
    refine ⟨fun index field found => ?_, fun field member => ?_, fun field member => ?_, ?_⟩
    · rcases getElem?_append_singleton.mp found with found | ⟨rfl, rfl⟩
      · exact sound.fieldId index field found
      · rfl
    · rcases List.mem_append.mp member with member | member
      · exact sound.own field member
      · rw [List.mem_singleton.mp member]
    · rcases List.mem_append.mp member with member | member
      · obtain ⟨other, there, same⟩ := sound.read field member
        exact ⟨other, List.mem_append_left _ there, same⟩
      · rw [List.mem_singleton.mp member]
        exact ⟨source, List.mem_append_right _ (List.mem_singleton_self _), rfl, read⟩
    · simp only [List.map_append, List.map_cons, List.map_nil, List.append_assoc]
      refine List.Perm.trans ?_ (sound.parts.append_right _)
      rw [List.append_assoc]
      exact List.perm_append_comm.append_left _

theorem Draft.Sound.foldlM {id : TableId} {object : String} {sources : List FieldSource}
    {draft : Draft} (added : sources.foldlM (Draft.add id object) {} = .ok draft) :
    Draft.Sound id object sources draft :=
  foldlM_induction (Draft.Sound id object)
    (fun _ _ _ _ sound stepped => sound.add stepped) (.empty id object) added

theorem checkNames_eq_ok {entity : Entity} (checked : checkNames entity = .ok ()) :
    (entity.fields.map (·.name.ident)).Nodup := by
  unfold checkNames at checked
  cases collides : Name.collision? [] (entity.fields.map Field.name) with
  | some names => simp [collides] at checked
  | none => simpa [Function.comp_def] using Name.collision?_eq_none_iff.mp collides

theorem synthetic_of_mem_keyFields {id : TableId} {count : Nat} {field : Field}
    (member : field ∈ keyFields id count) : field.synthetic = true := by
  rcases List.mem_pair.mp member with rfl | rfl <;> rfl

/-- The entity of the fields that are classified. -/
def ofDraft (id : TableId) (object : ObjectSource) (draft : Draft) : Entity :=
  { id, key := object.key, name := .ofLabel object.name
    fields := draft.fields ++ keyFields id draft.fields.length }

/-- **What classifying an object takes.** -/
theorem ofSource_eq_ok {id : TableId} {object : ObjectSource} {entity : Entity}
    {skipped : List Diagnostic} (classified : ofSource id object = .ok (entity, skipped)) :
    ∃ draft, Draft.Sound id object.key (FieldSource.firstOfKeys [] object.fields) draft ∧
      checkNames (ofDraft id object draft) = .ok () ∧ entity = ofDraft id object draft ∧
      skipped = draft.skipped := by
  obtain ⟨draft, added, classified⟩ := bind_eq_ok.mp classified
  obtain ⟨_, checked, classified⟩ := bind_eq_ok.mp classified
  cases classified
  exact ⟨draft, .foldlM added, checked, rfl, rfl⟩

/-- The fields that are classified are the entity's own. -/
theorem Draft.Sound.domainFields_eq {id : TableId} {object : ObjectSource}
    {seen : List FieldSource} {draft : Draft} (sound : Draft.Sound id object.key seen draft) :
    (ofDraft id object draft).domainFields = draft.fields := by
  have own : draft.fields.filter (!·.synthetic) = draft.fields :=
    List.filter_eq_self.mpr fun field member => by rw [sound.own field member, Bool.not_false]
  have keys : (keyFields id draft.fields.length).filter (!·.synthetic) = [] := by
    refine List.filter_eq_nil_iff.mpr fun field member => ?_
    rw [synthetic_of_mem_keyFields member]
    decide
  rw [domainFields, ofDraft, List.filter_append, own, keys, List.append_nil]

/-- **An object that is classified gives a well-formed entity**, and what was left out of it are
other fields than those that it has. -/
theorem wellFormed_of_ofSource {id : TableId} {object : ObjectSource} {entity : Entity}
    {skipped : List Diagnostic} (classified : ofSource id object = .ok (entity, skipped)) :
    entity.WellFormed ∧ entity.id = id ∧ entity.key = object.key ∧
      (entity.domainFields.map (fun field => Part.field object.key field.key) ++
        skipped.map Diagnostic.part).Perm
          ((FieldSource.firstOfKeys [] object.fields).map fun source =>
            .field object.key source.key) := by
  obtain ⟨draft, sound, checked, rfl, rfl⟩ := ofSource_eq_ok classified
  have domain := sound.domainFields_eq
  refine ⟨⟨fun index field found => ?_, ?_, checkNames_eq_ok checked, ?_⟩, rfl, rfl, ?_⟩
  · rw [ofDraft] at found
    rcases Nat.lt_or_ge index draft.fields.length with inside | outside
    · rw [List.getElem?_append_left inside] at found
      exact sound.fieldId index field found
    · obtain ⟨behind, rfl⟩ := Nat.exists_eq_add_of_le outside
      rw [List.getElem?_append_right outside, Nat.add_sub_cancel_left] at found
      match behind, found with
      | 0, rfl => rfl
      | 1, rfl => rfl
  · rw [domain]
    rfl
  · rw [domain]
    have distinct := sound.parts.nodup_iff.mpr
      (FieldSource.nodup_parts object.key object.fields)
    have kept := distinct.of_append_left
    refine List.Nodup.of_map (Part.field object.key) ?_
    rwa [List.map_map]
  · rw [domain]
    exact sound.parts

/-- **A field is what its source reads as.** -/
theorem read_of_ofSource {id : TableId} {object : ObjectSource} {entity : Entity}
    {skipped : List Diagnostic} (classified : ofSource id object = .ok (entity, skipped))
    {field : Field} (member : field ∈ entity.domainFields) {source : FieldSource}
    (inside : source ∈ FieldSource.firstOfKeys [] object.fields) (same : field.key = source.key) :
    Reading.ofSource source = .kept field.kind := by
  obtain ⟨draft, sound, _, rfl, _⟩ := ofSource_eq_ok classified
  rw [sound.domainFields_eq] at member
  obtain ⟨other, there, keyed, read⟩ := sound.read field member
  have distinct := (FieldSource.nodup_firstOfKeys [] object.fields).1
  rwa [List.inj_on_of_nodup_map distinct inside there (same.symm.trans keyed)]

end Entity

/-! ### Where fields come from -/

/-- **A stored field is that of its source**, with the column type of the source's type. -/
theorem Reading.stored_ofSource {source : FieldSource} {kind : FieldKind} {field : StoredField}
    (read : ofSource source = .kept kind) (stores : kind.stored? = some field) :
    ∃ type, ColumnType.ofSource? source.sourceType = some type ∧
      field = StoredField.ofSource source type := by
  unfold ofSource at read
  split at read
  · unfold ofConnection at read
    split at read <;> cases read
    cases stores
  · split at read
    · unfold ofConcatenation at read
      split at read <;> cases read
      cases stores
    · split at read
      · cases read
      · split at read
        · unfold ofAggregate at read
          split at read
          · cases read
          · split at read <;> cases read
            cases stores
        · next type _ found =>
          cases read
          cases stores
          exact ⟨type, found, rfl⟩
        · cases read

/-- A field has the name of a field of the metadata, and is what that reads as. -/
def Field.ReadFrom (field : Field) (source : FieldSource) : Prop :=
  field.name = .ofLabel source.name ∧ Reading.ofSource source = .kept field.kind

namespace Entity

theorem Draft.readFrom_add {id : TableId} {object : String} {draft result : Draft}
    {source : FieldSource} (added : Draft.add id object draft source = .ok result)
    (read : ∀ field ∈ draft.fields, ∃ other, field.ReadFrom other) :
    ∀ field ∈ result.fields, ∃ other, field.ReadFrom other := by
  unfold Draft.add at added
  cases reading : Reading.ofSource source with
  | unusable fault => simp [reading] at added
  | skipped severity fault =>
    simp only [reading, Except.ok.injEq] at added
    subst added
    exact read
  | kept kind =>
    simp only [reading, Except.ok.injEq] at added
    subst added
    intro field member
    rcases List.mem_append.mp member with member | member
    · exact read field member
    · rw [List.mem_singleton.mp member]
      exact ⟨source, rfl, reading⟩

/-- **An entity is named after its object, and its fields after those of the object**, the two keys
aside. -/
theorem readFrom_of_ofSource {id : TableId} {object : ObjectSource} {entity : Entity}
    {skipped : List Diagnostic} (classified : ofSource id object = .ok (entity, skipped)) :
    entity.name = .ofLabel object.name ∧ ∀ field ∈ entity.fields,
      (∃ source, field.ReadFrom source) ∨ ∃ count, field ∈ keyFields id count := by
  obtain ⟨draft, added, classified⟩ := bind_eq_ok.mp classified
  obtain ⟨_, _, classified⟩ := bind_eq_ok.mp classified
  cases classified
  have read : ∀ field ∈ draft.fields, ∃ source, field.ReadFrom source :=
    foldlM_induction
      (fun _ (draft : Draft) => ∀ field ∈ draft.fields, ∃ source, field.ReadFrom source)
      (fun _ _ _ _ read stepped => Draft.readFrom_add stepped read) (by simp) added
  refine ⟨rfl, fun field member => ?_⟩
  rcases List.mem_append.mp member with member | member
  · exact .inl (read field member)
  · exact .inr ⟨_, member⟩

end Entity

/-! ### Objects -/

namespace Application

/-- **A well-formed application.** Its entities are numbered by position. -/
structure WellFormed (application : Application) : Prop where
  entityId : ∀ position (entity : Entity), application.entities[position]? = some entity →
    entity.id = position
  entity : ∀ entity ∈ application.entities, entity.WellFormed

/-- **A classified application, and what was left out of it.** A diagnostic is about an object, or
about a field that no entity of its object has. -/
structure Classified (application : Application) (left : List Diagnostic) : Prop
    extends application.WellFormed where
  reported : ∀ diagnostic ∈ left, (∃ key, diagnostic.part = .object key) ∨
    ∃ entity ∈ application.entities, ∃ key, diagnostic.part = .field entity.key key ∧
      key ∉ entity.domainFields.map Field.key

/-- **Adding one object.** -/
theorem Classified.add {application : Application} {left : List Diagnostic}
    (classified : application.Classified left) (object : ObjectSource) :
    (Application.add (application, left) object).1.Classified
      (Application.add (application, left) object).2 := by
  unfold Application.add
  cases read : Entity.ofSource application.entities.length object with
  | error fault =>
    refine ⟨classified.toWellFormed, fun diagnostic member => ?_⟩
    rcases List.mem_append.mp member with member | member
    · exact classified.reported diagnostic member
    · rw [List.mem_singleton.mp member]
      exact .inl ⟨object.key, rfl⟩
  | ok result =>
    obtain ⟨entity, skipped⟩ := result
    obtain ⟨wellFormed, numbered, keyed, parts⟩ := Entity.wellFormed_of_ofSource read
    refine ⟨⟨fun position other found => ?_, fun other member => ?_⟩, fun diagnostic member => ?_⟩
    · rcases getElem?_append_singleton.mp found with found | ⟨rfl, rfl⟩
      · exact classified.entityId position other found
      · exact numbered
    · rcases List.mem_append.mp member with member | member
      · exact classified.entity other member
      · rwa [List.mem_singleton.mp member]
    · rcases List.mem_append.mp member with member | member
      · refine (classified.reported diagnostic member).imp_right ?_
        rintro ⟨other, inside, rest⟩
        exact ⟨other, List.mem_append_left _ inside, rest⟩
      · -- The parts that were kept and those that were skipped are all different.
        have distinct := parts.nodup_iff.mpr (FieldSource.nodup_parts object.key object.fields)
        obtain ⟨_, _, apart⟩ := List.nodup_append.mp distinct
        have skippedPart := List.mem_map_of_mem (f := Diagnostic.part) member
        have there := parts.subset (List.mem_append_right _ skippedPart)
        obtain ⟨source, _, same⟩ := List.mem_map.mp there
        refine .inr ⟨entity, by simp, source.key, ?_, fun inside => ?_⟩
        · rw [keyed, same]
        · obtain ⟨field, own, sameKey⟩ := List.mem_map.mp inside
          refine apart _ (List.mem_map_of_mem own) _ skippedPart ?_
          rw [← same, sameKey]

/-- **What classifying all objects gives.** -/
theorem classified_ofSources (objects : List ObjectSource) :
    (ofSources objects).1.Classified (ofSources objects).2 := by
  have empty : (({}, []) : Application × List Diagnostic).1.Classified [] :=
    ⟨⟨by simp, by simp⟩, by simp⟩
  refine List.foldlRecOn
    (motive := fun (state : Application × List Diagnostic) => state.1.Classified state.2)
    objects add empty ?_
  intro state classified object _
  exact classified.add object

variable {application : Application}

theorem WellFormed.getElem? (wellFormed : application.WellFormed) {entity : Entity}
    (member : entity ∈ application.entities) :
    application.entities[entity.id]? = some entity := by
  obtain ⟨position, found⟩ := List.mem_iff_getElem?.mp member
  rwa [wellFormed.entityId position entity found]

theorem WellFormed.entity_eq (wellFormed : application.WellFormed) {entity : Entity}
    (member : entity ∈ application.entities) : application.entity entity.id = entity := by
  rw [Application.entity, List.getD_eq_getElem?_getD, wellFormed.getElem? member]
  rfl

theorem WellFormed.lt_length (wellFormed : application.WellFormed) {entity : Entity}
    (member : entity ∈ application.entities) : entity.id < application.entities.length :=
  (List.getElem?_eq_some_iff.mp (wellFormed.getElem? member)).1

/-- **Every field is at its own position.** -/
theorem WellFormed.field_eq (wellFormed : application.WellFormed) {entity : Entity}
    (member : entity ∈ application.entities) {field : Field} (inside : field ∈ entity.fields) :
    field.id.table = entity.id ∧ application.field field.id = field := by
  obtain ⟨index, found⟩ := List.mem_iff_getElem?.mp inside
  have numbered := (wellFormed.entity entity member).fieldId index field found
  rw [Application.field, numbered, wellFormed.entity_eq member, List.getD_eq_getElem?_getD, found]
  exact ⟨rfl, rfl⟩

end Application

/-- **No two fields of an entity share a number.** -/
theorem Entity.WellFormed.nodup_ids {entity : Entity} (wellFormed : entity.WellFormed) :
    (entity.fields.map Field.id).Nodup := by
  have positions : entity.fields.map Field.id =
      (List.range entity.fields.length).map (FieldId.mk entity.id) := by
    refine List.ext_getElem (by simp) fun index inside _ => ?_
    rw [List.getElem_map, List.getElem_map, List.getElem_range]
    exact wellFormed.fieldId index _ (List.getElem?_eq_getElem _)
  rw [positions]
  exact List.nodup_range.map fun first second same => (FieldId.mk.inj same).2

/-- **No two entities share a number.** -/
theorem Application.WellFormed.nodup_ids {application : Application}
    (wellFormed : application.WellFormed) :
    (application.entities.map Entity.id).Nodup := by
  have positions : application.entities.map Entity.id =
      List.range application.entities.length := by
    refine List.ext_getElem (by simp) fun position inside _ => ?_
    rw [List.getElem_map, List.getElem_range]
    exact wellFormed.entityId position _ (List.getElem?_eq_getElem _)
  rw [positions]
  exact List.nodup_range

theorem Application.WellFormed.eq_of_id {application : Application}
    (wellFormed : application.WellFormed) {first second : Entity}
    (firstIn : first ∈ application.entities) (secondIn : second ∈ application.entities)
    (same : first.id = second.id) : first = second :=
  List.inj_on_of_nodup_map wellFormed.nodup_ids firstIn secondIn same

end AppSchema
