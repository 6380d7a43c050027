/-
**What classifying says of an object, whatever its number.**

An object is classified by itself: where it stands among the others only numbers its entity. So the
entities of objects are, up to their numbers, those of each object that is classified, in their
order; and what is left out is left out object by object.

* `Entity.numbered`: an entity under another number;
* `Entity.ofSource_numbered`: the number of an object decides nothing but the numbers of its entity;
* `Application.entities_ofSources`, `Application.left_ofSources`: what all objects give.
-/

import AppSchema.Proofs.Application.Classify
import AppSchema.Proofs.Tagged

namespace AppSchema

/-- A field under the number of another table. -/
def Field.numbered (field : Field) (id : TableId) : Field :=
  { field with id := ⟨id, field.id.index⟩ }

namespace Entity

/-- An entity under another number. -/
def numbered (entity : Entity) (id : TableId) : Entity :=
  { entity with id, fields := entity.fields.map (·.numbered id) }

theorem numbered_numbered (entity : Entity) (first second : TableId) :
    (entity.numbered first).numbered second = entity.numbered second := by
  simp [numbered, Field.numbered]

/-- An entity has its own number already. -/
theorem WellFormed.numbered_self {entity : Entity} (wellFormed : entity.WellFormed) :
    entity.numbered entity.id = entity := by
  have fields : entity.fields.map (·.numbered entity.id) = entity.fields := by
    refine Eq.trans (List.map_congr_left fun field inside => ?_) (List.map_id _)
    obtain ⟨index, found⟩ := List.mem_iff_getElem?.mp inside
    have own := wellFormed.fieldId index field found
    rw [Field.numbered, own, ← own]
    rfl
  rw [numbered, fields]

/-! ### One object -/

theorem foldlM_hom {ε α β γ : Type} {first : β → α → Except ε β} {second : γ → α → Except ε γ}
    {change : β → γ}
    (step : ∀ value element, second (change value) element = change <$> first value element)
    (elements : List α) (start : β) :
    elements.foldlM second (change start) = change <$> elements.foldlM first start := by
  induction elements generalizing start with
  | nil => rfl
  | cons element elements ih =>
    rw [List.foldlM_cons, List.foldlM_cons, step]
    cases first start element with
    | error fault => rfl
    | ok value => exact ih value

/-- A draft under the number of another table. -/
def Draft.numbered (draft : Draft) (id : TableId) : Draft :=
  { draft with fields := draft.fields.map (·.numbered id) }

theorem Draft.add_numbered (first second : TableId) (object : String) (draft : Draft)
    (source : FieldSource) : Draft.add second object (draft.numbered second) source =
      (·.numbered second) <$> Draft.add first object draft source := by
  rw [Draft.add, Draft.add]
  cases Reading.ofSource source with
  | unusable fault => rfl
  | skipped severity fault => rfl
  | kept kind =>
    simp [Draft.numbered, Field.numbered, Functor.map, Except.map]

theorem keyFields_numbered (first second : TableId) (count : Nat) :
    keyFields second count = (keyFields first count).map (·.numbered second) := rfl

theorem checkNames_numbered (entity : Entity) (id : TableId) :
    checkNames (entity.numbered id) = checkNames entity := by
  have names : (entity.numbered id).fields.map Field.name = entity.fields.map Field.name := by
    rw [numbered, List.map_map]
    rfl
  rw [checkNames, names]
  rfl

theorem ofDraft_numbered (first second : TableId) (object : ObjectSource) (draft : Draft) :
    ofDraft second object (draft.numbered second) =
      (ofDraft first object draft).numbered second := by
  simp [ofDraft, numbered, Draft.numbered, keyFields_numbered first second]

/-- **The number of an object decides nothing but the numbers of its entity.** -/
theorem ofSource_numbered (first second : TableId) (object : ObjectSource) :
    ofSource second object = (fun read => (read.1.numbered second, read.2)) <$>
      ofSource first object := by
  have drafts : (FieldSource.firstOfKeys [] object.fields).foldlM
        (Draft.add second object.key) {} =
      (·.numbered second) <$> (FieldSource.firstOfKeys [] object.fields).foldlM
        (Draft.add first object.key) {} :=
    foldlM_hom (Draft.add_numbered first second object.key) _ {}
  unfold ofSource
  rw [drafts]
  cases (FieldSource.firstOfKeys [] object.fields).foldlM (Draft.add first object.key) {} with
  | error fault => rfl
  | ok draft =>
    have checks := checkNames_numbered (ofDraft first object draft) second
    rw [← ofDraft_numbered] at checks
    show (checkNames (ofDraft second object (draft.numbered second)) >>= fun _ =>
        .ok (ofDraft second object (draft.numbered second), draft.skipped)) =
      (fun read => (read.1.numbered second, read.2)) <$>
        (checkNames (ofDraft first object draft) >>= fun _ =>
          .ok (ofDraft first object draft, draft.skipped))
    rw [checks, ofDraft_numbered first]
    cases checkNames (ofDraft first object draft) <;> rfl

/-- The entity of an object, if it is classified, under the number 0. -/
def ofSource? (object : ObjectSource) : Option Entity :=
  (ofSource 0 object).toOption.map Prod.fst

theorem ofSource?_eq_some {object : ObjectSource} {entity : Entity} :
    ofSource? object = some entity ↔ ∃ skipped, ofSource 0 object = .ok (entity, skipped) := by
  unfold ofSource?
  cases ofSource 0 object with
  | error fault => simp [Except.toOption]
  | ok read => simp [Except.toOption, Prod.ext_iff]

/-- What is left out of an object: some of its fields, or all of it. -/
def leftOf (object : ObjectSource) : List Diagnostic :=
  match ofSource 0 object with
  | .ok (_, skipped) => skipped
  | .error fault => [⟨.object object.key, .error, fault⟩]

end Entity

/-! ### All objects -/

namespace Application

/-- **Adding one object.** -/
theorem add_eq (state : Application × List Diagnostic) (object : ObjectSource) :
    add state object = (⟨state.1.entities ++ (Entity.ofSource? object).toList.map
      (·.numbered state.1.entities.length)⟩, state.2 ++ Entity.leftOf object) := by
  rw [add, Entity.ofSource_numbered 0, Entity.ofSource?, Entity.leftOf]
  cases Entity.ofSource 0 object with
  | error fault => simp [Functor.map, Except.map, Except.toOption]
  | ok read => rfl

theorem foldl_add (objects : List ObjectSource) (state : Application × List Diagnostic) :
    (objects.foldl add state).1.entities.map (·.numbered 0) =
        state.1.entities.map (·.numbered 0) ++
          (objects.filterMap Entity.ofSource?).map (·.numbered 0) ∧
      (objects.foldl add state).2 = state.2 ++ objects.flatMap Entity.leftOf := by
  induction objects generalizing state with
  | nil => simp
  | cons object rest ih =>
    obtain ⟨entities, left⟩ := ih (add state object)
    rw [List.foldl_cons, entities, left, add_eq]
    constructor
    · cases found : Entity.ofSource? object with
      | none => simp [found]
      | some entity => simp [found, Entity.numbered_numbered]
    · simp

/-- **The entities of all objects** are, up to their numbers, those of the objects that are
classified. -/
theorem entities_ofSources (objects : List ObjectSource) :
    (ofSources objects).1.entities.map (·.numbered 0) =
      (objects.filterMap Entity.ofSource?).map (·.numbered 0) :=
  (foldl_add objects ({}, [])).1

/-- **What is left out of all objects** is left out of each. -/
theorem left_ofSources (objects : List ObjectSource) :
    (ofSources objects).2 = objects.flatMap Entity.leftOf :=
  (foldl_add objects ({}, [])).2

/-- **An entity is that of an object**, under its own number. -/
theorem exists_source {objects : List ObjectSource} {entity : Entity}
    (member : entity ∈ (ofSources objects).1.entities) :
    ∃ object ∈ objects, ∃ skipped, Entity.ofSource entity.id object = .ok (entity, skipped) ∧
      Entity.leftOf object = skipped := by
  have wellFormed := (classified_ofSources objects).entity entity member
  have there := List.mem_map_of_mem (f := (·.numbered 0)) member
  rw [entities_ofSources] at there
  obtain ⟨read, reads, same⟩ := List.mem_map.mp there
  obtain ⟨object, inside, found⟩ := List.mem_filterMap.mp reads
  obtain ⟨skipped, classified⟩ := Entity.ofSource?_eq_some.mp found
  refine ⟨object, inside, skipped, ?_, by rw [Entity.leftOf, classified]⟩
  have own : read.numbered entity.id = entity := by
    rw [← Entity.numbered_numbered read 0, same, Entity.numbered_numbered,
      wellFormed.numbered_self]
  rw [Entity.ofSource_numbered 0, classified]
  exact congrArg (fun entity => Except.ok (entity, skipped)) own

/-- The keys of the entities are those of the objects that are classified. -/
theorem keys_ofSources (objects : List ObjectSource) :
    (ofSources objects).1.entities.map Entity.key =
      (objects.filter fun object => (Entity.ofSource? object).isSome).map ObjectSource.key := by
  have keys := congrArg (List.map Entity.key) (entities_ofSources objects)
  rw [List.map_map, List.map_map] at keys
  refine keys.trans (map_filter_isSome ObjectSource.key fun object _ entity found => ?_).symm
  obtain ⟨skipped, classified⟩ := Entity.ofSource?_eq_some.mp found
  exact (Entity.wellFormed_of_ofSource classified).2.2.1

end Application

end AppSchema
