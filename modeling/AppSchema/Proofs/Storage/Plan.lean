/-
**What storing connections keeps.**

The connections are stored one after the other. Whatever the order, and whichever of them are left
out, a plan stays sound:

* every foreign key and every relation is about entities, and its column of ids is there;
* a column of ids was made for a field, and has a name that no field of its entity and no other
  column of ids has, so that it stores one relation only;
* every association was added for a relation that is recorded, and no two have one name.

`Plan.Sound.addReference` and `Plan.Sound.addAssociation` are the two steps, and `Plan.Sound.foldlM`
is the run over any connections.
-/

import AppSchema.Proofs.Application.Index
import AppSchema.Storage.Layout

namespace AppSchema

namespace Relation

/-- The column that stores a relation, with the table that holds it. -/
def column? : Relation → Option (TableId × String)
  | .single holder column _ _ => some (holder, column)
  | .manyToMany .. => none

end Relation

namespace Plan

/-- Two entities in the order in which an association is named after them. -/
def ordered (host target : Entity) : Entity × Entity :=
  if host.name.ident ≤ target.name.ident then (host, target) else (target, host)

/-- The name of the association that links two entities. -/
def linkName (host target : Entity) : String :=
  associationName (ordered host target).1 (ordered host target).2

/-- The column of ids that a connection adds. -/
def referenceColumn (field : Field) (referenced : Entity) (array : Bool) : Column :=
  { name := referenceName field referenced
    type := if array then ColumnType.integer.arrayOf else .integer
    field := some field.id }

/-- **What a plan has where it stores a relation.** -/
inductive Stores (application : Application) (plan : Plan) : Relation → Prop
  | single {holder referenced : Entity} {column : Column} {array : Bool} :
    holder ∈ application.entities → referenced ∈ application.entities →
    (holder.id, column) ∈ plan.references →
    Stores application plan (.single holder.id column.name referenced.id array)
  | manyToMany {host target : Entity} {table : Table} :
    host ∈ application.entities → target ∈ application.entities →
    table ∈ plan.associations → table.name = linkName host target →
    Stores application plan (.manyToMany table.id host.id target.id
      (associationColumns host target).1 (associationColumns host target).2)

/-- **A sound plan.** -/
structure Sound (application : Application) (schema : String) (plan : Plan) : Prop where
  takenFields : ∀ entity ∈ application.entities, ∀ field ∈ entity.fields,
    (entity.id, field.name) ∈ plan.taken
  takenColumns : ∀ entry ∈ plan.relations, ∀ column, entry.2.column? = some column →
    ∃ label, (column.1, (⟨column.2, label⟩ : Name)) ∈ plan.taken
  reference : ∀ reference ∈ plan.references, ∃ holder ∈ application.entities,
    holder.id = reference.1 ∧ ∀ field ∈ holder.fields, field.name.ident ≠ reference.2.name
  made : ∀ reference ∈ plan.references, ∃ owner ∈ application.entities, ∃ field ∈ owner.fields,
    ∃ referenced ∈ application.entities, ∃ array,
      reference.2 = referenceColumn field referenced array
  foreignKey : ∀ key ∈ plan.foreignKeys,
    ∃ holder ∈ application.entities, ∃ referenced ∈ application.entities, ∃ column,
      (holder.id, column) ∈ plan.references ∧
        key = ForeignKey.of holder.name.ident column.name referenced.name.ident
  association : ∀ position (table : Table), plan.associations[position]? = some table →
    ∃ host ∈ application.entities, ∃ target ∈ application.entities,
      table = Plan.association schema (application.entities.length + position)
        (ordered host target).1 (ordered host target).2 ∧
      ∃ field, (field, .manyToMany table.id host.id target.id
        (associationColumns host target).1 (associationColumns host target).2) ∈ plan.relations
  distinctAssociations : (plan.associations.map Table.name).Nodup
  relation : ∀ entry ∈ plan.relations, Stores application plan entry.2
  oneRelation : ∀ first ∈ plan.relations, ∀ second ∈ plan.relations, ∀ column,
    first.2.column? = some column → second.2.column? = some column → first = second

variable {application : Application} {schema : String} {plan result : Plan}

theorem Stores.mono {relation : Relation} (stores : Stores application plan relation)
    (references : plan.references ⊆ result.references)
    (associations : plan.associations ⊆ result.associations) :
    Stores application result relation := by
  cases stores with
  | single holder referenced column => exact .single holder referenced (references column)
  | manyToMany host target table named =>
    exact .manyToMany host target (associations table) named

theorem sound_initial : Sound application schema (initial application) where
  takenFields entity member field inside :=
    List.mem_flatMap.mpr ⟨entity, member, List.mem_map.mpr ⟨field, inside, rfl⟩⟩
  takenColumns _ member := absurd member (by simp [initial])
  reference _ member := absurd member (by simp [initial])
  made _ member := absurd member (by simp [initial])
  foreignKey _ member := absurd member (by simp [initial])
  association _ _ found := absurd found (by simp [initial])
  distinctAssociations := List.nodup_nil
  relation _ member := absurd member (by simp [initial])
  oneRelation _ member := absurd member (by simp [initial])

/-! ### Columns of ids -/

/-- A column of ids is referenced by a foreign key, if at all, and not in its definition. -/
theorem Sound.references_eq_none (sound : Sound application schema plan)
    {reference : TableId × Column} (member : reference ∈ plan.references) :
    reference.2.references = none := by
  obtain ⟨_, _, field, _, referenced, _, array, equal⟩ := sound.made reference member
  rw [equal]
  rfl

theorem taker?_eq_none {table : TableId} {ident : String} (free : plan.taker? table ident = none) :
    ∀ name, (table, name) ∈ plan.taken → name.ident ≠ ident := by
  intro name member
  have absent := List.find?_eq_none.mp (Option.map_eq_none_iff.mp free) (table, name) member
  simpa using absent

/-- **Storing a connection as a column.** Its name was free, so no relation had the column. -/
theorem Sound.addReference (sound : Sound application schema plan) {owner : Entity} {field : Field}
    (owners : owner ∈ application.entities) (own : field ∈ owner.fields)
    {holder referenced : Entity} {array : Bool} (holds : holder ∈ application.entities)
    (refers : referenced ∈ application.entities)
    (added : plan.addReference field holder referenced array = .ok result) :
    Sound application schema result := by
  unfold Plan.addReference at added
  cases taker : plan.taker? holder.id (referenceName field referenced) with
  | some first => simp [taker] at added
  | none =>
    have free := taker?_eq_none taker
    have there : (holder.id, referenceColumn field referenced array) ∈
        plan.references ++ [(holder.id, referenceColumn field referenced array)] :=
      List.mem_append_right _ (List.mem_singleton_self _)
    simp only [taker, Except.ok.injEq] at added
    subst added
    -- The column of a recorded relation has taken its name, which was still free here.
    have fresh : ∀ entry ∈ plan.relations,
        entry.2.column? ≠ some (holder.id, referenceName field referenced) := by
      intro entry member same
      obtain ⟨label, taken⟩ := sound.takenColumns entry member _ same
      exact free _ taken rfl
    refine ⟨?_, ?_, ?_, ?_, ?_, ?_, sound.distinctAssociations, ?_, ?_⟩
    · intro entity member field inside
      exact List.mem_append_left _ (sound.takenFields entity member field inside)
    · intro entry member column same
      rcases List.mem_append.mp member with member | member
      · obtain ⟨label, taken⟩ := sound.takenColumns entry member column same
        exact ⟨label, List.mem_append_left _ taken⟩
      · rw [List.mem_singleton.mp member] at same
        cases same
        exact ⟨field.name.label, List.mem_append_right _ (List.mem_singleton.mpr rfl)⟩
    · intro reference member
      rcases List.mem_append.mp member with member | member
      · exact sound.reference reference member
      · rw [List.mem_singleton.mp member]
        refine ⟨holder, holds, rfl, fun other inside => ?_⟩
        exact free other.name (sound.takenFields holder holds other inside)
    · intro reference member
      rcases List.mem_append.mp member with member | member
      · exact sound.made reference member
      · rw [List.mem_singleton.mp member]
        exact ⟨owner, owners, field, own, referenced, refers, array, rfl⟩
    · intro key member
      rcases List.mem_append.mp member with member | member
      · obtain ⟨holder, holds, referenced, refers, column, there, equal⟩ :=
          sound.foreignKey key member
        exact ⟨holder, holds, referenced, refers, column, List.mem_append_left _ there, equal⟩
      · split at member
        · exact absurd member List.not_mem_nil
        · rw [List.mem_singleton.mp member]
          exact ⟨holder, holds, referenced, refers, _, there, rfl⟩
    · intro position table found
      obtain ⟨host, hosts, target, targets, equal, field, recorded⟩ :=
        sound.association position table found
      exact ⟨host, hosts, target, targets, equal, field, List.mem_append_left _ recorded⟩
    · intro entry member
      rcases List.mem_append.mp member with member | member
      · have stores := sound.relation entry member
        exact stores.mono (List.subset_append_left _ _) (List.Subset.refl _)
      · rw [List.mem_singleton.mp member]
        show Stores application _
          (.single holder.id (referenceColumn field referenced array).name referenced.id array)
        exact .single holds refers there
    · intro first firstIn second secondIn column firstSame secondSame
      rcases List.mem_append.mp firstIn with firstIn | firstIn <;>
        rcases List.mem_append.mp secondIn with secondIn | secondIn
      · exact sound.oneRelation first firstIn second secondIn column firstSame secondSame
      · rw [List.mem_singleton.mp secondIn] at secondSame
        exact absurd (firstSame.trans secondSame.symm) (fresh first firstIn)
      · rw [List.mem_singleton.mp firstIn] at firstSame
        exact absurd (secondSame.trans firstSame.symm) (fresh second secondIn)
      · rw [List.mem_singleton.mp firstIn, List.mem_singleton.mp secondIn]

/-! ### Associations -/

/-- **What requiring an association does**: it finds one of that name, or adds one that has the name
of no entity. -/
theorem requireAssociation_cases {first second : Entity} {id : TableId}
    (required : plan.requireAssociation application schema first second = .ok (id, result)) :
    (result = plan ∧ ∃ table ∈ plan.associations,
      table.id = id ∧ table.name = associationName first second) ∨
    (id = application.entities.length + plan.associations.length ∧
      (∀ table ∈ plan.associations, table.name ≠ associationName first second) ∧
      (∀ entity ∈ application.entities, entity.name.ident ≠ associationName first second) ∧
      result = { plan with associations :=
        plan.associations ++ [association schema id first second] }) := by
  unfold Plan.requireAssociation at required
  cases known : plan.associations.find? (·.name == associationName first second) with
  | some table =>
    simp only [known, Except.ok.injEq, Prod.mk.injEq] at required
    obtain ⟨rfl, rfl⟩ := required
    have named : table.name = associationName first second := by
      simpa using List.find?_some known
    exact .inl ⟨rfl, table, List.mem_of_find?_eq_some known, rfl, named⟩
  | none =>
    cases taker : application.entities.find? (·.name.ident == associationName first second) with
    | some entity => simp [known, taker] at required
    | none =>
      simp only [known, taker, Except.ok.injEq, Prod.mk.injEq] at required
      obtain ⟨rfl, rfl⟩ := required
      exact .inr ⟨rfl, by simpa using known, by simpa using taker, rfl⟩

/-- The columns of an association are named alike from both sides. -/
theorem columns_ordered {host target : Entity} (same : host.id = target.id → host = target) :
    (if host.id = (ordered host target).1.id
      then associationColumns (ordered host target).1 (ordered host target).2
      else (associationColumns (ordered host target).1 (ordered host target).2).swap) =
      associationColumns host target := by
  unfold ordered
  by_cases before : host.name.ident ≤ target.name.ident
  · simp [if_pos before]
  · have apart : host.id ≠ target.id := by
      intro equal
      rw [same equal] at before
      exact before (String.le_refl _)
    simp [if_neg before, associationColumns, apart, apart.symm]

theorem ordered_mem {entities : List Entity} {host target : Entity} (hosts : host ∈ entities)
    (targets : target ∈ entities) :
    (ordered host target).1 ∈ entities ∧ (ordered host target).2 ∈ entities := by
  unfold ordered
  split
  · exact ⟨hosts, targets⟩
  · exact ⟨targets, hosts⟩

/-- **What storing a connection in an association does**: it requires the association and records
the relation. -/
theorem addAssociation_cases {field : Field} {host target : Entity}
    (same : host.id = target.id → host = target)
    (added : plan.addAssociation application schema field host target = .ok result) :
    ∃ id between, plan.requireAssociation application schema (ordered host target).1
        (ordered host target).2 = .ok (id, between) ∧
      result = { between with relations := between.relations ++
        [(field.id, .manyToMany id host.id target.id (associationColumns host target).1
          (associationColumns host target).2)] } := by
  have stored : (plan.requireAssociation application schema (ordered host target).1
      (ordered host target).2 >>= fun found => Except.ok { found.2 with
        relations := found.2.relations ++
          [(field.id, .manyToMany found.1 host.id target.id (associationColumns host target).1
            (associationColumns host target).2)] }) = .ok result := by
    rw [← columns_ordered same]
    exact added
  obtain ⟨⟨id, between⟩, required, rest⟩ := bind_eq_ok.mp stored
  cases rest
  exact ⟨id, between, required, rfl⟩

/-- **Recording a relation many to many**, with associations that are those of before or were made
for it. -/
theorem Sound.record (sound : Sound application schema plan) {associations : List Table}
    {field : FieldId} {id : TableId} {host target : Entity}
    (stored : Stores application { plan with associations }
      (.manyToMany id host.id target.id (associationColumns host target).1
        (associationColumns host target).2))
    (hosts : host ∈ application.entities) (targets : target ∈ application.entities)
    (grown : plan.associations ⊆ associations)
    (made : ∀ position (table : Table), associations[position]? = some table →
      plan.associations[position]? = some table ∨
        id = application.entities.length + position ∧
          table = Plan.association schema id (ordered host target).1 (ordered host target).2)
    (distinct : (associations.map Table.name).Nodup) :
    Sound application schema { plan with
      associations
      relations := plan.relations ++ [(field, .manyToMany id host.id target.id
        (associationColumns host target).1 (associationColumns host target).2)] } := by
  refine ⟨sound.takenFields, ?_, sound.reference, sound.made, sound.foreignKey, ?_, distinct,
    ?_, ?_⟩
  · intro entry member column same
    rcases List.mem_append.mp member with member | member
    · exact sound.takenColumns entry member column same
    · rw [List.mem_singleton.mp member] at same
      cases same
  · intro position table found
    rcases made position table found with found | ⟨numbered, rfl⟩
    · obtain ⟨host, hosts, target, targets, equal, field, recorded⟩ :=
        sound.association position table found
      exact ⟨host, hosts, target, targets, equal, field, List.mem_append_left _ recorded⟩
    · refine ⟨host, hosts, target, targets, ?_, field, ?_⟩
      · rw [numbered]
      · exact List.mem_append_right _ (List.mem_singleton_self _)
  · intro entry member
    rcases List.mem_append.mp member with member | member
    · have before := sound.relation entry member
      exact before.mono (List.Subset.refl _) grown
    · rw [List.mem_singleton.mp member]
      exact stored.mono (List.Subset.refl _) (List.Subset.refl _)
  · intro first firstIn second secondIn column firstSame secondSame
    rcases List.mem_append.mp firstIn with firstIn | firstIn
    · rcases List.mem_append.mp secondIn with secondIn | secondIn
      · exact sound.oneRelation first firstIn second secondIn column firstSame secondSame
      · rw [List.mem_singleton.mp secondIn] at secondSame
        cases secondSame
    · rw [List.mem_singleton.mp firstIn] at firstSame
      cases firstSame

/-- **Storing a connection in an association.** A new association comes with its relation. -/
theorem Sound.addAssociation (sound : Sound application schema plan) {field : Field}
    {host target : Entity} (hosts : host ∈ application.entities)
    (targets : target ∈ application.entities) (same : host.id = target.id → host = target)
    (added : plan.addAssociation application schema field host target = .ok result) :
    Sound application schema result := by
  obtain ⟨id, between, required, rfl⟩ := addAssociation_cases same added
  rcases requireAssociation_cases required with
    ⟨rfl, table, member, rfl, named⟩ | ⟨rfl, fresh, _, rfl⟩
  · exact sound.record (.manyToMany hosts targets member named) hosts targets
      (List.Subset.refl _) (fun _ _ found => .inl found) sound.distinctAssociations
  · have there := List.mem_append_right plan.associations (List.mem_singleton_self
      (Plan.association schema (application.entities.length + plan.associations.length)
        (ordered host target).1 (ordered host target).2))
    have stored : Stores application { plan with associations := plan.associations ++ _ } _ :=
      .manyToMany hosts targets there rfl
    refine sound.record stored hosts targets (List.subset_append_left _ _)
      (fun position table found => ?_) ?_
    · rcases getElem?_append_singleton.mp found with found | ⟨rfl, rfl⟩
      · exact .inl found
      · exact .inr ⟨rfl, rfl⟩
    · rw [List.map_append, List.nodup_append]
      refine ⟨sound.distinctAssociations, List.nodup_singleton _,
        fun first member second inside => ?_⟩
      obtain ⟨table, known, rfl⟩ := List.mem_map.mp member
      rw [List.mem_singleton.mp inside]
      exact fresh table known

/-! ### All connections -/

/-- **Storing one connection.** -/
theorem Sound.add (sound : Sound application schema plan)
    (wellFormed : application.WellFormed) {index : Index}
    (indexed : Index.ofApplication application = .ok index) {host : Entity}
    (hosts : host ∈ application.entities) {field : Field} (inside : field ∈ host.fields)
    {connection : Connection}
    (added : plan.add application index schema host field connection = .ok result) :
    Sound application schema result := by
  obtain ⟨id, required, added⟩ := bind_eq_ok.mp added
  obtain ⟨target, targets, _, rfl⟩ := Index.requireEntity_eq_ok indexed required
  simp only [wellFormed.entity_eq targets] at added
  split at added
  · exact sound.addAssociation hosts targets (wellFormed.eq_of_id hosts targets) added
  · split at added
    · exact sound.addReference hosts inside targets hosts added
    · exact sound.addReference hosts inside hosts targets added

end Plan

namespace Application

/-- **A connection is that of a field of an entity.** -/
theorem mem_connections {application : Application} {host : Entity} {field : Field}
    {connection : Connection} :
    (host, field, connection) ∈ application.connections ↔
      host ∈ application.entities ∧ field ∈ host.fields ∧
        field.kind.connection? = some connection := by
  simp only [connections, List.mem_flatMap, List.mem_filterMap, Option.map_eq_some_iff,
    Prod.mk.injEq]
  constructor
  · rintro ⟨_, hosts, _, inside, _, connected, rfl, rfl, rfl⟩
    exact ⟨hosts, inside, connected⟩
  · rintro ⟨hosts, inside, connected⟩
    exact ⟨host, hosts, field, inside, connection, connected, rfl, rfl, rfl⟩

/-- A diagnostic is about a field of a kind. -/
def Reports (application : Application) (kind : FieldKind → Bool) (diagnostic : Diagnostic) :
    Prop :=
  ∃ entity ∈ application.entities, ∃ field ∈ entity.fields, kind field.kind ∧
    diagnostic.part = .field entity.key field.key

end Application

namespace Plan

/-- Stores a connection, as a step of a fold. -/
def addConnected (application : Application) (index : Index) (schema : String) (plan : Plan)
    (connected : Entity × Field × Connection) : Except Fault Plan :=
  plan.add application index schema connected.1 connected.2.1 connected.2.2

/-- **Storing connections one after the other.** -/
theorem Sound.foldlM {application : Application} {index : Index} {schema : String} {plan : Plan}
    {stored : List (Entity × Field × Connection)} (wellFormed : application.WellFormed)
    (indexed : Index.ofApplication application = .ok index)
    (connections : stored ⊆ application.connections)
    (folded : stored.foldlM (addConnected application index schema) (initial application) =
      .ok plan) : plan.Sound application schema := by
  refine foldlM_induction
    (fun seen value => seen ⊆ application.connections → value.Sound application schema)
    (fun seen value connected result sound stepped inside => ?_) (fun _ => sound_initial)
    folded connections
  obtain ⟨host, field, connection⟩ := connected
  have before := sound fun other member => inside (List.mem_append_left _ member)
  have here := inside (List.mem_append_right seen (List.mem_singleton_self _))
  obtain ⟨hosts, own, _⟩ := Application.mem_connections.mp here
  exact before.add wellFormed indexed hosts own stepped

end Plan

end AppSchema
