/-
**Storing an application under new numbers.**

What a connection adds is named after a field and two entities, so under new numbers it adds the
same. Where all connections of an application are stored, in whatever order, its tables have the
same columns, its associations the same names, and there are the same foreign keys.

* `Claim.renumbered`, `Renumbers.claim?_eq`: the column of ids of a connection;
* `Renumbers.storable`: one application can be stored where the other can;
* `Plan.Renumbered.columns_perm`, `Plan.Renumbered.associations_perm`,
  `Plan.Renumbered.foreignKeys_perm`: what is stored;
* `Plan.Renumbered.checkTables`, `Plan.Renumbered.checkRelationNames`,
  `Plan.Renumbered.checkLengths`: one layout passes the checks where the other does.
-/

import AppSchema.Proofs.Application.Renumbered
import AppSchema.Proofs.Storage.Association
import AppSchema.Proofs.Storage.Reference
import AppSchema.Proofs.Storage.Storable

namespace AppSchema

variable {renumber : TableId → TableId}

/-- A column of ids under new numbers. -/
def Claim.renumbered (renumber : TableId → TableId) (claim : Claim) : Claim :=
  { claim with
    field := claim.field.renumbered renumber
    holder := claim.holder.renumbered renumber
    referenced := claim.referenced.renumbered renumber }

/-- A column under new numbers. -/
def Column.renumbered (renumber : TableId → TableId) (column : Column) : Column :=
  { column with field := column.field.map (FieldId.renumbered renumber) }

theorem Plan.linkName_renumbered (host target : Entity) :
    linkName (host.renumbered renumber) (target.renumbered renumber) = linkName host target := by
  by_cases before : host.name.ident ≤ target.name.ident <;>
    simp [linkName, ordered, associationName, before]

/-- The holder of a column of ids is an entity. -/
theorem Application.holder_mem {application : Application} {claim : Claim}
    (member : claim ∈ application.claims) : claim.holder ∈ application.entities := by
  obtain ⟨connected, there, claims⟩ := List.mem_filterMap.mp member
  exact (claim?_mem there claims).1

namespace Application.Renumbers

variable {first second : Application}

/-- **A connection claims the same column.** -/
theorem claim?_eq (renumbers : Renumbers renumber first second)
    (distinct : (first.entities.map Entity.key).Nodup)
    (connected : Entity × Field × Connection) :
    second.claim? (renumberedConnection renumber connected) =
      (first.claim? connected).map (Claim.renumbered renumber) := by
  obtain ⟨host, field, connection⟩ := connected
  rw [claim?, claim?, renumberedConnection, renumbers.target?_eq distinct]
  cases first.target? connection.target with
  | none => rfl
  | some target =>
    simp only [Option.map_some, Option.bind_some, Option.map_map, Connection.placement?_map]
    rfl

/-- A connection has the same association. -/
theorem linkName?_eq (renumbers : Renumbers renumber first second)
    (distinct : (first.entities.map Entity.key).Nodup)
    (connected : Entity × Field × Connection) :
    second.linkName? (renumberedConnection renumber connected) = first.linkName? connected := by
  obtain ⟨host, field, connection⟩ := connected
  rw [linkName?, linkName?, renumberedConnection, renumbers.target?_eq distinct]
  cases first.target? connection.target with
  | none => rfl
  | some target => simp [Plan.linkName_renumbered]

theorem claims (renumbers : Renumbers renumber first second)
    (distinct : (first.entities.map Entity.key).Nodup) :
    second.claims.Perm (first.claims.map (Claim.renumbered renumber)) := by
  refine (renumbers.connections.filterMap _).trans (List.Perm.of_eq ?_)
  rw [List.filterMap_map, Application.claims, List.map_filterMap]
  exact List.filterMap_congr fun connected _ => renumbers.claim?_eq distinct connected

/-- **An application can be stored under new numbers.** -/
theorem storable (renumbers : Renumbers renumber first second)
    (distinct : (first.entities.map Entity.key).Nodup) (storable : first.Storable) :
    second.Storable := by
  have claims := renumbers.claims distinct
  refine ⟨fun connected member => ?_, ?_, fun claim member taken => ?_,
    fun connected member name links => ?_⟩
  · obtain ⟨other, there, rfl⟩ := List.mem_map.mp (renumbers.connections.subset member)
    obtain ⟨target, found⟩ := storable.target other there
    refine ⟨target.renumbered renumber, ?_⟩
    rw [renumbers.target?_eq distinct]
    exact congrArg _ found
  · rw [(claims.map Claim.place).nodup_iff, List.map_map]
    refine List.pairwise_map.mpr ((List.pairwise_map.mp storable.distinct).imp_of_mem ?_)
    intro one other oneIn otherIn apart same
    obtain ⟨sameHolder, sameName⟩ := Prod.mk.inj same
    have holder := renumbers.injective (holder_mem oneIn) (holder_mem otherIn) sameHolder
    exact apart (Prod.ext (congrArg Entity.id holder) sameName)
  · obtain ⟨other, there, rfl⟩ := List.mem_map.mp (claims.subset member)
    obtain ⟨_, inside, same⟩ := List.mem_map.mp taken
    obtain ⟨entity, entities, inside⟩ := List.mem_flatMap.mp inside
    obtain ⟨field, own, rfl⟩ := List.mem_map.mp inside
    obtain ⟨twin, twins, rfl⟩ := renumbers.exists_of_mem entities
    rw [(renumbers.wellFormed.entity twin twins).renumbered_fields] at own
    obtain ⟨earlier, within, rfl⟩ := List.mem_map.mp own
    obtain ⟨sameHolder, sameName⟩ := Prod.mk.inj same
    have holder := renumbers.injective twins (holder_mem there) sameHolder
    have before := Plan.mem_takenIdents_initial twins within
    rw [holder] at before
    have name : earlier.name.ident = other.name := sameName
    rw [name] at before
    exact storable.apart other there before
  · obtain ⟨other, there, rfl⟩ := List.mem_map.mp (renumbers.connections.subset member)
    rw [renumbers.linkName?_eq distinct] at links
    intro entity entities
    obtain ⟨twin, twins, rfl⟩ := renumbers.exists_of_mem entities
    exact storable.free other there name links twin twins

end Application.Renumbers

/-! ### What is stored -/

namespace Plan

variable {first second : Application} {plan plan' : Plan} {schema : String} {entity : Entity}
  {index index' : Index}

/-- **Two plans that have all connections** of an application, under either numbers. -/
structure Renumbered (renumber : TableId → TableId) (schema : String) (first second : Application)
    (plan plan' : Plan) : Prop extends first.Renumbers renumber second where
  keys : (first.entities.map Entity.key).Nodup
  sound : plan.Sound first schema
  sound' : plan'.Sound second schema
  follows : Follows first first.connections plan
  follows' : Follows second second.connections plan'

/-- **Where all connections of an application are stored, so they are under new numbers.** -/
theorem exists_renumbered (renumbers : first.Renumbers renumber second)
    (keys : (first.entities.map Entity.key).Nodup)
    (indexed : Index.ofApplication second = .ok index') (sound : plan.Sound first schema)
    (follows : Follows first first.connections plan) :
    ∃ plan', Renumbered renumber schema first second plan plan' ∧
      Layout.ofApplication second index' schema = (plan'.layout second index' schema, []) := by
  have none := (Layout.left_eq_nil_iff renumbers.wellFormed' indexed schema).mpr
    (renumbers.storable keys follows.storable)
  obtain ⟨plan', sound', follows', laid⟩ :=
    Layout.exists_follows_of_left_eq_nil renumbers.wellFormed' indexed none
  exact ⟨plan', { renumbers with keys, sound, sound', follows, follows' }, laid⟩

namespace Renumbered

/-- **The foreign keys are the same.** -/
theorem foreignKeys_perm (renumbered : Renumbered renumber schema first second plan plan') :
    plan'.foreignKeys.Perm plan.foreignKeys := by
  rw [renumbered.follows.foreignKeys_eq, renumbered.follows'.foreignKeys_eq]
  refine ((renumbered.claims renumbered.keys).filterMap _).trans (List.Perm.of_eq ?_)
  rw [List.filterMap_map]
  rfl

/-- **The associations have the same names.** -/
theorem associations_perm (renumbered : Renumbered renumber schema first second plan plan') :
    (plan'.associations.map Table.name).Perm (plan.associations.map Table.name) := by
  refine (List.perm_ext_iff_of_nodup renumbered.sound'.distinctAssociations
    renumbered.sound.distinctAssociations).mpr fun name => ?_
  rw [renumbered.follows.associations, renumbered.follows'.associations]
  constructor
  · rintro ⟨connected, member, links⟩
    obtain ⟨other, there, rfl⟩ := List.mem_map.mp (renumbered.connections.subset member)
    exact ⟨other, there, renumbered.linkName?_eq renumbered.keys other ▸ links⟩
  · rintro ⟨connected, member, links⟩
    exact ⟨_, renumbered.renumberedConnection_mem member,
      (renumbered.linkName?_eq renumbered.keys connected).trans links⟩

/-- **A table has the same columns of ids.** -/
theorem referencesOf_perm (renumbered : Renumbered renumber schema first second plan plan')
    (member : entity ∈ first.entities) :
    (plan'.referencesOf (renumber entity.id)).Perm
      ((plan.referencesOf entity.id).map (Column.renumbered renumber)) := by
  have holders : first.claims.filter (fun claim => renumber claim.holder.id == renumber entity.id) =
      first.claims.filter (·.holder.id == entity.id) := by
    refine List.filter_congr fun claim claimed => ?_
    simp only [beq_eq_decide, renumbered.renumber_eq_iff (Application.holder_mem claimed) member]
  rw [renumbered.follows.referencesOf_eq, renumbered.follows'.referencesOf_eq, List.map_map]
  refine (((renumbered.claims renumbered.keys).filter _).map _).trans (List.Perm.of_eq ?_)
  rw [List.filter_map, List.map_map]
  exact congrArg (List.map _) holders

/-- **A table has the same columns.** -/
theorem columns_perm (renumbered : Renumbered renumber schema first second plan plan')
    (member : entity ∈ first.entities) :
    ((entity.renumbered renumber).table schema
        (plan'.referencesOf (renumber entity.id))).columns.Perm
      ((entity.table schema (plan.referencesOf entity.id)).columns.map
        (Column.renumbered renumber)) := by
  have stored : ∀ fields : List Field, (fields.map (Field.renumbered renumber)).filterMap
      Entity.storedColumn? = (fields.filterMap Entity.storedColumn?).map
        (Column.renumbered renumber) := by
    intro fields
    rw [List.filterMap_map, List.map_filterMap]
    refine List.filterMap_congr fun field _ => ?_
    simp only [Function.comp_apply, Entity.storedColumn?, Option.map_map]
    rfl
  have sound := renumbered.wellFormed.entity entity member
  have domain : (entity.renumbered renumber).domainFields = _ :=
    sound.renumbered_filter fun _ => rfl
  have synthetic : (entity.renumbered renumber).syntheticFields = _ :=
    sound.renumbered_filter fun _ => rfl
  rw [Entity.table, Entity.table, domain, synthetic, stored, stored, List.map_append,
    List.map_append]
  exact ((renumbered.referencesOf_perm member).append_left _).append_right _

theorem columnNames_perm (renumbered : Renumbered renumber schema first second plan plan')
    (member : entity ∈ first.entities) :
    (((entity.renumbered renumber).table schema
        (plan'.referencesOf (renumber entity.id))).columns.map Column.name).Perm
      ((entity.table schema (plan.referencesOf entity.id)).columns.map Column.name) := by
  have names := (renumbered.columns_perm member).map Column.name
  rwa [List.map_map] at names

/-- **The tables have the same names.** -/
theorem tableNames_perm (renumbered : Renumbered renumber schema first second plan plan') :
    ((plan'.layout second index' schema).tables.map Table.name).Perm
      ((plan.layout first index schema).tables.map Table.name) := by
  rw [layout, layout, List.map_append, List.map_append, List.map_map, List.map_map]
  exact (renumbered.map_perm fun _ _ => rfl).append renumbered.associations_perm

end Renumbered

/-! ### Checks -/

/-- The columns of an association have names of their own. A table that is linked to itself names
one of them apart. -/
theorem associationColumns_ne {host target : Entity} (same : host.id = target.id → host = target)
    (named : host.name.ident = target.name.ident → host = target) :
    (associationColumns host target).1 ≠ (associationColumns host target).2 := by
  unfold associationColumns
  by_cases self : host.id = target.id
  · rw [if_pos self, same self]
    exact (related_ne _).symm
  · have apart : host.name.ident ≠ target.name.ident := fun equal => self (named equal ▸ rfl)
    simpa [self] using apart

/-- The columns of an association have shorter names than the association. -/
theorem utf8ByteSize_lt_of_mem_association {id : TableId} {host target : Entity} {column : Column}
    (member : column ∈ (association schema id host target).columns) :
    column.name.utf8ByteSize < (association schema id host target).name.utf8ByteSize := by
  have texts : "many_".utf8ByteSize = 5 ∧ "_to_many_".utf8ByteSize = 9 ∧ "_id".utf8ByteSize = 3 ∧
      "related_".utf8ByteSize = 8 ∧ "".utf8ByteSize = 0 := by decide
  show _ < (associationName host target).utf8ByteSize
  rcases List.mem_pair.mp member with rfl | rfl
  · simp only [associationColumn, associationColumns, associationName, String.utf8ByteSize_append]
    omega
  · simp only [associationColumn, associationColumns, associationName]
    split <;> simp only [String.utf8ByteSize_append] <;> omega

end Plan

namespace Plan.Renumbered

variable {first second : Application} {plan plan' : Plan} {schema : String} {index index' : Index}

/-- **Tables pass their checks where those of the other layout do.** -/
theorem checkTables (renumbered : Renumbered renumber schema first second plan plan')
    (distinct : (second.entities.map (·.name.ident)).Nodup)
    (passes : (plan.layout first index schema).checkTables = .ok ()) :
    (plan'.layout second index' schema).checkTables = .ok () := by
  refine forM_eq_ok_iff.mpr fun table member => Table.check_eq_ok_iff.mpr ?_
  rcases List.mem_append.mp member with member | member
  · obtain ⟨other, others, rfl⟩ := List.mem_map.mp member
    obtain ⟨entity, entities, rfl⟩ := renumbered.exists_of_mem others
    have there : entity.table schema (plan.referencesOf entity.id) ∈
        (plan.layout first index schema).tables :=
      List.mem_append_left _ (List.mem_map_of_mem entities)
    obtain ⟨names, keyed⟩ := Table.check_eq_ok_iff.mp (forM_eq_ok_iff.mp passes _ there)
    refine ⟨(renumbered.columnNames_perm entities).nodup_iff.mpr names, ?_⟩
    have keys := (renumbered.columns_perm entities).any_eq (f := (·.primaryKey))
    rw [List.any_map] at keys
    exact (congrArg (fun keyed => true && !keyed) keys).trans keyed
  · obtain ⟨position, found⟩ := List.mem_iff_getElem?.mp member
    obtain ⟨host, hosts, target, targets, equal, _⟩ :=
      renumbered.sound'.association position table found
    obtain ⟨firsts, seconds⟩ := ordered_mem hosts targets
    have apart := associationColumns_ne
      (renumbered.wellFormed'.eq_of_id firsts seconds)
      (List.inj_on_of_nodup_map distinct firsts seconds)
    rw [equal]
    refine ⟨List.nodup_cons.mpr ⟨fun inside => ?_, List.nodup_singleton _⟩, rfl⟩
    exact apart (List.mem_singleton.mp inside)

/-- **The names of tables and views differ where those of the other layout do.** -/
theorem checkRelationNames (renumbered : Renumbered renumber schema first second plan plan')
    (passes : (plan.layout first index schema).checkRelationNames = .ok ()) :
    (plan'.layout second index' schema).checkRelationNames = .ok () := by
  rw [Layout.checkRelationNames_eq_ok_iff] at passes ⊢
  refine (List.Perm.nodup_iff ?_).mpr passes
  exact renumbered.tableNames_perm.append (renumbered.map_perm fun _ _ => rfl)

/-- **No name is too long where none of the other layout is.** -/
theorem checkLengths (renumbered : Renumbered renumber schema first second plan plan')
    (passes : (plan.layout first index schema).checkLengths = .ok ()) :
    (plan'.layout second index' schema).checkLengths = .ok () := by
  rw [Layout.checkLengths_eq_ok_iff] at passes ⊢
  simp only [Layout.identifiers, List.mem_append, List.mem_flatMap, List.mem_cons] at passes ⊢
  have named : ∀ name ∈ (plan'.layout second index' schema).tables.map Table.name,
      name.utf8ByteSize ≤ Layout.longest := by
    intro name member
    obtain ⟨table, there, rfl⟩ := List.mem_map.mp (renumbered.tableNames_perm.subset member)
    exact passes _ (.inl (.inl ⟨table, there, .inl rfl⟩))
  rintro name ((⟨table, there, rfl | inside⟩ | inside) | inside)
  · exact named _ (List.mem_map_of_mem there)
  · rcases List.mem_append.mp there with member | member
    · obtain ⟨other, others, rfl⟩ := List.mem_map.mp member
      obtain ⟨entity, entities, rfl⟩ := renumbered.exists_of_mem others
      have column := (renumbered.columnNames_perm entities).subset inside
      have there : entity.table schema (plan.referencesOf entity.id) ∈
          (plan.layout first index schema).tables :=
        List.mem_append_left _ (List.mem_map_of_mem entities)
      exact passes _ (.inl (.inl ⟨_, there, .inr column⟩))
    · have short := named _ (List.mem_map_of_mem there)
      obtain ⟨position, found⟩ := List.mem_iff_getElem?.mp member
      obtain ⟨host, _, target, _, equal, _⟩ := renumbered.sound'.association position table found
      obtain ⟨column, columns, rfl⟩ := List.mem_map.mp inside
      rw [equal] at columns short
      exact (utf8ByteSize_lt_of_mem_association columns).le.trans short
  · exact passes _ (.inl (.inr ((renumbered.foreignKeys_perm.map _).subset inside)))
  · exact passes _ (.inr ((renumbered.map_perm fun _ _ => rfl).subset inside))

end Plan.Renumbered

end AppSchema
