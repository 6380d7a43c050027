/-
**What a plan has of the connections that it stores.**

A connection is stored the same way wherever it comes in the order: what it adds is said by its
field and by the two entities that it links. So what a plan has can be read off the connections
that were stored, whichever others were left out.

* `Claim`: the column of ids that a connection takes;
* `Plan.Follows`: a plan has the columns, foreign keys, relations and associations of connections,
  and nothing else;
* `Plan.Follows.add`: storing one more connection, and `Plan.Follows.foldlM` for all of them;
* `Layout.exists_follows`: the connections of an application are stored or reported, each once, and
  its layout has those that are stored.
-/

import AppSchema.Proofs.Storage.Plan
import Mathlib.Data.List.Forall2

namespace AppSchema

/-! ### Where a connection is stored -/

theorem FieldKind.connection?_eq_some {kind : FieldKind} {connection : Connection} :
    kind.connection? = some connection ↔ kind = .connection connection := by
  cases kind <;> simp [FieldKind.connection?]

namespace Connection

/-- Where a connection is stored that has one record on some side: the holder of the column, the
side whose ids it has, and whether it has many of them. -/
def placement? {α : Type} (connection : Connection) (host target : α) : Option (α × α × Bool) :=
  match connection.has, connection.belongsTo with
  | .one, .many => some (target, host, false)
  | .many, .one => some (host, target, true)
  | .one, .one => some (host, target, false)
  | .many, .many => none

variable {α : Type} {connection : Connection} {host target : α}

theorem placement?_eq : connection.placement? host target =
    if connection.isManyToMany then none
    else if connection.isOneToMany then some (target, host, false)
    else some (host, target, connection.isManyToOne) := by
  obtain ⟨_, has, belongsTo⟩ := connection
  cases has <;> cases belongsTo <;> rfl

theorem placement?_eq_none : connection.placement? host target = none ↔
    connection.isManyToMany = true := by
  rw [placement?_eq]
  split
  · next both => simp [both]
  · next both =>
    rw [Bool.not_eq_true] at both
    split <;> simp [both]

/-- A placement is of the two sides. -/
theorem placement?_sides {holder referenced : α} {array : Bool}
    (placed : connection.placement? host target = some (holder, referenced, array)) :
    (holder = host ∧ referenced = target) ∨ (holder = target ∧ referenced = host) := by
  rw [placement?_eq] at placed
  split at placed
  · cases placed
  · split at placed
    · cases placed
      exact .inr ⟨rfl, rfl⟩
    · cases placed
      exact .inl ⟨rfl, rfl⟩

theorem placement?_map {β : Type} (f : α → β) :
    connection.placement? (f host) (f target) =
      (connection.placement? host target).map fun place => (f place.1, f place.2.1, place.2.2) := by
  obtain ⟨_, has, belongsTo⟩ := connection
  cases has <;> cases belongsTo <;> rfl

end Connection

/-- A column of ids: the field that it stores, the entity that holds it, the one whose ids it has,
and whether it has many of them. -/
structure Claim where
  field : Field
  holder : Entity
  referenced : Entity
  array : Bool

namespace Claim

/-- The name of the column. -/
def name (claim : Claim) : String :=
  Plan.referenceName claim.field claim.referenced

/-- The table and the name of the column. -/
def place (claim : Claim) : TableId × String :=
  (claim.holder.id, claim.name)

/-- The column, with its table. -/
def reference (claim : Claim) : TableId × Column :=
  (claim.holder.id, Plan.referenceColumn claim.field claim.referenced claim.array)

/-- The foreign key of the column. A column of many ids has none. -/
def foreignKey? (claim : Claim) : Option ForeignKey :=
  if claim.array then none
  else some (.of claim.holder.name.ident claim.name claim.referenced.name.ident)

/-- What is recorded of the column. -/
def relation (claim : Claim) : FieldId × Relation :=
  (claim.field.id, .single claim.holder.id claim.name claim.referenced.id claim.array)

end Claim

/-- Looking up a key among entries finds the first element that has it. -/
theorem lookup_map_eq_find? {α κ β : Type} [BEq κ] [LawfulBEq κ] (key : α → κ) (value : α → β)
    (list : List α) (wanted : κ) :
    (list.map fun element => (key element, value element)).lookup wanted =
      (list.find? (key · == wanted)).map value := by
  induction list with
  | nil => rfl
  | cons first rest ih =>
    rw [List.map_cons, List.lookup_cons, List.find?_cons, BEq.comm]
    split
    · rfl
    · exact ih

namespace Application

variable {application : Application} {index : Index}

/-- The entity of a key. -/
def target? (application : Application) (key : String) : Option Entity :=
  application.entities.find? (·.key == key)

theorem target?_eq_some {key : String} {target : Entity}
    (found : application.target? key = some target) :
    target ∈ application.entities ∧ target.key = key := by
  have same := List.find?_some found
  exact ⟨List.mem_of_find?_eq_some found, by simpa using same⟩

/-- **The index finds the entity of a key.** -/
theorem requireEntity_eq_ok_iff (indexed : Index.ofApplication application = .ok index)
    {referencing key : String} {id : TableId} :
    index.requireEntity referencing key = .ok id ↔
      ∃ target, application.target? key = some target ∧ target.id = id := by
  have found : index.entity? key = (application.target? key).map Entity.id := by
    rw [Index.entity?, (Index.lists_of_ofApplication indexed).entities_eq, lookup_map_eq_find?]
    rfl
  rw [Index.requireEntity, found]
  cases application.target? key <;> simp

/-- The column of ids that a connection claims. A connection many to many claims none. -/
def claim? (application : Application) (connected : Entity × Field × Connection) : Option Claim :=
  (application.target? connected.2.2.target).bind fun target =>
    (connected.2.2.placement? connected.1 target).map fun place =>
      ⟨connected.2.1, place.1, place.2.1, place.2.2⟩

/-- The name of the association of a connection. -/
def linkName? (application : Application) (connected : Entity × Field × Connection) :
    Option String :=
  if connected.2.2.isManyToMany then
    (application.target? connected.2.2.target).map (Plan.linkName connected.1)
  else none

/-- **Where a claim comes from.** -/
theorem claim?_eq_some {host : Entity} {field : Field} {connection : Connection} {claim : Claim} :
    application.claim? (host, field, connection) = some claim ↔
      claim.field = field ∧ ∃ target, application.target? connection.target = some target ∧
        connection.placement? host target = some (claim.holder, claim.referenced, claim.array) := by
  simp only [claim?, Option.bind_eq_some_iff, Option.map_eq_some_iff]
  constructor
  · rintro ⟨target, found, place, placed, rfl⟩
    exact ⟨rfl, target, found, placed⟩
  · rintro ⟨rfl, target, found, placed⟩
    exact ⟨target, found, _, placed, rfl⟩

theorem claim?_eq_none {host target : Entity} {field : Field} {connection : Connection}
    (both : connection.isManyToMany = true)
    (found : application.target? connection.target = some target) :
    application.claim? (host, field, connection) = none := by
  simp [claim?, found, Connection.placement?_eq_none.mpr both]

/-- A claim is that of an entity on an entity. -/
theorem claim?_mem {connected : Entity × Field × Connection} {claim : Claim}
    (member : connected ∈ application.connections)
    (claims : application.claim? connected = some claim) :
    claim.holder ∈ application.entities ∧ claim.referenced ∈ application.entities := by
  obtain ⟨_, target, found, placed⟩ := claim?_eq_some.mp claims
  obtain ⟨hosts, _, _⟩ := mem_connections.mp member
  have targets := (target?_eq_some found).1
  rcases Connection.placement?_sides placed with ⟨first, second⟩ | ⟨first, second⟩
  · rw [first, second]
    exact ⟨hosts, targets⟩
  · rw [first, second]
    exact ⟨targets, hosts⟩

end Application

namespace Plan

variable {application : Application} {index : Index} {schema : String} {plan result : Plan}
  {stored : List (Entity × Field × Connection)} {host : Entity} {field : Field}
  {connection : Connection}

/-- **What storing a connection takes**: its target, and the column or the association. -/
theorem add_eq_ok_iff (wellFormed : application.WellFormed)
    (indexed : Index.ofApplication application = .ok index) :
    plan.add application index schema host field connection = .ok result ↔
      ∃ target, application.target? connection.target = some target ∧
        ((connection.isManyToMany = true ∧
          plan.addAssociation application schema field host target = .ok result) ∨
        ∃ place, connection.placement? host target = some place ∧
          plan.addReference field place.1 place.2.1 place.2.2 = .ok result) := by
  have step : ∀ target ∈ application.entities,
      (if connection.isManyToMany then
        plan.addAssociation application schema field host (application.entity target.id)
      else if connection.isOneToMany then
        plan.addReference field (application.entity target.id) host false
      else plan.addReference field host (application.entity target.id) connection.isManyToOne) =
        .ok result ↔
      (connection.isManyToMany = true ∧
        plan.addAssociation application schema field host target = .ok result) ∨
      ∃ place, connection.placement? host target = some place ∧
        plan.addReference field place.1 place.2.1 place.2.2 = .ok result := by
    intro target targets
    rw [wellFormed.entity_eq targets, Connection.placement?_eq]
    cases connection.isManyToMany <;> cases connection.isOneToMany <;> simp
  rw [Plan.add, bind_eq_ok]
  constructor
  · rintro ⟨id, required, added⟩
    obtain ⟨target, found, rfl⟩ := (Application.requireEntity_eq_ok_iff indexed).mp required
    exact ⟨target, found, (step target (Application.target?_eq_some found).1).mp added⟩
  · rintro ⟨target, found, added⟩
    have required : index.requireEntity field.key connection.target = .ok target.id :=
      (Application.requireEntity_eq_ok_iff indexed).mpr ⟨target, found, rfl⟩
    exact ⟨target.id, required, (step target (Application.target?_eq_some found).1).mpr added⟩

/-- The identifiers that are taken, by table. -/
def takenIdents (plan : Plan) : List (TableId × String) :=
  plan.taken.map fun taken => (taken.1, taken.2.ident)

/-- Before any connection, the names of the fields are taken. -/
theorem mem_takenIdents_initial {entity : Entity} (member : entity ∈ application.entities)
    (own : field ∈ entity.fields) :
    (entity.id, field.name.ident) ∈ (initial application).takenIdents := by
  have taken : (entity.id, field.name) ∈ (initial application).taken :=
    List.mem_flatMap.mpr ⟨entity, member, List.mem_map_of_mem own⟩
  exact List.mem_map_of_mem (f := fun taken : TableId × Name => (taken.1, taken.2.ident)) taken

theorem taker?_eq_none_iff {table : TableId} {ident : String} :
    plan.taker? table ident = none ↔ (table, ident) ∉ plan.takenIdents := by
  simp only [taker?, Option.map_eq_none_iff, List.find?_eq_none, Bool.and_eq_true, beq_iff_eq,
    takenIdents, List.mem_map, Prod.mk.injEq]
  constructor
  · rintro free ⟨taken, member, same⟩
    exact free taken member same
  · intro free taken member same
    exact free ⟨taken, member, same⟩

/-- **What storing a connection as a column takes and adds**: its name must be free. -/
theorem addReference_eq_ok_iff (claim : Claim) :
    plan.addReference claim.field claim.holder claim.referenced claim.array = .ok result ↔
      claim.place ∉ plan.takenIdents ∧
        result = { plan with
          taken := plan.taken ++ [(claim.holder.id, ⟨claim.name, claim.field.name.label⟩)]
          references := plan.references ++ [claim.reference]
          foreignKeys := plan.foreignKeys ++ claim.foreignKey?.toList
          relations := plan.relations ++ [claim.relation] } := by
  have key : claim.foreignKey?.toList = if claim.array then [] else
      [ForeignKey.of claim.holder.name.ident (referenceName claim.field claim.referenced)
        claim.referenced.name.ident] := by
    unfold Claim.foreignKey?
    split <;> rfl
  rw [addReference, key, Claim.place, Claim.name, ← taker?_eq_none_iff]
  cases plan.taker? claim.holder.id (referenceName claim.field claim.referenced) with
  | some first => simp
  | none =>
    simp only [Except.ok.injEq, true_and]
    exact eq_comm

/-! ### Connections that are stored -/

theorem forall₂_concat {α β : Type} {related : α → β → Prop} {first : List α} {second : List β}
    {element : α} {other : β} (all : List.Forall₂ related first second)
    (one : related element other) :
    List.Forall₂ related (first ++ [element]) (second ++ [other]) :=
  List.rel_append all (.cons one .nil)

theorem exists_of_mem_right {α β : Type} {related : α → β → Prop} {first : List α}
    {second : List β} (all : List.Forall₂ related first second) {other : β}
    (member : other ∈ second) : ∃ element ∈ first, related element other := by
  induction all with
  | nil => cases member
  | cons here _ ih =>
    rcases List.mem_cons.mp member with rfl | member
    · exact ⟨_, List.mem_cons_self, here⟩
    · obtain ⟨element, inside, there⟩ := ih member
      exact ⟨element, List.mem_cons_of_mem _ inside, there⟩

theorem exists_of_mem_left {α β : Type} {related : α → β → Prop} {first : List α}
    {second : List β} (all : List.Forall₂ related first second) {element : α}
    (member : element ∈ first) : ∃ other ∈ second, related element other :=
  exists_of_mem_right all.flip member

theorem filterMap_eq_of_forall₂ {α β γ : Type} {related : α → β → Prop} {first : List α}
    {second : List β} {left : α → Option γ} {right : β → Option γ}
    (all : List.Forall₂ related first second)
    (agree : ∀ element other, related element other → right other = left element) :
    second.filterMap right = first.filterMap left := by
  induction all with
  | nil => rfl
  | cons here _ ih => rw [List.filterMap_cons, List.filterMap_cons, agree _ _ here, ih]

/-- How a connection is recorded, by its field. -/
inductive Records (application : Application) (associations : List Table) :
    Entity × Field × Connection → FieldId × Relation → Prop
  | single {connected : Entity × Field × Connection} {claim : Claim} :
    application.claim? connected = some claim →
    Records application associations connected claim.relation
  | manyToMany {host target : Entity} {field : Field} {connection : Connection} {table : Table} :
    connection.isManyToMany = true → application.target? connection.target = some target →
    table ∈ associations → table.name = linkName host target →
    Records application associations (host, field, connection) (field.id,
      .manyToMany table.id host.id target.id (associationColumns host target).1
        (associationColumns host target).2)

theorem Records.mono {associations more : List Table}
    {connected : Entity × Field × Connection} {entry : FieldId × Relation}
    (records : Records application associations connected entry) (grown : associations ⊆ more) :
    Records application more connected entry := by
  cases records with
  | single claims => exact .single claims
  | manyToMany both found table named => exact .manyToMany both found (grown table) named

/-- A connection is recorded under its field. -/
theorem Records.fst_eq {associations : List Table} {connected : Entity × Field × Connection}
    {entry : FieldId × Relation} (records : Records application associations connected entry) :
    entry.1 = connected.2.1.id := by
  cases records with
  | single claims => exact congrArg Field.id (Application.claim?_eq_some.mp claims).1
  | manyToMany => rfl

/-- A connection that claims a column is recorded with it. -/
theorem Records.eq_relation {associations : List Table} {connected : Entity × Field × Connection}
    {entry : FieldId × Relation} (records : Records application associations connected entry)
    {claim : Claim} (claims : application.claim? connected = some claim) :
    entry = claim.relation := by
  cases records with
  | single found =>
    rw [claims] at found
    cases found
    rfl
  | manyToMany both found =>
    rw [Application.claim?_eq_none both found] at claims
    cases claims

/-- A connection many to many is recorded with the association of its name. -/
theorem Records.exists_association {associations : List Table} {target : Entity}
    {entry : FieldId × Relation}
    (records : Records application associations (host, field, connection) entry)
    (both : connection.isManyToMany = true)
    (found : application.target? connection.target = some target) :
    ∃ table ∈ associations, table.name = linkName host target ∧
      entry = (field.id, .manyToMany table.id host.id target.id (associationColumns host target).1
        (associationColumns host target).2) := by
  cases records with
  | single claims =>
    rw [Application.claim?_eq_none both found] at claims
    cases claims
  | manyToMany _ known there named =>
    rw [found] at known
    cases known
    exact ⟨_, there, named, rfl⟩

/-- A relation that is no association is recorded for a claim. -/
theorem Records.exists_claim {associations : List Table} {connected : Entity × Field × Connection}
    {entry : FieldId × Relation} (records : Records application associations connected entry)
    (single : entry.2.isManyToMany = false) :
    ∃ claim, application.claim? connected = some claim ∧ claim.relation = entry := by
  cases records with
  | single claims => exact ⟨_, claims, rfl⟩
  | manyToMany => cases single

/-- **A plan has what connections add, and nothing else.** -/
structure Follows (application : Application) (stored : List (Entity × Field × Connection))
    (plan : Plan) : Prop where
  relations : List.Forall₂ (Records application plan.associations) stored plan.relations
  references_eq : plan.references = (stored.filterMap application.claim?).map Claim.reference
  foreignKeys_eq : plan.foreignKeys =
    (stored.filterMap application.claim?).filterMap Claim.foreignKey?
  taken_eq : plan.takenIdents = (initial application).takenIdents ++
    (stored.filterMap application.claim?).map Claim.place
  distinct : ((stored.filterMap application.claim?).map Claim.place).Nodup
  apart : ∀ claim ∈ stored.filterMap application.claim?,
    claim.place ∉ (initial application).takenIdents
  associations : ∀ name, name ∈ plan.associations.map Table.name ↔
    ∃ connected ∈ stored, application.linkName? connected = some name
  free : ∀ table ∈ plan.associations, ∀ entity ∈ application.entities,
    entity.name.ident ≠ table.name

theorem Follows.initial (application : Application) :
    Follows application [] (Plan.initial application) where
  relations := .nil
  references_eq := rfl
  foreignKeys_eq := rfl
  taken_eq := (List.append_nil _).symm
  distinct := List.nodup_nil
  apart _ member := absurd member List.not_mem_nil
  associations name := by simp [Plan.initial]
  free _ member := absurd member List.not_mem_nil

/-- **Storing one connection as a column.** -/
theorem Follows.addReference (follows : Follows application stored plan) {claim : Claim}
    (claims : application.claim? (host, field, connection) = some claim)
    (added : plan.addReference claim.field claim.holder claim.referenced claim.array =
      .ok result) : Follows application (stored ++ [(host, field, connection)]) result := by
  obtain ⟨fresh, rfl⟩ := (addReference_eq_ok_iff claim).mp added
  rw [follows.taken_eq, List.mem_append, not_or] at fresh
  have link : application.linkName? (host, field, connection) = none := by
    obtain ⟨_, target, _, placed⟩ := Application.claim?_eq_some.mp claims
    refine if_neg fun both => ?_
    rw [Connection.placement?_eq_none.mpr both] at placed
    cases placed
  have more : (stored ++ [(host, field, connection)]).filterMap application.claim? =
      stored.filterMap application.claim? ++ [claim] := by
    rw [List.filterMap_append]
    simp [claims]
  refine ⟨forall₂_concat follows.relations (.single claims), ?_, ?_, ?_, ?_, ?_, ?_, follows.free⟩
  · rw [more, follows.references_eq, List.map_append]
    rfl
  · rw [more, follows.foreignKeys_eq, List.filterMap_append]
    cases key : claim.foreignKey? <;> simp [key]
  · rw [more, takenIdents, List.map_append, List.map_append, ← List.append_assoc,
      ← follows.taken_eq]
    rfl
  · rw [more, List.map_append, List.nodup_append]
    refine ⟨follows.distinct, List.nodup_singleton _, fun first member second inside => ?_⟩
    rw [List.mem_singleton.mp inside]
    rintro rfl
    exact fresh.2 member
  · intro other member
    rw [more] at member
    rcases List.mem_append.mp member with member | member
    · exact follows.apart other member
    · rw [List.mem_singleton.mp member]
      exact fresh.1
  · intro name
    simpa [link] using follows.associations name

/-- **Storing one connection in an association.** -/
theorem Follows.addAssociation (follows : Follows application stored plan) {target : Entity}
    (both : connection.isManyToMany = true)
    (found : application.target? connection.target = some target)
    (same : host.id = target.id → host = target)
    (added : plan.addAssociation application schema field host target = .ok result) :
    Follows application (stored ++ [(host, field, connection)]) result := by
  have sameClaims : (stored ++ [(host, field, connection)]).filterMap application.claim? =
      stored.filterMap application.claim? := by
    rw [List.filterMap_append]
    simp [Application.claim?_eq_none both found]
  have link : application.linkName? (host, field, connection) = some (linkName host target) := by
    simp [Application.linkName?, both, found]
  -- Whatever the associations are then, all but them and the relation is as before.
  have record : ∀ associations : List Table, ∀ table ∈ associations,
      table.name = linkName host target → plan.associations ⊆ associations →
      (∀ other ∈ associations, other ∈ plan.associations ∨ other.name = linkName host target) →
      (∀ entity ∈ application.entities, entity.name.ident ≠ linkName host target) →
      Follows application (stored ++ [(host, field, connection)])
        { plan with
          associations
          relations := plan.relations ++ [(field.id, .manyToMany table.id host.id target.id
            (associationColumns host target).1 (associationColumns host target).2)] } := by
    intro associations table there named grown others unlike
    have relations := follows.relations.imp fun _ _ records => records.mono grown
    refine ⟨forall₂_concat relations (.manyToMany both found there named),
      sameClaims ▸ follows.references_eq, sameClaims ▸ follows.foreignKeys_eq,
      sameClaims ▸ follows.taken_eq, sameClaims ▸ follows.distinct, sameClaims ▸ follows.apart,
      fun name => ?_, ?_⟩
    · have before := follows.associations name
      simp only [List.mem_append, List.mem_singleton, or_and_right, exists_or, exists_eq_left,
        link, ← before, Option.some.injEq]
      constructor
      · intro member
        obtain ⟨other, inside, rfl⟩ := List.mem_map.mp member
        rcases others other inside with known | new
        · exact .inl (List.mem_map_of_mem known)
        · exact .inr new.symm
      · rintro (member | rfl)
        · exact List.map_subset _ grown member
        · exact named ▸ List.mem_map_of_mem there
    · intro other inside entity member
      rcases others other inside with known | new
      · exact follows.free other known entity member
      · rw [new]
        exact unlike entity member
  obtain ⟨id, between, required, rfl⟩ := addAssociation_cases same added
  rcases requireAssociation_cases required with
    ⟨rfl, table, member, rfl, named⟩ | ⟨rfl, _, unlike, rfl⟩
  · refine record _ table member named (List.Subset.refl _) (fun _ => .inl) ?_
    intro entity inside same
    exact follows.free table member entity inside (same.trans named.symm)
  · refine record _ _ (List.mem_append_right _ (List.mem_singleton_self _)) rfl
      (List.subset_append_left _ _) ?_ unlike
    intro other inside
    rcases List.mem_append.mp inside with known | new
    · exact .inl known
    · rw [List.mem_singleton.mp new]
      exact .inr rfl

/-- **Storing one connection.** -/
theorem Follows.add (follows : Follows application stored plan)
    (wellFormed : application.WellFormed) (indexed : Index.ofApplication application = .ok index)
    (hosts : host ∈ application.entities)
    (added : plan.add application index schema host field connection = .ok result) :
    Follows application (stored ++ [(host, field, connection)]) result := by
  obtain ⟨target, found, added⟩ := (add_eq_ok_iff wellFormed indexed).mp added
  have targets := (Application.target?_eq_some found).1
  rcases added with ⟨both, added⟩ | ⟨place, placed, added⟩
  · exact follows.addAssociation both found (wellFormed.eq_of_id hosts targets) added
  · have claims : application.claim? (host, field, connection) =
        some ⟨field, place.1, place.2.1, place.2.2⟩ :=
      Application.claim?_eq_some.mpr ⟨rfl, target, found, placed⟩
    exact follows.addReference claims added

/-- **Storing connections one after the other.** -/
theorem Follows.foldlM (wellFormed : application.WellFormed)
    (indexed : Index.ofApplication application = .ok index)
    (connections : stored ⊆ application.connections)
    (folded : stored.foldlM (addConnected application index schema)
      (Plan.initial application) = .ok plan) : Follows application stored plan := by
  refine foldlM_induction
    (fun seen value => seen ⊆ application.connections → Follows application seen value)
    (fun seen value connected result follows stepped inside => ?_)
    (fun _ => Follows.initial application) folded connections
  obtain ⟨host, field, connection⟩ := connected
  have before := follows fun other member => inside (List.mem_append_left _ member)
  have here := inside (List.mem_append_right seen (List.mem_singleton_self _))
  exact before.add wellFormed indexed (Application.mem_connections.mp here).1 stepped

/-! ### Connections that are left out -/

/-- The field of a connection. -/
def connectedPart (connected : Entity × Field × Connection) : Part :=
  .field connected.1.key connected.2.1.key

/-- **Each connection is stored or reported**, and those that are stored could be stored without
the others. -/
theorem exists_stored (application : Application) (index : Index) (schema : String)
    (connections : List (Entity × Field × Connection)) (state : Plan × List Diagnostic) :
    ∃ (stored : List (Entity × Field × Connection)) (left : List Diagnostic),
      stored.Sublist connections ∧
      stored.foldlM (addConnected application index schema) state.1 =
        .ok (connections.foldl (attempt application index schema) state).1 ∧
      (connections.foldl (attempt application index schema) state).2 = state.2 ++ left ∧
      (∀ diagnostic ∈ left, diagnostic.isError = true) ∧
      (stored.map connectedPart ++ left.map Diagnostic.part).Perm
        (connections.map connectedPart) := by
  induction connections generalizing state with
  | nil => exact ⟨[], [], .refl _, rfl, (List.append_nil _).symm, by simp, .refl _⟩
  | cons first rest ih =>
    rw [List.foldl_cons]
    cases added : addConnected application index schema state.1 first with
    | ok result =>
      have step : attempt application index schema state first = (result, state.2) := by
        simp only [attempt, ← addConnected.eq_def, added]
      obtain ⟨stored, left, sublist, folded, reported, errors, parts⟩ := ih (result, state.2)
      rw [step]
      refine ⟨first :: stored, left, sublist.cons_cons first, ?_, reported, errors,
        parts.cons _⟩
      rw [List.foldlM_cons, added]
      exact folded
    | error fault =>
      have step : attempt application index schema state first =
          (state.1, state.2 ++ [⟨connectedPart first, .error, fault⟩]) := by
        simp only [attempt, ← addConnected.eq_def, added]
        rfl
      obtain ⟨stored, left, sublist, folded, reported, errors, parts⟩ :=
        ih (state.1, state.2 ++ [⟨connectedPart first, .error, fault⟩])
      rw [step]
      refine ⟨stored, ⟨connectedPart first, .error, fault⟩ :: left, sublist.cons first, folded,
        ?_, List.forall_mem_cons.mpr ⟨rfl, errors⟩, ?_⟩
      · rw [reported, List.append_assoc]
        rfl
      · rw [List.map_cons, List.map_cons]
        exact List.perm_middle.trans (parts.cons _)

end Plan

/-- **The layout of an application comes from a sound plan**, which has the connections that were
not left out. -/
theorem Layout.exists_follows {application : Application} {index : Index}
    (wellFormed : application.WellFormed)
    (indexed : Index.ofApplication application = .ok index) (schema : String) :
    ∃ plan stored, plan.Sound application schema ∧ Plan.Follows application stored plan ∧
      stored.Sublist application.connections ∧
      (ofApplication application index schema).1 = plan.layout application index schema ∧
      (∀ diagnostic ∈ (ofApplication application index schema).2, diagnostic.isError = true) ∧
      (stored.map Plan.connectedPart ++
        (ofApplication application index schema).2.map Diagnostic.part).Perm
          (application.connections.map Plan.connectedPart) := by
  obtain ⟨stored, left, sublist, folded, reported, errors, parts⟩ := Plan.exists_stored application
    index schema application.connections (Plan.initial application, [])
  rw [List.nil_append] at reported
  subst reported
  exact ⟨_, stored, .foldlM wellFormed indexed sublist.subset folded,
    .foldlM wellFormed indexed sublist.subset folded, sublist, rfl, errors, parts⟩

end AppSchema
