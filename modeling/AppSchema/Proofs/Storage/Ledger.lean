/-
**Storing connections in place.**

A layout stores one connection after the other, each from the plan that the last one left. Written
as a program that changes six collections one at a time, and that may fail in between, the same is
less obvious: a connection that fails half way would leave a column behind that no relation
describes. It never does, because all that can fail comes before the first change.

* `Ledger`: the six collections, and `Storing`: a program on them whose changes outlive a fault;
* `Storing.store`: storing a connection, one change after the other;
* `Storing.store_error_iff`: when it fails, and that nothing is changed then;
* `Storing.run_succeeding`: storing connections leniently is storing those that succeed;
* `Storing.ofApplication_eq`: so the layout of an application is made;
* `Storing.store_atomic`: all of these.
-/

import AppSchema.Proofs.Storage.Connection

namespace AppSchema

/-- What is known while connections are stored, collection by collection. -/
structure Ledger where
  /-- The names of columns that are taken, by table. -/
  names : List (TableId × Name) := []
  /-- The columns of ids, by the table that has them. -/
  references : List (TableId × Column) := []
  /-- The numbers of the associations, by name. -/
  numbers : List (String × TableId) := []
  associations : List Table := []
  foreignKeys : List ForeignKey := []
  relations : List (FieldId × Relation) := []

/-- A program on a ledger. What it has changed before a fault stays changed. -/
abbrev Storing := EStateM Fault Ledger

namespace Ledger

/-- Before any connection, the fields of an entity have taken their names. -/
def initial (application : Application) : Ledger :=
  { names := application.entities.flatMap fun entity =>
      entity.fields.map fun field => (entity.id, field.name) }

/-- The name that has taken an identifier among the columns of a table. -/
def taker? (ledger : Ledger) (table : TableId) (ident : String) : Option Name :=
  (ledger.names.find? fun taken => taken.1 == table && taken.2.ident == ident).map Prod.snd

/-- The number of the association of a name. -/
def number? (ledger : Ledger) (name : String) : Option TableId :=
  ledger.numbers.lookup name

/-- The plan of a ledger. It finds associations by themselves. -/
def plan (ledger : Ledger) : Plan :=
  { taken := ledger.names, references := ledger.references, associations := ledger.associations
    foreignKeys := ledger.foreignKeys, relations := ledger.relations }

end Ledger

namespace Storing

/-! ### The program -/

/-- Takes a name for a column of a table. -/
def claim (table : Entity) (label ident : String) : Storing Unit := do
  match (← get).taker? table.id ident with
  | some first => throw (.identifierCollision table.name.ident first.label label ident)
  | none => modify fun ledger =>
    { ledger with names := ledger.names ++ [(table.id, ⟨ident, label⟩)] }

/-- Adds the association of two entities, first the table and then its number. No entity may have
its name. -/
def addAssociation (application : Application) (schema : String) (first second : Entity) :
    Storing TableId := do
  let name := Plan.associationName first second
  match application.entities.find? (·.name.ident == name) with
  | some entity => throw (.identifierCollision "tables" entity.name.label name name)
  | none =>
    let id := application.entities.length + (← get).associations.length
    modify fun ledger =>
      { ledger with
        associations := ledger.associations ++ [Plan.association schema id first second] }
    modify fun ledger => { ledger with numbers := ledger.numbers ++ [(name, id)] }
    return id

/-- Records how a connection is stored. -/
def record (field : FieldId) (relation : Relation) : Storing Unit :=
  modify fun ledger => { ledger with relations := ledger.relations ++ [(field, relation)] }

/-- The number of the association of two entities, which is added if there is none of its name. -/
def requireAssociation (application : Application) (schema : String) (first second : Entity) :
    Storing TableId := do
  match (← get).number? (Plan.associationName first second) with
  | some id => return id
  | none => addAssociation application schema first second

/-- Stores a connection in an association, and records the relation. -/
def storeBoth (application : Application) (schema : String) (field : Field)
    (host target : Entity) : Storing Unit := do
  let (first, second) := Plan.ordered host target
  let (firstColumn, secondColumn) := Plan.associationColumns first second
  let (hostColumn, targetColumn) :=
    if host.id = first.id then (firstColumn, secondColumn) else (secondColumn, firstColumn)
  let id ← requireAssociation application schema first second
  record field.id (.manyToMany id host.id target.id hostColumn targetColumn)

/-- Stores a connection as a column of ids: takes its name, adds the column and then its foreign
key, and records the relation. -/
def storeOne (field : Field) (holder referenced : Entity) (array : Bool) : Storing Unit := do
  let name := Plan.referenceName field referenced
  claim holder field.name.label name
  modify fun ledger =>
    { ledger with references :=
        ledger.references ++ [(holder.id, Plan.referenceColumn field referenced array)] }
  unless array do
    modify fun ledger =>
      { ledger with foreignKeys := ledger.foreignKeys ++
          [ForeignKey.of holder.name.ident name referenced.name.ident] }
  record field.id (.single holder.id name referenced.id array)

/-- Stores a connection. -/
def store (application : Application) (index : Index) (schema : String) (host : Entity)
    (field : Field) (connection : Connection) : Storing Unit := do
  let target := application.entity (← ofExcept (index.requireEntity field.key connection.target))
  if connection.isManyToMany then storeBoth application schema field host target
  else if connection.isOneToMany then storeOne field target host false
  else storeOne field host target connection.isManyToOne

/-- Stores a connection, or leaves it out with an error, from the ledger that the program leaves
in either case. -/
def attempt (application : Application) (index : Index) (schema : String)
    (state : Ledger × List Diagnostic) (connected : Entity × Field × Connection) :
    Ledger × List Diagnostic :=
  match store application index schema connected.1 connected.2.1 connected.2.2 state.1 with
  | .ok _ ledger => (ledger, state.2)
  | .error fault ledger =>
    (ledger, state.2 ++ [⟨Plan.connectedPart connected, .error, fault⟩])

/-- Stores connections one after the other, and leaves out those that fail. -/
def resolve (application : Application) (index : Index) (schema : String) :
    Ledger × List Diagnostic :=
  application.connections.foldl (attempt application index schema)
    (.initial application, [])

/-- The connections that succeed where they come up. -/
def succeeding (application : Application) (index : Index) (schema : String) (ledger : Ledger) :
    List (Entity × Field × Connection) → List (Entity × Field × Connection)
  | [] => []
  | connected :: rest =>
    match store application index schema connected.1 connected.2.1 connected.2.2 ledger with
    | .ok _ after => connected :: succeeding application index schema after rest
    | .error _ after => succeeding application index schema after rest

/-! ### What each part of the program does -/

section

variable {application : Application} {index : Index} {schema : String} {ledger after : Ledger}
  {host target holder referenced first second : Entity} {field : Field} {connection : Connection}
  {array : Bool} {fault : Fault}

theorem claim_run (table : Entity) (label ident : String) (ledger : Ledger) :
    claim table label ident ledger =
      match ledger.taker? table.id ident with
      | some first =>
        .error (.identifierCollision table.name.ident first.label label ident) ledger
      | none => .ok () { ledger with names := ledger.names ++ [(table.id, ⟨ident, label⟩)] } := by
  show (match ledger.taker? table.id ident with
    | some first => throw (.identifierCollision table.name.ident first.label label ident)
    | none => modify fun ledger =>
      { ledger with names := ledger.names ++ [(table.id, ⟨ident, label⟩)] } : Storing Unit)
      ledger = _
  cases ledger.taker? table.id ident <;> rfl

theorem requireAssociation_run (application : Application) (schema : String)
    (first second : Entity) (ledger : Ledger) :
    requireAssociation application schema first second ledger =
      match ledger.number? (Plan.associationName first second) with
      | some id => .ok id ledger
      | none =>
        match application.entities.find? (·.name.ident == Plan.associationName first second) with
        | some entity =>
          .error (.identifierCollision "tables" entity.name.label
            (Plan.associationName first second) (Plan.associationName first second)) ledger
        | none =>
          .ok (application.entities.length + ledger.associations.length)
            { ledger with
              associations := ledger.associations ++ [Plan.association schema
                (application.entities.length + ledger.associations.length) first second]
              numbers := ledger.numbers ++ [(Plan.associationName first second,
                application.entities.length + ledger.associations.length)] } := by
  show (match ledger.number? (Plan.associationName first second) with
    | some id => pure id
    | none => addAssociation application schema first second : Storing TableId) ledger = _
  cases ledger.number? (Plan.associationName first second) with
  | some id => rfl
  | none =>
    simp only [addAssociation]
    cases application.entities.find? (·.name.ident == Plan.associationName first second) <;> rfl

/-- The names of the columns of an association for the host and for the target. -/
def sideColumns (host target : Entity) : String × String :=
  if host.id = (Plan.ordered host target).1.id
  then Plan.associationColumns (Plan.ordered host target).1 (Plan.ordered host target).2
  else (Plan.associationColumns (Plan.ordered host target).1 (Plan.ordered host target).2).swap

theorem storeBoth_run (application : Application) (schema : String) (field : Field)
    (host target : Entity) (ledger : Ledger) :
    storeBoth application schema field host target ledger =
      match requireAssociation application schema (Plan.ordered host target).1
        (Plan.ordered host target).2 ledger with
      | .error fault after => .error fault after
      | .ok id after =>
        .ok () { after with relations := after.relations ++ [(field.id,
          .manyToMany id host.id target.id (sideColumns host target).1
            (sideColumns host target).2)] } := by
  unfold storeBoth sideColumns
  by_cases self : host.id = (Plan.ordered host target).1.id
  · simp only [if_pos self, bind, EStateM.bind]
    cases requireAssociation application schema (Plan.ordered host target).1
      (Plan.ordered host target).2 ledger <;> rfl
  · simp only [if_neg self, bind, EStateM.bind]
    cases requireAssociation application schema (Plan.ordered host target).1
      (Plan.ordered host target).2 ledger <;> rfl

theorem storeOne_run (field : Field) (holder referenced : Entity) (array : Bool)
    (ledger : Ledger) :
    storeOne field holder referenced array ledger =
      match ledger.taker? holder.id (Plan.referenceName field referenced) with
      | some first =>
        .error (.identifierCollision holder.name.ident first.label field.name.label
          (Plan.referenceName field referenced)) ledger
      | none =>
        .ok () { ledger with
          names := ledger.names ++
            [(holder.id, ⟨Plan.referenceName field referenced, field.name.label⟩)]
          references := ledger.references ++
            [(holder.id, Plan.referenceColumn field referenced array)]
          foreignKeys := ledger.foreignKeys ++
            if array then [] else [ForeignKey.of holder.name.ident
              (Plan.referenceName field referenced) referenced.name.ident]
          relations := ledger.relations ++ [(field.id,
            .single holder.id (Plan.referenceName field referenced) referenced.id array)] } := by
  unfold storeOne
  simp only [bind, EStateM.bind, claim_run]
  cases ledger.taker? holder.id (Plan.referenceName field referenced) with
  | some first => rfl
  | none =>
    cases array with
    | true =>
      simp only [if_true, List.append_nil]
      rfl
    | false => rfl

/-- **What storing a connection does**: it looks for the target, and then stores the connection in
an association or as a column of the side that its cardinalities say. -/
theorem store_run (application : Application) (index : Index) (schema : String) (host : Entity)
    (field : Field) (connection : Connection) (ledger : Ledger) :
    store application index schema host field connection ledger =
      match index.entity? connection.target with
      | none => .error (.missingFieldReference field.key connection.target) ledger
      | some id =>
        match connection.placement? host (application.entity id) with
        | none => storeBoth application schema field host (application.entity id) ledger
        | some place => storeOne field place.1 place.2.1 place.2.2 ledger := by
  unfold store Index.requireEntity
  simp only [bind, EStateM.bind, Connection.placement?_eq]
  cases index.entity? connection.target with
  | none => rfl
  | some id =>
    cases both : connection.isManyToMany with
    | true => rfl
    | false => cases connection.isOneToMany <;> rfl

end

end Storing

/-! ### When storing fails -/

/-- **Why a ledger refuses a connection**: no entity has the key of its target, the name of its
column is taken, or an entity has the name of its association. -/
inductive Ledger.Refuses (application : Application) (index : Index) (ledger : Ledger)
    (host : Entity) (field : Field) (connection : Connection) : Fault → Prop
  | target : index.entity? connection.target = none →
    Refuses application index ledger host field connection
      (.missingFieldReference field.key connection.target)
  | column {id : TableId} {holder referenced : Entity} {array : Bool} {first : Name} :
    index.entity? connection.target = some id →
    connection.placement? host (application.entity id) = some (holder, referenced, array) →
    ledger.taker? holder.id (Plan.referenceName field referenced) = some first →
    Refuses application index ledger host field connection
      (.identifierCollision holder.name.ident first.label field.name.label
        (Plan.referenceName field referenced))
  | association {id : TableId} {entity : Entity} {name : String} :
    index.entity? connection.target = some id →
    connection.isManyToMany = true →
    name = Plan.linkName host (application.entity id) →
    ledger.number? name = none →
    application.entities.find? (·.name.ident == name) = some entity →
    Refuses application index ledger host field connection
      (.identifierCollision "tables" entity.name.label name name)

namespace Storing

section

variable {application : Application} {index : Index} {schema : String} {ledger after : Ledger}
  {host target holder referenced : Entity} {field : Field} {connection : Connection}
  {array : Bool} {fault : Fault}

theorem storeBoth_error_iff :
    storeBoth application schema field host target ledger = .error fault after ↔
      after = ledger ∧ ledger.number? (Plan.linkName host target) = none ∧
        ∃ entity, application.entities.find? (·.name.ident == Plan.linkName host target) =
            some entity ∧
          fault = .identifierCollision "tables" entity.name.label (Plan.linkName host target)
            (Plan.linkName host target) := by
  rw [storeBoth_run, requireAssociation_run, ← Plan.linkName]
  cases ledger.number? (Plan.linkName host target) with
  | some id => simp
  | none =>
    cases application.entities.find? (·.name.ident == Plan.linkName host target) with
    | none => simp
    | some entity =>
      simp only [EStateM.Result.error.injEq, Option.some.injEq, exists_eq_left', true_and]
      exact ⟨fun ⟨faults, same⟩ => ⟨same.symm, faults.symm⟩,
        fun ⟨same, faults⟩ => ⟨faults.symm, same.symm⟩⟩

theorem storeOne_error_iff :
    storeOne field holder referenced array ledger = .error fault after ↔
      after = ledger ∧ ∃ first,
        ledger.taker? holder.id (Plan.referenceName field referenced) = some first ∧
          fault = .identifierCollision holder.name.ident first.label field.name.label
            (Plan.referenceName field referenced) := by
  rw [storeOne_run]
  cases ledger.taker? holder.id (Plan.referenceName field referenced) with
  | none => simp
  | some first =>
    simp only [EStateM.Result.error.injEq, Option.some.injEq, exists_eq_left']
    exact ⟨fun ⟨faults, same⟩ => ⟨same.symm, faults.symm⟩,
      fun ⟨same, faults⟩ => ⟨faults.symm, same.symm⟩⟩

/-- **Storing a connection fails where the ledger refuses it, and nothing is changed then.** -/
theorem store_error_iff :
    store application index schema host field connection ledger = .error fault after ↔
      after = ledger ∧ ledger.Refuses application index host field connection fault := by
  rw [store_run]
  cases known : index.entity? connection.target with
  | none =>
    simp only [EStateM.Result.error.injEq]
    constructor
    · rintro ⟨rfl, rfl⟩
      exact ⟨rfl, .target known⟩
    · rintro ⟨rfl, refuses⟩
      cases refuses with
      | target _ => exact ⟨rfl, rfl⟩
      | column found _ _ => simp [known] at found
      | association found _ _ _ _ => simp [known] at found
  | some id =>
    simp only
    cases placed : connection.placement? host (application.entity id) with
    | none =>
      simp only [storeBoth_error_iff]
      constructor
      · rintro ⟨rfl, new, entity, taken, rfl⟩
        exact ⟨rfl, .association known (Connection.placement?_eq_none.mp placed) rfl new taken⟩
      · rintro ⟨rfl, refuses⟩
        cases refuses with
        | target missing => simp [known] at missing
        | column found there _ =>
          cases known.symm.trans found
          simp [placed] at there
        | association found _ named new taken =>
          cases known.symm.trans found
          subst named
          exact ⟨rfl, new, _, taken, rfl⟩
    | some place =>
      obtain ⟨holder, referenced, array⟩ := place
      simp only [storeOne_error_iff]
      constructor
      · rintro ⟨rfl, first, taken, rfl⟩
        exact ⟨rfl, .column known placed taken⟩
      · rintro ⟨rfl, refuses⟩
        cases refuses with
        | target missing => simp [known] at missing
        | column found there taken =>
          cases known.symm.trans found
          cases placed.symm.trans there
          exact ⟨rfl, _, taken, rfl⟩
        | association found both _ _ _ =>
          cases known.symm.trans found
          rw [Connection.placement?_eq_none.mpr both] at placed
          cases placed

end

/-! ### Storing leniently -/

section

variable (application : Application) (index : Index) (schema : String)

theorem succeeding_sublist (ledger : Ledger)
    (connections : List (Entity × Field × Connection)) :
    (succeeding application index schema ledger connections).Sublist connections := by
  induction connections generalizing ledger with
  | nil => exact .slnil
  | cons connected rest ih =>
    unfold succeeding
    split
    · exact (ih _).cons_cons connected
    · exact (ih _).cons connected

/-- **Storing leniently is storing those that succeed.** One that fails leaves the ledger to the
next as it was, so the others do not notice that it is left out. -/
theorem run_succeeding (ledger : Ledger) (left : List Diagnostic)
    (connections : List (Entity × Field × Connection)) :
    (succeeding application index schema ledger connections).forM
        (fun connected =>
          store application index schema connected.1 connected.2.1 connected.2.2) ledger =
      .ok ⟨⟩ (connections.foldl (attempt application index schema) (ledger, left)).1 := by
  induction connections generalizing ledger left with
  | nil => rfl
  | cons connected rest ih =>
    rw [List.foldl_cons, attempt, succeeding]
    cases ran : store application index schema connected.1 connected.2.1 connected.2.2 ledger with
    | ok value after =>
      have next := ih after left
      simp only [List.forM, bind, EStateM.bind, ran]
      exact next
    | error fault after =>
      obtain ⟨rfl, _⟩ := store_error_iff.mp ran
      exact ih after _

end

end Storing

/-! ### The layout of an application -/

namespace Ledger

/-- The numbers are those of the associations, in their order. -/
def Numbered (ledger : Ledger) : Prop :=
  ledger.numbers = ledger.associations.map fun table => (table.name, table.id)

theorem Numbered.number?_eq {ledger : Ledger} (numbered : ledger.Numbered) (name : String) :
    ledger.number? name = (ledger.plan.associations.find? (·.name == name)).map Table.id := by
  rw [number?, numbered, lookup_map_eq_find?]
  rfl

end Ledger

namespace Storing

section

variable {application : Application} {index : Index} {schema : String} {ledger : Ledger}

/-- **A program ends as a plan does**: with the same fault, or with a ledger of that plan. -/
def Realizes (result : EStateM.Result Fault Ledger Unit) (planned : Except Fault Plan) : Prop :=
  match result with
  | .ok _ after => after.Numbered ∧ planned = .ok after.plan
  | .error fault _ => planned = .error fault

theorem realizes_storeOne (numbered : ledger.Numbered) (field : Field)
    (holder referenced : Entity) (array : Bool) :
    Realizes (storeOne field holder referenced array ledger)
      (ledger.plan.addReference field holder referenced array) := by
  have same : ledger.plan.taker? holder.id (Plan.referenceName field referenced) =
      ledger.taker? holder.id (Plan.referenceName field referenced) := rfl
  rw [storeOne_run, Plan.addReference]
  simp only [same]
  cases ledger.taker? holder.id (Plan.referenceName field referenced) with
  | some first => exact rfl
  | none => exact ⟨numbered, rfl⟩

theorem realizes_storeBoth (numbered : ledger.Numbered) (field : Field) (host target : Entity) :
    Realizes (storeBoth application schema field host target ledger)
      (ledger.plan.addAssociation application schema field host target) := by
  have planned : ledger.plan.addAssociation application schema field host target =
      (Plan.requireAssociation application schema ledger.plan (Plan.ordered host target).1
        (Plan.ordered host target).2 >>= fun found => Except.ok { found.2 with
          relations := found.2.relations ++ [(field.id, .manyToMany found.1 host.id target.id
            (sideColumns host target).1 (sideColumns host target).2)] }) := rfl
  rw [storeBoth_run, requireAssociation_run, planned, Plan.requireAssociation,
    numbered.number?_eq]
  cases ledger.plan.associations.find? (·.name == Plan.associationName
      (Plan.ordered host target).1 (Plan.ordered host target).2) with
  | some table => exact ⟨numbered, rfl⟩
  | none =>
    cases application.entities.find? (·.name.ident == Plan.associationName
        (Plan.ordered host target).1 (Plan.ordered host target).2) with
    | some entity => exact rfl
    | none =>
      refine ⟨?_, rfl⟩
      show ledger.numbers ++ [_] = _
      rw [numbered, List.map_append]
      rfl

variable (application index schema)

/-- **Storing a connection is adding it to the plan.** -/
theorem realizes_store (numbered : ledger.Numbered) (host : Entity) (field : Field)
    (connection : Connection) :
    Realizes (store application index schema host field connection ledger)
      (ledger.plan.add application index schema host field connection) := by
  rw [store_run]
  cases known : index.entity? connection.target with
  | none =>
    show ledger.plan.add application index schema host field connection = _
    rw [Plan.add, Index.requireEntity, known]
    rfl
  | some id =>
    have planned : ledger.plan.add application index schema host field connection =
        match connection.placement? host (application.entity id) with
        | none =>
          ledger.plan.addAssociation application schema field host (application.entity id)
        | some place => ledger.plan.addReference field place.1 place.2.1 place.2.2 := by
      rw [Plan.add, Index.requireEntity, known, Connection.placement?_eq]
      cases connection.isManyToMany <;> cases connection.isOneToMany <;> rfl
    rw [planned]
    simp only
    cases connection.placement? host (application.entity id) with
    | none => exact realizes_storeBoth numbered field host _
    | some place => exact realizes_storeOne numbered field place.1 place.2.1 place.2.2

/-- **Storing connections leniently comes to the plan that is run.** -/
theorem foldl_attempt_eq (numbered : ledger.Numbered) (left : List Diagnostic)
    (connections : List (Entity × Field × Connection)) :
    connections.foldl (Plan.attempt application index schema) (ledger.plan, left) =
      ((connections.foldl (attempt application index schema) (ledger, left)).1.plan,
        (connections.foldl (attempt application index schema) (ledger, left)).2) := by
  induction connections generalizing ledger left with
  | nil => rfl
  | cons connected rest ih =>
    obtain ⟨host, field, connection⟩ := connected
    have realizes := realizes_store application index schema numbered host field connection
    rw [List.foldl_cons, List.foldl_cons, attempt, Plan.attempt]
    cases ran : store application index schema host field connection ledger with
    | ok value after =>
      rw [ran] at realizes
      obtain ⟨still, planned⟩ := realizes
      simp only [planned]
      exact ih still left
    | error fault after =>
      rw [ran] at realizes
      obtain ⟨rfl, _⟩ := store_error_iff.mp ran
      have planned : after.plan.add application index schema host field connection =
        .error fault := realizes
      simp only [planned]
      exact ih numbered _

theorem ofApplication_eq :
    Layout.ofApplication application index schema =
      ((resolve application index schema).1.plan.layout application index schema,
        (resolve application index schema).2) := by
  have numbered : (Ledger.initial application).Numbered := rfl
  have run := foldl_attempt_eq application index schema numbered [] application.connections
  exact congrArg (fun state : Plan × List Diagnostic =>
    (state.1.layout application index schema, state.2)) run

end

/-- **A connection that fails leaves nothing behind.** Whatever the ledger, storing a connection
fails where the ledger refuses it, for the reason given, and all six collections are then what they
were. So connections that are stored leniently come to the ledger that those that succeed come to,
and the layout of an application is made of such a ledger. -/
theorem store_atomic (application : Application) (index : Index) (schema : String) :
    (∀ ledger host field connection fault after,
      store application index schema host field connection ledger = .error fault after ↔
        after = ledger ∧
          Ledger.Refuses application index ledger host field connection fault) ∧
    (∀ ledger left connections,
      (succeeding application index schema ledger connections).Sublist connections ∧
      (succeeding application index schema ledger connections).forM
          (fun connected =>
            store application index schema connected.1 connected.2.1 connected.2.2) ledger =
        .ok ⟨⟩ (connections.foldl (attempt application index schema) (ledger, left)).1) ∧
    Layout.ofApplication application index schema =
      ((resolve application index schema).1.plan.layout application index schema,
        (resolve application index schema).2) :=
  ⟨fun _ _ _ _ _ _ => store_error_iff,
    fun ledger left connections =>
      ⟨succeeding_sublist application index schema ledger connections,
        run_succeeding application index schema ledger left connections⟩,
    ofApplication_eq application index schema⟩

end Storing

end AppSchema
