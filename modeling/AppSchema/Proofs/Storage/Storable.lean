/-
**Which applications can be stored.**

Storing connections is one pass over all of them, and each takes names that the later ones cannot
have. Whether nothing is left out does not depend on the pass, though: all connections are stored
exactly where each has a target, no two want the same name, and none wants the name of a field or of
an entity.

* `Application.Storable`: the condition, which says nothing of an order;
* `Layout.left_eq_nil_iff`: nothing is left out exactly of such an application.
-/

import AppSchema.Proofs.Storage.Connection

namespace AppSchema

namespace Application

/-- The columns of ids that all connections claim. -/
def claims (application : Application) : List Claim :=
  application.connections.filterMap application.claim?

/-- **All connections can be stored.** -/
structure Storable (application : Application) : Prop where
  target : ∀ connected ∈ application.connections,
    ∃ target, application.target? connected.2.2.target = some target
  distinct : (application.claims.map Claim.place).Nodup
  apart : ∀ claim ∈ application.claims,
    claim.place ∉ (Plan.initial application).takenIdents
  free : ∀ connected ∈ application.connections, ∀ name,
    application.linkName? connected = some name →
      ∀ entity ∈ application.entities, entity.name.ident ≠ name

end Application

namespace Plan

variable {application : Application} {index : Index} {schema : String} {plan : Plan}

/-- **An application of which a plan has all connections** can be stored. -/
theorem Follows.storable (follows : Follows application application.connections plan) :
    application.Storable where
  target connected member := by
    obtain ⟨entry, _, records⟩ := exists_of_mem_left follows.relations member
    cases records with
    | single claims =>
      obtain ⟨target, found, _⟩ := Option.bind_eq_some_iff.mp claims
      exact ⟨target, found⟩
    | manyToMany _ found => exact ⟨_, found⟩
  distinct := follows.distinct
  apart := follows.apart
  free connected member name links := by
    have there := (follows.associations name).mpr ⟨connected, member, links⟩
    obtain ⟨table, associations, rfl⟩ := List.mem_map.mp there
    exact follows.free table associations

/-- A connection whose association has the name of no entity can be stored in it. -/
theorem exists_addAssociation (schema : String) (plan : Plan) (field : Field)
    {host target : Entity}
    (free : ∀ entity ∈ application.entities, entity.name.ident ≠ linkName host target) :
    ∃ result, plan.addAssociation application schema field host target = .ok result := by
  have required : ∃ found, plan.requireAssociation application schema (ordered host target).1
      (ordered host target).2 = .ok found := by
    have none : application.entities.find? (·.name.ident == associationName
        (ordered host target).1 (ordered host target).2) = none :=
      List.find?_eq_none.mpr fun entity member => by
        simpa [linkName] using free entity member
    rw [requireAssociation, none]
    cases plan.associations.find? (·.name == associationName (ordered host target).1
      (ordered host target).2) <;> exact ⟨_, rfl⟩
  obtain ⟨found, required⟩ := required
  exact ⟨_, bind_eq_ok.mpr ⟨found, required, rfl⟩⟩

/-- **One more connection of a storable application** can be stored. -/
theorem Follows.exists_add (wellFormed : application.WellFormed)
    (indexed : Index.ofApplication application = .ok index) (storable : application.Storable)
    {seen rest : List (Entity × Field × Connection)} {connected : Entity × Field × Connection}
    (split : application.connections = seen ++ connected :: rest)
    (follows : Follows application seen plan) (schema : String) :
    ∃ result, addConnected application index schema plan connected = .ok result ∧
      Follows application (seen ++ [connected]) result := by
  obtain ⟨host, field, connection⟩ := connected
  have member : (host, field, connection) ∈ application.connections := by simp [split]
  have hosts := (Application.mem_connections.mp member).1
  suffices added : ∃ result, plan.add application index schema host field connection =
      .ok result by
    obtain ⟨result, added⟩ := added
    exact ⟨result, added, follows.add wellFormed indexed hosts added⟩
  obtain ⟨target, found⟩ := storable.target _ member
  cases placed : connection.placement? host target with
  | none =>
    have both := Connection.placement?_eq_none.mp placed
    have links : application.linkName? (host, field, connection) = some (linkName host target) := by
      simp [Application.linkName?, both, found]
    obtain ⟨result, added⟩ := exists_addAssociation schema plan field
      (storable.free _ member _ links)
    exact ⟨result, (add_eq_ok_iff wellFormed indexed).mpr ⟨target, found, .inl ⟨both, added⟩⟩⟩
  | some place =>
    have claims : application.claim? (host, field, connection) =
        some ⟨field, place.1, place.2.1, place.2.2⟩ :=
      Application.claim?_eq_some.mpr ⟨rfl, target, found, placed⟩
    have all : application.claims = seen.filterMap application.claim? ++
        ⟨field, place.1, place.2.1, place.2.2⟩ :: rest.filterMap application.claim? := by
      rw [Application.claims, split, List.filterMap_append, List.filterMap_cons_some claims]
    have fresh : Claim.place ⟨field, place.1, place.2.1, place.2.2⟩ ∉ plan.takenIdents := by
      rw [follows.taken_eq, List.mem_append, not_or]
      refine ⟨storable.apart _ (by simp [all]), fun taken => ?_⟩
      have distinct := storable.distinct
      rw [all, List.map_append, List.map_cons, List.nodup_append] at distinct
      exact distinct.2.2 _ taken _ List.mem_cons_self rfl
    exact ⟨_, (add_eq_ok_iff wellFormed indexed).mpr ⟨target, found, .inr ⟨place, placed,
      (addReference_eq_ok_iff ⟨field, place.1, place.2.1, place.2.2⟩).mpr ⟨fresh, rfl⟩⟩⟩⟩

theorem foldl_attempt_of_foldlM {connections : List (Entity × Field × Connection)}
    {start result : Plan}
    (folded : connections.foldlM (addConnected application index schema) start = .ok result)
    (left : List Diagnostic) :
    connections.foldl (attempt application index schema) (start, left) = (result, left) := by
  induction connections generalizing start with
  | nil =>
    cases folded
    rfl
  | cons first rest ih =>
    rw [List.foldlM_cons, bind_eq_ok] at folded
    obtain ⟨between, added, folded⟩ := folded
    have step : attempt application index schema (start, left) first = (between, left) := by
      simp only [attempt, ← addConnected.eq_def, added]
    rw [List.foldl_cons, step]
    exact ih folded

end Plan

namespace Layout

variable {application : Application} {index : Index}

/-- Where nothing is left out, the layout comes from a plan that has all connections. -/
theorem exists_follows_of_left_eq_nil (wellFormed : application.WellFormed)
    (indexed : Index.ofApplication application = .ok index) {schema : String}
    (none : (ofApplication application index schema).2 = []) :
    ∃ plan, plan.Sound application schema ∧
      Plan.Follows application application.connections plan ∧
      ofApplication application index schema = (plan.layout application index schema, []) := by
  obtain ⟨plan, stored, sound, follows, sublist, laid, _, parts⟩ :=
    exists_follows wellFormed indexed schema
  rw [none, List.map_nil, List.append_nil] at parts
  have length := parts.length_eq
  rw [List.length_map, List.length_map] at length
  rw [sublist.eq_of_length length] at follows
  exact ⟨plan, sound, follows, Prod.ext laid none⟩

/-- **Nothing is left out exactly of an application that can be stored.** -/
theorem left_eq_nil_iff (wellFormed : application.WellFormed)
    (indexed : Index.ofApplication application = .ok index) (schema : String) :
    (ofApplication application index schema).2 = [] ↔ application.Storable := by
  constructor
  · intro none
    obtain ⟨plan, _, follows, _⟩ := exists_follows_of_left_eq_nil wellFormed indexed none
    exact follows.storable
  · intro storable
    obtain ⟨plan, folded⟩ := exists_foldlM (Plan.Follows application)
      (fun seen value connected rest split follows =>
        follows.exists_add wellFormed indexed storable split schema)
      (Plan.Follows.initial application)
    have attempted := Plan.foldl_attempt_of_foldlM folded []
    rw [ofApplication, attempted]

end Layout

end AppSchema
