/-
**Columns of ids store connections.**

A connection with one record on some side is recorded with the column that has the ids. The records
and the columns are two lists that grow together, on tables that the connections choose; and so does
the list of foreign keys.

* `Layout.HoldsIds`: the column of a recorded connection is the only one of its name, on the side
  that its cardinalities say, and has a foreign key unless it has many ids;
* `Layout.StoresConnections`: every recorded connection has such a column, and there are no other
  columns of connections and no other foreign keys;
* `Layout.storesConnections_of_ofSources`: so it is for every application that is classified, also
  where connections were left out.
-/

import AppSchema.Proofs.Storage.Layout
import AppSchema.Proofs.Tagged

namespace AppSchema

/-- The column of ids of a recorded connection, with the table that holds it. -/
def Relation.reference? : FieldId × Relation → Option (TableId × Column)
  | (field, .single holder column _ array) =>
    some (holder, { name := column, type := if array then .array .integer else .integer
                    field := some field })
  | (_, .manyToMany ..) => none

namespace Layout

/-- Whether a column stores a connection. -/
def isConnection (layout : Layout) (column : Column) : Bool :=
  column.field.any fun field => (layout.field field).kind.connection?.isSome

/-- The columns that store connections, with their tables. -/
def connectionColumns (layout : Layout) : List (TableId × Column) :=
  layout.tables.flatMap fun table =>
    (table.columns.filter layout.isConnection).map fun column => (table.id, column)

/-- **A column of `holder` has the ids of `referenced` for a connection.** -/
structure HoldsIds (layout : Layout) (id : FieldId) (holder : TableId) (column : String)
    (referenced : TableId) (array : Bool) : Prop where
  connects : ∃ host ∈ layout.application.entities, ∃ field ∈ host.fields, ∃ connection,
    ∃ target ∈ layout.application.entities, field.id = id ∧ field.kind = .connection connection ∧
      target.key = connection.target ∧
      connection.placement? host.id target.id = some (holder, referenced, array)
  object : (layout.table holder).kind = .object
  columns : (layout.table holder).columns.filter (·.name = column) =
    [{ name := column, type := if array then .array .integer else .integer, field := some id }]
  foreignKeys : (layout.foreignKeys.filter fun key =>
      (key.table, key.column) = ((layout.table holder).name, column)) =
    if array then [] else [.of (layout.table holder).name column (layout.table referenced).name]

/-- **The recorded connections are the columns of ids.** -/
structure StoresConnections (layout : Layout) : Prop where
  distinct : (layout.relations.map Prod.fst).Nodup
  holdsIds : ∀ id holder column referenced array,
    (id, .single holder column referenced array) ∈ layout.relations →
      layout.HoldsIds id holder column referenced array
  columns : (layout.relations.filterMap Relation.reference?).Perm layout.connectionColumns
  foreignKeys : ∀ key ∈ layout.foreignKeys, ∃ id holder column referenced,
    (id, .single holder column referenced false) ∈ layout.relations ∧
      key = .of (layout.table holder).name column (layout.table referenced).name

end Layout

/-! ### Connections of an application -/

/-- **No two connections share a field.** -/
theorem Application.WellFormed.nodup_connections {application : Application}
    (wellFormed : application.WellFormed) :
    (application.connections.map (·.2.1.id)).Nodup := by
  rw [connections, List.map_flatMap]
  refine nodup_flatMap_of_tagged FieldId.table (fun entity member id inside => ?_)
    wellFormed.nodup_ids fun entity member => ?_
  · obtain ⟨connected, there, rfl⟩ := List.mem_map.mp inside
    obtain ⟨field, own, found⟩ := List.mem_filterMap.mp there
    obtain ⟨_, _, rfl⟩ := Option.map_eq_some_iff.mp found
    exact (wellFormed.field_eq member own).1
  · refine (wellFormed.entity entity member).nodup_ids.sublist
      (sublist_map_filterMap Field.id fun field _ connected found => ?_)
    obtain ⟨_, _, rfl⟩ := Option.map_eq_some_iff.mp found
    rfl

/-! ### Columns of ids -/

namespace Plan

variable {application : Application} {plan : Plan} {schema : String} {index : Index}
  {stored : List (Entity × Field × Connection)} {claim : Claim}

/-- The column of ids of a record is that of its connection. -/
theorem Records.reference?_eq {associations : List Table}
    {connected : Entity × Field × Connection} {entry : FieldId × Relation}
    (records : Records application associations connected entry) :
    Relation.reference? entry = (application.claim? connected).map Claim.reference := by
  cases records with
  | single claims =>
    rw [claims]
    rfl
  | manyToMany both found =>
    rw [Application.claim?_eq_none both found]
    rfl

namespace Follows

/-- **The recorded columns of ids are those of the plan.** -/
theorem reference?_eq (follows : Follows application stored plan) :
    plan.relations.filterMap Relation.reference? = plan.references := by
  rw [follows.references_eq, List.map_filterMap]
  exact filterMap_eq_of_forall₂ follows.relations fun _ _ records => records.reference?_eq

/-- The relations are recorded under the fields of the connections. -/
theorem fields_eq (follows : Follows application stored plan) :
    plan.relations.map Prod.fst = stored.map (·.2.1.id) := by
  have fields : plan.relations.filterMap (fun entry => some entry.1) =
      stored.filterMap fun connected => some connected.2.1.id :=
    filterMap_eq_of_forall₂ follows.relations fun _ _ records => congrArg some records.fst_eq
  rwa [List.filterMap_eq_map', List.filterMap_eq_map'] at fields

/-- **The column of a claim is the only one of its name.** -/
theorem filter_columns (follows : Follows application stored plan)
    (member : claim ∈ stored.filterMap application.claim?)
    (holds : claim.holder ∈ application.entities) :
    (claim.holder.table schema (plan.referencesOf claim.holder.id)).columns.filter
      (·.name = claim.name) = [claim.reference.2] := by
  -- No field has the name, since it was free before any connection.
  have fields : ∀ own : List Field, own ⊆ claim.holder.fields →
      (own.filterMap Entity.storedColumn?).filter (·.name = claim.name) = [] := by
    intro own inside
    refine List.filter_eq_nil_iff.mpr fun column stores => ?_
    obtain ⟨field, there, is⟩ := List.mem_filterMap.mp stores
    obtain ⟨_, _, rfl⟩ := Option.map_eq_some_iff.mp is
    have taken := mem_takenIdents_initial holds (inside there)
    have apart : field.name.ident ≠ claim.name := by
      intro same
      rw [same] at taken
      exact follows.apart claim member taken
    simpa using apart
  have named : (plan.references.map fun reference => (reference.1, reference.2.name)).Nodup := by
    rw [follows.references_eq, List.map_map]
    exact follows.distinct
  have there : claim.reference ∈ plan.references := by
    rw [follows.references_eq]
    exact List.mem_map_of_mem member
  have one := filter_eq_singleton named there
  have references : (plan.referencesOf claim.holder.id).filter (·.name = claim.name) =
      [claim.reference.2] := by
    rw [referencesOf, List.filter_map, List.filter_filter]
    refine Eq.trans (congrArg _ ?_) (congrArg (List.map Prod.snd) one)
    refine List.filter_congr fun reference _ => ?_
    simp only [Function.comp_apply, Prod.mk.injEq, Bool.decide_and, beq_eq_decide]
    exact Bool.and_comm _ _
  rw [Entity.table, List.filter_append, List.filter_append, references,
    fields claim.holder.domainFields (List.filter_subset_self _),
    fields claim.holder.syntheticFields (List.filter_subset_self _)]
  rfl

/-- **The foreign key of a claim is the only one of its column.** -/
theorem filter_foreignKeys (follows : Follows application stored plan)
    (distinct : (application.entities.map (·.name.ident)).Nodup)
    (connections : stored ⊆ application.connections)
    (member : claim ∈ stored.filterMap application.claim?) :
    (plan.foreignKeys.filter fun key =>
      (key.table, key.column) = (claim.holder.name.ident, claim.name)) =
        claim.foreignKey?.toList := by
  have holders : ∀ claim ∈ stored.filterMap application.claim?,
      claim.holder ∈ application.entities := by
    intro claim inside
    obtain ⟨connected, there, claims⟩ := List.mem_filterMap.mp inside
    exact (Application.claim?_mem (connections there) claims).1
  have named : ((stored.filterMap application.claim?).map fun claim =>
      (claim.holder.name.ident, claim.name)).Nodup := by
    refine List.pairwise_map.mpr ((List.pairwise_map.mp follows.distinct).imp_of_mem ?_)
    intro first second firstIn secondIn apart same
    obtain ⟨sameHolder, sameName⟩ := Prod.mk.inj same
    have holder : first.holder = second.holder :=
      List.inj_on_of_nodup_map distinct (holders _ firstIn) (holders _ secondIn) sameHolder
    exact apart (Prod.ext (congrArg Entity.id holder) sameName)
  rw [follows.foreignKeys_eq, List.filterMap_eq_flatMap_toList]
  refine filter_flatMap_of_tagged (fun key : ForeignKey => (key.table, key.column))
    (fun claim _ key inside => ?_) named member
  unfold Claim.foreignKey? at inside
  split at inside
  · cases inside
  · obtain rfl := List.mem_singleton.mp inside
    rfl

/-- The columns of ids, table by table. -/
theorem perm_references (follows : Follows application stored plan)
    (wellFormed : application.WellFormed)
    (connections : stored ⊆ application.connections) :
    plan.references.Perm (application.entities.flatMap fun entity =>
      (plan.referencesOf entity.id).map fun column => (entity.id, column)) := by
  have parts : ∀ id : TableId, (plan.referencesOf id).map (fun column => (id, column)) =
      plan.references.filter (·.1 == id) := by
    intro id
    rw [referencesOf, List.map_map]
    refine Eq.trans (List.map_congr_left fun reference inside => ?_) (List.map_id _)
    have same : reference.1 = id := by simpa using (List.mem_filter.mp inside).2
    exact same ▸ rfl
  have distinct : plan.references.Nodup := by
    refine List.Nodup.of_map (fun reference => (reference.1, reference.2.name)) ?_
    rw [follows.references_eq, List.map_map]
    exact follows.distinct
  simp only [parts]
  refine (List.perm_ext_iff_of_nodup distinct ?_).mpr fun reference => ?_
  · refine nodup_flatMap_of_tagged Prod.fst (fun entity _ reference inside => ?_)
      wellFormed.nodup_ids fun entity _ => distinct.filter _
    simpa using (List.mem_filter.mp inside).2
  · simp only [List.mem_flatMap, List.mem_filter, beq_iff_eq]
    constructor
    · intro member
      rw [follows.references_eq] at member
      obtain ⟨claim, claimed, rfl⟩ := List.mem_map.mp member
      obtain ⟨connected, there, claims⟩ := List.mem_filterMap.mp claimed
      have holder := (Application.claim?_mem (connections there) claims).1
      rw [← follows.references_eq] at member
      exact ⟨claim.holder, holder, member, rfl⟩
    · rintro ⟨_, _, member, _⟩
      exact member

/-- The columns of ids of a table are those that it holds. -/
theorem referencesOf_eq (follows : Follows application stored plan) (id : TableId) :
    plan.referencesOf id = ((stored.filterMap application.claim?).filter
      (·.holder.id == id)).map fun claim => claim.reference.2 := by
  rw [referencesOf, follows.references_eq, List.filter_map, List.map_map]
  rfl

/-- A column of ids stores a connection. -/
theorem exists_connection (follows : Follows application stored plan)
    (connections : stored ⊆ application.connections) {id : TableId} {column : Column}
    (member : column ∈ plan.referencesOf id) :
    ∃ host ∈ application.entities, ∃ field ∈ host.fields, field.kind.connection?.isSome = true ∧
      column.field = some field.id := by
  have refers := Layout.Checked.mem_referencesOf.mp member
  rw [follows.references_eq] at refers
  obtain ⟨claim, claimed, same⟩ := List.mem_map.mp refers
  obtain ⟨⟨host, field, connection⟩, there, claims⟩ := List.mem_filterMap.mp claimed
  obtain ⟨hosts, own, isConnection⟩ := Application.mem_connections.mp (connections there)
  refine ⟨host, hosts, field, own, by simp [isConnection], ?_⟩
  rw [← (Application.claim?_eq_some.mp claims).1]
  exact congrArg (fun reference => reference.2.field) same.symm

/-- **The columns of connections are the columns of ids**: a field that is stored as it is is no
connection, and an association stores no field. -/
theorem connectionColumns_eq (follows : Follows application stored plan)
    (sound : plan.Sound application schema) (wellFormed : application.WellFormed)
    (connections : stored ⊆ application.connections) :
    (plan.layout application index schema).connectionColumns =
      application.entities.flatMap fun entity =>
        (plan.referencesOf entity.id).map fun column => (entity.id, column) := by
  have fields : ∀ entity ∈ application.entities, ∀ own : List Field, own ⊆ entity.fields →
      (own.filterMap Entity.storedColumn?).filter
        (plan.layout application index schema).isConnection = [] := by
    intro entity member own inside
    refine List.filter_eq_nil_iff.mpr fun column stores => ?_
    obtain ⟨field, there, is⟩ := List.mem_filterMap.mp stores
    obtain ⟨stored, kind, rfl⟩ := Option.map_eq_some_iff.mp is
    have found : (plan.layout application index schema).field field.id = field :=
      (wellFormed.field_eq member (inside there)).2
    have other : field.kind.connection? = none := by
      cases is : field.kind <;> simp_all [FieldKind.stored?, FieldKind.connection?]
    simp [Layout.isConnection, found, other]
  have references : ∀ id : TableId, (plan.referencesOf id).filter
      (plan.layout application index schema).isConnection = plan.referencesOf id := by
    intro id
    refine List.filter_eq_self.mpr fun column inside => ?_
    obtain ⟨host, hosts, field, own, isConnection, fieldOf⟩ :=
      follows.exists_connection connections inside
    have found : (plan.layout application index schema).field field.id = field :=
      (wellFormed.field_eq hosts own).2
    simp [Layout.isConnection, fieldOf, found, isConnection]
  have associations : (plan.associations.flatMap fun table =>
      (table.columns.filter (plan.layout application index schema).isConnection).map
        fun column => (table.id, column)) = [] := by
    refine List.flatMap_eq_nil_iff.mpr fun table member => ?_
    obtain ⟨position, found⟩ := List.mem_iff_getElem?.mp member
    obtain ⟨host, _, target, _, equal, _⟩ := sound.association position table found
    rw [equal]
    rfl
  show (_ ++ plan.associations).flatMap _ = _
  rw [List.flatMap_append, associations, List.append_nil, List.flatMap_map]
  refine List.flatMap_congr fun entity member => ?_
  rw [Entity.table, List.filter_append, List.filter_append, references,
    fields entity member entity.domainFields (List.filter_subset_self _),
    fields entity member entity.syntheticFields (List.filter_subset_self _), List.nil_append,
    List.append_nil]

/-- **The column of a recorded connection**: where it is, and its foreign key. -/
theorem holdsIds (follows : Follows application stored plan) (wellFormed : application.WellFormed)
    (distinct : (application.entities.map (·.name.ident)).Nodup)
    (connections : stored ⊆ application.connections)
    {connected : Entity × Field × Connection} (there : connected ∈ stored)
    (claims : application.claim? connected = some claim) :
    (plan.layout application index schema).HoldsIds claim.field.id claim.holder.id claim.name
      claim.referenced.id claim.array := by
  have member := connections there
  have claimed : claim ∈ stored.filterMap application.claim? :=
    List.mem_filterMap.mpr ⟨connected, there, claims⟩
  obtain ⟨holds, refers⟩ := Application.claim?_mem member claims
  have holder : (plan.layout application index schema).table claim.holder.id = _ :=
    table_layout wellFormed holds
  have referenced : (plan.layout application index schema).table claim.referenced.id = _ :=
    table_layout wellFormed refers
  refine ⟨?_, ?_, ?_, ?_⟩
  · obtain ⟨host, field, connection⟩ := connected
    obtain ⟨hosts, own, isConnection⟩ := Application.mem_connections.mp member
    obtain ⟨sameField, target, found, placed⟩ := Application.claim?_eq_some.mp claims
    obtain ⟨targets, keyed⟩ := Application.target?_eq_some found
    refine ⟨host, hosts, field, own, connection, target, targets, congrArg Field.id sameField.symm,
      FieldKind.connection?_eq_some.mp isConnection, keyed, ?_⟩
    rw [Connection.placement?_map, placed]
    rfl
  · rw [holder]
    rfl
  · rw [holder]
    exact follows.filter_columns claimed holds
  · rw [holder, referenced]
    refine Eq.trans (follows.filter_foreignKeys distinct connections claimed) ?_
    unfold Claim.foreignKey?
    split <;> rfl

/-- **The layout of a plan stores the connections that the plan follows.** -/
theorem storesConnections (follows : Follows application stored plan)
    (sound : plan.Sound application schema) (wellFormed : application.WellFormed)
    (distinct : (application.entities.map (·.name.ident)).Nodup)
    (connections : stored.Sublist application.connections) :
    (plan.layout application index schema).StoresConnections := by
  have inside := connections.subset
  refine ⟨?_, ?_, ?_, ?_⟩
  · show (plan.relations.map Prod.fst).Nodup
    rw [follows.fields_eq]
    exact wellFormed.nodup_connections.sublist (connections.map _)
  · intro id holder column referenced array recorded
    obtain ⟨connected, there, records⟩ := exists_of_mem_right follows.relations recorded
    obtain ⟨claim, claims, same⟩ := records.exists_claim rfl
    cases same
    exact follows.holdsIds wellFormed distinct inside there claims
  · show (plan.relations.filterMap Relation.reference?).Perm _
    rw [follows.reference?_eq, follows.connectionColumns_eq sound wellFormed inside]
    exact follows.perm_references wellFormed inside
  · intro key member
    replace member : key ∈ plan.foreignKeys := member
    rw [follows.foreignKeys_eq] at member
    obtain ⟨claim, claimed, keyed⟩ := List.mem_filterMap.mp member
    obtain ⟨connected, there, claims⟩ := List.mem_filterMap.mp claimed
    obtain ⟨entry, recorded, records⟩ := exists_of_mem_left follows.relations there
    obtain rfl := records.eq_relation claims
    obtain ⟨holds, refers⟩ := Application.claim?_mem (inside there) claims
    have holder : (plan.layout application index schema).table claim.holder.id = _ :=
      table_layout wellFormed holds
    have referenced : (plan.layout application index schema).table claim.referenced.id = _ :=
      table_layout wellFormed refers
    rw [Claim.foreignKey?] at keyed
    split at keyed
    · cases keyed
    · next one =>
      rw [Bool.not_eq_true] at one
      refine ⟨claim.field.id, claim.holder.id, claim.name, claim.referenced.id, ?_, ?_⟩
      · rw [← one]
        exact recorded
      · rw [holder, referenced]
        exact (Option.some.inj keyed).symm

end Follows

end Plan

namespace Layout

/-- **Columns of ids store connections, one each**, in every application that is classified, and
with all connections or without those that were left out. -/
theorem storesConnections_of_ofSources {objects : List ObjectSource} {index : Index}
    (distinct : (Application.ofSources objects).1.checkNames = .ok ())
    (indexed : Index.ofApplication (Application.ofSources objects).1 = .ok index)
    (schema : String) :
    (ofApplication (Application.ofSources objects).1 index schema).1.StoresConnections := by
  have wellFormed := (Application.classified_ofSources objects).toWellFormed
  obtain ⟨plan, stored, sound, follows, sublist, laid, _⟩ :=
    exists_follows wellFormed indexed schema
  rw [laid]
  exact follows.storesConnections sound wellFormed (Application.checkNames_eq_ok_iff.mp distinct) sublist

/-- A connection with one record on some side. -/
def oneSided (key name : String) (relationship : Relationship) : FieldSource :=
  { key, name, sourceType := "connection", relationship := some relationship }

/-- Books with many editors and a sequel, and with a field whose name the column of their author
would have. -/
def booksWithEditors : List ObjectSource :=
  [⟨"object_1", "Author", [oneSided "field_1" "Books" ⟨"object_2", .one, .many⟩]⟩,
    ⟨"object_2", "Book",
      [{ key := "field_2", name := "Books rel author id", sourceType := "short_text" },
       oneSided "field_3" "Editors" ⟨"object_1", .many, .one⟩,
       oneSided "field_4" "Sequel" ⟨"object_2", .one, .one⟩]⟩]

/-- The connection whose name is taken is left out, and the others have their columns. -/
theorem storesConnections_booksWithEditors :
    ∃ layout left index, Index.ofApplication (Application.ofSources booksWithEditors).1 =
        .ok index ∧
      ofApplication (Application.ofSources booksWithEditors).1 index "public" = (layout, left) ∧
      left.map Diagnostic.part = [.field "object_1" "field_1"] ∧
      layout.relations = [(⟨1, 1⟩, .single 1 "editors_rel_author_id" 0 true),
        (⟨1, 2⟩, .single 1 "sequel_rel_book_id" 1 false)] ∧
      layout.StoresConnections := by
  have names : (Application.ofSources booksWithEditors).1.checkNames = .ok () :=
    Application.checkNames_eq_ok_iff.mpr (by decide +kernel)
  have runs : (Index.ofApplication (Application.ofSources booksWithEditors).1).toOption.any
      (fun index =>
        let built := ofApplication (Application.ofSources booksWithEditors).1 index "public"
        decide (built.2.map Diagnostic.part = [.field "object_1" "field_1"] ∧
          built.1.relations = [(⟨1, 1⟩, .single 1 "editors_rel_author_id" 0 true),
            (⟨1, 2⟩, .single 1 "sequel_rel_book_id" 1 false)])) = true := by
    decide +kernel
  cases indexed : Index.ofApplication (Application.ofSources booksWithEditors).1 with
  | error fault =>
    rw [indexed] at runs
    cases runs
  | ok index =>
    rw [indexed] at runs
    obtain ⟨left, relations⟩ := of_decide_eq_true runs
    exact ⟨_, _, index, rfl, rfl, left, relations,
      storesConnections_of_ofSources names indexed "public"⟩

end Layout

end AppSchema
