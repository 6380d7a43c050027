/-
**Compiling formulas under new numbers.**

A formula refers to fields by their keys, and what it compiles to is made of names. The numbers of
entities only say which relation and which column belong to a field, and which side of a relation
the formula stands on. So under new numbers every formula compiles to the same, or fails alike.

* `Layout.Renumbered`: two checked layouts of one application, under either numbers;
* `Layout.Renumbered.exists_relations`: a connection is stored the same way in both;
* `Layout.Renumbered.linked_eq`, `Layout.Renumbered.readableColumn_eq`: what formulas follow and
  read;
* `Layout.Renumbered.compile_eq`: what a formula compiles to;
* `Layout.Renumbered.compiledOf_eq`: the compiled formulas of an entity.
-/

import AppSchema.Proofs.Storage.Renumbered
import AppSchema.Proofs.View.Basic

namespace AppSchema

variable {renumber : TableId → TableId}

/-- A compiled formula under the new number of its table. -/
def CompiledFormula.renumbered (renumber : TableId → TableId) (compiled : CompiledFormula) :
    CompiledFormula :=
  { compiled with field := compiled.field.renumbered renumber }

/-- **Two checked layouts of one application**, under either numbers, that have all connections. -/
structure Layout.Renumbered (renumber : TableId → TableId) (schema : String)
    (first second : Layout) (plan plan' : Plan) : Prop
    extends Plan.Renumbered renumber schema first.application second.application plan plan' where
  checked : first.Checked schema plan []
  checked' : second.Checked schema plan' []

/-! ### Relations -/

/-- **A relation under new numbers.** An association may have any number behind the entities, and is
recognised by its name. -/
inductive Relation.Renumbered (renumber : TableId → TableId) (first second : Layout) :
    Relation → Relation → Prop
  | single {holder referenced : Entity} {column : String} {array : Bool} :
    holder ∈ first.application.entities → referenced ∈ first.application.entities →
    Renumbered renumber first second (.single holder.id column referenced.id array)
      (.single (renumber holder.id) column (renumber referenced.id) array)
  | manyToMany {host target : Entity} {table table' : TableId}
    {hostColumn targetColumn : String} :
    host ∈ first.application.entities → target ∈ first.application.entities →
    (second.table table').name = (first.table table).name →
    Renumbered renumber first second
      (.manyToMany table host.id target.id hostColumn targetColumn)
      (.manyToMany table' (renumber host.id) (renumber target.id) hostColumn targetColumn)

namespace Relation.Renumbered

variable {first second : Layout} {relation relation' : Relation} {host : Entity}

/-- **It is followed by the same link.** -/
theorem of?_eq (relations : Relation.Renumbered renumber first second relation relation')
    (renumbers : first.application.Renumbers renumber second.application)
    (hosts : host ∈ first.application.entities) (outward : Bool) :
    Link.of? second relation' (renumber host.id) outward =
      Link.of? first relation host.id outward := by
  cases relations with
  | single holds refers =>
    simp only [Link.of?, ne_eq, renumbers.renumber_eq_iff holds hosts,
      renumbers.renumber_eq_iff refers hosts]
  | manyToMany firsts seconds named =>
    simp only [Link.of?, named, renumbers.renumber_eq_iff firsts hosts,
      renumbers.renumber_eq_iff seconds hosts]

/-- **It leads to the same entity.** -/
theorem other?_eq (relations : Relation.Renumbered renumber first second relation relation')
    (renumbers : first.application.Renumbers renumber second.application)
    (hosts : host ∈ first.application.entities) :
    relation'.other? (renumber host.id) = (relation.other? host.id).map renumber := by
  obtain ⟨one, ones, two, twos, sides, sides'⟩ : ∃ one ∈ first.application.entities,
      ∃ two ∈ first.application.entities, relation.sides = (one.id, two.id) ∧
        relation'.sides = (renumber one.id, renumber two.id) := by
    cases relations with
    | single holds refers => exact ⟨_, holds, _, refers, rfl, rfl⟩
    | manyToMany hosts targets => exact ⟨_, hosts, _, targets, rfl, rfl⟩
  simp only [Relation.other?, sides, sides', renumbers.renumber_eq_iff ones hosts,
    renumbers.renumber_eq_iff twos hosts]
  by_cases forward : one.id = host.id
  · simp [forward]
  · by_cases backward : two.id = host.id <;> simp [forward, backward]

end Relation.Renumbered

/-- The column of a relation, if a table holds it. -/
def Relation.columnOf? (host : TableId) : Relation → Option String
  | .single holder column _ _ => if holder = host then some column else none
  | .manyToMany .. => none

theorem Relation.Renumbered.columnOf?_eq {first second : Layout} {relation relation' : Relation}
    (relations : Relation.Renumbered renumber first second relation relation')
    (renumbers : first.application.Renumbers renumber second.application) {host : Entity}
    (hosts : host ∈ first.application.entities) :
    relation'.columnOf? (renumber host.id) = relation.columnOf? host.id := by
  cases relations with
  | single holds _ => simp only [columnOf?, renumbers.renumber_eq_iff holds hosts]
  | manyToMany => rfl

namespace Plan

variable {application : Application} {plan : Plan} {connected : Entity × Field × Connection}

/-- **The relation of a connection is found by its field.** -/
theorem Follows.exists_entry (follows : Follows application application.connections plan)
    (wellFormed : application.WellFormed) (member : connected ∈ application.connections) :
    ∃ entry, plan.relations.lookup connected.2.1.id = some entry.2 ∧
      Records application plan.associations connected entry := by
  obtain ⟨entry, recorded, records⟩ := exists_of_mem_left follows.relations member
  refine ⟨entry, ?_, records⟩
  have distinct : (plan.relations.map Prod.fst).Nodup := by
    rw [follows.fields_eq]
    exact wellFormed.nodup_connections
  rw [Index.lookup_eq_some_iff_mem distinct, ← records.fst_eq]
  exact recorded

/-- The columns of an association do not depend on the numbers of its entities. -/
theorem associationColumns_renumbered {first second : Application} {host target : Entity}
    (renumbers : first.Renumbers renumber second) (hosts : host ∈ first.entities)
    (targets : target ∈ first.entities) :
    associationColumns (host.renumbered renumber) (target.renumbered renumber) =
      associationColumns host target := by
  simp only [associationColumns, Entity.renumbered_id, Entity.renumbered_name,
    renumbers.renumber_eq_iff hosts targets]

end Plan

namespace Layout.Checked

variable {schema : String} {plan : Plan} {left : List Diagnostic} {layout : Layout}

/-- A column of the host that stores a connection is the one that the connection claims. -/
theorem exists_claim_of_mem_columns (checked : layout.Checked schema plan left)
    (follows : Plan.Follows layout.application layout.application.connections plan)
    {host : Entity} {field : Field} {connection : Connection}
    (member : (host, field, connection) ∈ layout.application.connections) {column : Column}
    (inside : column ∈ (host.table schema (plan.referencesOf host.id)).columns)
    (stores : column.field = some field.id) :
    ∃ claim, layout.application.claim? (host, field, connection) = some claim ∧
      claim.reference = (host.id, column) := by
  obtain ⟨hosts, own, isConnection⟩ := Application.mem_connections.mp member
  rcases mem_columns.mp inside with ⟨other, within, is⟩ | reference
  · obtain ⟨value, kept, rfl⟩ := Option.map_eq_some_iff.mp is
    obtain rfl := checked.eq_of_fieldId hosts hosts within own (Option.some.inj stores)
    rw [FieldKind.connection?_eq_some.mp isConnection] at kept
    cases kept
  · have refers := mem_referencesOf.mp reference
    rw [follows.references_eq] at refers
    obtain ⟨claim, claimed, same⟩ := List.mem_map.mp refers
    obtain ⟨⟨other, second, third⟩, there, claims⟩ := List.mem_filterMap.mp claimed
    have sameField : second.id = field.id := by
      rw [← (Application.claim?_eq_some.mp claims).1]
      exact Option.some.inj ((congrArg (·.2.field) same).trans stores)
    have one := List.inj_on_of_nodup_map checked.wellFormed.nodup_connections there member
      sameField
    exact ⟨claim, one ▸ claims, same⟩

/-- **The own column of a connection is that of its relation**, where its host holds it. -/
theorem column?_eq (checked : layout.Checked schema plan left)
    (follows : Plan.Follows layout.application layout.application.connections plan)
    {host : Entity} {field : Field} {connection : Connection}
    (member : (host, field, connection) ∈ layout.application.connections) {relation : Relation}
    (stored : layout.relation? field.id = some relation) :
    (layout.column? field.id).map Column.name = relation.columnOf? host.id := by
  obtain ⟨hosts, own, _⟩ := Application.mem_connections.mp member
  obtain ⟨table, _⟩ := checked.wellFormed.field_eq hosts own
  obtain ⟨entry, found, records⟩ := follows.exists_entry checked.wellFormed member
  rw [relation?, checked.relations_eq, found] at stored
  obtain rfl := Option.some.inj stored
  rw [column?, table, checked.table_entity hosts]
  cases looked : (host.table schema (plan.referencesOf host.id)).columns.find?
      (·.field == some field.id) with
  | some column =>
    have stores := List.find?_some looked
    obtain ⟨claim, claims, same⟩ := checked.exists_claim_of_mem_columns follows member
      (List.mem_of_find?_eq_some looked) (by simpa using stores)
    obtain ⟨holds, rfl⟩ := Prod.mk.inj same
    rw [records.eq_relation claims]
    exact (if_pos holds).symm
  | none =>
    cases records with
    | manyToMany => rfl
    | @single _ claim claims =>
      refine (if_neg fun holds => ?_).symm
      have claimed := List.mem_filterMap.mpr ⟨_, member, claims⟩
      have reference : (host.id, claim.reference.2) ∈ plan.references := by
        rw [follows.references_eq, ← holds]
        exact List.mem_map_of_mem claimed
      have inside : claim.reference.2 ∈
          (host.table schema (plan.referencesOf host.id)).columns :=
        mem_columns.mpr (.inr (mem_referencesOf.mpr reference))
      have sameField := (Application.claim?_eq_some.mp claims).1
      exact absurd (by simp [Claim.reference, Plan.referenceColumn, sameField])
        (List.find?_eq_none.mp looked _ inside)

end Layout.Checked

namespace Layout.Renumbered

open Formula

variable {schema : String} {first second : Layout} {plan plan' : Plan}
  {host other : Entity} {field formula : Field}

/-- **A connection is stored the same way.** -/
theorem exists_relations (renumbered : Renumbered renumber schema first second plan plan')
    {connected : Entity × Field × Connection}
    (member : connected ∈ first.application.connections) :
    ∃ relation relation', first.relation? connected.2.1.id = some relation ∧
      second.relation? (connected.2.1.id.renumbered renumber) = some relation' ∧
      Relation.Renumbered renumber first second relation relation' := by
  have there := renumbered.renumberedConnection_mem member
  obtain ⟨entry, found, records⟩ := renumbered.follows.exists_entry renumbered.wellFormed member
  obtain ⟨entry', found', records'⟩ :=
    renumbered.follows'.exists_entry renumbered.wellFormed' there
  refine ⟨entry.2, entry'.2, ?_, ?_, ?_⟩
  · rw [relation?, renumbered.checked.relations_eq, found]
  · rw [relation?, renumbered.checked'.relations_eq]
    exact found'
  · cases records with
    | @single _ claim claims =>
      obtain ⟨holds, refers⟩ := Application.claim?_mem member claims
      have claims' := renumbered.claim?_eq renumbered.keys connected
      rw [claims] at claims'
      rw [records'.eq_relation claims']
      exact .single holds refers
    | @manyToMany host target _ _ table both known associated named =>
      have hosts := (Application.mem_connections.mp member).1
      have targets := (Application.target?_eq_some known).1
      obtain ⟨table', associated', named', rfl⟩ := records'.exists_association both
        ((renumbered.target?_eq renumbered.keys _).trans (congrArg _ known))
      rw [Plan.associationColumns_renumbered renumbered.toRenumbers hosts targets]
      refine .manyToMany hosts targets ?_
      rw [renumbered.checked.table_association associated,
        renumbered.checked'.table_association associated', named, named',
        Plan.linkName_renumbered]

/-! ### What formulas follow and read -/

theorem layoutEntity_eq (renumbered : Renumbered renumber schema first second plan plan')
    (hosts : host ∈ first.application.entities) :
    second.entity (renumber host.id) = (first.entity host.id).renumbered renumber := by
  have own : first.entity host.id = host := renumbered.wellFormed.entity_eq hosts
  rw [own]
  exact renumbered.entity_eq hosts

theorem source_eq (renumbered : Renumbered renumber schema first second plan plan')
    (hosts : host ∈ first.application.entities) (others : other ∈ first.application.entities) :
    second.source (renumber host.id) (renumber other.id) = first.source host.id other.id := by
  simp only [source, renumbered.renumber_eq_iff others hosts, renumbered.layoutEntity_eq others]
  rfl

/-- **A key leads to the same field**, if it leads to one. -/
theorem requireField_cases (renumbered : Renumbered renumber schema first second plan plan')
    (referencing key : String) :
    (∃ fault, first.index.requireField referencing key = .error fault ∧
      second.index.requireField referencing key = .error fault) ∨
    ∃ entity ∈ first.application.entities, ∃ field ∈ entity.fields,
      first.index.requireField referencing key = .ok field.id ∧
      second.index.requireField referencing key = .ok (field.id.renumbered renumber) ∧
      field.id.table = entity.id ∧ first.field field.id = field ∧
      second.field (field.id.renumbered renumber) = field.renumbered renumber := by
  have same := renumbered.requireField_eq renumbered.checked.indexed renumbered.checked'.indexed
    referencing key
  cases found : first.index.requireField referencing key with
  | error fault =>
    rw [found] at same
    exact .inl ⟨fault, rfl, same⟩
  | ok id =>
    obtain ⟨entity, member, table, own, numbered⟩ :=
      renumbered.checked.field_of_requireField found
    rw [found] at same
    refine .inr ⟨entity, member, first.field id, own, ?_⟩
    have moved := renumbered.field_eq member own
    rw [numbered] at moved ⊢
    exact ⟨rfl, same, table, rfl, moved⟩

/-- **A formula follows the same relation.** -/
theorem followed_cases (renumbered : Renumbered renumber schema first second plan plan')
    (formula : Field) (connection : String) :
    (∃ fault, followed first formula connection = .error fault ∧
      followed second (formula.renumbered renumber) connection = .error fault) ∨
    ∃ relation relation', followed first formula connection = .ok relation ∧
      followed second (formula.renumbered renumber) connection = .ok relation' ∧
      Relation.Renumbered renumber first second relation relation' := by
  unfold followed
  rcases renumbered.requireField_cases formula.key connection with
    ⟨fault, found, found'⟩ | ⟨entity, member, field, own, found, found', _, is, is'⟩
  · rw [Field.renumbered_key, found, found']
    exact .inl ⟨fault, rfl, rfl⟩
  · simp only [Field.renumbered_key, found, found', bind, Except.bind, is, is',
      Field.renumbered_kind]
    cases connects : field.kind.connection? with
    | none => exact .inl ⟨_, rfl, rfl⟩
    | some stored =>
      have there : (entity, field, stored) ∈ first.application.connections :=
        Application.mem_connections.mpr ⟨member, own, connects⟩
      obtain ⟨relation, relation', looked, looked', relations⟩ :=
        renumbered.exists_relations there
      refine .inr ⟨relation, relation', ?_, ?_, relations⟩
      · simp only [looked]
        rfl
      · simp only [looked']
        rfl

/-- **A formula follows the same link.** -/
theorem linked_eq (renumbered : Renumbered renumber schema first second plan plan')
    (hosts : host ∈ first.application.entities) (hosted : formula.id.table = host.id)
    (connection : String) (outward : Bool) :
    linked second (formula.renumbered renumber) connection outward =
      (fun found => (found.1, renumber found.2)) <$> linked first formula connection outward := by
  unfold linked
  rw [Field.renumbered_id, FieldId.renumbered_table, hosted]
  rcases renumbered.followed_cases formula connection with
    ⟨fault, found, found'⟩ | ⟨relation, relation', found, found', relations⟩
  · rw [found, found']
    rfl
  · simp only [found, found', bind, Except.bind, renumbered.layoutEntity_eq hosts,
      relations.of?_eq renumbered.toRenumbers hosts,
      relations.other?_eq renumbered.toRenumbers hosts]
    cases Link.of? first relation host.id outward with
    | none => rfl
    | some link => cases relation.other? host.id <;> rfl

/-- The own column of a connection has the same name. -/
theorem columnName_eq (renumbered : Renumbered renumber schema first second plan plan')
    {connection : Connection}
    (there : (host, field, connection) ∈ first.application.connections) :
    (second.column? (field.id.renumbered renumber)).map Column.name =
      (first.column? field.id).map Column.name := by
  have hosts := (Application.mem_connections.mp there).1
  have there' := renumbered.renumberedConnection_mem there
  obtain ⟨relation, relation', looked, looked', relations⟩ := renumbered.exists_relations there
  have column := renumbered.checked.column?_eq renumbered.follows there looked
  have column' := renumbered.checked'.column?_eq renumbered.follows' there' looked'
  rw [column, ← relations.columnOf?_eq renumbered.toRenumbers hosts]
  exact column'

/-- **A field is read from the same column.** -/
theorem readableColumn_eq (renumbered : Renumbered renumber schema first second plan plan')
    (hosts : host ∈ first.application.entities) (own : field ∈ host.fields) (stored : Bool) :
    readableColumn second (field.renumbered renumber) stored =
      readableColumn first field stored := by
  have table := (renumbered.wellFormed.field_eq hosts own).1
  simp only [readableColumn, Field.renumbered_id, FieldId.renumbered_table, table,
    renumbered.layoutEntity_eq hosts, Field.renumbered_kind]
  cases is : field.kind with
  | stored value => rfl
  | aggregate aggregate => rfl
  | concatenation equation => rfl
  | connection connection =>
    have same := renumbered.columnName_eq
      (Application.mem_connections.mpr ⟨hosts, own, FieldKind.connection?_eq_some.mpr is⟩)
    cases looked : second.column? (field.id.renumbered renumber) with
    | none =>
      rw [looked] at same
      rw [Option.map_eq_none_iff.mp same.symm]
      rfl
    | some column =>
      rw [looked] at same
      obtain ⟨_, found, named⟩ := Option.map_eq_some_iff.mp same.symm
      rw [found]
      exact congrArg Except.ok named.symm

/-- **An aggregate summarises the same column.** -/
theorem aggregateColumn_eq (renumbered : Renumbered renumber schema first second plan plan')
    (others : other ∈ first.application.entities) (formula : Field) (aggregate : Aggregate)
    (stored : Bool) :
    aggregateColumn second (formula.renumbered renumber) aggregate (renumber other.id) stored =
      aggregateColumn first formula aggregate other.id stored := by
  unfold aggregateColumn
  cases aggregate.target with
  | none => rfl
  | some target =>
    rcases renumbered.requireField_cases formula.key target with
      ⟨fault, found, found'⟩ | ⟨entity, member, field, own, found, found', table, is, is'⟩
    · simp only [Field.renumbered_key, found, found', bind, Except.bind]
    · simp only [Field.renumbered_key, found, found', bind, Except.bind, is, is',
        FieldId.renumbered_table, table, ne_eq, renumbered.renumber_eq_iff member others,
        renumbered.layoutEntity_eq others, renumbered.readableColumn_eq member own]
      rfl

/-- **A reference to the host reads the same column.** -/
theorem readOwn_eq (renumbered : Renumbered renumber schema first second plan plan')
    (hosts : host ∈ first.application.entities) (hosted : formula.id.table = host.id)
    (key : String) :
    readOwn second (formula.renumbered renumber) key = readOwn first formula key := by
  unfold readOwn
  rw [Field.renumbered_id, FieldId.renumbered_table, hosted]
  rcases renumbered.requireField_cases formula.key key with
    ⟨fault, found, found'⟩ | ⟨entity, member, field, own, found, found', table, is, is'⟩
  · simp only [Field.renumbered_key, found, found', bind, Except.bind]
  · simp only [Field.renumbered_key, found, found', bind, Except.bind, is, is',
      FieldId.renumbered_table, table, ne_eq, renumbered.renumber_eq_iff member hosts,
      renumbered.layoutEntity_eq hosts, renumbered.layoutEntity_eq member,
      renumbered.readableColumn_eq member own]
    rfl

/-- **A reference through a connection reads the same column.** -/
theorem readLinked_eq (renumbered : Renumbered renumber schema first second plan plan')
    (hosts : host ∈ first.application.entities) (hosted : formula.id.table = host.id)
    (connection key : String) (reads : Reads) :
    readLinked second (formula.renumbered renumber) connection key reads =
      readLinked first formula connection key reads := by
  unfold readLinked
  rw [renumbered.linked_eq hosts hosted, Field.renumbered_id, FieldId.renumbered_table, hosted]
  cases follows : linked first formula connection true with
  | error fault => rfl
  | ok found =>
    obtain ⟨link, id⟩ := found
    obtain ⟨other, others, rfl, _⟩ := renumbered.checked.fits_of_linked hosted follows
    rcases renumbered.requireField_cases formula.key key with
      ⟨fault, found, found'⟩ | ⟨entity, member, field, own, found, found', table, is, is'⟩
    · simp only [Field.renumbered_key, found, found', Functor.map, Except.map, bind, Except.bind]
    · simp only [Field.renumbered_key, found, found', Functor.map, Except.map, bind, Except.bind,
        is, is', FieldId.renumbered_table, table, ne_eq, renumbered.renumber_eq_iff member others,
        renumbered.layoutEntity_eq hosts, renumbered.layoutEntity_eq others,
        renumbered.source_eq hosts others, renumbered.readableColumn_eq member own]
      rfl

/-! ### Compiled formulas -/

theorem compileAggregate_eq (renumbered : Renumbered renumber schema first second plan plan')
    (hosts : host ∈ first.application.entities) (hosted : formula.id.table = host.id)
    (aggregate : Aggregate) :
    compileAggregate second (formula.renumbered renumber) aggregate =
      CompiledFormula.renumbered renumber <$> compileAggregate first formula aggregate := by
  unfold compileAggregate
  rw [renumbered.linked_eq hosts hosted, Field.renumbered_id, FieldId.renumbered_table, hosted]
  cases follows : linked first formula aggregate.connection false with
  | error fault => rfl
  | ok found =>
    obtain ⟨link, id⟩ := found
    obtain ⟨other, others, rfl, _⟩ := renumbered.checked.fits_of_linked hosted follows
    simp only [Functor.map, Except.map, bind, Except.bind, renumbered.layoutEntity_eq hosts,
      renumbered.source_eq hosts others, renumbered.aggregateColumn_eq others]
    cases aggregateColumn first formula aggregate other.id
      (!(first.source host.id other.id).isView) <;> rfl

theorem compileConcatenation_eq (renumbered : Renumbered renumber schema first second plan plan')
    (hosts : host ∈ first.application.entities) (hosted : formula.id.table = host.id)
    (equation : String) :
    compileConcatenation second (formula.renumbered renumber) equation =
      CompiledFormula.renumbered renumber <$> compileConcatenation first formula equation := by
  have resolves : resolver second (formula.renumbered renumber) = resolver first formula := by
    funext ref
    unfold resolver
    cases ref.via with
    | none =>
      simp only [renumbered.readOwn_eq hosts hosted]
    | some connection =>
      funext reads
      exact renumbered.readLinked_eq hosts hosted connection ref.field reads
  unfold compileConcatenation
  rw [resolves]
  show (parse formula.key equation >>= _) = _
  cases parse formula.key equation with
  | error fault => rfl
  | ok pieces =>
    simp only [bind, Except.bind, Functor.map, Except.map]
    cases (expressions (resolver first formula) pieces).run {} <;> rfl

/-- **A formula compiles to the same**, or fails alike. -/
theorem compile_eq (renumbered : Renumbered renumber schema first second plan plan')
    (hosts : host ∈ first.application.entities) (own : formula ∈ host.fields) :
    compile second (formula.renumbered renumber) =
      CompiledFormula.renumbered renumber <$> compile first formula := by
  have hosted := (renumbered.wellFormed.field_eq hosts own).1
  unfold compile
  rw [Field.renumbered_kind]
  cases formula.kind with
  | aggregate aggregate => exact renumbered.compileAggregate_eq hosts hosted aggregate
  | concatenation equation => exact renumbered.compileConcatenation_eq hosts hosted equation
  | stored => rfl
  | connection => rfl

theorem formulaFields_eq (renumbered : Renumbered renumber schema first second plan plan')
    (hosts : host ∈ first.application.entities) :
    (host.renumbered renumber).formulaFields =
      host.formulaFields.map (Field.renumbered renumber) :=
  (renumbered.wellFormed.entity host hosts).renumbered_filter fun _ => rfl

/-- **The compiled formulas of an entity are the same.** -/
theorem compiledOf_eq (renumbered : Renumbered renumber schema first second plan plan')
    (hosts : host ∈ first.application.entities) :
    compiledOf second (host.renumbered renumber) =
      (compiledOf first host).map (CompiledFormula.renumbered renumber) := by
  rw [compiledOf, compiledOf, renumbered.formulaFields_eq hosts, List.filterMap_map,
    List.map_filterMap]
  refine List.filterMap_congr fun formula inside => ?_
  rw [Function.comp_apply, renumbered.compile_eq hosts (List.mem_of_mem_filter inside)]
  cases compile first formula <;> rfl

/-- **All formulas are compiled where all of the other layout are.** -/
theorem left_compileAll (renumbered : Renumbered renumber schema first second plan plan')
    (none : (compileAll first).2 = []) : (compileAll second).2 = [] := by
  refine List.eq_nil_iff_forall_not_mem.mpr fun diagnostic member => ?_
  obtain ⟨entity, entities, field, own, fault, failed, _⟩ := mem_left_compileAll.mp member
  obtain ⟨host, hosts, rfl⟩ := renumbered.exists_of_mem entities
  rw [renumbered.formulaFields_eq hosts] at own
  obtain ⟨formula, inside, rfl⟩ := List.mem_map.mp own
  rw [renumbered.compile_eq hosts (List.mem_of_mem_filter inside)] at failed
  cases outcome : compile first formula with
  | ok compiled =>
    rw [outcome] at failed
    cases failed
  | error other =>
    have left := mem_left_compileAll.mpr ⟨host, hosts, formula, inside, other, outcome, rfl⟩
    rw [none] at left
    cases left

end Layout.Renumbered

end AppSchema
