/-
**What formulas read of tables.**

A formula reads other tables through their views, which show every field. Of the table of its own
view it reads columns, which formulas have not, and which a connection has only where its ids are
stored on this side. So it does where a reference names a field of its own table, and where a
connection leads back to this table.

* `Layout.Checked.readableColumn_eq_ok_iff`: a field is read of its table exactly where it has a
  column there;
* `Formula.ReadsStored`: the fields that a formula reads of its own table;
* `Layout.Checked.exists_column_of_readsStored`: all of them have columns there, and these are read.
-/

import AppSchema.Proofs.Formula.Comparison

namespace AppSchema

open Sql (ColumnRef Expr Leaf)

/-- The column that a leaf computes from. -/
def Sql.Leaf.ref : Leaf → ColumnRef
  | column ref => ref
  | rows ref _ => ref

/-- The references of a text formula, in the order of its source. -/
def Field.references (formula : Field) : List Formula.FieldRef :=
  match formula.kind with
  | .concatenation equation =>
    match Formula.parse formula.key equation with
    | .ok pieces => Formula.Piece.fieldRefs pieces
    | .error _ => []
  | _ => []

theorem Field.references_eq {formula : Field} {equation : String} {pieces : List Formula.Piece}
    (kind : formula.kind = .concatenation equation)
    (parsed : Formula.parse formula.key equation = .ok pieces) :
    formula.references = Formula.Piece.fieldRefs pieces := by
  simp [references, kind, parsed]

/-! ### Sources -/

/-- Only the host itself is read as a table. -/
theorem Layout.isView_source (layout : Layout) (host other : TableId) :
    (layout.source host other).isView = !decide (other = host) := by
  unfold source Sql.FromItem.isView
  by_cases self : other = host <;> simp [self]

namespace Formula

variable {layout : Layout} {formula : Field}

/-- **The column that an aggregate summarises.** -/
theorem aggregateColumn_eq_ok_iff {aggregate : Aggregate} {other : TableId} {stored : Bool}
    {column : String} : aggregateColumn layout formula aggregate other stored = .ok column ↔
      (aggregate.method = .count ∧ column = "id") ∨
      (aggregate.method ≠ .count ∧ ∃ key, aggregate.target = some key ∧ ∃ id,
        layout.index.field? key = some id ∧ id.table = other ∧
        readableColumn layout (layout.field id) stored = .ok column) := by
  unfold aggregateColumn
  by_cases counts : aggregate.method = .count
  · simp [counts, eq_comm]
  · rw [if_neg counts]
    cases aggregate.target with
    | none => simp [counts, wrong]
    | some target =>
      simp only [bind_eq_ok, requireField_eq_ok_iff, counts, false_and, false_or, ne_eq,
        not_false_eq_true, true_and, Option.some.injEq, exists_eq_left']
      refine exists_congr fun id => and_congr_right fun _ => ?_
      by_cases own : id.table = other <;> simp [own, wrong]

/-- **The fields that a formula reads of its own table**: those of references without a connection,
and, where a connection leads back to the table, those that are read through it. -/
inductive ReadsStored (layout : Layout) (formula : Field) : FieldId → Prop
  | own {ref : FieldRef} {id : FieldId} :
    ref ∈ formula.references → ref.via = none → layout.index.field? ref.field = some id →
    ReadsStored layout formula id
  | linked {ref : FieldRef} {connection : String} {link : Link} {id : FieldId} :
    ref ∈ formula.references → ref.via = some connection →
    linked layout formula connection true = .ok (link, formula.id.table) →
    layout.index.field? ref.field = some id → ReadsStored layout formula id
  | summarised {aggregate : Aggregate} {key : String} {link : Link} {id : FieldId} :
    formula.kind = .aggregate aggregate → aggregate.method ≠ .count →
    aggregate.target = some key →
    linked layout formula aggregate.connection false = .ok (link, formula.id.table) →
    layout.index.field? key = some id → ReadsStored layout formula id

/-- What is read is the field of a key. -/
theorem ReadsStored.exists_key {id : FieldId} (reads : ReadsStored layout formula id) :
    ∃ key, layout.index.field? key = some id := by
  cases reads with
  | own _ _ known => exact ⟨_, known⟩
  | linked _ _ _ known => exact ⟨_, known⟩
  | summarised _ _ _ _ known => exact ⟨_, known⟩

/-- What a text formula computes from is what its references stand for. -/
theorem mem_leaves_of_compileConcatenation {equation : String} {compiled : CompiledFormula}
    (kind : formula.kind = .concatenation equation)
    (found : compileConcatenation layout formula equation = .ok compiled) :
    (∀ ref ∈ formula.references, ∃ before expr after,
      resolver layout formula ref before = .ok (expr, after) ∧
        ∀ leaf ∈ expr.leaves, leaf ∈ compiled.expr.leaves) ∧
    ∀ leaf ∈ compiled.expr.leaves, ∃ ref ∈ formula.references, ∃ before expr after,
      resolver layout formula ref before = .ok (expr, after) ∧ leaf ∈ expr.leaves := by
  obtain ⟨pieces, parsed, found⟩ := bind_eq_ok.mp found
  obtain ⟨⟨parts, reads⟩, evaluated, found⟩ := bind_eq_ok.mp found
  cases found
  obtain ⟨values, resolved, same⟩ :=
    resolved_of_expressions pieces (Piece.sound_of_parse parsed) evaluated
  simp only [Field.references_eq kind parsed, Expr.leaves, same]
  constructor
  · intro ref member
    obtain ⟨before, expr, after, _, _, found, value, _⟩ := resolved.exists_of_mem member
    exact ⟨before, expr, after, found, fun leaf inside => Expr.mem_leavesEach.mpr
      ⟨expr, value, inside⟩⟩
  · intro leaf member
    obtain ⟨expr, value, inside⟩ := Expr.mem_leavesEach.mp member
    obtain ⟨ref, named, before, after, found⟩ := resolved.exists_of_mem_values value
    exact ⟨ref, named, before, expr, after, found, inside⟩

/-- What a reference of a compiled formula stands for is read. -/
theorem exists_resolved_of_mem {compiled : CompiledFormula}
    (found : compile layout formula = .ok compiled) {ref : FieldRef}
    (inside : ref ∈ formula.references) :
    ∃ before expr after, resolver layout formula ref before = .ok (expr, after) ∧
      ∀ leaf ∈ expr.leaves, leaf ∈ compiled.expr.leaves := by
  unfold compile at found
  cases kind : formula.kind with
  | concatenation equation =>
    rw [kind] at found
    exact (mem_leaves_of_compileConcatenation kind found).1 ref inside
  | _ => simp [Field.references, kind] at inside

/-- A link reads the column that it is asked for. -/
theorem exists_leaf_of_read (link : Link) (source : Sql.FromItem) (host column : String) :
    ∃ leaf ∈ (link.read source host column).leaves, leaf.ref.column = column := by
  rcases link with _ | ⟨_, _ | _⟩ | _
  · exact ⟨.rows _ _, List.mem_singleton_self _, rfl⟩
  · exact ⟨.column _, List.mem_singleton_self _, rfl⟩
  · exact ⟨.rows _ _, List.mem_singleton_self _, rfl⟩
  · exact ⟨.rows _ _, List.mem_singleton_self _, rfl⟩

/-- **A field that a compiled formula reads of its own table is readable there**, and what is
readable is read. -/
theorem exists_readable_of_readsStored {compiled : CompiledFormula}
    (found : compile layout formula = .ok compiled) {id : FieldId}
    (reads : ReadsStored layout formula id) :
    id.table = formula.id.table ∧ ∃ column,
      readableColumn layout (layout.field id) true = .ok column ∧
        ∃ leaf ∈ compiled.expr.leaves, leaf.ref.column = column := by
  have table : (!(layout.source formula.id.table formula.id.table).isView) = true := by
    simp [Layout.isView_source]
  cases reads with
  | own inside via known =>
    obtain ⟨before, expr, after, resolved, leaves⟩ := exists_resolved_of_mem found inside
    rcases resolver_cases resolved with ⟨_, read, _⟩ | ⟨_, through, _⟩
    · obtain ⟨other, column, again, own, readable, rfl⟩ := readOwn_eq_ok_iff.mp read
      obtain rfl := Option.some.inj (known.symm.trans again)
      exact ⟨own, column, readable, .column _, leaves _ (List.mem_singleton_self _), rfl⟩
    · rw [via] at through
      cases through
  | linked inside via leads known =>
    obtain ⟨before, expr, after, resolved, leaves⟩ := exists_resolved_of_mem found inside
    rcases resolver_cases resolved with ⟨own, _⟩ | ⟨_, through, read⟩
    · rw [via] at own
      cases own
    · obtain rfl := Option.some.inj (via.symm.trans through)
      obtain ⟨_, _, other, column, followed, again, own, readable, rfl, _⟩ :=
        readLinked_eq_ok_iff.mp read
      cases leads.symm.trans followed
      obtain rfl := Option.some.inj (known.symm.trans again)
      rw [table] at readable
      obtain ⟨leaf, member, same⟩ := exists_leaf_of_read _ _ _ column
      exact ⟨own, column, readable, leaf, leaves leaf member, same⟩
  | summarised kind sums target leads known =>
    unfold compile at found
    rw [kind] at found
    obtain ⟨link, other, column, followed, summed, rfl⟩ := compileAggregate_eq_ok_iff.mp found
    cases leads.symm.trans followed
    rcases aggregateColumn_eq_ok_iff.mp summed with
      ⟨counts, _⟩ | ⟨_, key, targets, other, again, own, readable⟩
    · exact absurd counts sums
    · obtain rfl := Option.some.inj (target.symm.trans targets)
      obtain rfl := Option.some.inj (known.symm.trans again)
      rw [table] at readable
      exact ⟨own, column, readable, _, List.mem_singleton_self _, rfl⟩

end Formula

/-! ### Columns -/

namespace Layout.Checked

open Formula

variable {schema : String} {plan : Plan} {left : List Diagnostic} {layout : Layout} {host : Entity}
  {field : Field} {stored : List (Entity × Field × Connection)}

/-- **A column of a field on its own table** is that of a stored field, or has the ids of a
connection. -/
theorem column_cases (checked : layout.Checked schema plan left)
    (follows : Plan.Follows layout.application stored plan)
    (connections : stored ⊆ layout.application.connections)
    (hosts : host ∈ layout.application.entities) (inside : field ∈ host.fields) {column : Column}
    (found : layout.column? field.id = some column) :
    column ∈ (layout.table host.id).columns ∧
      (Entity.storedColumn? field = some column ∨ field.kind.connection?.isSome = true) := by
  have member := List.mem_of_find?_eq_some found
  have stores : column.field = some field.id := by simpa using List.find?_some found
  rw [(checked.wellFormed.field_eq hosts inside).1] at member
  refine ⟨member, ?_⟩
  rw [checked.table_entity hosts] at member
  rcases mem_columns.mp member with ⟨other, within, is⟩ | reference
  · have same := Option.some.inj ((Entity.field_of_storedColumn? is).symm.trans stores)
    obtain rfl := checked.eq_of_fieldId hosts hosts within inside same
    exact .inl is
  · obtain ⟨owner, owners, other, own, connects, of⟩ :=
      follows.exists_connection connections reference
    have same := Option.some.inj (of.symm.trans stores)
    obtain rfl := checked.eq_of_fieldId owners hosts own inside same
    exact .inr connects

/-- A stored field has its column. -/
theorem column?_stored (checked : layout.Checked schema plan left)
    (hosts : host ∈ layout.application.entities) (inside : field ∈ host.fields)
    {value : StoredField} (kind : field.kind = .stored value) :
    (layout.column? field.id).isSome = true := by
  rw [Layout.column?, List.find?_isSome, (checked.wellFormed.field_eq hosts inside).1,
    checked.table_entity hosts]
  have is : ∃ column, Entity.storedColumn? field = some column := by
    rw [Entity.storedColumn?, kind]
    exact ⟨_, rfl⟩
  obtain ⟨column, is⟩ := is
  refine ⟨column, mem_columns.mpr (.inl ⟨field, inside, is⟩), ?_⟩
  simp [Entity.field_of_storedColumn? is]

/-- **A field is read of its table exactly where it has a column there.** -/
theorem readableColumn_eq_ok_iff (checked : layout.Checked schema plan left)
    (follows : Plan.Follows layout.application stored plan)
    (connections : stored ⊆ layout.application.connections)
    (hosts : host ∈ layout.application.entities) (inside : field ∈ host.fields) {name : String} :
    readableColumn layout field true = .ok name ↔
      ∃ column, layout.column? field.id = some column ∧ column.name = name := by
  have kinds : ∀ column, layout.column? field.id = some column →
      Entity.storedColumn? field = some column ∨ field.kind.connection?.isSome = true :=
    fun _ found => (checked.column_cases follows connections hosts inside found).2
  unfold readableColumn
  cases kind : field.kind with
  | stored value =>
    have named : ∀ column, layout.column? field.id = some column →
        column.name = field.name.ident := by
      intro column found
      rcases kinds column found with is | connects
      · rw [Entity.storedColumn?, kind] at is
        rw [← Option.some.inj is]
      · simp [kind, FieldKind.connection?] at connects
    obtain ⟨column, found⟩ := Option.isSome_iff_exists.mp (checked.column?_stored hosts inside kind)
    simp only [found, Option.some.injEq, exists_eq_left', Except.ok.injEq, named column found]
  | connection connection =>
    cases layout.column? field.id <;> simp
  | aggregate | concatenation =>
    have none : ∀ column, layout.column? field.id ≠ some column := by
      intro column found
      have either := kinds column found
      simp [kind, Entity.storedColumn?, FieldKind.stored?, FieldKind.connection?] at either
    simp [none]

/-- **A field that a compiled formula reads of its own table has a column there.** It is no formula,
and if it is a connection, its ids are stored on this side. -/
theorem exists_column_of_readsStored (checked : layout.Checked schema plan left)
    (follows : Plan.Follows layout.application stored plan)
    (connections : stored ⊆ layout.application.connections)
    (hosts : host ∈ layout.application.entities) {formula : Field} (own : formula ∈ host.fields)
    {compiled : CompiledFormula} (found : compile layout formula = .ok compiled) {id : FieldId}
    (reads : ReadsStored layout formula id) :
    ∃ field ∈ host.fields, field.id = id ∧ field.kind.isFormula = false ∧
      ∃ column ∈ (layout.table host.id).columns, layout.column? id = some column ∧
        ∃ leaf ∈ compiled.expr.leaves, leaf.ref.column = column.name := by
  obtain ⟨table, name, readable, read⟩ := exists_readable_of_readsStored found reads
  obtain ⟨key, known⟩ := reads.exists_key
  have required : layout.index.requireField key key = .ok id := requireField_eq_ok_iff.mpr known
  obtain ⟨other, others, tableOf, inside, same⟩ := checked.field_of_requireField required
  have held := (tableOf.symm.trans table).trans (checked.wellFormed.field_eq hosts own).1
  obtain rfl := checked.eq_of_id others hosts held
  obtain ⟨column, stores, rfl⟩ :=
    (checked.readableColumn_eq_ok_iff follows connections hosts inside).mp readable
  obtain ⟨member, either⟩ := checked.column_cases follows connections hosts inside stores
  rw [same] at stores
  refine ⟨layout.field id, inside, same, ?_, column, member, stores, read⟩
  cases kind : (layout.field id).kind with
  | stored | connection => rfl
  | aggregate | concatenation =>
    simp [kind, Entity.storedColumn?, FieldKind.stored?, FieldKind.connection?] at either

end Layout.Checked

end AppSchema
