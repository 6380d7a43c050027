/-
**Comparing ids with the columns that have them.**

A formula that follows a connection stored as a column of ids compares an id with this column: with
the one id in it, or with the ids of an array. The link from the side that holds the column knows
whether it is an array. The link from the other side does not, and compares the id with the whole
array; so of the two sides only one may follow an array.

* `Condition.Compares`: a condition that compares an id with a column of a type;
* `Layout.PicksBy`: a condition that picks rows by the column of a connection;
* `CompiledFormula.conditions`: the conditions that a compiled formula has, associations aside;
* `Formula.Picks`: every connection of a formula has its condition, and there are no others;
* `Settings.picks_of_layout`: so it is for every formula that is compiled;
* `Settings.equal_of_array`: a count of the projects of a tag compares its id with an array.
-/

import AppSchema.Proofs.Formula.Depends

namespace AppSchema

open Sql (ColumnRef Condition Expr FromItem Leaf)

/-! ### Conditions -/

/-- **A condition compares an id with a column** of a type. -/
inductive Sql.Condition.Compares (id column : ColumnRef) : ColumnType → Condition → Prop
  | left : Compares id column .integer (.equal id column)
  | right : Compares id column .integer (.equal column id)
  | member : Compares id column (.array .integer) (.member id column)

/-- The condition on the rows of a leaf that no association links. -/
def Sql.Leaf.condition? : Leaf → Option Condition
  | rows _ ⟨_, .onlyIf condition⟩ => some condition
  | _ => none

/-- **The conditions that a compiled formula has**: of its joins, and of its subqueries without
associations. -/
def CompiledFormula.conditions (compiled : CompiledFormula) : List Condition :=
  compiled.joins.map Join.on ++ compiled.expr.leaves.filterMap Leaf.condition?

/-- **A condition picks rows by a column of ids**: it compares an id with the column, and does so by
the column's type unless a host that does not hold the column follows an array. -/
def Layout.PicksBy (layout : Layout) (host holder : TableId) (column : String) (array : Bool)
    (condition : Condition) : Prop :=
  ∃ stored ids columns, (layout.table holder).columns.filter (·.name = column) = [stored] ∧
    (stored.type = if array then .array .integer else .integer) ∧
    (∃ type, condition.Compares ⟨ids, "id"⟩ ⟨columns, column⟩ type) ∧
    (condition.Compares ⟨ids, "id"⟩ ⟨columns, column⟩ stored.type ↔
      (array = true → host = holder))

/-! ### Links -/

namespace Link

variable {layout : Layout} {host other : TableId} {outward : Bool} {relation : Relation}
  {link : Link} {id : FieldId}

/-- **The filter of a link by a column of ids.** -/
theorem exists_filter {holder referenced : TableId} {column : String} {array : Bool}
    (holds : layout.HoldsIds id holder column referenced array)
    (of : Of layout host other outward (.single holder column referenced array) link)
    (source table : String) :
    ∃ condition, link.filter source table = .onlyIf condition ∧
      layout.PicksBy host holder column array condition := by
  cases of with
  | inbound own =>
    refine ⟨_, rfl, _, table, source, holds.columns, rfl, ⟨.integer, .right⟩, ?_⟩
    cases array with
    | false => exact ⟨fun _ many => Bool.noConfusion many, fun _ => .right⟩
    | true =>
      constructor
      · rintro ⟨⟩
      · intro held
        exact absurd (own (held rfl).symm).2 (Bool.noConfusion ·)
  | outbound own =>
    cases array with
    | false =>
      refine ⟨_, rfl, _, source, table, holds.columns, rfl, ⟨.integer, .left⟩, ?_⟩
      exact ⟨fun _ _ => rfl, fun _ => .left⟩
    | true =>
      refine ⟨_, rfl, _, source, table, holds.columns, rfl, ⟨.array .integer, .member⟩, ?_⟩
      exact ⟨fun _ _ => rfl, fun _ => .member⟩

/-- **The join of a link** is by a column of ids of the host, after which it is named. -/
theorem eq_single_of_join? (of : Of layout host other outward relation link) {source : FromItem}
    {table : String} {join : Join} (joins : link.join? source table = some join) :
    relation = .single host join.aliasName other false ∧
      join.on = .equal ⟨table, join.aliasName⟩ ⟨join.aliasName, "id"⟩ := by
  cases of with
  | inbound | association | reversed => cases joins
  | @outbound column array own =>
    cases array with
    | true => cases joins
    | false =>
      cases joins
      exact ⟨rfl, rfl⟩

/-- An association filters by its own rows. -/
theorem exists_single_of_filter (of : Of layout host other outward relation link)
    {source table : String} {condition : Condition}
    (filters : link.filter source table = .onlyIf condition) :
    ∃ holder column referenced array, relation = .single holder column referenced array := by
  cases of with
  | inbound | outbound => exact ⟨_, _, _, _, rfl⟩
  | association | reversed => cases filters

/-- Where nothing is joined, the rows are read in a subquery. -/
theorem read_of_join?_eq_none {source : FromItem} {table : String}
    (joins : link.join? source table = none) (column : String) :
    link.read source table column =
      .summary .joined ⟨source.name, column⟩ (link.rows source table) := by
  rcases link with _ | ⟨hostColumn, _ | _⟩ | _
  · rfl
  · cases joins
  · rfl
  · rfl

end Link

theorem Sql.Leaf.condition?_rows {link : Link} {source : FromItem} {table : String}
    {ref : ColumnRef} {condition : Condition} :
    (Leaf.rows ref (link.rows source table)).condition? = some condition ↔
      link.filter source.name table = .onlyIf condition := by
  unfold condition? Link.rows
  cases link.filter source.name table with
  | onlyIf picks => simp
  | through association picks => simp

/-- A leaf of what a link reads has the condition of its filter. -/
theorem Link.filter_of_mem_read {link : Link} {source : FromItem} {table column : String}
    {leaf : Leaf} {condition : Condition} (member : leaf ∈ (link.read source table column).leaves)
    (conditional : leaf.condition? = some condition) :
    link.filter source.name table = .onlyIf condition := by
  cases joins : link.join? source table with
  | none =>
    rw [read_of_join?_eq_none joins, Expr.leaves, List.mem_singleton] at member
    rw [member] at conditional
    exact Leaf.condition?_rows.mp conditional
  | some join =>
    rcases link with _ | ⟨hostColumn, _ | _⟩ | _
    · cases joins
    · rw [read, Expr.leaves, List.mem_singleton] at member
      rw [member] at conditional
      cases conditional
    · cases joins
    · cases joins

namespace Layout

/-- A join compares the column of ids after which it is named with the ids of what it joins. -/
theorem HoldsIds.picksBy_of_on {layout : Layout} {id : FieldId} {host referenced : TableId}
    {column table : String} (holds : layout.HoldsIds id host column referenced false)
    {condition : Condition} (on : condition = .equal ⟨table, column⟩ ⟨column, "id"⟩) :
    layout.PicksBy host host column false condition := by
  subst on
  refine ⟨_, column, table, holds.columns, rfl, ⟨.integer, .right⟩, ?_⟩
  exact ⟨fun _ _ => rfl, fun _ => .right⟩

/-- A stored connection is recorded. -/
theorem exists_mem_of_storedAs? {layout : Layout} {connection : String} {relation : Relation}
    (stored : layout.storedAs? connection = some relation) :
    ∃ id, (id, relation) ∈ layout.relations := by
  obtain ⟨id, _, recorded⟩ := Option.bind_eq_some_iff.mp stored
  exact ⟨id, Index.mem_of_lookup_eq_some recorded⟩

/-- The column of a stored connection is there. -/
theorem StoresConnections.exists_holdsIds {layout : Layout} (stores : layout.StoresConnections)
    {connection : String} {holder referenced : TableId} {column : String} {array : Bool}
    (stored : layout.storedAs? connection = some (.single holder column referenced array)) :
    ∃ id, layout.HoldsIds id holder column referenced array := by
  obtain ⟨id, recorded⟩ := exists_mem_of_storedAs? stored
  exact ⟨id, stores.holdsIds id holder column referenced array recorded⟩

end Layout

namespace Formula

variable {layout : Layout} {formula : Field} {compiled : CompiledFormula}

/-- **The conditions of a compiled formula are those of its connections** that are stored in columns
of ids. -/
structure Picks (layout : Layout) (formula : Field) (compiled : CompiledFormula) : Prop where
  all : ∀ connection ∈ formula.usedConnections, ∀ holder column referenced array,
    layout.storedAs? connection = some (.single holder column referenced array) →
      ∃ condition ∈ compiled.conditions,
        layout.PicksBy formula.id.table holder column array condition
  only : ∀ condition ∈ compiled.conditions, ∃ connection ∈ formula.usedConnections,
    ∃ holder column referenced array,
      layout.storedAs? connection = some (.single holder column referenced array) ∧
        layout.PicksBy formula.id.table holder column array condition

/-- A condition on the rows to which a connection leads is that of its column. -/
theorem exists_picksBy (stores : layout.StoresConnections) {connection : String} {outward : Bool}
    {link : Link} {other : TableId}
    (found : linked layout formula connection outward = .ok (link, other)) {source table : String}
    {condition : Condition} (filters : link.filter source table = .onlyIf condition) :
    ∃ holder column referenced array,
      layout.storedAs? connection = some (.single holder column referenced array) ∧
        layout.PicksBy formula.id.table holder column array condition := by
  obtain ⟨_, relation, stored, of⟩ := exists_of_linked found
  obtain ⟨holder, column, referenced, array, rfl⟩ := Link.exists_single_of_filter of filters
  obtain ⟨id, holds⟩ := stores.exists_holdsIds stored
  obtain ⟨picks, same, picksBy⟩ := Link.exists_filter holds of source table
  obtain rfl := Sql.Filter.onlyIf.inj (filters.symm.trans same)
  exact ⟨holder, column, referenced, array, stored, picksBy⟩

/-! ### Aggregates -/

/-- **An aggregate has the one condition of its connection.** -/
theorem picks_of_compileAggregate (stores : layout.StoresConnections) {aggregate : Aggregate}
    (kind : formula.kind = .aggregate aggregate)
    (found : compileAggregate layout formula aggregate = .ok compiled) :
    Picks layout formula compiled := by
  obtain ⟨link, other, column, linked, _, rfl⟩ := compileAggregate_eq_ok_iff.mp found
  constructor
  · intro connection member holder column referenced array stored
    rw [Field.usedConnections_aggregate kind, List.mem_singleton] at member
    subst member
    obtain ⟨_, relation, again, of⟩ := exists_of_linked linked
    obtain rfl := Option.some.inj (stored.symm.trans again)
    obtain ⟨id, holds⟩ := stores.exists_holdsIds stored
    obtain ⟨condition, filters, picksBy⟩ := Link.exists_filter holds of _ _
    refine ⟨condition, ?_, picksBy⟩
    refine List.mem_append_right _ (List.mem_filterMap.mpr ⟨_, List.mem_singleton_self _, ?_⟩)
    exact Leaf.condition?_rows.mpr filters
  · intro condition member
    obtain ⟨leaf, inside, conditional⟩ := List.mem_filterMap.mp member
    rw [List.mem_singleton.mp inside] at conditional
    refine ⟨aggregate.connection, ?_, exists_picksBy stores linked
      (Leaf.condition?_rows.mp conditional)⟩
    rw [Field.usedConnections_aggregate kind]
    exact List.mem_singleton_self _

/-! ### Text formulas -/

namespace Reads

theorem joins_addSource (reads : Reads) (source : FromItem) :
    (reads.addSource source).joins = reads.joins := by
  unfold addSource
  by_cases view : source.isView = true
  · rw [if_pos view, joins_addView]
  · rw [if_neg view]

theorem mem_joins_addJoin {reads : Reads} {join other : Join}
    (member : other ∈ (reads.addJoin join).joins) : other ∈ reads.joins ∨ other = join := by
  unfold addJoin at member
  split at member
  · exact .inl member
  · exact (List.mem_append.mp member).imp_right List.mem_singleton.mp

theorem mem_aliases_addJoin {reads : Reads} {join : Join} {name : String} :
    name ∈ (reads.addJoin join).joins.map Join.aliasName ↔
      name ∈ reads.joins.map Join.aliasName ∨ name = join.aliasName := by
  unfold addJoin
  split
  · next known =>
    obtain ⟨other, there, same⟩ := List.any_eq_true.mp known
    refine ⟨.inl, fun either => either.elim id ?_⟩
    rintro rfl
    exact List.mem_map.mpr ⟨other, there, eq_of_beq same⟩
  · simp

end Reads

/-- **What a reference through a connection reads and joins.** -/
theorem joins_of_readLinked {connection key : String} {expr : Expr} {before after : Reads}
    (found : readLinked layout formula connection key before = .ok (expr, after)) :
    ∃ link other source table column,
      linked layout formula connection true = .ok (link, other) ∧
      source = layout.source formula.id.table other ∧
      table = (layout.entity formula.id.table).name.ident ∧
      expr = link.read source table column ∧
      (∀ join ∈ after.joins, join ∈ before.joins ∨ link.join? source table = some join) ∧
      ∀ name, name ∈ after.joins.map Join.aliasName ↔ name ∈ before.joins.map Join.aliasName ∨
        ∃ join, link.join? source table = some join ∧ name = join.aliasName := by
  obtain ⟨link, other, id, column, linked, _, _, _, rfl, rfl⟩ := readLinked_eq_ok_iff.mp found
  refine ⟨link, other, _, _, column, linked, rfl, rfl, rfl, ?_⟩
  cases link.join? (layout.source formula.id.table other)
      (layout.entity formula.id.table).name.ident with
  | none => simp [Reads.joins_addSource]
  | some join =>
    simp only [Option.elim_some, Option.some.injEq, exists_eq_left', Reads.mem_aliases_addJoin,
      Reads.joins_addSource, implies_true, and_true]
    intro other inside
    rw [← Reads.joins_addSource before (layout.source formula.id.table _)]
    exact (Reads.mem_joins_addJoin inside).imp_right Eq.symm

variable {refs : List FieldRef} {values : List Expr} {first last : Reads}

/-- **A join was made by a connection** stored in the column of ids after which it is named. -/
theorem exists_of_mem_joins
    (resolved : Resolved (resolver layout formula) refs {} values last) {join : Join}
    (member : join ∈ last.joins) :
    ∃ connection ∈ refs.filterMap FieldRef.via, ∃ referenced,
      layout.storedAs? connection =
        some (.single formula.id.table join.aliasName referenced false) ∧
      ∃ table, join.on = .equal ⟨table, join.aliasName⟩ ⟨join.aliasName, "id"⟩ := by
  rcases resolved.exists_of_holds (fun reads => join ∈ reads.joins) member with
    start | ⟨ref, inside, before, expr, after, found, fresh, made⟩
  · cases start
  · rcases resolver_cases found with ⟨_, _, rfl⟩ | ⟨connection, via, read⟩
    · exact absurd made fresh
    · obtain ⟨link, other, source, table, _, linked, _, _, _, joins, _⟩ := joins_of_readLinked read
      have makes := (joins join made).resolve_left fresh
      obtain ⟨_, relation, stored, of⟩ := exists_of_linked linked
      obtain ⟨rfl, on⟩ := Link.eq_single_of_join? of makes
      exact ⟨connection, List.mem_filterMap.mpr ⟨ref, inside, via⟩, other, stored, table, on⟩

/-- Joins stay. -/
theorem keeps_aliases (resolved : Resolved (resolver layout formula) refs first values last)
    {name : String} (start : name ∈ first.joins.map Join.aliasName) :
    name ∈ last.joins.map Join.aliasName := by
  refine resolved.keeps (fun reads => name ∈ reads.joins.map Join.aliasName)
    (fun ref before expr after found inside => ?_) start
  rcases resolver_cases found with ⟨_, _, rfl⟩ | ⟨connection, via, read⟩
  · exact inside
  · obtain ⟨_, _, _, _, _, _, _, _, _, _, aliases⟩ := joins_of_readLinked read
    exact (aliases name).mpr (.inl inside)

/-- **Every connection has its condition**, in a join or in a subquery. -/
theorem exists_condition (stores : layout.StoresConnections)
    (resolved : Resolved (resolver layout formula) refs {} values last) {connection : String}
    (member : connection ∈ refs.filterMap FieldRef.via) {holder referenced : TableId}
    {column : String} {array : Bool}
    (stored : layout.storedAs? connection = some (.single holder column referenced array)) :
    ∃ condition ∈ last.joins.map Join.on ++ (Expr.leavesEach values).filterMap Leaf.condition?,
      layout.PicksBy formula.id.table holder column array condition := by
  obtain ⟨ref, inside, via⟩ := List.mem_filterMap.mp member
  obtain ⟨before, expr, between, behind, others, found, value, rest⟩ :=
    resolved.exists_of_mem inside
  rcases resolver_cases found with ⟨own, _⟩ | ⟨_, through, read⟩
  · rw [via] at own
    cases own
  · obtain rfl := Option.some.inj (via.symm.trans through)
    obtain ⟨link, other, source, table, name, linked, _, _, rfl, _, aliases⟩ :=
      joins_of_readLinked read
    obtain ⟨_, relation, again, of⟩ := exists_of_linked linked
    obtain rfl := Option.some.inj (stored.symm.trans again)
    obtain ⟨id, holds⟩ := stores.exists_holdsIds stored
    cases joins : link.join? source table with
    | none =>
      obtain ⟨condition, filters, picksBy⟩ := Link.exists_filter holds of source.name table
      have leaf : Leaf.rows ⟨source.name, name⟩ (link.rows source table) ∈
          Expr.leavesEach values := by
        refine Expr.mem_leavesEach.mpr ⟨_, value, ?_⟩
        rw [Link.read_of_join?_eq_none joins, Expr.leaves]
        exact List.mem_singleton_self _
      refine ⟨condition, List.mem_append_right _ ?_, picksBy⟩
      exact List.mem_filterMap.mpr ⟨_, leaf, Leaf.condition?_rows.mpr filters⟩
    | some join =>
      -- The join may be that of an earlier reference, by the same column.
      have known := keeps_aliases rest ((aliases _).mpr (.inr ⟨join, joins, rfl⟩))
      obtain ⟨joined, there, named⟩ := List.mem_map.mp known
      obtain ⟨_, _, _, _, table, on⟩ := exists_of_mem_joins resolved there
      refine ⟨joined.on, List.mem_append_left _ (List.mem_map_of_mem there), ?_⟩
      obtain ⟨single, _⟩ := Link.eq_single_of_join? of joins
      cases single
      rw [named] at on
      exact holds.picksBy_of_on on

/-- **Every condition is that of a connection.** -/
theorem exists_of_condition (stores : layout.StoresConnections)
    (resolved : Resolved (resolver layout formula) refs {} values last) {condition : Condition}
    (member : condition ∈
      last.joins.map Join.on ++ (Expr.leavesEach values).filterMap Leaf.condition?) :
    ∃ connection ∈ refs.filterMap FieldRef.via, ∃ holder column referenced array,
      layout.storedAs? connection = some (.single holder column referenced array) ∧
        layout.PicksBy formula.id.table holder column array condition := by
  rcases List.mem_append.mp member with joined | leaf
  · obtain ⟨join, there, rfl⟩ := List.mem_map.mp joined
    obtain ⟨connection, uses, referenced, stored, table, on⟩ := exists_of_mem_joins resolved there
    obtain ⟨id, holds⟩ := stores.exists_holdsIds stored
    exact ⟨connection, uses, _, _, referenced, false, stored, holds.picksBy_of_on on⟩
  · obtain ⟨leaf, inside, conditional⟩ := List.mem_filterMap.mp leaf
    obtain ⟨expr, value, inside⟩ := Expr.mem_leavesEach.mp inside
    obtain ⟨ref, named, before, after, found⟩ := resolved.exists_of_mem_values value
    rcases resolver_cases found with ⟨_, own, _⟩ | ⟨connection, via, read⟩
    · obtain ⟨column, rfl⟩ := exists_of_readOwn own
      rw [Expr.leaves, List.mem_singleton] at inside
      rw [inside] at conditional
      cases conditional
    · obtain ⟨link, other, source, table, name, linked, _, _, rfl, _⟩ := joins_of_readLinked read
      have filters := Link.filter_of_mem_read inside conditional
      exact ⟨connection, List.mem_filterMap.mpr ⟨ref, named, via⟩,
        exists_picksBy stores linked filters⟩

/-- **A text formula has the conditions of its connections**, in joins and in subqueries. -/
theorem picks_of_compileConcatenation (stores : layout.StoresConnections) {equation : String}
    (kind : formula.kind = .concatenation equation)
    (found : compileConcatenation layout formula equation = .ok compiled) :
    Picks layout formula compiled := by
  obtain ⟨pieces, parsed, found⟩ := bind_eq_ok.mp found
  obtain ⟨⟨parts, reads⟩, evaluated, found⟩ := bind_eq_ok.mp found
  cases found
  obtain ⟨values, resolved, same⟩ :=
    resolved_of_expressions pieces (Piece.sound_of_parse parsed) evaluated
  constructor
  · intro connection member holder column referenced array stored
    rw [Field.usedConnections_concatenation kind parsed] at member
    rw [CompiledFormula.conditions, Expr.leaves, same]
    exact exists_condition stores resolved member stored
  · intro condition member
    rw [CompiledFormula.conditions, Expr.leaves, same] at member
    rw [Field.usedConnections_concatenation kind parsed]
    exact exists_of_condition stores resolved member

/-- **A compiled formula has the conditions of its connections.** -/
theorem picks_of_compile (stores : layout.StoresConnections)
    (found : compile layout formula = .ok compiled) : Picks layout formula compiled := by
  unfold compile at found
  split at found
  · next kind => exact picks_of_compileAggregate stores kind found
  · next kind => exact picks_of_compileConcatenation stores kind found
  · cases found

end Formula

namespace Settings

variable {settings : Settings} {metadata : Metadata} {layout : Layout} {left : List Diagnostic}

theorem storesConnections_of_layout (laid : settings.layout metadata = .ok (layout, left)) :
    layout.StoresConnections := by
  obtain ⟨_, names, index, indexed, unstored, stored, _⟩ := layout_eq_ok_iff.mp laid
  have stores : (Layout.ofApplication (settings.sources metadata).1 index
      settings.dataSchema).1.StoresConnections :=
    Layout.storesConnections_of_ofSources names indexed settings.dataSchema
  rwa [stored] at stores

/-- **Formulas compare ids with columns of ids by their types, from one side.** Every connection
that a compiled formula uses and that is stored in a column of ids has its condition in the formula,
and the formula has no others. It compares an id with the column, by the column's type exactly where
the column has one id or is held by the formula's own table. -/
theorem picks_of_layout (laid : settings.layout metadata = .ok (layout, left)) :
    ∀ host ∈ layout.application.entities, ∀ formula ∈ host.fields, ∀ compiled,
      Formula.compile layout formula = .ok compiled → formula.id.table = host.id ∧
        Formula.Picks layout formula compiled := by
  obtain ⟨plan, checked⟩ := checked_of_layout laid
  intro host hosts formula inside compiled found
  exact ⟨(checked.wellFormed.field_eq hosts inside).1,
    Formula.picks_of_compile (storesConnections_of_layout laid) found⟩

/-- Projects with many tags each, and further fields of both. -/
def taggedProjects (ofProjects ofTags : List FieldSource) : Metadata :=
  ⟨[⟨"object_1", "Projects",
      Layout.oneSided "field_1" "Tags" ⟨"object_2", .many, .one⟩ :: ofProjects⟩,
    ⟨"object_2", "Tags", ofTags⟩]⟩

/-- A count of the tags of a project looks for their ids in the array. -/
theorem picks_of_layout_taggedProjects :
    ∃ layout left, ({} : Settings).layout
        (taggedProjects [Formula.countOf "field_2" "Tag Count" "field_1"] []) = .ok (layout, left) ∧
      ∃ host ∈ layout.application.entities, ∃ formula ∈ host.fields, ∃ compiled,
        Formula.compile layout formula = .ok compiled ∧
        layout.storedAs? "field_1" = some (.single 0 "tags_rel_tags_id" 1 true) ∧
        compiled.conditions = [.member ⟨"tags_view", "id"⟩ ⟨"projects", "tags_rel_tags_id"⟩] ∧
        Formula.Picks layout formula compiled := by
  have compiles : (({} : Settings).layout
      (taggedProjects [Formula.countOf "field_2" "Tag Count" "field_1"] [])).toOption.any
        (fun laid => laid.1.application.entities.any fun host => host.fields.any fun formula =>
          (Formula.compile laid.1 formula).toOption.any fun compiled =>
            decide (laid.1.storedAs? "field_1" = some (.single 0 "tags_rel_tags_id" 1 true) ∧
              compiled.conditions =
                [.member ⟨"tags_view", "id"⟩ ⟨"projects", "tags_rel_tags_id"⟩])) = true := by
    decide +kernel
  obtain ⟨⟨layout, left⟩, laid, holds⟩ := exists_of_any compiles
  obtain ⟨host, hosts, holds⟩ := List.any_eq_true.mp holds
  obtain ⟨formula, inside, holds⟩ := List.any_eq_true.mp holds
  obtain ⟨compiled, found, holds⟩ := exists_of_any holds
  obtain ⟨stored, conditions⟩ := of_decide_eq_true holds
  exact ⟨layout, left, laid, host, hosts, formula, inside, compiled, found, stored, conditions,
    (picks_of_layout laid host hosts formula inside compiled found).2⟩

/-- **A count of the projects of a tag** compares its id with their arrays, as if these were ids. -/
theorem equal_of_array :
    ∃ layout left schema, ({} : Settings).layout
        (taggedProjects [] [Formula.countOf "field_2" "Project Count" "field_1"]) =
          .ok (layout, left) ∧
      ({} : Settings).build
        (taggedProjects [] [Formula.countOf "field_2" "Project Count" "field_1"]) = .ok schema ∧
      layout.storedAs? "field_1" = some (.single 0 "tags_rel_tags_id" 1 true) ∧
      ((layout.table 0).columns.filter (·.name = "tags_rel_tags_id")).map Column.type =
        [.array .integer] ∧
      ∃ host ∈ layout.application.entities, ∃ formula ∈ host.fields, ∃ compiled,
        Formula.compile layout formula = .ok compiled ∧ formula.usedConnections = ["field_1"] ∧
        compiled.conditions = [.equal ⟨"projects_view", "tags_rel_tags_id"⟩ ⟨"tags", "id"⟩] ∧
        ∀ condition ∈ compiled.conditions, ∀ id column,
          ¬ condition.Compares id column (.array .integer) := by
  have compiles : ({} : Settings).compilesTo
      (taggedProjects [] [Formula.countOf "field_2" "Project Count" "field_1"]) (fun layout _ =>
        decide (layout.storedAs? "field_1" = some (.single 0 "tags_rel_tags_id" 1 true) ∧
          ((layout.table 0).columns.filter (·.name = "tags_rel_tags_id")).map Column.type =
            [.array .integer]) &&
        layout.application.entities.any fun host => host.fields.any fun formula =>
          (Formula.compile layout formula).toOption.any fun compiled =>
            decide (formula.usedConnections = ["field_1"] ∧ compiled.conditions =
              [.equal ⟨"projects_view", "tags_rel_tags_id"⟩ ⟨"tags", "id"⟩])) = true := by
    decide +kernel
  obtain ⟨layout, left, schema, laid, built, holds⟩ := exists_build compiles
  obtain ⟨relation, holds⟩ := Bool.and_eq_true_iff.mp holds
  obtain ⟨stored, types⟩ := of_decide_eq_true relation
  obtain ⟨host, hosts, holds⟩ := List.any_eq_true.mp holds
  obtain ⟨formula, inside, holds⟩ := List.any_eq_true.mp holds
  obtain ⟨compiled, found, holds⟩ := exists_of_any holds
  obtain ⟨used, conditions⟩ := of_decide_eq_true holds
  refine ⟨layout, left, schema, laid, built, stored, types, host, hosts, formula, inside,
    compiled, found, used, conditions, fun condition member id column compares => ?_⟩
  rw [conditions, List.mem_singleton] at member
  rw [member] at compares
  cases compares

end Settings

end AppSchema
