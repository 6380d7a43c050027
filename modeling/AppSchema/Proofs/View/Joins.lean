/-
**The joins of a view.**

A text formula joins another table by a column of ids of its own table, and names the join after the
column. Joins are dropped where their alias is there already: once among the references of a
formula, and once among the formulas of a view. Nothing is lost thereby. A column of ids stores one
connection, whichever side declared it, so joins of one alias are one join.

* `Formula.neededJoins`: the joins that the references of a formula need, one by one;
* `Layout.JoinsBy`: a join by a column of ids, of the table that the column references;
* `Layout.Checked.mem_joins_iff`: a compiled formula has exactly the joins that it needs;
* `Settings.joins_of_layout`: a view has exactly the joins of its formulas, each alias once.
-/

import AppSchema.Proofs.Formula.Stored
import AppSchema.Proofs.View.Capture

namespace AppSchema

namespace Formula

/-- **The join that a reference through a connection needs**, if the connection is followed by a
column of ids of the formula's own table. -/
def joinBy? (layout : Layout) (formula : Field) (connection : String) : Option Join :=
  (linked layout formula connection true).toOption.bind fun found =>
    found.1.join? (layout.source formula.id.table found.2)
      (layout.entity formula.id.table).name.ident

/-- **The joins that the references of a formula need**, in the order of its source. Aggregates have
no references, and read in subqueries only. -/
def neededJoins (layout : Layout) (formula : Field) : List Join :=
  (formula.references.filterMap FieldRef.via).filterMap (joinBy? layout formula)

variable {layout : Layout} {formula : Field}

theorem joinBy?_eq_some_iff {connection : String} {join : Join} :
    joinBy? layout formula connection = some join ↔
      ∃ link other, linked layout formula connection true = .ok (link, other) ∧
        link.join? (layout.source formula.id.table other)
          (layout.entity formula.id.table).name.ident = some join := by
  simp only [joinBy?, Option.bind_eq_some_iff, toOption_eq_some, Prod.exists]

theorem mem_neededJoins {join : Join} : join ∈ neededJoins layout formula ↔
    ∃ ref ∈ formula.references, ∃ connection, ref.via = some connection ∧
      joinBy? layout formula connection = some join := by
  simp only [neededJoins, List.mem_filterMap]
  constructor
  · rintro ⟨connection, ⟨ref, inside, via⟩, needs⟩
    exact ⟨ref, inside, connection, via, needs⟩
  · rintro ⟨ref, inside, connection, via, needs⟩
    exact ⟨connection, ⟨ref, inside, via⟩, needs⟩

/-! ### Formulas -/

section

variable {refs : List FieldRef} {values : List Sql.Expr} {last : Reads}

/-- **A join is there for a reference that needs it.** -/
theorem exists_needed_of_mem
    (resolved : Resolved (resolver layout formula) refs {} values last) {join : Join}
    (member : join ∈ last.joins) :
    ∃ ref ∈ refs, ∃ connection, ref.via = some connection ∧
      joinBy? layout formula connection = some join := by
  rcases resolved.exists_of_holds (fun reads => join ∈ reads.joins) member with
    start | ⟨ref, inside, before, expr, after, found, fresh, made⟩
  · cases start
  · rcases resolver_cases found with ⟨_, _, rfl⟩ | ⟨connection, via, read⟩
    · exact absurd made fresh
    · obtain ⟨link, other, _, _, _, linked, rfl, rfl, _, joins, _⟩ := joins_of_readLinked read
      have makes := (joins join made).resolve_left fresh
      exact ⟨ref, inside, connection, via, joinBy?_eq_some_iff.mpr ⟨link, other, linked, makes⟩⟩

/-- **A join that a reference needs has its alias**, be it that of an earlier join. -/
theorem alias_mem_of_needed
    (resolved : Resolved (resolver layout formula) refs {} values last) {ref : FieldRef}
    (inside : ref ∈ refs) {connection : String} (via : ref.via = some connection) {join : Join}
    (needs : joinBy? layout formula connection = some join) :
    join.aliasName ∈ last.joins.map Join.aliasName := by
  obtain ⟨before, expr, between, behind, others, found, _, rest⟩ := resolved.exists_of_mem inside
  rcases resolver_cases found with ⟨own, _⟩ | ⟨_, through, read⟩
  · rw [via] at own
    cases own
  · obtain rfl := Option.some.inj (via.symm.trans through)
    obtain ⟨link, other, _, _, _, linked, rfl, rfl, _, _, aliases⟩ := joins_of_readLinked read
    obtain ⟨_, _, again, makes⟩ := joinBy?_eq_some_iff.mp needs
    cases linked.symm.trans again
    exact keeps_aliases rest ((aliases _).mpr (.inr ⟨join, makes, rfl⟩))

end

/-- **A compiled formula has no joins but those that it needs, and all their aliases.** -/
theorem joins_of_compile {compiled : CompiledFormula}
    (found : compile layout formula = .ok compiled) :
    (∀ join ∈ compiled.joins, join ∈ neededJoins layout formula) ∧
      ∀ join ∈ neededJoins layout formula, join.aliasName ∈ compiled.joins.map Join.aliasName := by
  unfold compile at found
  split at found
  · next kind =>
    obtain ⟨_, _, _, _, _, rfl⟩ := compileAggregate_eq_ok_iff.mp found
    have none : formula.references = [] := by
      rw [Field.references, kind]
    exact ⟨fun _ member => absurd member List.not_mem_nil, by simp [neededJoins, none]⟩
  · next kind =>
    obtain ⟨pieces, parsed, found⟩ := bind_eq_ok.mp found
    obtain ⟨⟨parts, reads⟩, evaluated, found⟩ := bind_eq_ok.mp found
    cases found
    obtain ⟨values, resolved, _⟩ :=
      resolved_of_expressions pieces (Piece.sound_of_parse parsed) evaluated
    rw [← Field.references_eq kind parsed] at resolved
    refine ⟨fun join member => mem_neededJoins.mpr (exists_needed_of_mem resolved member),
      fun join needed => ?_⟩
    obtain ⟨ref, inside, connection, via, needs⟩ := mem_neededJoins.mp needed
    exact alias_mem_of_needed resolved inside via needs
  · cases found

end Formula

/-! ### Hosts -/

/-- **A join of a host by one of its columns of ids.** The column has one id and is the only one of
its name; its foreign key references the table that is joined, which is read through its view unless
it is the host's own. -/
structure Layout.JoinsBy (layout : Layout) (host referenced : Entity) (join : Join) : Prop where
  column : ∃ field, (layout.table host.id).columns.filter (·.name = join.aliasName) =
    [{ name := join.aliasName, type := .integer, field := some field }]
  foreignKey : (layout.foreignKeys.filter fun key =>
      (key.table, key.column) = (host.name.ident, join.aliasName)) =
    [.of host.name.ident join.aliasName referenced.name.ident]
  relation : join.relation = if referenced = host then host.name.ident else referenced.viewName
  on : join.on = .equal ⟨host.name.ident, join.aliasName⟩ ⟨join.aliasName, "id"⟩

namespace Layout.Checked

open Formula

variable {schema : String} {plan : Plan} {left : List Diagnostic} {layout : Layout} {host : Entity}
  {join : Join}

/-- **The joins that a formula needs are joins of its host.** -/
theorem joinOf_of_needed (checked : layout.Checked schema plan left)
    (hosts : host ∈ layout.application.entities) {formula : Field} (inside : formula ∈ host.fields)
    (needed : join ∈ neededJoins layout formula) : layout.JoinOf plan host join := by
  have hosted := (checked.wellFormed.field_eq hosts inside).1
  have host_eq : layout.entity host.id = host := checked.wellFormed.entity_eq hosts
  obtain ⟨_, _, connection, _, needs⟩ := mem_neededJoins.mp needed
  obtain ⟨link, _, linked, makes⟩ := joinBy?_eq_some_iff.mp needs
  obtain ⟨other, others, rfl, fits⟩ := checked.fits_of_linked hosted linked
  rw [hosted, host_eq] at makes
  cases fits with
  | inbound | association => cases makes
  | @outbound field column array recorded =>
    cases array with
    | true => cases makes
    | false => exact ⟨other, others, field, column, recorded, (Option.some.inj makes).symm⟩

/-- **A join of a host is by a column of ids.** -/
theorem joinsBy_of_joinOf (checked : layout.Checked schema plan left)
    (stores : layout.StoresConnections) (hosts : host ∈ layout.application.entities)
    (joinOf : layout.JoinOf plan host join) :
    ∃ referenced ∈ layout.application.entities, layout.JoinsBy host referenced join := by
  obtain ⟨other, others, field, column, recorded, rfl⟩ := joinOf
  rw [← checked.relations_eq] at recorded
  have holds := stores.holdsIds field host.id column other.id false recorded
  have foreignKeys := holds.foreignKeys
  rw [checked.table_entity hosts, checked.table_entity others] at foreignKeys
  refine ⟨other, others, ⟨field, holds.columns⟩, foreignKeys, ?_, rfl⟩
  rw [joinOn, checked.source_eq others]
  by_cases self : other.id = host.id
  · rw [if_pos self, if_pos (checked.eq_of_id others hosts self),
      checked.eq_of_id others hosts self]
  · rw [if_neg self, if_neg fun same => self (congrArg Entity.id same)]

/-- **A compiled formula has exactly the joins that it needs.** -/
theorem mem_joins_iff (checked : layout.Checked schema plan left)
    (hosts : host ∈ layout.application.entities) {formula : Field} (inside : formula ∈ host.fields)
    {compiled : CompiledFormula} (found : compile layout formula = .ok compiled) :
    join ∈ compiled.joins ↔ join ∈ neededJoins layout formula := by
  obtain ⟨only, aliases⟩ := joins_of_compile found
  refine ⟨only join, fun needed => ?_⟩
  obtain ⟨other, there, same⟩ := List.mem_map.mp (aliases join needed)
  have joins := checked.joinOf_of_needed hosts inside (only other there)
  rwa [← checked.join_eq_of_alias joins (checked.joinOf_of_needed hosts inside needed) same]

/-- **A view has exactly the joins of its formulas.** -/
theorem mem_joins_ofEntity_iff (checked : layout.Checked schema plan left)
    (hosts : host ∈ layout.application.entities) :
    join ∈ (View.ofEntity layout (compileAll layout).1 host).joins ↔
      ∃ formula ∈ host.formulaFields, ∃ compiled, compile layout formula = .ok compiled ∧
        join ∈ compiled.joins := by
  have collects := (checked.collects_ofEntity hosts).1
  constructor
  · intro member
    obtain ⟨compiled, there, has⟩ := collects.joins join member
    obtain ⟨formula, inside, found⟩ := mem_compiledOf.mp there
    exact ⟨formula, inside, compiled, found, has⟩
  · rintro ⟨formula, inside, compiled, found, has⟩
    have there := mem_compiledOf.mpr ⟨formula, inside, found⟩
    obtain ⟨other, member, same⟩ :=
      List.mem_map.mp (collects.aliases compiled there (List.mem_map_of_mem has))
    obtain ⟨_, sound⟩ := checked.sound_of_mem hosts there
    have joins := (sound.reads.join join has).1
    rwa [← checked.join_eq_of_alias (checked.joinOf_of_mem hosts member) joins same]

end Layout.Checked

namespace Settings

variable {settings : Settings} {metadata : Metadata} {layout : Layout} {left : List Diagnostic}

/-- The views of a layout are those of what it is compiled to. -/
theorem mem_views_of_build {schema : Schema}
    (laid : settings.layout metadata = .ok (layout, left))
    (built : settings.build metadata = .ok schema) {view : View} :
    view ∈ schema.views ↔ view ∈ viewsOf layout := by
  obtain ⟨other, _, _, views, again, _, order, rfl⟩ := checked_of_build built
  obtain rfl := (Prod.mk.inj (Except.ok.inj (laid.symm.trans again))).1
  exact order.mem_iff

/-- **Dropping joins by their aliases loses none.** The joins that the formulas of a host need are
by its columns of ids, and two of one alias are one join. A compiled formula has all that it needs
and no others, and the view of the host has all joins of its compiled formulas and no others, each
alias once. -/
theorem joins_of_layout (laid : settings.layout metadata = .ok (layout, left)) :
    ∀ host ∈ layout.application.entities,
      (∀ first ∈ host.fields, ∀ second ∈ host.fields,
        ∀ join ∈ Formula.neededJoins layout first, ∀ other ∈ Formula.neededJoins layout second,
          join.aliasName = other.aliasName → join = other) ∧
      (∀ formula ∈ host.fields, ∀ join ∈ Formula.neededJoins layout formula,
        ∃ referenced ∈ layout.application.entities, layout.JoinsBy host referenced join) ∧
      (∀ formula ∈ host.fields, ∀ compiled, Formula.compile layout formula = .ok compiled →
        ∀ join, join ∈ compiled.joins ↔ join ∈ Formula.neededJoins layout formula) ∧
      ∃ view, view = View.ofEntity layout (Formula.compileAll layout).1 host ∧
        (∀ schema, settings.build metadata = .ok schema → view ∈ schema.views) ∧
        (∀ join, join ∈ view.joins ↔ ∃ formula ∈ host.formulaFields, ∃ compiled,
          Formula.compile layout formula = .ok compiled ∧ join ∈ compiled.joins) ∧
        (view.joins.map Join.aliasName).Nodup := by
  obtain ⟨plan, checked⟩ := checked_of_layout laid
  intro host hosts
  have needs : ∀ formula ∈ host.fields, ∀ join ∈ Formula.neededJoins layout formula,
      layout.JoinOf plan host join :=
    fun formula inside join needed => checked.joinOf_of_needed hosts inside needed
  refine ⟨fun first firstIn second secondIn join needed other otherNeeded same => ?_,
    fun formula inside join needed => ?_,
    fun formula inside compiled found join => checked.mem_joins_iff hosts inside found,
    _, rfl, fun schema built => ?_, fun join => checked.mem_joins_ofEntity_iff hosts,
    checked.nodup_aliases hosts⟩
  · exact checked.join_eq_of_alias (needs first firstIn join needed)
      (needs second secondIn other otherNeeded) same
  · exact checked.joinsBy_of_joinOf (storesConnections_of_layout laid) hosts
      (needs formula inside join needed)
  · exact (mem_views_of_build laid built).mpr (List.mem_map_of_mem hosts)

/-- Books with two formulas that read their author. -/
def booksWithCredits : Metadata :=
  ⟨[⟨"object_1", "Author",
      [{ key := "field_1", name := "Name", sourceType := "short_text" },
       { key := "field_2", name := "Mail", sourceType := "email" }]⟩,
    ⟨"object_2", "Book",
      [Layout.oneSided "field_3" "Author" ⟨"object_1", .one, .one⟩,
       textFormula "field_4" "Credit" "\x7bfield_3.field_1\x7d",
       textFormula "field_5" "Contact" "\x7bfield_3.field_1\x7d \x7bfield_3.field_2\x7d"]⟩]⟩

/-- Three references need one join, and the view of books has it once. -/
theorem joins_of_layout_booksWithCredits :
    ∃ layout left, ({} : Settings).layout booksWithCredits = .ok (layout, left) ∧
      ∃ host ∈ layout.application.entities, ∃ first ∈ host.fields, ∃ second ∈ host.fields,
        ∃ join, Formula.neededJoins layout first = [join] ∧
          Formula.neededJoins layout second = [join, join] ∧
          (View.ofEntity layout (Formula.compileAll layout).1 host).joins = [join] ∧
          ∃ referenced ∈ layout.application.entities, layout.JoinsBy host referenced join := by
  have compiles : (({} : Settings).layout booksWithCredits).toOption.any (fun laid =>
      decide (∃ host ∈ laid.1.application.entities, ∃ first ∈ host.fields, ∃ second ∈ host.fields,
        ∃ join ∈ Formula.neededJoins laid.1 first, Formula.neededJoins laid.1 first = [join] ∧
          Formula.neededJoins laid.1 second = [join, join] ∧
          (View.ofEntity laid.1 (Formula.compileAll laid.1).1 host).joins = [join])) = true := by
    decide +kernel
  obtain ⟨⟨layout, left⟩, laid, holds⟩ := exists_of_any compiles
  obtain ⟨host, hosts, first, firstIn, second, secondIn, join, needed, one, two, joins⟩ :=
    of_decide_eq_true holds
  obtain ⟨_, joinsBy, _⟩ := joins_of_layout laid host hosts
  exact ⟨layout, left, laid, host, hosts, first, firstIn, second, secondIn, join, one, two, joins,
    joinsBy first firstIn join needed⟩

end Settings

end AppSchema
