/-
**What compiled formulas read.**

Every leaf of a compiled formula reads the host's own table, a join of the formula, or linked rows
(`Layout.LeafOf`), and every relation that it names is a table or one of the views on which it
depends.

* `Formula.Reads.Sound`: what resolving references keeps of the joins and views that were read;
* `Layout.Checked.sound_of_compile`: a compiled formula is sound;
* `Formula.mem_compileAll`, `Formula.mem_left_compileAll`: every formula is compiled or reported.
-/

import AppSchema.Proofs.Formula.Expression
import AppSchema.Proofs.Formula.Link

namespace AppSchema

open Sql (Leaf)

/-- **A join of a host**: the entity whose ids a column of the host has. -/
def Layout.JoinOf (layout : Layout) (plan : Plan) (host : Entity) (join : Join) : Prop :=
  ∃ other ∈ layout.application.entities, ∃ field column,
    (field, .single host.id column other.id false) ∈ plan.relations ∧
      join = Formula.joinOn (layout.source host.id other.id) host.name.ident column

/-- **A leaf of a formula of a host**, whose joins have some aliases. -/
inductive Layout.LeafOf (layout : Layout) (plan : Plan) (host : Entity) (aliases : List String) :
    Leaf → Prop
  | own {column : String} : LeafOf layout plan host aliases (.column ⟨host.name.ident, column⟩)
  | joined {join : Join} {column : String} :
    layout.JoinOf plan host join → join.aliasName ∈ aliases →
    layout.Provides plan ⟨join.relation, column⟩ →
    LeafOf layout plan host aliases (.column ⟨join.aliasName, column⟩)
  | rows {other : Entity} {link : Link} {column : String} :
    other ∈ layout.application.entities → link.Fits plan host other → other.Offers plan column →
    LeafOf layout plan host aliases (.rows ⟨(layout.source host.id other.id).name, column⟩
      (link.rows (layout.source host.id other.id) host.name.ident))

/-- A relation is a table or one of some views. -/
def Layout.Sees (layout : Layout) (views : List String) (relation : String) : Prop :=
  relation ∈ layout.tables.map Table.name ∨ relation ∈ views

namespace Formula

/-- **What references may have read.** -/
structure Reads.Sound (layout : Layout) (plan : Plan) (host : Entity) (reads : Reads) : Prop where
  join : ∀ join ∈ reads.joins, layout.JoinOf plan host join ∧
    layout.Sees reads.views join.relation
  view : ∀ name ∈ reads.views, ∃ other ∈ layout.application.entities,
    other.id ≠ host.id ∧ name = other.viewName

/-- Reading more: the joins and views of before are still there. -/
structure Reads.Grows (layout : Layout) (plan : Plan) (host : Entity) (before after : Reads) :
    Prop where
  sound : before.Sound layout plan host → after.Sound layout plan host
  aliases : before.joins.map Join.aliasName ⊆ after.joins.map Join.aliasName
  views : before.views ⊆ after.views

/-- What holds of a leaf once it is read. -/
def Reads.Covers (layout : Layout) (plan : Plan) (host : Entity) (reads : Reads) (leaf : Leaf) :
    Prop :=
  layout.LeafOf plan host (reads.joins.map Join.aliasName) leaf ∧
    ∀ item ∈ leaf.items, layout.Sees reads.views item.relation

end Formula

/-- **A sound compiled formula** of a field of a host. -/
structure CompiledFormula.Sound (layout : Layout) (plan : Plan) (host : Entity) (field : Field)
    (compiled : CompiledFormula) : Prop where
  field_eq : compiled.field = field.id
  name_eq : compiled.name = field.name.ident
  reads : Formula.Reads.Sound layout plan host ⟨compiled.joins, compiled.dependsOn⟩
  leaf : ∀ leaf ∈ compiled.expr.leaves,
    Formula.Reads.Covers layout plan host ⟨compiled.joins, compiled.dependsOn⟩ leaf

namespace Formula.Reads

variable {layout : Layout} {plan : Plan} {host : Entity}

theorem Grows.refl (reads : Reads) : Grows layout plan host reads reads :=
  ⟨id, List.Subset.refl _, List.Subset.refl _⟩

theorem Grows.trans {first second third : Reads} (before : Grows layout plan host first second)
    (after : Grows layout plan host second third) : Grows layout plan host first third :=
  ⟨after.sound ∘ before.sound, List.Subset.trans before.aliases after.aliases,
    List.Subset.trans before.views after.views⟩

theorem Covers.mono {before after : Reads} {leaf : Leaf}
    (grows : Grows layout plan host before after)
    (covers : Covers layout plan host before leaf) : Covers layout plan host after leaf := by
  obtain ⟨leafOf, sees⟩ := covers
  constructor
  · cases leafOf with
    | own => exact .own
    | joined join known provides => exact .joined join (grows.aliases known) provides
    | rows other fits offers => exact .rows other fits offers
  · intro item member
    rcases sees item member with table | view
    · exact .inl table
    · exact .inr (grows.views view)

theorem addSource_empty (source : Sql.FromItem) :
    ({} : Reads).addSource source = ⟨[], if source.isView then [source.relation] else []⟩ := by
  unfold addSource
  split <;> rfl

theorem subset_addView (reads : Reads) (name : String) :
    reads.views ⊆ (reads.addView name).views ∧ name ∈ (reads.addView name).views := by
  unfold addView
  split
  · next known => exact ⟨List.Subset.refl _, known⟩
  · exact ⟨List.subset_append_left _ _, List.mem_append_right _ (List.mem_singleton_self _)⟩

theorem joins_addView (reads : Reads) (name : String) :
    (reads.addView name).joins = reads.joins := by
  unfold addView
  split <;> rfl

/-- **Reading the view of another entity.** -/
theorem grows_addView (reads : Reads) {other : Entity}
    (member : other ∈ layout.application.entities) (apart : other.id ≠ host.id) :
    Grows layout plan host reads (reads.addView other.viewName) := by
  have subset := (reads.subset_addView other.viewName).1
  refine ⟨fun sound => ⟨fun join inside => ?_, fun name inside => ?_⟩, ?_, subset⟩
  · rw [joins_addView] at inside
    obtain ⟨joins, sees⟩ := sound.join join inside
    rcases sees with table | view
    · exact ⟨joins, .inl table⟩
    · exact ⟨joins, .inr (subset view)⟩
  · unfold addView at inside
    split at inside
    · exact sound.view name inside
    · rcases List.mem_append.mp inside with inside | inside
      · exact sound.view name inside
      · exact ⟨other, member, apart, List.mem_singleton.mp inside⟩
  · rw [joins_addView]
    exact List.Subset.refl _

/-- **Joining what is seen.** -/
theorem grows_addJoin (reads : Reads) {join : Join} (joins : layout.JoinOf plan host join)
    (sees : layout.Sees reads.views join.relation) :
    Grows layout plan host reads (reads.addJoin join) ∧
      join.aliasName ∈ (reads.addJoin join).joins.map Join.aliasName := by
  unfold addJoin
  split
  · next known =>
    obtain ⟨other, member, same⟩ := List.any_eq_true.mp known
    exact ⟨.refl reads, List.mem_map.mpr ⟨other, member, by simpa using same⟩⟩
  · refine ⟨⟨fun sound => ⟨fun other inside => ?_, sound.view⟩, ?_, List.Subset.refl _⟩, ?_⟩
    · rcases List.mem_append.mp inside with inside | inside
      · exact sound.join other inside
      · rw [List.mem_singleton.mp inside]
        exact ⟨joins, sees⟩
    · rw [List.map_append]
      exact List.subset_append_left _ _
    · simp

end Formula.Reads

namespace Layout.Checked

open Formula (Reads)

variable {schema : String} {plan : Plan} {left : List Diagnostic} {layout : Layout}

/-- **Reading a source makes it seen.** -/
theorem grows_addSource (checked : layout.Checked schema plan left) (host : Entity)
    {other : Entity} (member : other ∈ layout.application.entities) (reads : Reads) :
    Reads.Grows layout plan host reads (reads.addSource (layout.source host.id other.id)) ∧
      layout.Sees (reads.addSource (layout.source host.id other.id)).views
        (layout.source host.id other.id).relation := by
  rw [checked.source_eq member]
  by_cases self : other.id = host.id
  · rw [if_pos self]
    exact ⟨.refl reads, .inl (checked.ident_mem_tables member)⟩
  · rw [if_neg self]
    have known := (reads.subset_addView other.viewName).2
    exact ⟨reads.grows_addView member self, .inr known⟩

/-- What linked rows are read from is seen once their source is. -/
theorem sees_rows (checked : layout.Checked schema plan left) {host other : Entity} {link : Link}
    (fits : link.Fits plan host other) {views : List String}
    (sees : layout.Sees views (layout.source host.id other.id).relation) (column : String)
    {item : Sql.FromItem}
    (member : item ∈ (Leaf.rows ⟨(layout.source host.id other.id).name, column⟩
      (link.rows (layout.source host.id other.id) host.name.ident)).items) :
    layout.Sees views item.relation := by
  rcases List.mem_cons.mp member with rfl | member
  · exact sees
  · exact .inl (checked.items_filter fits member).2

/-- **Reading a column of the host.** -/
theorem covers_of_readOwn (checked : layout.Checked schema plan left) {host : Entity}
    (hosts : host ∈ layout.application.entities) {formula : Field}
    (hosted : formula.id.table = host.id) {key : String} {expr : Sql.Expr}
    (found : Formula.readOwn layout formula key = .ok expr) {reads : Reads} {leaf : Leaf}
    (member : leaf ∈ expr.leaves) : reads.Covers layout plan host leaf := by
  unfold Formula.readOwn at found
  rw [hosted, Layout.entity, checked.wellFormed.entity_eq hosts] at found
  obtain ⟨id, _, found⟩ := bind_eq_ok.mp found
  split at found
  · cases found
  · obtain ⟨column, _, found⟩ := bind_eq_ok.mp found
    cases found
    rw [Sql.Expr.leaves] at member
    rw [List.mem_singleton.mp member]
    refine ⟨.own, fun item inside => ?_⟩
    cases inside

/-- **Reading a column through a connection.** -/
theorem covers_of_readLinked (checked : layout.Checked schema plan left) {host : Entity}
    (hosts : host ∈ layout.application.entities) {formula : Field}
    (hosted : formula.id.table = host.id) {connection key : String} {expr : Sql.Expr}
    {reads result : Reads}
    (found : Formula.readLinked layout formula connection key reads = .ok (expr, result)) :
    Reads.Grows layout plan host reads result ∧
      ∀ leaf ∈ expr.leaves, result.Covers layout plan host leaf := by
  unfold Formula.readLinked at found
  rw [hosted, Layout.entity, checked.wellFormed.entity_eq hosts] at found
  obtain ⟨⟨link, _⟩, linked, found⟩ := bind_eq_ok.mp found
  obtain ⟨other, others, rfl, fits⟩ := checked.fits_of_linked hosted linked
  obtain ⟨id, required, found⟩ := bind_eq_ok.mp found
  obtain ⟨entity, member, table, inside, _⟩ := checked.field_of_requireField required
  split at found
  · cases found
  · next same =>
    obtain ⟨column, readable, found⟩ := bind_eq_ok.mp found
    obtain rfl := checked.eq_of_id member others (table.symm.trans (not_not.mp same))
    have offers := checked.offers_of_readableColumn member inside readable
    have read := checked.grows_addSource host member reads
    have rows : ∀ leaf ∈ (Sql.Expr.summary .joined
        ⟨(layout.source host.id entity.id).name, column⟩
          (link.rows (layout.source host.id entity.id) host.name.ident)).leaves,
        (reads.addSource (layout.source host.id entity.id)).Covers layout plan host leaf := by
      intro leaf leafIn
      rw [Sql.Expr.leaves] at leafIn
      rw [List.mem_singleton.mp leafIn]
      exact ⟨.rows member fits offers, fun item => checked.sees_rows fits read.2 column⟩
    cases fits with
    | inbound =>
      cases found
      exact ⟨read.1, rows⟩
    | association =>
      cases found
      exact ⟨read.1, rows⟩
    | @outbound field hostColumn array recorded =>
      cases array with
      | true =>
        cases found
        exact ⟨read.1, rows⟩
      | false =>
        cases found
        have joins : layout.JoinOf plan host
            (Formula.joinOn (layout.source host.id entity.id) host.name.ident hostColumn) :=
          ⟨entity, member, field, hostColumn, recorded, rfl⟩
        obtain ⟨joined, known⟩ := Reads.grows_addJoin _ joins read.2
        have provides := checked.provides_source member host.id offers
        refine ⟨read.1.trans joined, fun leaf leafIn => ?_⟩
        rw [Sql.Expr.leaves] at leafIn
        rw [List.mem_singleton.mp leafIn]
        refine ⟨.joined joins known provides, fun item inside => ?_⟩
        cases inside

/-- **What the resolver of a formula keeps and gives.** -/
theorem resolves (checked : layout.Checked schema plan left) {host : Entity}
    (hosts : host ∈ layout.application.entities) {formula : Field}
    (hosted : formula.id.table = host.id) :
    Formula.Resolves (Formula.resolver layout formula) (Reads.Grows layout plan host)
      fun reads expr => ∀ leaf ∈ expr.leaves, reads.Covers layout plan host leaf := by
  refine .ofLeaves Reads.Grows.refl (fun _ _ _ => Reads.Grows.trans)
    (fun _ _ _ => Reads.Covers.mono) fun ref reads expr result found => ?_
  unfold Formula.resolver at found
  cases via : ref.via with
  | none =>
    simp only [via] at found
    obtain ⟨value, read, equal⟩ := Formula.Evaluation.lift_eq_ok.mp found
    cases equal
    exact ⟨.refl reads, fun leaf => checked.covers_of_readOwn hosts hosted read⟩
  | some connection =>
    simp only [via] at found
    exact checked.covers_of_readLinked hosts hosted found

/-- **A compiled aggregate is sound.** -/
theorem sound_of_compileAggregate (checked : layout.Checked schema plan left) {host : Entity}
    (hosts : host ∈ layout.application.entities) {formula : Field}
    (hosted : formula.id.table = host.id) {aggregate : Aggregate} {compiled : CompiledFormula}
    (found : Formula.compileAggregate layout formula aggregate = .ok compiled) :
    compiled.Sound layout plan host formula := by
  have host_eq : layout.entity formula.id.table = host := by
    rw [hosted, Layout.entity, checked.wellFormed.entity_eq hosts]
  unfold Formula.compileAggregate at found
  obtain ⟨⟨link, _⟩, linked, found⟩ := bind_eq_ok.mp found
  obtain ⟨other, others, rfl, fits⟩ := checked.fits_of_linked hosted linked
  obtain ⟨column, summarised, found⟩ := bind_eq_ok.mp found
  cases found
  have offers : other.Offers plan column := by
    unfold Formula.aggregateColumn at summarised
    split at summarised
    · cases summarised
      exact checked.offers_id others
    · split at summarised
      · cases summarised
      · obtain ⟨id, required, summarised⟩ := bind_eq_ok.mp summarised
        obtain ⟨entity, member, table, inside, _⟩ := checked.field_of_requireField required
        split at summarised
        · cases summarised
        · next same =>
          obtain rfl := checked.eq_of_id member others (table.symm.trans (not_not.mp same))
          exact checked.offers_of_readableColumn member inside summarised
  have read := checked.grows_addSource host others {}
  rw [Reads.addSource_empty, ← hosted] at read
  refine ⟨rfl, rfl, read.1.sound ⟨by simp, by simp⟩, fun leaf member => ?_⟩
  rw [Sql.Expr.leaves, host_eq] at member
  rw [List.mem_singleton.mp member, hosted]
  rw [hosted] at read
  exact ⟨.rows others fits offers, fun item => checked.sees_rows fits read.2 column⟩

/-- **A compiled text formula is sound.** -/
theorem sound_of_compileConcatenation (checked : layout.Checked schema plan left) {host : Entity}
    (hosts : host ∈ layout.application.entities) {formula : Field}
    (hosted : formula.id.table = host.id) {equation : String} {compiled : CompiledFormula}
    (found : Formula.compileConcatenation layout formula equation = .ok compiled) :
    compiled.Sound layout plan host formula := by
  unfold Formula.compileConcatenation at found
  obtain ⟨pieces, _, found⟩ := bind_eq_ok.mp found
  obtain ⟨⟨parts, reads⟩, evaluated, found⟩ := bind_eq_ok.mp found
  cases found
  obtain ⟨grows, gives⟩ := (checked.resolves hosts hosted).expressions pieces evaluated
  refine ⟨rfl, rfl, grows.sound ⟨by simp, by simp⟩, fun leaf member => ?_⟩
  rw [Sql.Expr.leaves] at member
  obtain ⟨part, inside, member⟩ := Sql.Expr.mem_leavesEach.mp member
  exact gives part inside leaf member

/-- **A compiled formula is sound.** -/
theorem sound_of_compile (checked : layout.Checked schema plan left) {host : Entity}
    (hosts : host ∈ layout.application.entities) {formula : Field}
    (inside : formula ∈ host.fields) {compiled : CompiledFormula}
    (found : Formula.compile layout formula = .ok compiled) :
    compiled.Sound layout plan host formula := by
  have hosted := (checked.wellFormed.field_eq hosts inside).1
  unfold Formula.compile at found
  split at found
  · exact checked.sound_of_compileAggregate hosts hosted found
  · exact checked.sound_of_compileConcatenation hosts hosted found
  · cases found

end Layout.Checked

/-! ### All formulas -/

namespace Formula

variable {layout : Layout}

theorem foldl_attempt (formulas : List (Entity × Field))
    (state : List CompiledFormula × List Diagnostic) :
    formulas.foldl (attempt layout) state =
      (state.1 ++ formulas.filterMap fun formula => (compile layout formula.2).toOption,
        state.2 ++ formulas.filterMap fun formula => match compile layout formula.2 with
          | .ok _ => none
          | .error fault => some ⟨.field formula.1.key formula.2.key, .error, fault⟩) := by
  induction formulas generalizing state with
  | nil => simp
  | cons formula rest ih =>
    rw [List.foldl_cons, ih, List.filterMap_cons, List.filterMap_cons, attempt]
    cases compile layout formula.2 with
    | ok compiled => simp [Except.toOption]
    | error fault => simp [Except.toOption]

/-- **What is compiled are formulas of entities.** -/
theorem mem_compileAll {compiled : CompiledFormula} :
    compiled ∈ (compileAll layout).1 ↔ ∃ entity ∈ layout.application.entities,
      ∃ field ∈ entity.formulaFields, compile layout field = .ok compiled := by
  simp only [compileAll, foldl_attempt, List.nil_append, List.mem_filterMap, List.mem_flatMap,
    List.mem_map]
  constructor
  · rintro ⟨_, ⟨entity, member, field, inside, rfl⟩, found⟩
    cases outcome : compile layout field with
    | ok value =>
      simp only [outcome, Except.toOption, Option.some.injEq] at found
      exact ⟨entity, member, field, inside, found ▸ outcome⟩
    | error fault => simp [outcome, Except.toOption] at found
  · rintro ⟨entity, member, field, inside, outcome⟩
    exact ⟨(entity, field), ⟨entity, member, field, inside, rfl⟩,
      by simp [outcome, Except.toOption]⟩

/-- **What is reported are formulas that fail.** -/
theorem mem_left_compileAll {diagnostic : Diagnostic} :
    diagnostic ∈ (compileAll layout).2 ↔ ∃ entity ∈ layout.application.entities,
      ∃ field ∈ entity.formulaFields, ∃ fault, compile layout field = .error fault ∧
        diagnostic = ⟨.field entity.key field.key, .error, fault⟩ := by
  simp only [compileAll, foldl_attempt, List.nil_append, List.mem_filterMap, List.mem_flatMap,
    List.mem_map]
  constructor
  · rintro ⟨_, ⟨entity, member, field, inside, rfl⟩, found⟩
    cases outcome : compile layout field with
    | ok value => simp [outcome] at found
    | error fault =>
      simp only [outcome, Option.some.injEq] at found
      exact ⟨entity, member, field, inside, fault, outcome, found.symm⟩
  · rintro ⟨entity, member, field, inside, fault, outcome, rfl⟩
    exact ⟨(entity, field), ⟨entity, member, field, inside, rfl⟩, by simp [outcome]⟩

end Formula

end AppSchema
