/-
**The names in compiled formulas.**

All names in a compiled formula are those of its application: of its own table, and of what it reads
through connections.

* `Sql.Leaf.names`: the names at a leaf, all of them words of the expression
  (`Sql.Expr.names_subset_words`);
* `Link.words_rows`: linked rows have the names of their link, their source and the host;
* `Layout.Checked.named_readOwn`, `Layout.Checked.named_readLinked`: what a reference stands for has
  names of the application;
* `Layout.Checked.named_compile`, `Layout.Checked.named_joinOf`: so has a compiled formula, and so
  have the joins that it needs.
-/

import AppSchema.Proofs.Formula.Compile
import AppSchema.Proofs.Statement.Words
import AppSchema.Proofs.Storage.Names

namespace AppSchema

open Sql (Expr Leaf)

/-! ### Names in expressions -/

namespace Sql

/-- The names at a leaf. -/
def Leaf.names (leaf : Leaf) : List String :=
  leaf.refs.flatMap ColumnRef.words ++ leaf.items.flatMap FromItem.words

theorem FromItem.name_mem_words (source : FromItem) : source.name ∈ source.words := by
  unfold name words
  cases source.aliasName <;> simp

theorem Condition.refs_subset_words (condition : Condition) :
    condition.refs.flatMap ColumnRef.words ⊆ condition.words := by
  induction condition with
  | raw sql => simp [refs]
  | equal left right => simp [refs, words]
  | member left array => simp [refs, words]
  | both first second firstIn secondIn =>
    rw [refs, List.flatMap_append]
    exact List.append_subset.mpr ⟨List.subset_append_of_subset_left _ firstIn,
      List.subset_append_of_subset_right _ secondIn⟩

theorem Rows.names_subset_words (ref : ColumnRef) (rows : Rows) :
    (Leaf.rows ref rows).names ⊆ ref.words ++ rows.words := by
  have condition : rows.filter.condition.refs.flatMap ColumnRef.words ⊆ rows.filter.words := by
    cases rows.filter with
    | onlyIf condition => exact condition.refs_subset_words
    | through association condition =>
      exact List.subset_cons_of_subset _ condition.refs_subset_words
  have items : rows.filter.items.flatMap FromItem.words ⊆ rows.filter.words := by
    cases rows.filter <;> simp [Filter.items, Filter.words, FromItem.words]
  intro name member
  simp only [Leaf.names, Leaf.refs, Leaf.items, List.flatMap_cons, List.mem_append] at member
  simp only [Rows.words, List.mem_append]
  rcases member with (own | compared) | source | item
  · exact .inl own
  · exact .inr (.inr (condition compared))
  · exact .inr (.inl source)
  · exact .inr (.inr (items item))

namespace Expr

mutual

/-- **The names at the leaves of an expression are words of it.** -/
theorem names_subset_words : ∀ expr : Expr, expr.leaves.flatMap Leaf.names ⊆ expr.words
  | .raw _ => by simp [leaves]
  | .literal _ => by simp [leaves]
  | .column ref => by simp [leaves, words, Leaf.names, Leaf.refs, Leaf.items]
  | .concat parts => by
    rw [leaves, words]
    exact names_subset_wordsEach parts
  | .call name arguments => by
    rw [leaves, words]
    exact List.subset_cons_of_subset _ (names_subset_wordsEach arguments)
  | .dateName date format => by
    rw [leaves, words]
    exact List.subset_cons_of_subset _ date.names_subset_words
  | .remove text part => by
    rw [leaves, words, List.flatMap_append]
    exact List.append_subset.mpr ⟨List.subset_append_of_subset_left _ text.names_subset_words,
      List.subset_append_of_subset_right _ part.names_subset_words⟩
  | .firstMatch text pattern => by
    rw [leaves, words, List.flatMap_append]
    exact List.append_subset.mpr ⟨List.subset_append_of_subset_left _ text.names_subset_words,
      List.subset_append_of_subset_right _ pattern.names_subset_words⟩
  | .summary _ ref rows => by
    rw [leaves, words, List.flatMap_singleton]
    exact rows.names_subset_words ref

/-- The names at the leaves of several expressions are words of them. -/
theorem names_subset_wordsEach :
    ∀ exprs : List Expr, (leavesEach exprs).flatMap Leaf.names ⊆ wordsEach exprs
  | [] => by simp [leavesEach]
  | first :: rest => by
    rw [leavesEach, wordsEach, List.flatMap_append]
    exact List.append_subset.mpr ⟨List.subset_append_of_subset_left _ first.names_subset_words,
      List.subset_append_of_subset_right _ (names_subset_wordsEach rest)⟩

end

end Expr

end Sql

/-! ### Links -/

/-- The words of a relation. -/
def Relation.words : Relation → List String
  | single _ column _ _ => [column]
  | manyToMany _ _ _ hostColumn targetColumn => [hostColumn, targetColumn]

/-- The words of a link. -/
def Link.words : Link → List String
  | inbound column => [column]
  | outbound column _ => [column]
  | association table hostColumn otherColumn => [table, hostColumn, otherColumn]

namespace Link

open Sql (ColumnRef Condition Filter FromItem)

/-- The words of the filter of a link are its own, and those of the two ids that it links. -/
theorem words_filter (link : Link) (source host : String) :
    (link.filter source host).words ⊆ source :: host :: "id" :: link.words := by
  cases link with
  | inbound column => simp [filter, words, Filter.words, Condition.words, ColumnRef.words]
  | outbound column array =>
    cases array <;> simp [filter, words, Filter.words, Condition.words, ColumnRef.words]
  | association table hostColumn otherColumn =>
    simp [filter, words, Filter.words, Condition.words, ColumnRef.words]

/-- **The words of linked rows** are those of the link, of the source and of the host. -/
theorem words_rows (link : Link) (source : FromItem) (host : String) :
    (link.rows source host).words ⊆ source.words ++ host :: "id" :: link.words := by
  rw [rows, Sql.Rows.words]
  refine List.append_subset.mpr ⟨List.subset_append_left _ _, ?_⟩
  refine List.Subset.trans (link.words_filter source.name host) (List.cons_subset.mpr ⟨?_, ?_⟩)
  · exact List.mem_append_left _ source.name_mem_words
  · exact List.subset_append_right _ _

end Link

namespace Layout.Checked

open Application (Named)

variable {schema : String} {plan : Plan} {left : List Diagnostic} {layout : Layout}

theorem named_relation (checked : layout.Checked schema plan left) {field : FieldId}
    {relation : Relation} (member : (field, relation) ∈ plan.relations) :
    ∀ word ∈ relation.words, layout.application.Named word := by
  have stores : Plan.Stores layout.application plan relation := checked.sound.relation _ member
  cases stores with
  | single _ _ reference =>
    exact List.forall_mem_singleton.mpr (checked.named_reference reference)
  | manyToMany hosts targets =>
    simp only [Relation.words, List.forall_mem_cons]
    exact ⟨.side hosts targets, .otherSide hosts targets, by simp⟩

theorem named_offers (checked : layout.Checked schema plan left) {entity : Entity}
    (member : entity ∈ layout.application.entities) {column : String}
    (offers : entity.Offers plan column) : layout.application.Named column := by
  cases offers with
  | stored inside _ => exact .field member inside
  | reference there => exact checked.named_reference there
  | formula inside => exact .field member (List.mem_filter.mp inside).1

/-- The names of a link that a formula follows. -/
theorem named_link (checked : layout.Checked schema plan left) {formula : Field}
    {connection : String} {outward : Bool} {link : Link} {other : TableId}
    (found : Formula.linked layout formula connection outward = .ok (link, other)) :
    ∀ word ∈ link.words, layout.application.Named word := by
  obtain ⟨field, relation, member, linked, _⟩ := checked.relation_of_linked found
  have words := checked.named_relation member
  have stores : Plan.Stores layout.application plan relation := checked.sound.relation _ member
  cases stores with
  | single =>
    simp only [Link.of?] at linked
    split at linked
    · cases linked
      exact words
    · split at linked
      · cases linked
        exact words
      · cases linked
  | manyToMany _ _ there =>
    have named := checked.named_association there _ List.mem_cons_self
    simp only [Relation.words, List.forall_mem_cons] at words
    obtain ⟨hostColumn, targetColumn, _⟩ := words
    simp only [Link.of?, checked.table_association there] at linked
    split at linked
    · cases linked
      simp only [Link.words, List.forall_mem_cons]
      exact ⟨named, hostColumn, targetColumn, by simp⟩
    · split at linked
      · cases linked
        simp only [Link.words, List.forall_mem_cons]
        exact ⟨named, targetColumn, hostColumn, by simp⟩
      · cases linked

theorem named_source (checked : layout.Checked schema plan left) {other : Entity}
    (member : other ∈ layout.application.entities) (host : TableId) :
    ∀ word ∈ (layout.source host other.id).words, layout.application.Named word := by
  rw [checked.source_eq member]
  split
  · simp only [Sql.FromItem.words, Option.toList_some, List.forall_mem_cons]
    exact ⟨.entity member, .related, by simp⟩
  · exact List.forall_mem_singleton.mpr (.view member)

/-- The names of a subquery over linked rows. -/
theorem named_summary (checked : layout.Checked schema plan left) {host other : Entity}
    (hosts : host ∈ layout.application.entities) (others : other ∈ layout.application.entities)
    {link : Link} (linkNamed : ∀ word ∈ link.words, layout.application.Named word)
    {column : String} (columnNamed : layout.application.Named column) (summary : Sql.Summary) :
    ∀ word ∈ (Expr.summary summary ⟨(layout.source host.id other.id).name, column⟩
      (link.rows (layout.source host.id other.id) host.name.ident)).words,
      layout.application.Named word := by
  have source := checked.named_source others host.id
  intro word member
  rw [Expr.words] at member
  rcases List.mem_append.mp member with own | rows
  · rcases List.mem_pair.mp own with rfl | rfl
    · exact source _ (Sql.FromItem.name_mem_words _)
    · exact columnNamed
  · rcases List.mem_append.mp (link.words_rows _ _ rows) with inSource | rest
    · exact source word inSource
    · refine List.forall_mem_cons.mpr ⟨.entity hosts, ?_⟩ word rest
      exact List.forall_mem_cons.mpr ⟨.key, linkNamed⟩

/-! ### References -/

/-- What is read of a field is a name. -/
theorem named_readable (checked : layout.Checked schema plan left) {referencing key : String}
    {id : FieldId} (found : layout.index.requireField referencing key = .ok id) {stored : Bool}
    {column : String}
    (readable : Formula.readableColumn layout (layout.field id) stored = .ok column) :
    layout.application.Named column := by
  obtain ⟨entity, member, _, inside, _⟩ := checked.field_of_requireField found
  exact checked.named_offers member (checked.offers_of_readableColumn member inside readable)

theorem named_readOwn (checked : layout.Checked schema plan left) {host : Entity}
    (hosts : host ∈ layout.application.entities) {formula : Field}
    (hosted : formula.id.table = host.id) {key : String} {expr : Expr}
    (found : Formula.readOwn layout formula key = .ok expr) :
    ∀ word ∈ expr.words, layout.application.Named word := by
  unfold Formula.readOwn at found
  rw [hosted, Layout.entity, checked.wellFormed.entity_eq hosts] at found
  obtain ⟨id, required, found⟩ := bind_eq_ok.mp found
  split at found
  · cases found
  · obtain ⟨column, readable, found⟩ := bind_eq_ok.mp found
    cases found
    simp only [Expr.words, Sql.ColumnRef.words, List.forall_mem_cons]
    exact ⟨.entity hosts, checked.named_readable required readable, by simp⟩

theorem named_readLinked (checked : layout.Checked schema plan left) {host : Entity}
    (hosts : host ∈ layout.application.entities) {formula : Field}
    (hosted : formula.id.table = host.id) {connection key : String} {expr : Expr}
    {reads result : Formula.Reads}
    (found : Formula.readLinked layout formula connection key reads = .ok (expr, result)) :
    ∀ word ∈ expr.words, layout.application.Named word := by
  unfold Formula.readLinked at found
  rw [hosted, Layout.entity, checked.wellFormed.entity_eq hosts] at found
  obtain ⟨⟨link, _⟩, linked, found⟩ := bind_eq_ok.mp found
  obtain ⟨other, others, rfl, _⟩ := checked.fits_of_linked hosted linked
  have linkNamed := checked.named_link linked
  obtain ⟨id, required, found⟩ := bind_eq_ok.mp found
  split at found
  · cases found
  · obtain ⟨column, readable, found⟩ := bind_eq_ok.mp found
    have columnNamed := checked.named_readable required readable
    split at found
    · cases found
      have hostColumn := linkNamed _ List.mem_cons_self
      simp only [Expr.words, Sql.ColumnRef.words, List.forall_mem_cons]
      exact ⟨hostColumn, columnNamed, by simp⟩
    · cases found
      exact checked.named_summary hosts others linkNamed columnNamed .joined

/-- **What a reference stands for has names of the application.** -/
theorem named_resolver (checked : layout.Checked schema plan left) {host : Entity}
    (hosts : host ∈ layout.application.entities) {formula : Field}
    (hosted : formula.id.table = host.id) {ref : Formula.FieldRef} {reads result : Formula.Reads}
    {expr : Expr} (found : Formula.resolver layout formula ref reads = .ok (expr, result)) :
    ∀ word ∈ expr.words, layout.application.Named word := by
  unfold Formula.resolver at found
  cases via : ref.via with
  | none =>
    simp only [via] at found
    obtain ⟨value, read, equal⟩ := Formula.Evaluation.lift_eq_ok.mp found
    cases equal
    exact checked.named_readOwn hosts hosted read
  | some connection =>
    simp only [via] at found
    exact checked.named_readLinked hosts hosted found

/-! ### Formulas -/

theorem named_compileAggregate (checked : layout.Checked schema plan left) {host : Entity}
    (hosts : host ∈ layout.application.entities) {formula : Field}
    (hosted : formula.id.table = host.id) {aggregate : Aggregate} {compiled : CompiledFormula}
    (found : Formula.compileAggregate layout formula aggregate = .ok compiled) :
    ∀ word ∈ compiled.expr.words, layout.application.Named word := by
  have host_eq : layout.entity host.id = host := checked.wellFormed.entity_eq hosts
  unfold Formula.compileAggregate at found
  rw [hosted] at found
  obtain ⟨⟨link, _⟩, linked, found⟩ := bind_eq_ok.mp found
  obtain ⟨other, others, rfl, _⟩ := checked.fits_of_linked hosted linked
  obtain ⟨column, summarised, found⟩ := bind_eq_ok.mp found
  cases found
  have columnNamed : layout.application.Named column := by
    unfold Formula.aggregateColumn at summarised
    split at summarised
    · cases summarised
      exact .key
    · split at summarised
      · cases summarised
      · obtain ⟨id, required, summarised⟩ := bind_eq_ok.mp summarised
        split at summarised
        · cases summarised
        · exact checked.named_readable required summarised
  show ∀ word ∈ (Expr.summary _ _ (link.rows _ (layout.entity host.id).name.ident)).words, _
  rw [host_eq]
  exact checked.named_summary hosts others (checked.named_link linked) columnNamed _

/-- **The names in a compiled formula are those of the application.** -/
theorem named_compile (checked : layout.Checked schema plan left) {host : Entity}
    (hosts : host ∈ layout.application.entities) {formula : Field}
    (inside : formula ∈ host.fields) {compiled : CompiledFormula}
    (found : Formula.compile layout formula = .ok compiled) :
    ∀ leaf ∈ compiled.expr.leaves, ∀ name ∈ leaf.names, layout.application.Named name := by
  have hosted := (checked.wellFormed.field_eq hosts inside).1
  have ofWords : ∀ expr : Expr, (∀ word ∈ expr.words, layout.application.Named word) →
      ∀ leaf ∈ expr.leaves, ∀ name ∈ leaf.names, layout.application.Named name :=
    fun expr named leaf member name there =>
      named name (expr.names_subset_words (List.mem_flatMap.mpr ⟨leaf, member, there⟩))
  unfold Formula.compile at found
  split at found
  · exact ofWords _ (checked.named_compileAggregate hosts hosted found)
  · obtain ⟨pieces, _, found⟩ := bind_eq_ok.mp found
    obtain ⟨⟨parts, reads⟩, evaluated, found⟩ := bind_eq_ok.mp found
    cases found
    have resolves : Formula.Resolves (Formula.resolver layout formula) (fun _ _ => True)
        fun _ expr => ∀ leaf ∈ expr.leaves, ∀ name ∈ leaf.names, layout.application.Named name :=
      .ofLeaves (fun _ => trivial) (fun _ _ _ _ _ => trivial) (fun _ _ _ _ named => named)
        fun ref reads expr result resolved =>
          ⟨trivial, ofWords expr (checked.named_resolver hosts hosted resolved)⟩
    obtain ⟨_, gives⟩ := resolves.expressions pieces evaluated
    intro leaf member
    rw [Expr.leaves] at member
    obtain ⟨part, there, member⟩ := Expr.mem_leavesEach.mp member
    exact gives part there leaf member
  · cases found

/-- **The names of a join are those of the application.** -/
theorem named_joinOf (checked : layout.Checked schema plan left) {host : Entity}
    (hosts : host ∈ layout.application.entities) {join : Join}
    (joins : layout.JoinOf plan host join) :
    ∀ word ∈ join.words, layout.application.Named word := by
  obtain ⟨other, others, field, column, recorded, rfl⟩ := joins
  have columnNamed := checked.named_relation recorded column List.mem_cons_self
  have relation := checked.named_source others host.id _ List.mem_cons_self
  simp only [Join.words, Formula.joinOn, Sql.Condition.words, Sql.ColumnRef.words,
    List.cons_append, List.nil_append, List.forall_mem_cons]
  exact ⟨relation, columnNamed, .entity hosts, columnNamed, columnNamed, .key, by simp⟩

end Layout.Checked

end AppSchema
