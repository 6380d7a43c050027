/-
**Relations seen from their sides.**

A relation is followed from one of its two tables to the other. Where both are the same table, two
readings of it are possible, and a preference picks one; everywhere else there is one reading, so
formulas of different kinds that follow one connection read the same rows.

* `Link.Of`: the link of a relation between a host and another table;
* `Link.of_iff`, `Link.isSome_of?`: the links that are followed are these, from the two sides of a
  relation;
* `Formula.linked_eq_ok_iff`, `Formula.compileAggregate_eq_ok_iff`, `Formula.readLinked_eq_ok_iff`:
  what following a connection, an aggregate and a reference through a connection take and give;
* `Formula.ReadsRows`: how a text formula reads a column of rows;
* `Formula.reads_same_rows`: an aggregate and a text formula that follow one relation between two
  tables read the same rows.
-/

import AppSchema.Proofs.Storage.Reference
import AppSchema.Proofs.View.Shown

namespace AppSchema

open Sql (Condition Expr FromItem Rows)

/-! ### Links -/

theorem Relation.other?_single {holder referenced table : TableId} {column : String}
    {array : Bool} : (single holder column referenced array).other? table =
      if holder = table then some referenced
      else if referenced = table then some holder else none :=
  rfl

theorem Relation.other?_manyToMany {association first second table : TableId}
    {firstColumn secondColumn : String} :
    (manyToMany association first second firstColumn secondColumn).other? table =
      if first = table then some second else if second = table then some first else none :=
  rfl

/-- **The link of a relation** between a host and another table. Where a table is linked to itself,
`outward` and arrays pick the host's own column. -/
inductive Link.Of (layout : Layout) (host other : TableId) (outward : Bool) :
    Relation → Link → Prop
  | inbound {column : String} {array : Bool} :
    (other = host → outward = false ∧ array = false) →
    Of layout host other outward (.single other column host array) (.inbound column)
  | outbound {column : String} {array : Bool} :
    (other = host → outward = true ∨ array = true) →
    Of layout host other outward (.single host column other array) (.outbound column array)
  | association {table : TableId} {hostColumn otherColumn : String} :
    Of layout host other outward (.manyToMany table host other hostColumn otherColumn)
      (.association (layout.table table).name hostColumn otherColumn)
  | reversed {table : TableId} {hostColumn otherColumn : String} :
    other ≠ host →
    Of layout host other outward (.manyToMany table other host otherColumn hostColumn)
      (.association (layout.table table).name hostColumn otherColumn)

namespace Link

variable {layout : Layout} {host other : TableId} {outward : Bool} {relation : Relation}
  {link : Link}

/-- **The links that are followed are those of the relation.** -/
theorem of_iff : Of layout host other outward relation link ↔
    of? layout relation host outward = some link ∧ relation.other? host = some other := by
  constructor
  · rintro (@⟨column, array, own⟩ | @⟨column, array, own⟩ | _ | apart)
    · by_cases same : other = host
      · obtain ⟨rfl, rfl⟩ := own same
        subst same
        simp [of?, Relation.other?_single]
      · simp [of?, Relation.other?_single, same]
    · by_cases same : other = host
      · subst same
        rcases own rfl with rfl | rfl <;> simp [of?, Relation.other?_single]
      · simp [of?, Relation.other?_single, same]
    · simp [of?, Relation.other?_manyToMany]
    · simp [of?, Relation.other?_manyToMany, apart]
  · rintro ⟨linked, opposite⟩
    cases relation with
    | single holder column referenced array =>
      rw [of?] at linked
      rw [Relation.other?_single] at opposite
      by_cases holds : holder = host
      · subst holds
        rw [if_pos rfl] at opposite
        cases opposite
        by_cases outer : other ≠ holder ∨ outward = true ∨ array = true
        · rw [if_pos ⟨rfl, outer⟩] at linked
          cases linked
          exact .outbound fun self => outer.resolve_left (not_not.mpr self)
        · obtain ⟨self, inner⟩ := not_or.mp outer
          obtain rfl := not_not.mp self
          rw [if_neg fun both => outer both.2, if_pos rfl] at linked
          cases linked
          exact .inbound fun _ => by simpa using inner
      · rw [if_neg holds] at opposite
        rw [if_neg fun both => holds both.1] at linked
        by_cases back : referenced = host
        · subst back
          rw [if_pos rfl] at opposite linked
          cases opposite
          cases linked
          exact .inbound fun self => absurd self holds
        · rw [if_neg back] at opposite
          cases opposite
    | manyToMany table first second firstColumn secondColumn =>
      rw [of?] at linked
      rw [Relation.other?_manyToMany] at opposite
      by_cases forward : first = host
      · rw [if_pos forward] at linked opposite
        subst forward
        cases opposite
        cases linked
        exact .association
      · rw [if_neg forward] at linked opposite
        by_cases backward : second = host
        · rw [if_pos backward] at linked opposite
          subst backward
          cases opposite
          cases linked
          exact .reversed forward
        · rw [if_neg backward] at opposite
          cases opposite

/-- **A relation is followed from its two sides.** -/
theorem isSome_of? (relation : Relation) (host : TableId) (outward : Bool) :
    (of? layout relation host outward).isSome = (relation.other? host).isSome := by
  cases relation with
  | single holder column referenced array =>
    rw [of?, Relation.other?_single]
    by_cases holds : holder = host
    · subst holds
      by_cases back : referenced = holder <;> simp [back]
      split <;> rfl
    · by_cases back : referenced = host <;> simp [holds, back]
  | manyToMany table first second firstColumn secondColumn =>
    rw [of?, Relation.other?_manyToMany]
    by_cases forward : first = host
    · simp [forward]
    · by_cases backward : second = host <;> simp [forward, backward]

/-- **Where the two sides are different tables**, nothing is left to a preference. -/
theorem of?_eq_of?_of_ne {relation : Relation} (apart : relation.sides.1 ≠ relation.sides.2)
    (host : TableId) (first second : Bool) :
    of? layout relation host first = of? layout relation host second := by
  cases relation with
  | single holder column referenced array =>
    replace apart : holder ≠ referenced := apart
    rw [of?, of?]
    by_cases holds : holder = host
    · subst holds
      simp [apart.symm]
    · simp [holds]
  | manyToMany => rfl

/-- **What a text formula reads** of a column of the linked rows: the one value, or all of them in
one text. -/
def read (link : Link) (source : FromItem) (host column : String) : Expr :=
  match link with
  | outbound hostColumn false => .column ⟨hostColumn, column⟩
  | link => .summary .joined ⟨source.name, column⟩ (link.rows source host)

/-- The join that a text formula needs for it. -/
def join? (link : Link) (source : FromItem) (host : String) : Option Join :=
  match link with
  | outbound hostColumn false => some (Formula.joinOn source host hostColumn)
  | _ => none

end Link

namespace Formula

variable {layout : Layout} {formula : Field} {connection : String} {outward : Bool}

/-! ### What formulas take and give -/

theorem requireField_eq_ok_iff {index : Index} {referencing key : String} {id : FieldId} :
    index.requireField referencing key = .ok id ↔ index.field? key = some id := by
  unfold Index.requireField
  cases index.field? key <;> simp

/-- **What following a connection takes**, whichever formula does it. -/
theorem followed_eq_ok_iff {relation : Relation} :
    followed layout formula connection = .ok relation ↔
      ∃ id, layout.index.field? connection = some id ∧
        (layout.field id).kind.connection?.isSome = true ∧ layout.relation? id = some relation := by
  unfold followed
  rw [bind_eq_ok]
  refine exists_congr fun id => ?_
  rw [requireField_eq_ok_iff]
  refine and_congr_right fun _ => ?_
  cases (layout.field id).kind.connection? with
  | none => simp [wrong]
  | some =>
    cases layout.relation? id with
    | none => simp [wrong]
    | some stored => simp [pure, Except.pure]

theorem linked_eq_ok_iff {link : Link} {other : TableId} :
    linked layout formula connection outward = .ok (link, other) ↔
      ∃ relation, followed layout formula connection = .ok relation ∧
        Link.Of layout formula.id.table other outward relation link := by
  unfold linked
  rw [bind_eq_ok]
  refine exists_congr fun relation => and_congr_right fun _ => ?_
  rw [Link.of_iff]
  cases Link.of? layout relation formula.id.table outward with
  | none => simp [wrong]
  | some found =>
    cases relation.other? formula.id.table with
    | none => simp [wrong]
    | some opposite => simp [pure, Except.pure]

/-- **What compiling an aggregate takes and gives.** -/
theorem compileAggregate_eq_ok_iff {aggregate : Aggregate} {compiled : CompiledFormula} :
    compileAggregate layout formula aggregate = .ok compiled ↔
      ∃ link other column,
        linked layout formula aggregate.connection false = .ok (link, other) ∧
        aggregateColumn layout formula aggregate other
          (!(layout.source formula.id.table other).isView) = .ok column ∧
        compiled =
          { field := formula.id
            expr := .summary (.aggregate aggregate.method)
              ⟨(layout.source formula.id.table other).name, column⟩
              (link.rows (layout.source formula.id.table other)
                (layout.entity formula.id.table).name.ident)
            name := formula.name.ident
            dependsOn := if (layout.source formula.id.table other).isView then
              [(layout.source formula.id.table other).relation] else [] } := by
  unfold compileAggregate
  rw [bind_eq_ok, Prod.exists]
  refine exists_congr fun link => exists_congr fun other => ?_
  constructor
  · rintro ⟨found, given⟩
    obtain ⟨column, summed, given⟩ := bind_eq_ok.mp given
    exact ⟨column, found, summed, (Except.ok.inj given).symm⟩
  · rintro ⟨column, found, summed, rfl⟩
    exact ⟨found, bind_eq_ok.mpr ⟨column, summed, rfl⟩⟩

/-- **What reading through a connection takes and gives.** -/
theorem readLinked_eq_ok_iff {key : String} {expr : Expr} {before after : Reads} :
    readLinked layout formula connection key before = .ok (expr, after) ↔
      ∃ link other id column,
        linked layout formula connection true = .ok (link, other) ∧
        layout.index.field? key = some id ∧ id.table = other ∧
        readableColumn layout (layout.field id)
          (!(layout.source formula.id.table other).isView) = .ok column ∧
        expr = link.read (layout.source formula.id.table other)
          (layout.entity formula.id.table).name.ident column ∧
        after = (link.join? (layout.source formula.id.table other)
          (layout.entity formula.id.table).name.ident).elim
            (before.addSource (layout.source formula.id.table other))
            (before.addSource (layout.source formula.id.table other)).addJoin := by
  unfold readLinked
  rw [bind_eq_ok, Prod.exists]
  refine exists_congr fun link => exists_congr fun other => ?_
  constructor
  · rintro ⟨found, given⟩
    obtain ⟨id, required, given⟩ := bind_eq_ok.mp given
    by_cases foreign : id.table ≠ other
    · rw [if_pos foreign] at given
      cases given
    · rw [if_neg foreign] at given
      obtain ⟨column, readable, given⟩ := bind_eq_ok.mp given
      refine ⟨id, column, found, requireField_eq_ok_iff.mp required, not_not.mp foreign,
        readable, ?_⟩
      rcases link with _ | ⟨hostColumn, _ | _⟩ | _ <;> cases given <;> exact ⟨rfl, rfl⟩
  · rintro ⟨id, column, found, required, own, readable, rfl, rfl⟩
    refine ⟨found, bind_eq_ok.mpr ⟨id, requireField_eq_ok_iff.mpr required, ?_⟩⟩
    rw [if_neg (not_not.mpr own)]
    refine bind_eq_ok.mpr ⟨column, readable, ?_⟩
    rcases link with _ | ⟨hostColumn, _ | _⟩ | _ <;> rfl

/-- **What reading a column of the host takes and gives.** -/
theorem readOwn_eq_ok_iff {key : String} {expr : Expr} :
    readOwn layout formula key = .ok expr ↔
      ∃ id column, layout.index.field? key = some id ∧ id.table = formula.id.table ∧
        readableColumn layout (layout.field id) true = .ok column ∧
        expr = .column ⟨(layout.entity formula.id.table).name.ident, column⟩ := by
  unfold readOwn
  rw [bind_eq_ok]
  refine exists_congr fun id => ?_
  rw [requireField_eq_ok_iff]
  by_cases foreign : id.table ≠ formula.id.table
  · simp [foreign, wrong]
  · rw [if_neg foreign]
    constructor
    · rintro ⟨known, given⟩
      obtain ⟨column, readable, given⟩ := bind_eq_ok.mp given
      exact ⟨column, known, not_not.mp foreign, readable, (Except.ok.inj given).symm⟩
    · rintro ⟨column, known, _, readable, rfl⟩
      exact ⟨known, bind_eq_ok.mpr ⟨column, readable, rfl⟩⟩

/-- What reading a column of the host gives. -/
theorem exists_of_readOwn {key : String} {expr : Expr}
    (found : readOwn layout formula key = .ok expr) : ∃ column, expr = .column column := by
  obtain ⟨_, _, _, _, _, rfl⟩ := readOwn_eq_ok_iff.mp found
  exact ⟨_, rfl⟩

/-- **A reference is to the host, or goes through a connection.** -/
theorem resolver_cases {ref : FieldRef} {expr : Expr} {before after : Reads}
    (resolved : resolver layout formula ref before = .ok (expr, after)) :
    (ref.via = none ∧ readOwn layout formula ref.field = .ok expr ∧ after = before) ∨
      ∃ connection, ref.via = some connection ∧
        readLinked layout formula connection ref.field before = .ok (expr, after) := by
  unfold resolver at resolved
  cases via : ref.via with
  | none =>
    simp only [via] at resolved
    obtain ⟨_, own, same⟩ := Evaluation.lift_eq_ok.mp resolved
    cases same
    exact .inl ⟨rfl, own, rfl⟩
  | some connection =>
    simp only [via] at resolved
    exact .inr ⟨connection, rfl, resolved⟩

/-! ### The same rows -/

/-- **A text formula reads a column of rows**: by a subquery over the rows, or through a join with
the one row that a column of the host picks. -/
inductive ReadsRows (host : String) (rows : Rows) (column : String) (before : Reads) :
    Expr → Reads → Prop
  | subquery : ReadsRows host rows column before (.summary .joined ⟨rows.source.name, column⟩ rows)
    before
  | join {key : String} :
    rows.filter = .onlyIf (.equal ⟨rows.source.name, "id"⟩ ⟨host, key⟩) →
    ReadsRows host rows column before (.column ⟨key, column⟩)
      (before.addJoin { relation := rows.source.relation, aliasName := key
                        on := .equal ⟨host, key⟩ ⟨key, "id"⟩ })

theorem readsRows_read (link : Link) (source : FromItem) (host column : String)
    (reads : Reads) : ReadsRows host (link.rows source host) column reads
      (link.read source host column) ((link.join? source host).elim reads reads.addJoin) := by
  rcases link with _ | ⟨hostColumn, _ | _⟩ | _
  · exact .subquery
  · exact .join rfl
  · exact .subquery
  · exact .subquery

/-- **Formulas of two kinds read the same rows.** A relation is followed from its two sides, by its
link between the table at hand and the other one; and where these differ, an aggregate and a text
formula that follow the relation read the rows that one condition picks. -/
theorem reads_same_rows (layout : Layout) (relation : Relation) (host : TableId) :
    (∀ outward, (Link.of? layout relation host outward).isSome = (relation.other? host).isSome) ∧
    (∀ other outward link, Link.Of layout host other outward relation link ↔
      Link.of? layout relation host outward = some link ∧ relation.other? host = some other) ∧
    (relation.sides.1 ≠ relation.sides.2 →
      Link.of? layout relation host true = Link.of? layout relation host false ∧
      ∀ (summing text : Field) (aggregate : Aggregate) (compiled : CompiledFormula) (key : String)
        (before after : Reads) (expr : Expr), summing.id.table = host → text.id.table = host →
        followed layout summing aggregate.connection = .ok relation →
        compileAggregate layout summing aggregate = .ok compiled →
        readLinked layout text aggregate.connection key before = .ok (expr, after) →
        ∃ other link rows summed column, Link.Of layout host other false relation link ∧
          Link.Of layout host other true relation link ∧
          rows = link.rows (layout.source host other) (layout.entity host).name.ident ∧
          compiled.expr = .summary (.aggregate aggregate.method) ⟨rows.source.name, summed⟩ rows ∧
          ReadsRows (layout.entity host).name.ident rows column (before.addSource rows.source)
            expr after) := by
  refine ⟨Link.isSome_of? relation host, fun other outward link => Link.of_iff, fun apart => ?_⟩
  have alike : Link.of? layout relation host true = Link.of? layout relation host false :=
    Link.of?_eq_of?_of_ne apart host true false
  refine ⟨alike, ?_⟩
  rintro summing text aggregate compiled key before after expr rfl hosted follows compiles reads
  obtain ⟨link, other, summed, linked, _, rfl⟩ := compileAggregate_eq_ok_iff.mp compiles
  obtain ⟨link', other', id, column, linked', _, _, _, rfl, rfl⟩ := readLinked_eq_ok_iff.mp reads
  obtain ⟨_, again, inner⟩ := linked_eq_ok_iff.mp linked
  obtain rfl := Except.ok.inj (follows.symm.trans again)
  obtain ⟨_, again, outer⟩ := linked_eq_ok_iff.mp linked'
  rw [hosted] at outer ⊢
  -- Whichever formula follows the connection, it comes upon the same relation.
  obtain rfl := Except.ok.inj (follows.symm.trans
    (followed_eq_ok_iff.mpr (followed_eq_ok_iff.mp again)))
  obtain ⟨found, opposite⟩ := Link.of_iff.mp inner
  obtain ⟨found', opposite'⟩ := Link.of_iff.mp outer
  obtain rfl := Option.some.inj (opposite.symm.trans opposite')
  obtain rfl := Option.some.inj (found.symm.trans (alike.symm.trans found'))
  exact ⟨other, link, _, summed, column, inner, outer, rfl, rfl, readsRows_read ..⟩

/-- A count of what a connection leads to. -/
def countOf (key name connection : String) : FieldSource :=
  { key, name, sourceType := "count"
    format := some (.object [("connection", .string connection)]) }

/-- Books that count their author and show the name. -/
def creditedBooks : Metadata :=
  ⟨[⟨"object_1", "Author", [{ key := "field_1", name := "Name", sourceType := "short_text" }]⟩,
    ⟨"object_2", "Book",
      [Layout.oneSided "field_2" "Author" ⟨"object_1", .one, .one⟩,
       countOf "field_3" "Authors" "field_2",
       Settings.textFormula "field_4" "Credit" "\x7bfield_2.field_1\x7d"]⟩]⟩

/-- The author is counted in a subquery and named in a join. -/
theorem reads_same_rows_creditedBooks :
    ∃ layout left relation compiled expr after,
      ({} : Settings).layout creditedBooks = .ok (layout, left) ∧
      followed layout (layout.field ⟨1, 1⟩) "field_2" = .ok relation ∧
      relation.sides.1 ≠ relation.sides.2 ∧
      compileAggregate layout (layout.field ⟨1, 1⟩) ⟨.count, "field_2", none⟩ = .ok compiled ∧
      readLinked layout (layout.field ⟨1, 2⟩) "field_2" "field_1" {} = .ok (expr, after) ∧
      compiled.expr.sql = "(SELECT COUNT(author_view.id) FROM author_view " ++
        "WHERE author_view.id = book.author_rel_author_id)" ∧
      expr.sql = "author_rel_author_id.name" ∧
      ∃ rows summed column,
        compiled.expr = .summary (.aggregate .count) ⟨rows.source.name, summed⟩ rows ∧
          ReadsRows "book" rows column (({} : Reads).addSource rows.source) expr after := by
  have compiles : ({} : Settings).compilesTo creditedBooks (fun layout _ =>
      (followed layout (layout.field ⟨1, 1⟩) "field_2").toOption.any fun relation =>
        (compileAggregate layout (layout.field ⟨1, 1⟩) ⟨.count, "field_2", none⟩).toOption.any
          fun compiled =>
            (readLinked layout (layout.field ⟨1, 2⟩) "field_2" "field_1" {}).toOption.any
              fun read => decide (relation.sides.1 ≠ relation.sides.2 ∧
                (layout.field ⟨1, 1⟩).id.table = 1 ∧ (layout.field ⟨1, 2⟩).id.table = 1 ∧
                (layout.entity 1).name.ident = "book" ∧
                compiled.expr.sql = "(SELECT COUNT(author_view.id) FROM author_view " ++
                  "WHERE author_view.id = book.author_rel_author_id)" ∧
                read.1.sql = "author_rel_author_id.name")) = true := by
    decide +kernel
  obtain ⟨layout, left, _, laid, _, holds⟩ := Settings.exists_build compiles
  obtain ⟨relation, follows, holds⟩ := exists_of_any holds
  obtain ⟨compiled, compiles, holds⟩ := exists_of_any holds
  obtain ⟨⟨expr, after⟩, reads, holds⟩ := exists_of_any holds
  obtain ⟨apart, summing, text, named, counts, shows⟩ := of_decide_eq_true holds
  obtain ⟨_, _, alike⟩ := reads_same_rows layout relation 1
  obtain ⟨_, _, rows, summed, column, _, _, _, same, readsRows⟩ := (alike apart).2 _ _
    ⟨.count, "field_2", none⟩ compiled "field_1" {} after expr summing text follows compiles reads
  rw [named] at readsRows
  exact ⟨layout, left, relation, compiled, expr, after, laid, follows, apart, compiles, reads,
    counts, shows, rows, summed, column, same, readsRows⟩

end Formula

end AppSchema
