/-
**The views on which formulas depend.**

A formula depends on the views of the other tables to which its connections lead, each listed where
it is met first. The dependencies are collected while references are resolved, on every way a
relation can be followed; none of these ways may leave one out, since the views are created in the
order that the dependencies say.

* `Field.usedConnections`: the connections that a formula names, in the order of its source;
* `Formula.Reads.Tracks`: the views that were read are those to which some connections lead, with
  `Formula.tracks_of_readLinked` for one reference and `Formula.tracks_of_resolved` for all;
* `View.dependsOn_foldl`: a view keeps what its formulas depend on, in their order;
* `Settings.dependsOn_of_layout`: what formulas and views of an application depend on.
-/

import AppSchema.Proofs.Formula.Side
import AppSchema.Proofs.Formula.Value
import AppSchema.Proofs.Storage.Association

namespace AppSchema

open Sql (Expr)

/-! ### Lists without repetition -/

/-- An element behind others is new, or it was met before. -/
theorem eraseDups_append_singleton {α : Type} [BEq α] [LawfulBEq α] [DecidableEq α]
    (names : List α) (name : α) : (names ++ [name]).eraseDups =
      if name ∈ names then names.eraseDups else names.eraseDups ++ [name] := by
  rw [List.eraseDups_append]
  by_cases known : name ∈ names
  · simp [List.removeAll, known]
  · simp [List.removeAll, known, List.eraseDups_cons]

/-! ### Connections -/

namespace Layout

/-- How the connection with a key is stored. -/
def storedAs? (layout : Layout) (connection : String) : Option Relation :=
  (layout.index.field? connection).bind layout.relation?

/-- The table to which a connection leads from a host. -/
def reached? (layout : Layout) (host : TableId) (connection : String) : Option TableId :=
  (layout.storedAs? connection).bind (·.other? host)

/-- **The views of the other tables to which connections lead**, in their order. -/
def viewsReached (layout : Layout) (host : TableId) (connections : List String) : List String :=
  ((connections.filterMap (layout.reached? host)).filter (· ≠ host)).map fun other =>
    (layout.entity other).viewName

theorem viewsReached_append (layout : Layout) (host : TableId) (first second : List String) :
    layout.viewsReached host (first ++ second) =
      layout.viewsReached host first ++ layout.viewsReached host second := by
  simp [viewsReached]

end Layout

/-- **The connections that a formula uses**, in the order of its source. -/
def Field.usedConnections (formula : Field) : List String :=
  match formula.kind with
  | .aggregate aggregate => [aggregate.connection]
  | .concatenation equation =>
    match Formula.parse formula.key equation with
    | .ok pieces => (Formula.Piece.fieldRefs pieces).filterMap Formula.FieldRef.via
    | .error _ => []
  | _ => []

theorem Field.usedConnections_aggregate {formula : Field} {aggregate : Aggregate}
    (kind : formula.kind = .aggregate aggregate) :
    formula.usedConnections = [aggregate.connection] := by
  simp [usedConnections, kind]

theorem Field.usedConnections_concatenation {formula : Field} {equation : String}
    {pieces : List Formula.Piece} (kind : formula.kind = .concatenation equation)
    (parsed : Formula.parse formula.key equation = .ok pieces) :
    formula.usedConnections = (Formula.Piece.fieldRefs pieces).filterMap Formula.FieldRef.via := by
  simp [usedConnections, kind, parsed]

namespace Formula

/-- **The views that were read** are those to which some connections lead, and all of these lead
somewhere. -/
structure Reads.Tracks (layout : Layout) (host : TableId) (connections : List String)
    (reads : Reads) : Prop where
  reached : ∀ connection ∈ connections, (layout.reached? host connection).isSome = true
  views_eq : reads.views = (layout.viewsReached host connections).eraseDups

variable {layout : Layout} {formula : Field} {connections : List String} {before after : Reads}

/-! ### References -/

/-- A connection that is linked leads to the other side of its relation. -/
theorem exists_of_linked {connection : String} {outward : Bool} {link : Link} {other : TableId}
    (found : linked layout formula connection outward = .ok (link, other)) :
    layout.reached? formula.id.table connection = some other ∧
      ∃ relation, layout.storedAs? connection = some relation ∧
        Link.Of layout formula.id.table other outward relation link := by
  obtain ⟨relation, follows, of⟩ := linked_eq_ok_iff.mp found
  obtain ⟨id, known, _, recorded⟩ := followed_eq_ok_iff.mp follows
  have stored : layout.storedAs? connection = some relation := by
    rw [Layout.storedAs?, known]
    exact recorded
  refine ⟨?_, relation, stored, of⟩
  rw [Layout.reached?, stored]
  exact (Link.of_iff.mp of).2

namespace Reads

theorem tracks_empty (layout : Layout) (host : TableId) : Tracks layout host [] {} :=
  ⟨fun _ member => absurd member List.not_mem_nil, rfl⟩

theorem views_addView (reads : Reads) {names : List String} (name : String)
    (same : reads.views = names.eraseDups) :
    (reads.addView name).views = (names ++ [name]).eraseDups := by
  rw [eraseDups_append_singleton, addView, same]
  by_cases known : name ∈ names
  · simp [known, same]
  · simp [known]

theorem views_addJoin (reads : Reads) (join : Join) : (reads.addJoin join).views = reads.views := by
  unfold addJoin
  split <;> rfl

theorem addSource_source (reads : Reads) (layout : Layout) (host other : TableId) :
    reads.addSource (layout.source host other) =
      if other = host then reads else reads.addView (layout.entity other).viewName := by
  unfold addSource Layout.source
  by_cases self : other = host <;> simp [self, Sql.FromItem.isView]

/-- **Reading the source to which a connection leads.** -/
theorem Tracks.addSource {host other : TableId} {connection : String}
    (tracks : Tracks layout host connections before)
    (reached : layout.reached? host connection = some other) :
    Tracks layout host (connections ++ [connection])
      (before.addSource (layout.source host other)) := by
  constructor
  · intro name member
    rcases List.mem_append.mp member with member | member
    · exact tracks.reached name member
    · rw [List.mem_singleton.mp member, reached]
      rfl
  · rw [addSource_source, Layout.viewsReached_append]
    by_cases self : other = host
    · simp [Layout.viewsReached, reached, self, tracks.views_eq]
    · rw [if_neg self, views_addView _ _ tracks.views_eq]
      simp [Layout.viewsReached, reached, self]

end Reads

/-- **One reference through a connection.** -/
theorem tracks_of_readLinked {connection key : String} {expr : Expr}
    (found : readLinked layout formula connection key before = .ok (expr, after))
    (tracks : before.Tracks layout formula.id.table connections) :
    after.Tracks layout formula.id.table (connections ++ [connection]) := by
  obtain ⟨link, other, id, column, linked, _, _, _, _, rfl⟩ := readLinked_eq_ok_iff.mp found
  have read := tracks.addSource (exists_of_linked linked).1
  cases link.join? (layout.source formula.id.table other)
      (layout.entity formula.id.table).name.ident with
  | none => exact read
  | some join => exact ⟨read.reached, (Reads.views_addJoin _ join).trans read.views_eq⟩

/-- **All references, one after the other.** -/
theorem tracks_of_resolved {refs : List FieldRef} {values : List Expr}
    (resolved : Resolved (resolver layout formula) refs before values after)
    (tracks : before.Tracks layout formula.id.table connections) :
    after.Tracks layout formula.id.table (connections ++ refs.filterMap FieldRef.via) := by
  induction resolved generalizing connections with
  | nil => simpa using tracks
  | cons resolved _ ih =>
    rcases resolver_cases resolved with ⟨via, _, rfl⟩ | ⟨connection, via, read⟩
    · rw [List.filterMap_cons_none via]
      exact ih tracks
    · rw [List.filterMap_cons_some via, List.append_cons]
      exact ih (tracks_of_readLinked read tracks)

/-- **What a compiled formula of a host depends on**, and joins. -/
structure DependsOnUsed (layout : Layout) (host : Entity) (formula : Field)
    (compiled : CompiledFormula) : Prop where
  reached : ∀ connection ∈ formula.usedConnections,
    (layout.reached? host.id connection).isSome = true
  dependsOn_eq : compiled.dependsOn =
    (layout.viewsReached host.id formula.usedConnections).eraseDups
  join : ∀ join ∈ compiled.joins,
    join.relation ∈ compiled.dependsOn ∨ join.relation = host.name.ident

/-- A text formula reads its references in the order of its source. -/
theorem tracks_of_compileConcatenation {equation : String} {compiled : CompiledFormula}
    (kind : formula.kind = .concatenation equation)
    (found : compileConcatenation layout formula equation = .ok compiled) :
    Reads.Tracks layout formula.id.table formula.usedConnections
      ⟨compiled.joins, compiled.dependsOn⟩ := by
  obtain ⟨pieces, parsed, found⟩ := bind_eq_ok.mp found
  obtain ⟨⟨parts, reads⟩, evaluated, found⟩ := bind_eq_ok.mp found
  cases found
  obtain ⟨values, resolved, _⟩ :=
    resolved_of_expressions pieces (Piece.sound_of_parse parsed) evaluated
  rw [Field.usedConnections_concatenation kind parsed]
  exact tracks_of_resolved resolved (Reads.tracks_empty layout _)

/-- An aggregate reads the source to which its one connection leads. -/
theorem tracks_of_compileAggregate {aggregate : Aggregate} {compiled : CompiledFormula}
    (kind : formula.kind = .aggregate aggregate)
    (found : compileAggregate layout formula aggregate = .ok compiled) :
    Reads.Tracks layout formula.id.table formula.usedConnections
      ⟨compiled.joins, compiled.dependsOn⟩ := by
  obtain ⟨link, other, column, linked, _, rfl⟩ := compileAggregate_eq_ok_iff.mp found
  have read := (Reads.tracks_empty layout _).addSource (exists_of_linked linked).1
  rw [Reads.addSource_empty, List.nil_append] at read
  rwa [Field.usedConnections_aggregate kind]

end Formula

/-! ### Views -/

namespace View

/-- **A view depends on names in the order in which it meets them**, its own aside. -/
theorem dependsOn_foldl_addDependency {names seen : List String} {view : View}
    (same : view.dependsOn = seen.eraseDups) (apart : view.name ∉ names) :
    (names.foldl addDependency view).dependsOn = (seen ++ names).eraseDups := by
  induction names generalizing seen view with
  | nil => simpa using same
  | cons name rest ih =>
    obtain ⟨notOwn, others⟩ := not_or.mp (mt List.mem_cons.mpr apart)
    have step : (view.addDependency name).dependsOn = (seen ++ [name]).eraseDups := by
      rw [eraseDups_append_singleton, addDependency, same]
      by_cases known : name ∈ seen
      · simp [known, same]
      · simp [known, Ne.symm notOwn]
    have sameName : (view.addDependency name).name = view.name := by
      unfold addDependency
      split <;> rfl
    rw [List.foldl_cons, List.append_cons]
    exact ih step (sameName ▸ others)

/-- **A view keeps what its formulas depend on**, in their order. -/
theorem dependsOn_foldl {formulas : List CompiledFormula} (seen : List String) {view : View}
    (same : view.dependsOn = seen.eraseDups)
    (apart : ∀ formula ∈ formulas, view.name ∉ formula.dependsOn) :
    (formulas.foldl addFormula view).dependsOn =
      (seen ++ formulas.flatMap CompiledFormula.dependsOn).eraseDups := by
  induction formulas generalizing seen view with
  | nil => simpa using same
  | cons formula rest ih =>
    obtain ⟨here, others⟩ := List.forall_mem_cons.mp apart
    obtain ⟨added, joined, _⟩ :=
      foldl_addJoin formula.joins { view with columns := view.columns ++ [formula.item] }
    have step : (view.addFormula formula).dependsOn = (seen ++ formula.dependsOn).eraseDups := by
      rw [addFormula, joined]
      exact dependsOn_foldl_addDependency same here
    have sameName : (view.addFormula formula).name = view.name := by
      rw [addFormula, joined]
      obtain ⟨dependsOn, depends, _⟩ := foldl_addDependency formula.dependsOn
        { view with columns := view.columns ++ [formula.item], joins := view.joins ++ added }
      rw [depends]
    rw [List.foldl_cons, List.flatMap_cons, ← List.append_assoc]
    exact ih _ step (sameName ▸ others)

end View

namespace Layout.Checked

open Formula

variable {schema : String} {plan : Plan} {left : List Diagnostic} {layout : Layout}

/-- **What is joined is a view that was read, or the host's own table.** -/
theorem relation_of_joinOf (checked : layout.Checked schema plan left) {host : Entity}
    (hosts : host ∈ layout.application.entities) {views : List String} {join : Join}
    (joinOf : layout.JoinOf plan host join)
    (sees : layout.Sees views join.relation) :
    join.relation ∈ views ∨ join.relation = host.name.ident := by
  obtain ⟨other, others, field, column, recorded, rfl⟩ := joinOf
  rw [joinOn, checked.source_eq others] at sees ⊢
  by_cases self : other.id = host.id
  · obtain rfl := checked.eq_of_id others hosts self
    rw [if_pos self]
    exact .inr rfl
  · rw [if_neg self] at sees ⊢
    exact .inl (sees.resolve_left (checked.viewName_not_mem_tables others))

theorem dependsOnUsed_of_compile (checked : layout.Checked schema plan left) {host : Entity}
    (hosts : host ∈ layout.application.entities) {formula : Field}
    (inside : formula ∈ host.fields) {compiled : CompiledFormula}
    (found : compile layout formula = .ok compiled) :
    DependsOnUsed layout host formula compiled := by
  have hosted := (checked.wellFormed.field_eq hosts inside).1
  have sound := checked.sound_of_compile hosts inside found
  have tracks : Reads.Tracks layout host.id formula.usedConnections
      ⟨compiled.joins, compiled.dependsOn⟩ := by
    rw [← hosted]
    unfold compile at found
    split at found
    · next kind => exact tracks_of_compileAggregate kind found
    · next kind => exact tracks_of_compileConcatenation kind found
    · cases found
  refine ⟨tracks.reached, tracks.views_eq, fun join member => ?_⟩
  obtain ⟨joinOf, sees⟩ := sound.reads.join join member
  exact checked.relation_of_joinOf hosts joinOf sees

/-- **No formula of a host depends on the view of the host.** -/
theorem viewName_not_mem_dependsOn (checked : layout.Checked schema plan left) {host : Entity}
    (hosts : host ∈ layout.application.entities) {compiled : CompiledFormula}
    (member : compiled ∈ compiledOf layout host) : host.viewName ∉ compiled.dependsOn := by
  intro own
  obtain ⟨field, sound⟩ := checked.sound_of_mem hosts member
  obtain ⟨other, others, apart, same⟩ := sound.reads.view _ own
  exact apart (congrArg Entity.id (checked.eq_of_viewName others hosts same.symm))

/-- **The view of a host depends on what its compiled formulas depend on**, and not on itself. -/
theorem dependsOn_ofEntity (checked : layout.Checked schema plan left) {host : Entity}
    (hosts : host ∈ layout.application.entities) :
    (View.ofEntity layout (compileAll layout).1 host).dependsOn =
        ((compiledOf layout host).flatMap CompiledFormula.dependsOn).eraseDups ∧
      host.viewName ∉ (View.ofEntity layout (compileAll layout).1 host).dependsOn := by
  have apart : ∀ compiled ∈ compiledOf layout host, host.viewName ∉ compiled.dependsOn :=
    fun _ => checked.viewName_not_mem_dependsOn hosts
  have collected : (View.ofEntity layout (compileAll layout).1 host).dependsOn =
      ((compiledOf layout host).flatMap CompiledFormula.dependsOn).eraseDups := by
    rw [checked.ofEntity_eq hosts]
    exact View.dependsOn_foldl [] rfl apart
  refine ⟨collected, fun own => ?_⟩
  rw [collected, List.mem_eraseDups] at own
  obtain ⟨compiled, member, has⟩ := List.mem_flatMap.mp own
  exact apart compiled member has

end Layout.Checked

namespace Settings

/-- **What formulas and views of an application depend on.** A compiled formula depends on the views
of the tables other than its host to which its connections lead, in the order of its source and each
once, and joins nothing but these and the table of its host. The view of the host depends on what
its formulas depend on, in their order and each once, and never on itself. -/
theorem dependsOn_of_layout {settings : Settings} {metadata : Metadata} {layout : Layout}
    {left : List Diagnostic} (laid : settings.layout metadata = .ok (layout, left)) :
    ∀ host ∈ layout.application.entities,
      (∀ formula ∈ host.fields, ∀ compiled, Formula.compile layout formula = .ok compiled →
        Formula.DependsOnUsed layout host formula compiled) ∧
      (View.ofEntity layout (Formula.compileAll layout).1 host).dependsOn =
        ((Formula.compiledOf layout host).flatMap CompiledFormula.dependsOn).eraseDups ∧
      (View.ofEntity layout (Formula.compileAll layout).1 host).name ∉
        (View.ofEntity layout (Formula.compileAll layout).1 host).dependsOn := by
  obtain ⟨plan, checked⟩ := checked_of_layout laid
  intro host hosts
  refine ⟨fun formula inside compiled => checked.dependsOnUsed_of_compile hosts inside, ?_⟩
  rw [(checked.collects_ofEntity hosts).2.1]
  exact checked.dependsOn_ofEntity hosts

/-- Books with an author, genres and a sequel, whose label reads all of them. -/
def shelvedBooks : Metadata :=
  ⟨[⟨"object_1", "Author", [{ key := "field_1", name := "Name", sourceType := "short_text" }]⟩,
    ⟨"object_2", "Genre", [{ key := "field_2", name := "Name", sourceType := "short_text" }]⟩,
    ⟨"object_3", "Book",
      [{ key := "field_3", name := "Title", sourceType := "short_text" },
       Layout.oneSided "field_4" "Author" ⟨"object_1", .one, .one⟩,
       manyToMany "field_5" "Genres" "object_2",
       Layout.oneSided "field_6" "Sequel" ⟨"object_3", .one, .one⟩,
       textFormula "field_7" "Label" ("\x7bfield_5.field_2\x7d \x7bfield_6.field_3\x7d " ++
         "upper(\x7bfield_4.field_1\x7d) \x7bfield_5.field_2\x7d")]⟩]⟩

/-- The label depends on the genres before the author, and not on the books. -/
theorem dependsOn_of_layout_shelvedBooks :
    ∃ layout left, ({} : Settings).layout shelvedBooks = .ok (layout, left) ∧
      ∃ host ∈ layout.application.entities, ∃ formula ∈ host.fields, ∃ compiled,
        formula.usedConnections = ["field_5", "field_6", "field_4", "field_5"] ∧
        compiled.dependsOn = ["genre_view", "author_view"] ∧
        compiled.joins.map Join.relation = ["book", "author_view"] ∧
        Formula.compile layout formula = .ok compiled ∧
        Formula.DependsOnUsed layout host formula compiled := by
  have compiles : ({} : Settings).compilesTo shelvedBooks (fun layout _ =>
      layout.application.entities.any fun host => host.fields.any fun formula =>
        (Formula.compile layout formula).toOption.any fun compiled =>
          decide (formula.usedConnections = ["field_5", "field_6", "field_4", "field_5"] ∧
            compiled.dependsOn = ["genre_view", "author_view"] ∧
            compiled.joins.map Join.relation = ["book", "author_view"])) = true := by
    decide +kernel
  obtain ⟨layout, left, _, laid, _, holds⟩ := exists_build compiles
  obtain ⟨host, hosts, holds⟩ := List.any_eq_true.mp holds
  obtain ⟨formula, inside, holds⟩ := List.any_eq_true.mp holds
  obtain ⟨compiled, found, holds⟩ := exists_of_any holds
  obtain ⟨used, depends, joins⟩ := of_decide_eq_true holds
  exact ⟨layout, left, laid, host, hosts, formula, inside, compiled, used, depends, joins, found,
    (dependsOn_of_layout laid host hosts).1 formula inside compiled found⟩

end Settings

end AppSchema
