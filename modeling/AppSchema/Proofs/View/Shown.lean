/-
**What views read of each other is shown, unless it was left out.**

* `Schema.shown`: the columns that a view shows, those of its table and its formulas;
* `Layout.LeftOut`: a column is that of a formula that was left out with a diagnostic;
* `Layout.Checked.mem_shown_iff`: of the columns that a view is to show, it shows exactly those that
  were not left out;
* `Settings.reads_of_build`: so is it for all that views read of each other.

`Settings.read_of_leftOut` is an application in which a view reads a formula that was left out.
-/

import AppSchema.Proofs.View.Basic

namespace AppSchema

/-- **The columns that a view shows.** -/
def Schema.shown (schema : Schema) (view : View) : List String :=
  ((schema.table? view.table).map fun table => table.columns.map Column.name).getD [] ++
    view.columns.filterMap SelectItem.name?

/-- A column of a view is that of a formula that was left out. -/
def Layout.LeftOut (layout : Layout) (diagnostics : List Diagnostic) (view column : String) :
    Prop :=
  ∃ entity ∈ layout.application.entities, entity.viewName = view ∧
    ∃ field ∈ entity.formulaFields, field.name.ident = column ∧
      ∃ diagnostic ∈ diagnostics, diagnostic.part = .field entity.key field.key

namespace Layout.Checked

open Formula

variable {schema : String} {plan : Plan} {left : List Diagnostic} {layout : Layout}
  {entity : Entity} {field : Field}

theorem eq_of_fieldName (checked : layout.Checked schema plan left)
    (member : entity ∈ layout.application.entities) {other : Field} (inside : field ∈ entity.fields)
    (within : other ∈ entity.fields) (same : field.name.ident = other.name.ident) :
    field = other :=
  List.inj_on_of_nodup_map (checked.wellFormed.entity entity member).distinctNames
    inside within same

/-- **Exactly the formulas that fail are reported.** -/
theorem reported_iff (checked : layout.Checked schema plan left)
    (member : entity ∈ layout.application.entities) (inside : field ∈ entity.formulaFields) :
    (∃ diagnostic ∈ left ++ (compileAll layout).2,
      diagnostic.part = .field entity.key field.key) ↔
      ∃ fault, compile layout field = .error fault := by
  have computed : ∀ field : Field, field.kind.isFormula = true → field.kind.stored? = none := by
    intro field formula
    cases kind : field.kind <;> simp_all [FieldKind.isFormula, FieldKind.stored?]
  constructor
  · rintro ⟨diagnostic, reported, part⟩
    obtain ⟨own, formula⟩ := List.mem_filter.mp inside
    rcases List.mem_append.mp reported with reported | reported
    · have unreported := checked.reported diagnostic reported
      exact absurd ⟨entity, member, field, own, formula, part⟩ unreported
    · obtain ⟨other, others, second, within, fault, failed, rfl⟩ := mem_left_compileAll.mp reported
      obtain ⟨sameOwner, sameKey⟩ := Part.field.inj part
      obtain rfl := Application.eq_of_key checked.indexed others member sameOwner
      obtain ⟨secondOwn, secondFormula⟩ := List.mem_filter.mp within
      have wellFormed := checked.wellFormed.entity other others
      have secondDomain := wellFormed.mem_domainFields secondOwn (computed second secondFormula)
      have domain := wellFormed.mem_domainFields own (computed field formula)
      obtain rfl : second = field :=
        List.inj_on_of_nodup_map wellFormed.distinctKeys secondDomain domain sameKey
      exact ⟨fault, failed⟩
  · rintro ⟨fault, failed⟩
    have reported := mem_left_compileAll.mpr ⟨entity, member, field, inside, fault, failed, rfl⟩
    exact ⟨_, List.mem_append_right _ reported, rfl⟩

/-- The columns that the view of an entity shows. -/
theorem shown_ofEntity (checked : layout.Checked schema plan left)
    (member : entity ∈ layout.application.entities) {compiled : Schema}
    (tables : compiled.tables = layout.tables) :
    compiled.shown (View.ofEntity layout (compileAll layout).1 entity) =
      (entity.table schema (plan.referencesOf entity.id)).columns.map Column.name ++
        (compiledOf layout entity).map CompiledFormula.name := by
  obtain ⟨collects, _, _, table⟩ := checked.collects_ofEntity member
  have there := checked.mem_tables.mpr (.inl ⟨entity, member, rfl⟩)
  have found : compiled.table? entity.name.ident =
      some (entity.table schema (plan.referencesOf entity.id)) := by
    rw [Schema.table?, tables]
    cases found : layout.tables.find? (·.name == entity.name.ident) with
    | none => exact absurd (List.find?_eq_none.mp found _ there) (by simp [Entity.table])
    | some first =>
      have named : first.name = entity.name.ident := by simpa using List.find?_some found
      obtain ⟨distinct, _, _⟩ := List.nodup_append.mp checked.distinctRelations
      rw [List.inj_on_of_nodup_map distinct (List.mem_of_find?_eq_some found) there named]
  rw [Schema.shown, table, found, collects.names_columns]
  rfl

/-- **No column of a table has the name of a formula.** -/
theorem ident_not_mem_columns (checked : layout.Checked schema plan left)
    (member : entity ∈ layout.application.entities) (inside : field ∈ entity.formulaFields) :
    field.name.ident ∉
      (entity.table schema (plan.referencesOf entity.id)).columns.map Column.name := by
  obtain ⟨own, formula⟩ := List.mem_filter.mp inside
  intro stored
  obtain ⟨column, there, named⟩ := List.mem_map.mp stored
  rcases mem_columns.mp there with ⟨other, within, is⟩ | reference
  · obtain ⟨value, stores, rfl⟩ := Option.map_eq_some_iff.mp is
    obtain rfl := checked.eq_of_fieldName member within own named
    cases kind : other.kind <;> simp_all [FieldKind.isFormula, FieldKind.stored?]
  · obtain ⟨holder, holds, same, free⟩ :=
      checked.sound.reference _ (mem_referencesOf.mp reference)
    obtain rfl := checked.eq_of_id holds member same
    exact free field own named.symm

/-- **A formula that fails is not shown.** No column of the table and no other formula has its
name. -/
theorem not_mem_shown (checked : layout.Checked schema plan left)
    (member : entity ∈ layout.application.entities) (inside : field ∈ entity.formulaFields)
    {fault : Fault} (failed : compile layout field = .error fault) :
    field.name.ident ∉
      (entity.table schema (plan.referencesOf entity.id)).columns.map Column.name ++
        (compiledOf layout entity).map CompiledFormula.name := by
  intro shown
  rcases List.mem_append.mp shown with shown | shown
  · exact checked.ident_not_mem_columns member inside shown
  · obtain ⟨compiled, there, named⟩ := List.mem_map.mp shown
    obtain ⟨other, within, found⟩ := mem_compiledOf.mp there
    have within := (List.mem_filter.mp within).1
    have own := (List.mem_filter.mp inside).1
    rw [(checked.sound_of_compile member within found).name_eq] at named
    obtain rfl := checked.eq_of_fieldName member within own named
    rw [failed] at found
    cases found

/-- **Of the columns that a view is to show, it shows those that were not left out.** -/
theorem mem_shown_iff (checked : layout.Checked schema plan left)
    (member : entity ∈ layout.application.entities) {compiled : Schema}
    (tables : compiled.tables = layout.tables) {column : String}
    (offers : entity.Offers plan column) :
    column ∈ compiled.shown (View.ofEntity layout (compileAll layout).1 entity) ↔
      ¬ layout.LeftOut (left ++ (compileAll layout).2) entity.viewName column := by
  rw [checked.shown_ofEntity member tables]
  constructor
  · rintro shown ⟨other, others, named, field, inside, rfl, reported⟩
    obtain rfl := checked.eq_of_viewName others member named
    obtain ⟨fault, failed⟩ := (checked.reported_iff member inside).mp reported
    exact checked.not_mem_shown member inside failed shown
  · intro kept
    cases offers with
    | stored inside kind => exact List.mem_append_left _ (mem_columns_stored inside kind)
    | reference there => exact List.mem_append_left _ (mem_columns_reference there)
    | @formula field inside =>
      cases outcome : compile layout field with
      | error fault =>
        have reported := (checked.reported_iff member inside).mpr ⟨fault, outcome⟩
        exact absurd ⟨entity, member, rfl, field, inside, rfl, reported⟩ kept
      | ok compiled =>
        have sound := checked.sound_of_compile member (List.mem_filter.mp inside).1 outcome
        have there : compiled ∈ compiledOf layout entity :=
          mem_compiledOf.mpr ⟨field, inside, outcome⟩
        rw [← sound.name_eq]
        exact List.mem_append_right _ (List.mem_map_of_mem there)

/-- **A strict compilation leaves no formula out.** -/
theorem not_leftOut_of_strict (checked : layout.Checked schema plan left)
    (settled : Diagnostic.settle true (compileAll layout).2 = .ok ()) (view column : String) :
    ¬ layout.LeftOut (left ++ (compileAll layout).2) view column := by
  rintro ⟨entity, member, _, field, inside, _, reported⟩
  obtain ⟨fault, failed⟩ := (checked.reported_iff member inside).mp reported
  have left := mem_left_compileAll.mpr ⟨entity, member, field, inside, fault, failed, rfl⟩
  have harmless := Diagnostic.settle_eq_ok.mp settled rfl _ left
  cases harmless

end Layout.Checked

namespace Settings

/-- **What views read of each other is shown exactly where it was not left out.** Every column that
a view reads of another is either shown by that view, or that of a formula that was left out with a
diagnostic; strict settings leave none out. -/
theorem reads_of_build {settings : Settings} {metadata : Metadata} {schema : Schema}
    (built : settings.build metadata = .ok schema) :
    ∃ layout left, settings.layout metadata = .ok (layout, left) ∧
      ∀ view ∈ schema.views, ∀ read ∈ view.reads, ∀ other ∈ schema.views,
        other.name = read.relation →
          (read.column ∈ schema.shown other ↔
            ¬ layout.LeftOut schema.diagnostics other.name read.column) ∧
          (settings.strict = true → read.column ∈ schema.shown other) := by
  obtain ⟨layout, left, views, laid, settled, ordered, rfl⟩ := build_eq_ok_iff.mp built
  obtain ⟨plan, checked⟩ := checked_of_layout laid
  obtain ⟨positions, order⟩ := View.exists_dependencyOrder ordered
  refine ⟨layout, left, laid, fun view member read reads other others named => ?_⟩
  obtain ⟨entity, entities, rfl⟩ := List.mem_map.mp (order.perm.subset others)
  have viewName := (checked.collects_ofEntity entities).2.1
  rw [viewName] at named
  have shows : read.column ∈ (settings.schemaOf layout left views).shown
      (View.ofEntity layout (Formula.compileAll layout).1 entity) ↔
        ¬ layout.LeftOut (left ++ (Formula.compileAll layout).2) entity.viewName read.column := by
    rcases checked.provides_of_reads (order.perm.subset member) reads with
      table | ⟨provider, providers, same, offers⟩
    · rw [← named] at table
      exact absurd table (checked.viewName_not_mem_tables entities)
    · obtain rfl := checked.eq_of_viewName entities providers (named.trans same)
      exact checked.mem_shown_iff entities rfl offers
  rw [viewName]
  refine ⟨shows, fun strict => ?_⟩
  rw [strict] at settled
  exact shows.mpr (checked.not_leftOut_of_strict settled _ _)

/-- A text formula. -/
def textFormula (key name equation : String) : FieldSource :=
  { key, name, sourceType := "concatenation"
    format := some (.object [("equation", .string equation)]) }

/-- Books whose label reads the code of their author, which is a formula itself. -/
def labelledBooks (code : String) : Metadata :=
  ⟨[⟨"object_1", "Author", [textFormula "field_1" "Code" code]⟩,
    ⟨"object_2", "Book",
      [{ key := "field_2", name := "Author", sourceType := "connection"
         relationship := some ⟨"object_1", .one, .one⟩ },
       textFormula "field_3" "Label" "\x7bfield_2.field_1\x7d"]⟩]⟩

/-- Where the code is compiled, the label reads what the view of the author shows. -/
theorem reads_of_build_labelledBooks :
    ∃ schema, ({} : Settings).build (labelledBooks "upper(x)") = .ok schema ∧
      ∃ view ∈ schema.views, ∃ read ∈ view.reads, ∃ other ∈ schema.views,
        other.name = read.relation ∧ read.column = "code" ∧ "code" ∈ schema.shown other := by
  have compiles : ({} : Settings).compilesTo (labelledBooks "upper(x)") (fun _ schema =>
      decide (∃ view ∈ schema.views, ∃ read ∈ view.reads, ∃ other ∈ schema.views,
        other.name = read.relation ∧ read.column = "code")) = true := by
    decide +kernel
  obtain ⟨_, _, schema, _, built, holds⟩ := exists_build compiles
  obtain ⟨view, member, read, reads, other, others, named, code⟩ := of_decide_eq_true holds
  obtain ⟨_, _, _, shown⟩ := reads_of_build built
  have there := (shown view member read reads other others named).2 rfl
  rw [code] at there
  exact ⟨schema, built, view, member, read, reads, other, others, named, code, there⟩

/-- **A view may read a formula that was left out**: the label is kept though the code is not. -/
theorem read_of_leftOut :
    ∃ schema, ({ strict := false } : Settings).build (labelledBooks "random(x)") = .ok schema ∧
      ∃ view ∈ schema.views, ∃ read ∈ view.reads, ∃ other ∈ schema.views,
        other.name = read.relation ∧ read.column ∉ schema.shown other := by
  have compiles : ({ strict := false } : Settings).compilesTo (labelledBooks "random(x)")
      (fun _ schema => decide (∃ view ∈ schema.views, ∃ read ∈ view.reads,
        ∃ other ∈ schema.views, other.name = read.relation ∧
          read.column ∉ schema.shown other)) = true := by
    decide +kernel
  obtain ⟨_, _, schema, _, built, holds⟩ := exists_build compiles
  exact ⟨schema, built, of_decide_eq_true holds⟩

end Settings

end AppSchema
