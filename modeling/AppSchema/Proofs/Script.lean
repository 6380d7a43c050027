/-
**Scripts in which nothing is missing.**

A statement is grounded behind others if these create all that it names: the tables that columns
and foreign keys reference, with their columns, and the tables and views that a view reads. Names
without a schema stand for what is on the search path.

* `Statement.Grounded`: what a statement needs of those before it;
* `Each.append`: what holds of each statement behind those before it is shown part by part;
* `Settings.grounded_of_build`: every statement of the script of a compiled application is grounded,
  and behind the views on which it depends.
-/

import AppSchema.Proofs.View.Shown
import AppSchema.Script

namespace AppSchema

namespace Statement

/-- The table or view that a statement creates. -/
def creates? : Statement → Option QualifiedName
  | createTable name _ _ => some name
  | createView name _ _ _ _ => some name
  | _ => none

/-- The search path behind a statement. -/
def path (before : List String) : Statement → List String
  | setSearchPath schemas => schemas
  | _ => before

/-- Statements create a table or view. -/
def Creates (statements : List Statement) (name : QualifiedName) : Prop :=
  ∃ statement ∈ statements, statement.creates? = some name

/-- Statements create a table with a column. -/
def CreatesWith (statements : List Statement) (name : QualifiedName) (column : String) : Prop :=
  ∃ columns constraints, createTable name columns constraints ∈ statements ∧
    column ∈ columns.map ColumnDef.name

/-- Statements create a table or view in a schema of their search path. -/
def Finds (statements : List Statement) (relation : String) : Prop :=
  ∃ schema ∈ statements.foldl path [], Creates statements [schema, relation]

/-- **What a statement needs of those before it.** -/
def Grounded (earlier : List Statement) : Statement → Prop
  | createSchema _ => True
  | setSearchPath _ => True
  | createTable _ columns _ =>
    ∀ column ∈ columns, ∀ table, column.references = some table → CreatesWith earlier table "id"
  | addForeignKey table _ column references =>
    CreatesWith earlier table column ∧ CreatesWith earlier references "id"
  | createView _ _ source columns joins =>
    Creates earlier source ∧ (∀ join ∈ joins, Finds earlier join.relation) ∧
      ∀ item ∈ columns, ∀ leaf ∈ item.leaves, ∀ read ∈ leaf.items, Finds earlier read.relation
  | insert table columns _ => ∀ column ∈ columns, CreatesWith earlier table column

/-- **A statement behind the views on which it depends**, if it creates one of some views. -/
def BehindViews (views : List View) (earlier : List Statement) (statement : Statement) : Prop :=
  ∀ view ∈ views, statement = ofView view → ∀ name ∈ view.dependsOn,
    ∃ other ∈ views, other.name = name ∧ ofView other ∈ earlier

/-- What is shown of each statement of a script. -/
def InPlace (views : List View) (earlier : List Statement) (statement : Statement) : Prop :=
  statement.Grounded earlier ∧ statement.BehindViews views earlier

end Statement

/-- **A property of each statement of a list**, behind those before it. -/
def Each (property : List Statement → Statement → Prop) (earlier statements : List Statement) :
    Prop :=
  ∀ before statement after, statements = before ++ statement :: after →
    property (earlier ++ before) statement

namespace Each

variable {property : List Statement → Statement → Prop} {earlier first second : List Statement}

/-- **Each statement of two parts**, the second behind the first. -/
theorem append (front : Each property earlier first)
    (back : Each property (earlier ++ first) second) : Each property earlier (first ++ second) := by
  intro before statement after split
  rcases List.append_eq_append_iff.mp split with ⟨middle, rfl, rest⟩ | ⟨middle, equal, rest⟩
  · rw [← List.append_assoc]
    exact back middle statement after rest
  · cases middle with
    | nil =>
      rw [List.append_nil] at equal
      subst equal
      have again := back [] statement after rest.symm
      rwa [List.append_nil] at again
    | cons head tail =>
      obtain ⟨rfl, rfl⟩ := List.cons.inj rest
      exact front before statement tail equal

/-- Each statement, whatever is before it in its part. -/
theorem of_forall (holds : ∀ statement ∈ first, ∀ before, property (earlier ++ before) statement) :
    Each property earlier first := by
  rintro before statement after rfl
  exact holds statement (by simp) before

end Each

/-! ### What statements create -/

namespace Statement

variable {earlier later : List Statement} {name : QualifiedName} {column : String}

theorem Creates.mono (creates : Creates earlier name) (subset : earlier ⊆ later) :
    Creates later name := by
  obtain ⟨statement, member, is⟩ := creates
  exact ⟨statement, subset member, is⟩

theorem CreatesWith.mono (creates : CreatesWith earlier name column) (subset : earlier ⊆ later) :
    CreatesWith later name column := by
  obtain ⟨columns, constraints, member, has⟩ := creates
  exact ⟨columns, constraints, subset member, has⟩

theorem creates_of_table {tables : List Table} {table : Table} (member : table ∈ tables) :
    Creates (tables.map ofTable) [table.schema, table.name] :=
  ⟨_, List.mem_map_of_mem member, rfl⟩

theorem createsWith_of_table {tables : List Table} {table : Table} (member : table ∈ tables)
    (has : column ∈ table.columns.map Column.name) :
    CreatesWith (tables.map ofTable) [table.schema, table.name] column := by
  refine ⟨_, _, List.mem_map_of_mem member, ?_⟩
  rw [List.map_map]
  exact has

/-- What is not a view depends on none. -/
theorem behindViews_of_not_view {views : List View} {statement : Statement}
    (other : statement.isCreateView = false) : statement.BehindViews views earlier := by
  rintro view _ rfl
  cases other

/-- The search path stays as it is where no statement sets it. -/
theorem foldl_path {statements : List Statement} {before : List String}
    (keeps : ∀ statement ∈ statements, ∀ schemas, statement ≠ setSearchPath schemas) :
    statements.foldl path before = before := by
  induction statements with
  | nil => rfl
  | cons statement rest ih =>
    obtain ⟨here, others⟩ := List.forall_mem_cons.mp keeps
    rw [List.foldl_cons]
    have same : path before statement = before := by
      cases statement with
      | setSearchPath schemas => exact absurd rfl (here schemas)
      | _ => rfl
    rw [same]
    exact ih others

end Statement

/-! ### The parts of a script -/

open Statement

namespace Layout.Checked

variable {schema : String} {plan : Plan} {left : List Diagnostic} {layout : Layout}
  {views : List View} {earlier : List Statement}

/-- **Each table is behind those that it references.** Only associations reference any, and they are
behind the tables of all entities. -/
theorem each_table (checked : layout.Checked schema plan left) :
    Each (InPlace views) earlier (layout.tables.map ofTable) := by
  rw [checked.tables_eq, List.map_append]
  refine Each.append (.of_forall fun statement member before => ?_)
    (.of_forall fun statement member before => ?_)
  · obtain ⟨table, tables, rfl⟩ := List.mem_map.mp member
    obtain ⟨entity, entities, rfl⟩ := List.mem_map.mp tables
    refine ⟨fun column columns referenced references => ?_, behindViews_of_not_view rfl⟩
    obtain ⟨stored, has, rfl⟩ := List.mem_map.mp columns
    rw [ColumnDef.ofColumn, checked.references_eq_none has] at references
    cases references
  · obtain ⟨table, tables, rfl⟩ := List.mem_map.mp member
    refine ⟨fun column columns referenced references => ?_, behindViews_of_not_view rfl⟩
    obtain ⟨stored, has, rfl⟩ := List.mem_map.mp columns
    obtain ⟨entity, entities, is⟩ := checked.references_association tables has
    rw [ColumnDef.ofColumn, is, checked.schema_of_mem (checked.mem_tables.mpr (.inr tables))]
      at references
    cases references
    have key := checked.mem_columns_id entities
    rw [checked.table_entity entities] at key
    have there : entity.table schema (plan.referencesOf entity.id) ∈
        layout.application.entities.map fun entity =>
          entity.table schema (plan.referencesOf entity.id) :=
      List.mem_map.mpr ⟨entity, entities, rfl⟩
    have creates := createsWith_of_table there key
    exact creates.mono
      (List.Subset.trans (List.subset_append_right _ _) (List.subset_append_left _ _))

/-- **Each foreign key is behind its tables.** -/
theorem each_foreignKey (checked : layout.Checked schema plan left)
    (tables : layout.tables.map ofTable ⊆ earlier) :
    Each (InPlace views) earlier (layout.foreignKeys.map (ofForeignKey schema)) := by
  refine .of_forall fun statement member before => ⟨?_, ?_⟩
  · obtain ⟨key, keys, rfl⟩ := List.mem_map.mp member
    have keys : key ∈ plan.foreignKeys := by
      rw [checked.layout_eq] at keys
      exact keys
    obtain ⟨holder, holds, referenced, refers, column, reference, rfl⟩ :=
      checked.sound.foreignKey key keys
    have created := List.Subset.trans tables (List.subset_append_left earlier before)
    have holderTable := checked.mem_tables.mpr (.inl ⟨holder, holds, rfl⟩)
    have referencedTable := checked.mem_tables.mpr (.inl ⟨referenced, refers, rfl⟩)
    constructor
    · have creates := createsWith_of_table holderTable (mem_columns_reference reference)
      exact creates.mono created
    · have key := checked.mem_columns_id refers
      rw [checked.table_entity refers] at key
      have creates := createsWith_of_table referencedTable key
      exact creates.mono created
  · obtain ⟨key, keys, rfl⟩ := List.mem_map.mp member
    exact behindViews_of_not_view rfl

/-- **Each view is behind what it reads.** -/
theorem each_view (checked : layout.Checked schema plan left) {positions : List Nat}
    (order : View.DependencyOrder (Settings.viewsOf layout) views positions)
    (tables : layout.tables.map ofTable ⊆ earlier) (path : earlier.foldl path [] = [schema]) :
    Each (InPlace views) earlier (views.map ofView) := by
  intro before statement after split
  obtain ⟨front, rest, viewsSplit, rfl, restSplit⟩ := List.map_eq_append_iff.mp split
  obtain ⟨view, back, rfl, rfl, rfl⟩ := List.map_eq_cons_iff.mp restSplit
  have member : view ∈ Settings.viewsOf layout := order.perm.subset (by simp [viewsSplit])
  have names := checked.names_of_mem member
  have reads : ∀ name ∈ view.dependsOn, ∃ other ∈ front, other.name = name := by
    intro name inside
    exact order.mem_before viewsSplit inside (names.dependsOn name inside)
  have sameSchema : ∀ other ∈ views, other.schema = schema := by
    intro other inside
    exact (checked.names_of_mem (order.perm.subset inside)).schema_eq
  have keepsPath : (earlier ++ front.map ofView).foldl Statement.path [] = [schema] := by
    rw [List.foldl_append, path]
    refine foldl_path fun statement inside => ?_
    obtain ⟨other, _, rfl⟩ := List.mem_map.mp inside
    exact fun _ => by simp [ofView]
  have ofTables : ∀ name ∈ layout.tables.map Table.name,
      Creates (earlier ++ front.map ofView) [schema, name] := by
    intro name inside
    obtain ⟨table, there, rfl⟩ := List.mem_map.mp inside
    rw [← checked.schema_of_mem there]
    exact (creates_of_table there).mono (List.Subset.trans tables (List.subset_append_left _ _))
  have finds : ∀ relation, layout.Sees view.dependsOn relation →
      Finds (earlier ++ front.map ofView) relation := by
    intro relation sees
    refine ⟨schema, by rw [keepsPath]; exact List.mem_singleton_self _, ?_⟩
    rcases sees with table | depends
    · exact ofTables relation table
    · obtain ⟨other, there, rfl⟩ := reads relation depends
      refine ⟨ofView other, List.mem_append_right _ (List.mem_map_of_mem there), ?_⟩
      rw [← sameSchema other (by simp [viewsSplit, there])]
      rfl
  refine ⟨⟨?_, ?_, ?_⟩, ?_⟩
  · rw [names.schema_eq]
    exact ofTables view.table names.table
  · intro join inside
    exact finds _ (names.join join inside)
  · intro item inside leaf leaves source sources
    exact finds _ (names.item item inside leaf leaves source sources)
  · intro other others same name inside
    have sameName : view.name = other.name := by
      simp only [ofView, createView.injEq, List.cons.injEq] at same
      exact same.1.2.1
    have distinct := (order.perm.map View.name).nodup_iff.mpr checked.nodup_viewNames
    obtain rfl := List.inj_on_of_nodup_map distinct (by simp [viewsSplit]) others sameName
    obtain ⟨reader, there, named⟩ := reads name inside
    exact ⟨reader, by simp [viewsSplit, there], named,
      List.mem_append_right _ (List.mem_map_of_mem there)⟩

end Layout.Checked

/-- **Each row of the catalog is behind its table.** -/
theorem each_catalog {views : List View} {earlier : List Statement} (schema : String)
    (catalog : List CatalogEntry) :
    Each (InPlace views) earlier
      ([catalogTable schema] ++ catalog.map (ofCatalogEntry schema)) := by
  refine Each.append (.of_forall fun statement member before => ?_)
    (.of_forall fun statement member before => ?_)
  · rw [List.mem_singleton.mp member]
    refine ⟨fun column columns table references => ?_, behindViews_of_not_view rfl⟩
    simp only [textColumn, flagColumn, List.mem_cons, List.not_mem_nil, or_false] at columns
    rcases columns with rfl | rfl | rfl | rfl | rfl | rfl | rfl | rfl | rfl | rfl | rfl <;>
      cases references
  · obtain ⟨entry, _, rfl⟩ := List.mem_map.mp member
    refine ⟨fun column columns => ?_, behindViews_of_not_view rfl⟩
    refine ⟨_, _, List.mem_append_left _ (List.mem_append_right _ (List.mem_singleton_self _)), ?_⟩
    have known : (catalogRow entry).map Prod.fst ⊆ _ := List.subset_cons_self "id" _
    exact known columns

namespace Script

/-- What a script begins with: its schemas and the search path. -/
def start (schema : Schema) : List Statement :=
  [createSchema schema.dataSchema] ++
    (if schema.metadataSchema = schema.dataSchema then []
      else [createSchema schema.metadataSchema]) ++
    [setSearchPath [schema.dataSchema]]

theorem statements_ofSchema (schema : Schema) :
    (ofSchema schema).statements = start schema ++ schema.tables.map ofTable ++
      schema.foreignKeys.map (ofForeignKey schema.dataSchema) ++ schema.views.map ofView ++
      ([catalogTable schema.metadataSchema] ++
        schema.catalog.map (ofCatalogEntry schema.metadataSchema)) := by
  rw [← List.append_assoc]
  rfl

theorem each_start (schema : Schema) {views : List View} {earlier : List Statement} :
    Each (InPlace views) earlier (start schema) := by
  refine .of_forall fun statement member before => ?_
  have setting : (∃ name, statement = createSchema name) ∨
      ∃ schemas, statement = setSearchPath schemas := by
    unfold start at member
    split at member <;> simp at member <;> grind
  rcases setting with ⟨name, rfl⟩ | ⟨schemas, rfl⟩
  · exact ⟨trivial, behindViews_of_not_view rfl⟩
  · exact ⟨trivial, behindViews_of_not_view rfl⟩

/-- The tables and foreign keys leave the search path as the script sets it. -/
theorem path_foreignKeys (schema : Schema) :
    (start schema ++ schema.tables.map ofTable ++
      schema.foreignKeys.map (ofForeignKey schema.dataSchema)).foldl Statement.path [] =
        [schema.dataSchema] := by
  have begins : (start schema).foldl Statement.path [] = [schema.dataSchema] := by
    rw [start, List.foldl_append]
    rfl
  rw [List.append_assoc, List.foldl_append, begins]
  refine foldl_path fun statement member => ?_
  rcases List.mem_append.mp member with member | member
  · obtain ⟨table, _, rfl⟩ := List.mem_map.mp member
    exact fun _ => by simp [ofTable]
  · obtain ⟨key, _, rfl⟩ := List.mem_map.mp member
    exact fun _ => by simp [ofForeignKey]

end Script

namespace Settings

/-- **Nothing is missing in the script of a compiled application.** Whatever a statement names, an
earlier one creates, and so does it for all views on which a view depends. -/
theorem grounded_of_build {settings : Settings} {metadata : Metadata} {schema : Schema}
    (built : settings.build metadata = .ok schema) :
    ∀ earlier statement later,
      (Script.ofSchema schema).statements = earlier ++ statement :: later →
        statement.Grounded earlier ∧ statement.BehindViews schema.views earlier := by
  obtain ⟨layout, left, views, laid, _, ordered, rfl⟩ := build_eq_ok_iff.mp built
  obtain ⟨plan, checked⟩ := checked_of_layout laid
  obtain ⟨positions, order⟩ := View.exists_dependencyOrder ordered
  have all : Each (InPlace views) []
      (Script.ofSchema (settings.schemaOf layout left views)).statements := by
    rw [Script.statements_ofSchema]
    refine Each.append ?_ (each_catalog _ _)
    refine Each.append ?_ (checked.each_view order ?_ ?_)
    · refine Each.append ?_ (checked.each_foreignKey (List.subset_append_right _ _))
      exact Each.append (Script.each_start _) checked.each_table
    · exact List.Subset.trans (List.subset_append_right _ _) (List.subset_append_left _ _)
    · exact Script.path_foreignKeys (settings.schemaOf layout left views)
  exact all

/-- A view in the script of an application of which a formula was left out. -/
theorem grounded_of_build_labelledBooks :
    ∃ schema, ({ strict := false } : Settings).build (labelledBooks "random(x)") = .ok schema ∧
      ∃ earlier statement later,
        (Script.ofSchema schema).statements = earlier ++ statement :: later ∧
        statement.isCreateView = true ∧ statement.Grounded earlier ∧
          statement.BehindViews schema.views earlier := by
  have compiles : ({ strict := false } : Settings).compilesTo (labelledBooks "random(x)")
      (fun _ schema => (Script.ofSchema schema).statements.any (·.isCreateView)) = true := by
    decide +kernel
  obtain ⟨_, _, schema, _, built, holds⟩ := exists_build compiles
  obtain ⟨statement, member, creates⟩ := List.any_eq_true.mp holds
  obtain ⟨earlier, later, split⟩ := List.append_of_mem member
  exact ⟨schema, built, earlier, statement, later, split, creates,
    grounded_of_build built earlier statement later split⟩

end Settings

end AppSchema
