/-
**No text of the metadata ends a literal or a statement.**

* `Settings.Configured`: settings that were chosen one by one, so that their names are identifiers;
* `Settings.bare_statements`: the words of a script are bare;
* `Script.ends_text`, `Script.split_text`, `Script.literals_text`: how a script is read whose words
  are bare;
* `Settings.sealed_of_build`: so is the script of every compiled application.
-/

import AppSchema.Proofs.Formula.Words
import AppSchema.Proofs.Script

namespace AppSchema

open Sql (AllBare Bare Sealed allBare_nil allBare_cons allBare_append allBare_flatMap)

/-- **Settings that were chosen one by one.** -/
inductive Settings.Configured : Settings → Prop
  | initial : Configured {}
  | setDataSchema {settings : Settings} (label : String) :
    Configured settings → Configured (settings.setDataSchema label)
  | setMetadataSchema {settings : Settings} (label : String) :
    Configured settings → Configured (settings.setMetadataSchema label)
  | setObjects {settings : Settings} (keys : List String) :
    Configured settings → Configured (settings.setObjects keys)
  | setStrict {settings : Settings} (strict : Bool) :
    Configured settings → Configured (settings.setStrict strict)

/-- The schemas of settings are plain identifiers. -/
theorem Settings.Configured.plain {settings : Settings} (configured : settings.Configured) :
    Ident.isPlain settings.dataSchema = true ∧ Ident.isPlain settings.metadataSchema = true := by
  induction configured with
  | initial => exact ⟨by decide +kernel, by decide +kernel⟩
  | setDataSchema label _ ih => exact ⟨Ident.isPlain_sanitize label, ih.2⟩
  | setMetadataSchema label _ ih => exact ⟨ih.1, Ident.isPlain_sanitize label⟩
  | setObjects _ _ ih => exact ih
  | setStrict _ _ ih => exact ih

/-! ### Words of a schema -/

/-- The words of a table. -/
def Table.words (table : Table) : List String :=
  table.schema :: table.name :: table.columns.flatMap Column.words

/-- The words of a view. -/
def View.words (view : View) : List String :=
  view.name :: view.schema :: view.table ::
    (view.columns.flatMap SelectItem.words ++ view.joins.flatMap Join.words)

namespace Layout.Checked

variable {schema : String} {plan : Plan} {left : List Diagnostic} {layout : Layout}

/-- The defaults of columns are bare unless they are quoted. -/
theorem bare_default (checked : layout.Checked schema plan left)
    (bare : AllBare layout.application.words) {table : Table} (member : table ∈ layout.tables)
    {column : Column} (inside : column ∈ table.columns) :
    AllBare (column.default.toList.flatMap DefaultValue.words) := by
  rcases checked.mem_tables.mp member with ⟨entity, entities, rfl⟩ | there
  · rcases mem_columns.mp inside with ⟨field, own, is⟩ | reference
    · obtain ⟨stored, stores, rfl⟩ := Option.map_eq_some_iff.mp is
      obtain ⟨_, fields⟩ := allBare_cons.mp (allBare_flatMap.mp bare entity entities)
      obtain ⟨_, default⟩ := allBare_cons.mp (allBare_flatMap.mp fields field own)
      rwa [FieldKind.words, stores] at default
    · obtain ⟨_, _, _, _, _, _, _, equal⟩ :=
        checked.sound.made _ (mem_referencesOf.mp reference)
      have equal : column = _ := equal
      rw [equal]
      exact allBare_nil
  · obtain ⟨position, found⟩ := List.mem_iff_getElem?.mp there
    obtain ⟨_, _, _, _, equal, _⟩ := checked.sound.association position table found
    rw [equal] at inside
    rcases List.mem_pair.mp inside with rfl | rfl <;> exact allBare_nil

theorem bare_table (checked : layout.Checked schema plan left)
    (plain : layout.application.Plain) (bare : AllBare layout.application.words)
    (schemaBare : Bare schema) {table : Table} (member : table ∈ layout.tables) :
    AllBare table.words := by
  have names := plain.allBare (checked.named_table member)
  rw [Table.names, allBare_cons, allBare_flatMap] at names
  rw [Table.words, allBare_cons, allBare_cons, allBare_flatMap, checked.schema_of_mem member]
  refine ⟨schemaBare, names.1, fun column inside => ?_⟩
  obtain ⟨named, references⟩ := allBare_cons.mp (names.2 column inside)
  have default := checked.bare_default bare member inside
  exact allBare_cons.mpr ⟨named, allBare_append.mpr ⟨default, references⟩⟩

theorem bare_view (checked : layout.Checked schema plan left)
    (plain : layout.application.Plain) (schemaBare : Bare schema) {view : View}
    (member : view ∈ Settings.viewsOf layout) : AllBare view.words := by
  obtain ⟨entity, entities, rfl⟩ := List.mem_map.mp member
  obtain ⟨collects, name, sameSchema, table⟩ := checked.collects_ofEntity entities
  have formulas : ∀ formula ∈ Formula.compiledOf layout entity, AllBare formula.words := by
    intro formula inside
    obtain ⟨field, computed, found⟩ := Formula.mem_compiledOf.mp inside
    exact checked.bare_compile plain entities (List.mem_filter.mp computed).1 found
  generalize View.ofEntity layout (Formula.compileAll layout).1 entity = view at *
  simp only [View.words, allBare_cons, allBare_append, allBare_flatMap, name, sameSchema, table]
  refine ⟨Ident.bare_of_isPlain ((Application.Named.view entities).isPlain plain), schemaBare,
    Ident.bare_of_isPlain (plain.entity entity entities), fun item inside => ?_,
    fun join inside => ?_⟩
  · rw [collects.columns_eq] at inside
    obtain ⟨formula, compiled, rfl⟩ := List.mem_map.mp inside
    obtain ⟨named, words⟩ := allBare_cons.mp (formulas formula compiled)
    exact allBare_cons.mpr ⟨named, (allBare_append.mp words).1⟩
  · obtain ⟨formula, compiled, joins⟩ := collects.joins join inside
    obtain ⟨_, words⟩ := allBare_cons.mp (formulas formula compiled)
    exact allBare_flatMap.mp (allBare_append.mp words).2 join joins

end Layout.Checked

/-! ### Words of statements -/

namespace Statement

theorem bare_ofTable {table : Table} (bare : AllBare table.words) :
    AllBare (ofTable table).words := by
  simp only [Table.words, allBare_cons, allBare_flatMap] at bare
  obtain ⟨schema, named, columns⟩ := bare
  have keys : AllBare (table.keyColumns.map Column.name) := by
    intro word member
    obtain ⟨column, inside, rfl⟩ := List.mem_map.mp member
    obtain ⟨position, _, found⟩ := List.mem_filterMap.mp inside
    exact (allBare_cons.mp (columns column (List.mem_of_getElem? found))).1
  simp only [ofTable, words, allBare_append, allBare_cons, List.flatMap_map, allBare_flatMap]
  refine ⟨⟨⟨schema, named, allBare_nil⟩, fun column member => ?_⟩, ?_⟩
  · obtain ⟨here, rest⟩ := allBare_cons.mp (columns column member)
    obtain ⟨default, references⟩ := allBare_append.mp rest
    refine allBare_cons.mpr ⟨here, allBare_append.mpr ⟨default, ?_⟩⟩
    cases given : column.references with
    | none => simp [ColumnDef.ofColumn, given]
    | some other =>
      rw [given] at references
      obtain ⟨otherBare, _⟩ := allBare_cons.mp references
      simp [ColumnDef.ofColumn, given, schema, otherBare]
  · split
    · intro constraint member
      cases member
    · intro constraint member
      rw [List.mem_singleton.mp member]
      exact keys

theorem bare_ofForeignKey {schema : String} (schemaBare : Bare schema) {key : ForeignKey}
    (bare : AllBare key.words) : AllBare (ofForeignKey schema key).words := by
  simp only [ForeignKey.words, allBare_cons] at bare
  obtain ⟨named, table, column, references, _⟩ := bare
  simp [ofForeignKey, words, schemaBare, named, table, column, references]

theorem bare_ofView {view : View} (bare : AllBare view.words) : AllBare (ofView view).words := by
  simp only [View.words, allBare_cons, allBare_append] at bare
  obtain ⟨named, schema, table, columns, joins⟩ := bare
  simp only [ofView, words, allBare_cons, allBare_append]
  exact ⟨⟨⟨table, ⟨schema, named, allBare_nil⟩, schema, table, allBare_nil⟩, columns⟩, joins⟩

theorem bare_catalogColumns : AllBare catalogColumns := by
  have each : catalogColumns.all (fun name => name.toList.all Sql.isBare) = true := rfl
  exact List.all_eq_true.mp each

theorem bare_catalogTable {schema : String} (schemaBare : Bare schema) :
    AllBare (catalogTable schema).words := by
  have same : (catalogTable schema).words =
      [schema, "fields", "id"] ++ catalogColumns ++ ["table_name", "column_name"] := rfl
  rw [same]
  simp only [allBare_append, allBare_cons]
  exact ⟨⟨⟨schemaBare, rfl, rfl, allBare_nil⟩, bare_catalogColumns⟩, rfl, rfl, allBare_nil⟩

theorem bare_ofCatalogEntry {schema : String} (schemaBare : Bare schema) (entry : CatalogEntry) :
    AllBare (ofCatalogEntry schema entry).words := by
  have same : (ofCatalogEntry schema entry).words = [schema, "fields"] ++ catalogColumns := rfl
  rw [same]
  simp only [allBare_append, allBare_cons]
  exact ⟨⟨schemaBare, rfl, allBare_nil⟩, bare_catalogColumns⟩

end Statement

namespace Settings

variable {settings : Settings} {metadata : Metadata} {schema : Schema}

/-- **All words of a script are bare.** -/
theorem bare_statements (configured : settings.Configured)
    (built : settings.build metadata = .ok schema) :
    ∀ statement ∈ (Script.ofSchema schema).statements, AllBare statement.words := by
  obtain ⟨layout, left, views, laid, _, ordered, rfl⟩ := build_eq_ok_iff.mp built
  obtain ⟨plan, checked⟩ := checked_of_layout laid
  obtain ⟨positions, order⟩ := View.exists_dependencyOrder ordered
  have dataBare := Ident.bare_of_isPlain configured.plain.1
  have metadataBare := Ident.bare_of_isPlain configured.plain.2
  have bare := bare_words_of_layout laid
  have plain := plain_of_layout laid
  intro statement member
  rw [Script.statements_ofSchema] at member
  simp only [List.mem_append, List.mem_map, List.mem_singleton] at member
  rcases member with (((starts | ⟨table, tables, rfl⟩) | ⟨key, keys, rfl⟩) | ⟨view, inside, rfl⟩) |
    rfl | ⟨entry, _, rfl⟩
  · have named : ∀ name, Bare name → AllBare (Statement.createSchema name).words :=
      fun _ bare => allBare_cons.mpr ⟨bare, allBare_nil⟩
    have path : AllBare (Statement.setSearchPath [settings.dataSchema]).words :=
      allBare_cons.mpr ⟨dataBare, allBare_nil⟩
    simp only [Script.start, List.mem_append, List.mem_singleton] at starts
    rcases starts with (rfl | starts) | rfl
    · exact named _ dataBare
    · split at starts
      · cases starts
      · rw [List.mem_singleton.mp starts]
        exact named _ metadataBare
    · exact path
  · exact Statement.bare_ofTable (checked.bare_table plain bare dataBare tables)
  · exact Statement.bare_ofForeignKey dataBare (plain.allBare (checked.named_foreignKey keys))
  · exact Statement.bare_ofView (checked.bare_view plain dataBare (order.perm.subset inside))
  · exact Statement.bare_catalogTable metadataBare
  · exact Statement.bare_ofCatalogEntry metadataBare entry

end Settings

/-! ### Reading a script -/

namespace Script

open Sql (Ends Passes literalsFrom pieces)

/-- Statements that are written as sealed texts. -/
def Closed (statements : List Statement) : Prop :=
  ∀ statement ∈ statements, Sealed statement.body statement.literals

/-- What is before the semicolon of a statement. -/
def before (earlier : List Statement) (statement : Statement) : String :=
  String.join (earlier.map fun other => other.sql ++ "\n\n") ++ statement.body

theorem text_singleton (statement : Statement) :
    (text ⟨[statement]⟩).toList = statement.body.toList ++ ';' :: ['\n'] := by
  simp [text, sql, Statement.sql]

theorem text_cons_cons (first second : Statement) (rest : List Statement) :
    (text ⟨first :: second :: rest⟩).toList =
      first.body.toList ++ ';' :: ("\n\n".toList ++ (text ⟨second :: rest⟩).toList) := by
  simp [text, sql, Statement.sql]

theorem before_cons (first : Statement) (earlier : List Statement) (statement : Statement) :
    (before (first :: earlier) statement).toList =
      first.body.toList ++ ';' :: ("\n\n".toList ++ (before earlier statement).toList) := by
  simp [before, Statement.sql, String.join_cons]

theorem before_nil (statement : Statement) : before [] statement = statement.body := by
  simp [before]

theorem passes_newlines : Passes false "\n\n".toList false :=
  Sql.passes_of_bare (show Bare "\n\n" from rfl)

theorem not_ends_newline {front : List Char} : ¬ Ends false ['\n'] front := by
  rintro ⟨⟨after, same⟩, _⟩
  have inside : ';' ∈ ['\n'] := by simp [same]
  exact absurd inside (by decide)

/-- **The semicolons outside of quotes are those behind the statements.** -/
theorem ends_text : ∀ (statements : List Statement), Closed statements → ∀ front : List Char,
    Ends false (text ⟨statements⟩).toList front ↔ ∃ earlier statement later,
      statements = earlier ++ statement :: later ∧ front = (before earlier statement).toList
  | [], _, front => by
    constructor
    · intro ends
      exact absurd ends not_ends_newline
    · rintro ⟨earlier, statement, later, same, _⟩
      simp at same
  | [statement], closed, front => by
    have here := closed statement (List.mem_singleton_self statement)
    rw [text_singleton, here.ends_append]
    constructor
    · rintro (rfl | ⟨behind, rfl, ends⟩)
      · exact ⟨[], statement, [], rfl, by rw [before_nil]⟩
      · exact absurd ends not_ends_newline
    · rintro ⟨earlier, other, later, same, rfl⟩
      obtain ⟨rfl, rfl, rfl⟩ : earlier = [] ∧ other = statement ∧ later = [] := by
        cases earlier <;> simp_all
      exact .inl (by rw [before_nil])
  | first :: second :: rest, closed, front => by
    obtain ⟨here, others⟩ := List.forall_mem_cons.mp closed
    rw [text_cons_cons, here.ends_append]
    constructor
    · rintro (rfl | ⟨behind, rfl, behindEnds⟩)
      · exact ⟨[], first, second :: rest, rfl, by rw [before_nil]⟩
      · obtain ⟨last, rfl, ends⟩ := passes_newlines.ends_append.mp behindEnds
        obtain ⟨earlier, statement, later, same, rfl⟩ :=
          (ends_text (second :: rest) others last).mp ends
        exact ⟨first :: earlier, statement, later, by rw [same]; rfl, (before_cons ..).symm⟩
    · rintro ⟨earlier, statement, later, same, rfl⟩
      cases earlier with
      | nil =>
        obtain ⟨rfl, _⟩ := List.cons.inj same
        exact .inl (by rw [before_nil])
      | cons head earlier =>
        obtain ⟨rfl, tail⟩ := List.cons.inj same
        refine .inr ⟨_, before_cons first earlier statement, passes_newlines.ends_append.mpr ?_⟩
        exact ⟨_, rfl,
          (ends_text (second :: rest) others _).mpr ⟨earlier, statement, later, tail, rfl⟩⟩

/-- **What stands in the literals of a script** is what its statements have there. -/
theorem literals_text : ∀ (statements : List Statement), Closed statements →
    Sql.literals (text ⟨statements⟩) = statements.flatMap Statement.literals
  | [], _ => rfl
  | [statement], closed => by
    have here := closed statement (List.mem_singleton_self statement)
    have apart : (';' :: ['\n']).head? ≠ some '\'' := by decide
    rw [Sql.literals, text_singleton, here.literalsFrom_append apart, List.flatMap_singleton]
    exact List.append_nil _
  | first :: second :: rest, closed => by
    obtain ⟨here, others⟩ := List.forall_mem_cons.mp closed
    have later := literals_text (second :: rest) others
    have apart : ∀ behind : List Char, (';' :: behind).head? ≠ some '\'' := by
      intro behind
      simp
    rw [List.flatMap_cons, ← later, Sql.literals, Sql.literals, text_cons_cons,
      here.literalsFrom_append (apart _), literalsFrom, if_neg (by decide),
      Sql.literalsFrom_bare (show Bare "\n\n" from rfl)]

/-! ### Splitting a script -/

/-- A text that begins, and not with the end of a line. -/
def Begins (text : String) : Prop :=
  text.toList.head?.any (· != '\n') = true

theorem Begins.append {first : String} (begins : Begins first) (second : String) :
    Begins (first ++ second) := by
  unfold Begins at begins ⊢
  rw [String.toList_append]
  cases chars : first.toList with
  | nil => simp [chars] at begins
  | cons char rest => simpa [chars] using begins

theorem begins_body (statement : Statement) : Begins statement.body := by
  cases statement with
  | createSchema =>
    have first : Begins "CREATE SCHEMA IF NOT EXISTS " := rfl
    exact first.append _
  | setSearchPath =>
    have first : Begins "SET search_path TO " := rfl
    exact first.append _
  | createTable =>
    have first : Begins "CREATE TABLE IF NOT EXISTS " := rfl
    exact ((((first.append _).append _).append _).append _).append _
  | addForeignKey =>
    have first : Begins "ALTER TABLE " := rfl
    exact
      (((((((first.append _).append _).append _).append _).append _).append _).append _).append _
  | createView =>
    have first : Begins "CREATE VIEW " := rfl
    exact
      (((((((first.append _).append _).append _).append _).append _).append _).append _).append _
  | insert =>
    have first : Begins "INSERT INTO " := rfl
    exact (((((first.append _).append _).append _).append _).append _).append _

theorem trimmed_statement (statement : Statement) (rest : List (List Char)) :
    Sql.trimmed ((statement.body.toList ++ [';']) :: rest) = statement.sql :: Sql.trimmed rest := by
  have begins := begins_body statement
  unfold Begins at begins
  cases chars : statement.body.toList with
  | nil => simp [chars] at begins
  | cons char others =>
    have apart : char ≠ '\n' := by simpa [chars] using begins
    rw [Sql.trimmed_cons (by simp) (by simpa using apart), ← chars]
    congr 1
    exact String.toList_inj.mp (by simp [Statement.sql])

/-- **A script is split into its statements.** -/
theorem split_text : ∀ (statements : List Statement), Closed statements →
    Sql.split (text ⟨statements⟩) = sql ⟨statements⟩
  | [], _ => rfl
  | [statement], closed => by
    have here := closed statement (List.mem_singleton_self statement)
    rw [Sql.split, text_singleton, here.pieces_append, trimmed_statement]
    rfl
  | first :: second :: rest, closed => by
    obtain ⟨here, others⟩ := List.forall_mem_cons.mp closed
    have later := split_text (second :: rest) others
    have newlines : "\n\n".toList = List.replicate 2 '\n' := rfl
    rw [Sql.split, text_cons_cons, here.pieces_append, trimmed_statement,
      passes_newlines.pieces_append, newlines, Sql.trimmed_extend]
    exact congrArg (first.sql :: ·) later

end Script

namespace Settings

variable {settings : Settings} {metadata : Metadata} {schema : Schema}

/-- **No text of the metadata ends a literal or a statement.** In the script of a compiled
application, the semicolons outside of quotes are those behind the statements, so that splitting
the script there gives the statements back; and what stands in the literals of the script is what
the statements have there. -/
theorem sealed_of_build (configured : settings.Configured)
    (built : settings.build metadata = .ok schema) :
    (∀ front, Sql.EndsAt (Script.ofSchema schema).text front ↔ ∃ earlier statement later,
      (Script.ofSchema schema).statements = earlier ++ statement :: later ∧
        front = Script.before earlier statement) ∧
    Sql.split (Script.ofSchema schema).text = (Script.ofSchema schema).sql ∧
    Sql.literals (Script.ofSchema schema).text =
      (Script.ofSchema schema).statements.flatMap Statement.literals := by
  have closed : Script.Closed (Script.ofSchema schema).statements := fun statement member =>
    Statement.sealed_body (bare_statements configured built statement member)
  refine ⟨fun front => ?_, Script.split_text _ closed, Script.literals_text _ closed⟩
  rw [Sql.endsAt_iff]
  refine (Script.ends_text _ closed _).trans ?_
  simp only [String.toList_inj]

/-- A shop whose names and texts are full of quotes and semicolons. -/
def quotedShop : Metadata :=
  ⟨[⟨"object_1", "It's; a shop",
    [{ key := "field_1", name := "Owner's; name", sourceType := "short_text"
       default := some (.string "O'Neil; --") },
     { key := "field_2", name := "Kind", sourceType := "multiple_choice"
       format := some (.object [("options", .array [.string "';", .string "it''s"])]) },
     textFormula "field_3" "Label" "don't; \x7bfield_1\x7d left(';', 2)"]⟩]⟩

/-- The texts are in the literals as they are, and every statement ends where it should. -/
theorem sealed_of_build_quotedShop :
    ∃ schema, (({} : Settings).setDataSchema "it's;").build quotedShop = .ok schema ∧
      schema.dataSchema = "it_s_" ∧
      Sql.EndsAt (Script.ofSchema schema).text
        ("CREATE SCHEMA IF NOT EXISTS " ++ schema.dataSchema) ∧
      Sql.split (Script.ofSchema schema).text = (Script.ofSchema schema).sql ∧
      ∀ text ∈ ["O'Neil; --", "';", "it''s", "don't; ", "';'"],
        text.toList ∈ Sql.literals (Script.ofSchema schema).text := by
  have configured : (({} : Settings).setDataSchema "it's;").Configured :=
    .setDataSchema "it's;" .initial
  have compiles : (({} : Settings).setDataSchema "it's;").compilesTo quotedShop (fun _ schema =>
      decide (schema.dataSchema = "it_s_" ∧
        ∀ text ∈ ["O'Neil; --", "';", "it''s", "don't; ", "';'"],
          text.toList ∈ (Script.ofSchema schema).statements.flatMap Statement.literals)) = true := by
    decide +kernel
  obtain ⟨_, _, schema, _, built, holds⟩ := exists_build compiles
  obtain ⟨named, inside⟩ := of_decide_eq_true holds
  obtain ⟨ends, split, literals⟩ := sealed_of_build configured built
  have first : (Script.ofSchema schema).statements = [] ++
      .createSchema schema.dataSchema :: (Script.ofSchema schema).statements.tail := rfl
  have begins := (ends _).mpr ⟨[], _, _, first, rfl⟩
  rw [Script.before_nil] at begins
  refine ⟨schema, built, named, ?_, split, ?_⟩
  · exact begins
  · intro text member
    rw [literals]
    exact inside text member

end Settings

end AppSchema
