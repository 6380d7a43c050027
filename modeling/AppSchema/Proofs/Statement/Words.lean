/-
**Statements whose literals are closed.**

* `Statement.words`: the words of a statement, names and numbers; `Statement.literals`: what stands
  in its literals;
* `Statement.sealed_body`: a statement of bare words is written as a sealed text.
-/

import AppSchema.Proofs.Sql.Words
import AppSchema.Statement.Sql

namespace AppSchema

open Sql (AllBare Bare Sealed allBare_cons allBare_append allBare_flatMap)

/-! ### Words and literals -/

/-- The words of a default. A number is not quoted. -/
def DefaultValue.words : DefaultValue → List String
  | bool _ => []
  | number spelling => [spelling]
  | text _ => []

/-- What stands in the literals of a default. -/
def DefaultValue.literals : DefaultValue → List (List Char)
  | bool _ => []
  | number _ => []
  | text value => [value.toList]

/-- What stands in the literals of a value of a row. -/
def RowValue.literals : RowValue → List (List Char)
  | null => []
  | bool _ => []
  | text value => [value.toList]
  | textArray values => values.map String.toList

/-- The words of the definition of a column. -/
def ColumnDef.words (column : ColumnDef) : List String :=
  column.name :: (column.default.toList.flatMap DefaultValue.words ++
    column.references.toList.flatMap id)

/-- What stands in the literals of the definition of a column. -/
def ColumnDef.literals (column : ColumnDef) : List (List Char) :=
  column.default.toList.flatMap DefaultValue.literals

/-- The words of a constraint. -/
def TableConstraint.words : TableConstraint → List String
  | primaryKey columns => columns
  | unique columns => columns

/-- The words of a join. -/
def Join.words (join : Join) : List String :=
  join.relation :: join.aliasName :: join.on.words

/-- The words of a selected expression. -/
def SelectItem.words : SelectItem → List String
  | raw sql => [sql]
  | named expr name => name :: expr.words

/-- What stands in the literals of a selected expression. -/
def SelectItem.literals : SelectItem → List (List Char)
  | raw _ => []
  | named expr _ => expr.literals

namespace Statement

/-- The words of a statement. -/
def words : Statement → List String
  | createSchema name => [name]
  | setSearchPath schemas => schemas
  | createTable name columns constraints =>
    name ++ columns.flatMap ColumnDef.words ++ constraints.flatMap TableConstraint.words
  | addForeignKey table name column references => name :: column :: (table ++ references)
  | createView name table source columns joins =>
    table :: (name ++ source) ++ columns.flatMap SelectItem.words ++ joins.flatMap Join.words
  | insert table columns _ => table ++ columns

/-- What stands in the literals of a statement. -/
def literals : Statement → List (List Char)
  | createTable _ columns _ => columns.flatMap ColumnDef.literals
  | createView _ _ _ columns _ => columns.flatMap SelectItem.literals
  | insert _ _ values => values.flatMap RowValue.literals
  | createSchema _ | setSearchPath _ | addForeignKey .. => []

/-- The columns of the catalog. -/
def catalogColumns : List String :=
  ["table_name", "view_name", "column_name", "data_type", "input_type", "is_primary_key",
   "is_formula", "is_connection", "read_only", "options"]

end Statement

/-! ### Writing the parts of statements -/

theorem RowValue.literal_eq (text : String) : RowValue.literal text = Sql.literal text.toList := by
  have written : ∀ (chars : List Char) (front : String),
      (chars.foldl (fun written char =>
        if char = '\'' then (written.push '\'').push char else written.push char) front).toList =
        front.toList ++ chars.flatMap Sql.literalChar := by
    intro chars
    induction chars with
    | nil => simp
    | cons char rest ih =>
      intro front
      rw [List.foldl_cons, ih, List.flatMap_cons, Sql.literalChar]
      by_cases quote : char = '\''
      · simp [quote]
      · simp [quote]
  refine String.toList_inj.mp ?_
  rw [RowValue.literal, String.toList_push, written, Sql.toList_literal]
  simp

theorem QualifiedName.bare_sql {name : QualifiedName} (bare : AllBare name) : Bare name.sql :=
  .intercalate rfl bare

theorem bare_commaSeparated {texts : List String} (bare : AllBare texts) :
    Bare (commaSeparated texts) :=
  .intercalate rfl bare

theorem RowValue.bare_boolean (value : Bool) : Bare (boolean value) := by
  cases value <;> rfl

theorem RowValue.sealed_sql (value : RowValue) : Sealed value.sql value.literals := by
  cases value with
  | null => exact .bare rfl
  | bool value => exact .bare (bare_boolean value)
  | text value =>
    rw [sql, literal_eq]
    exact .literal value.toList
  | textArray values =>
    cases values with
    | nil => exact .bare rfl
    | cons first rest =>
      have each : Sealed (commaSeparated ((first :: rest).map literal))
          ((first :: rest).flatMap fun text => [text.toList]) :=
        .intercalate rfl (by decide) fun text _ => by
          rw [literal_eq]
          exact .literal text.toList
      rw [← List.map_eq_flatMap] at each
      exact (each.bare_append (show Bare "ARRAY[" from rfl)).append_bare (show Bare "]" from rfl)

theorem DefaultValue.sealed_sql {value : DefaultValue} (bare : AllBare value.words) :
    Sealed value.sql value.literals := by
  cases value with
  | bool value => exact .bare (RowValue.bare_boolean value)
  | number spelling => exact .bare (allBare_cons.mp bare).1
  | text value =>
    rw [sql, RowValue.literal_eq]
    exact .literal value.toList

theorem ColumnType.bare_appendTo {written : String} (bare : Bare written) (type : ColumnType) :
    Bare (type.appendTo written) := by
  induction type with
  | array element ih => exact .append ih rfl
  | _ => exact .append bare rfl

theorem ColumnDef.bare_restrictions (column : ColumnDef) : Bare column.restrictions := by
  unfold restrictions
  split
  · rfl
  · refine .append ?_ ?_
    · split <;> rfl
    · split <;> rfl

theorem ColumnDef.sealed_sql {column : ColumnDef} (bare : AllBare column.words) :
    Sealed column.sql column.literals := by
  rw [words, allBare_cons, allBare_append, allBare_flatMap, allBare_flatMap] at bare
  obtain ⟨named, default, references⟩ := bare
  have front : Bare (column.type.appendTo (column.name ++ " ") ++
      if column.primaryKey then " PRIMARY KEY" else "") := by
    have spaced : Bare (column.name ++ " ") := .append named rfl
    refine .append (ColumnType.bare_appendTo spaced column.type) ?_
    split <;> rfl
  unfold sql
  refine ((Sealed.bare_append front ?middle).append_bare column.bare_restrictions).append_bare ?back
  case middle =>
    unfold literals
    cases given : column.default with
    | none => exact .empty
    | some value =>
      have closed := DefaultValue.sealed_sql (default value (by simp [given]))
      simpa using closed.bare_append (show Bare " DEFAULT " from rfl)
  case back =>
    cases given : column.references with
    | none => rfl
    | some table =>
      have table := QualifiedName.bare_sql (references table (by simp [given]))
      exact .append (.append rfl table) rfl

theorem TableConstraint.bare_sql {constraint : TableConstraint} (bare : AllBare constraint.words) :
    Bare constraint.sql := by
  cases constraint with
  | primaryKey columns =>
    exact .append (.append rfl (bare_commaSeparated bare)) rfl
  | unique columns =>
    exact .append (.append rfl (bare_commaSeparated bare)) rfl

theorem Join.bare_sql {join : Join} (bare : AllBare join.words) : Bare join.sql := by
  rw [words, allBare_cons, allBare_cons] at bare
  obtain ⟨relation, aliasName, on⟩ := bare
  have front : Bare ("LEFT OUTER JOIN " ++ join.relation ++ " AS " ++ join.aliasName) :=
    .append (.append (.append rfl relation) rfl) aliasName
  exact .append (.append (.append front rfl) (join.on.bare_sql on)) rfl

theorem SelectItem.sealed_sql {item : SelectItem} (bare : AllBare item.words) :
    Sealed item.sql item.literals := by
  cases item with
  | raw sql => exact .bare (allBare_cons.mp bare).1
  | named expr name =>
    obtain ⟨named, words⟩ := allBare_cons.mp bare
    exact ((expr.sealed_sql words).append_bare (show Bare " AS " from rfl)).append_bare named

/-! ### Writing statements -/

/-- **A statement of bare words is written as a sealed text**, with what stands in its literals. -/
theorem Statement.sealed_body {statement : Statement} (bare : AllBare statement.words) :
    Sealed statement.body statement.literals := by
  cases statement with
  | createSchema name => exact .bare (.append rfl (allBare_cons.mp bare).1)
  | setSearchPath schemas => exact .bare (.append rfl (bare_commaSeparated bare))
  | createTable name columns constraints =>
    simp only [words, allBare_append, allBare_flatMap] at bare
    obtain ⟨⟨named, columns_bare⟩, constraints_bare⟩ := bare
    have front : Bare ("CREATE TABLE IF NOT EXISTS " ++ QualifiedName.sql name ++ " (") :=
      .append (.append rfl (QualifiedName.bare_sql named)) rfl
    have lines : Sealed (columnLines columns) (columns.flatMap ColumnDef.literals) :=
      .intercalate rfl (by decide) fun column member =>
        (ColumnDef.sealed_sql (columns_bare column member)).bare_append rfl
    have back : Bare (String.join (constraints.map fun item => listed item.sql)) := by
      refine .join fun text member => ?_
      obtain ⟨constraint, inside, rfl⟩ := List.mem_map.mp member
      exact .append rfl (TableConstraint.bare_sql (constraints_bare constraint inside))
    exact ((lines.bare_append front).append_bare back).append_bare rfl
  | addForeignKey table name column references =>
    simp only [words, allBare_cons, allBare_append] at bare
    obtain ⟨named, column_bare, table_bare, references_bare⟩ := bare
    have front : Bare ("ALTER TABLE " ++ table.sql ++ " ADD CONSTRAINT " ++ name) :=
      .append (.append (.append rfl (QualifiedName.bare_sql table_bare)) rfl) named
    have key : Bare ("ALTER TABLE " ++ table.sql ++ " ADD CONSTRAINT " ++ name ++
        " FOREIGN KEY (" ++ column) :=
      .append (.append front rfl) column_bare
    exact .bare (.append (.append (.append key rfl) (QualifiedName.bare_sql references_bare)) rfl)
  | createView name table source columns joins =>
    simp only [words, allBare_cons, allBare_append, allBare_flatMap] at bare
    obtain ⟨⟨⟨table_bare, named, source_bare⟩, columns_bare⟩, joins_bare⟩ := bare
    have front :
        Bare ("CREATE VIEW " ++ QualifiedName.sql name ++ " AS\nSELECT " ++ table ++ ".*") :=
      .append (.append (.append (.append rfl (QualifiedName.bare_sql named)) rfl) table_bare) rfl
    have items : Sealed _ (_ ++ columns.flatMap SelectItem.literals) :=
      (Sealed.bare front).append_join (show Bare ",\n    " from rfl) (by decide) fun item member =>
        SelectItem.sealed_sql (columns_bare item member)
    have back : Bare (String.join (joins.map fun join => "\n" ++ join.sql)) := by
      refine .join fun text member => ?_
      obtain ⟨join, inside, rfl⟩ := List.mem_map.mp member
      exact .append rfl (Join.bare_sql (joins_bare join inside))
    have selected := items.append_bare (show Bare "\nFROM " from rfl)
    exact (selected.append_bare (QualifiedName.bare_sql source_bare)).append_bare back
  | insert table columns values =>
    obtain ⟨table_bare, columns_bare⟩ := allBare_append.mp bare
    have front : Bare ("INSERT INTO " ++ QualifiedName.sql table ++ " (" ++
        commaSeparated columns ++ ") VALUES (") :=
      .append (.append (.append (.append rfl (QualifiedName.bare_sql table_bare)) rfl)
        (bare_commaSeparated columns_bare)) rfl
    have row : Sealed (commaSeparated (values.map RowValue.sql))
        (values.flatMap RowValue.literals) :=
      .intercalate rfl (by decide) fun value _ => value.sealed_sql
    exact (row.bare_append front).append_bare rfl

end AppSchema
