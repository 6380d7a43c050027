/-
**Rows are known from the statements that insert them.**

A value of a row begins with a word that tells its form: none if it is a text. What follows are
literals, and a literal ends at the first quote that is not doubled. So the values of a row are
known from what is written for them, whatever their texts hold; and as names hold no periods, blanks
and parentheses, so are the table and the columns.

* `RowValue.word`, `RowValue.quoted`: the word at the start of a value, and the literals behind it;
* `RowValue.delimited`: the values of a row are told apart;
* `Statement.Inserts`: a statement inserts a row, and its names are spelled like identifiers;
* `Statement.sql_injective_of_inserts`: such statements, and with them the rows of the catalog, are
  known from their SQL.
-/

import AppSchema.Proofs.Ident
import AppSchema.Proofs.Sql.Delimited
import AppSchema.Proofs.Statement.Words

namespace AppSchema

open Sql (Delimited Parts isLetter)

/-! ### Values -/

namespace RowValue

/-- The word at the start of a value. -/
def word : RowValue → String
  | null => "NULL"
  | bool value => boolean value
  | text _ => ""
  | textArray [] => "ARRAY[]::TEXT[]"
  | textArray (_ :: _) => "ARRAY["

/-- What is written of a value behind the word at its start. -/
def quoted : RowValue → List Char
  | null => []
  | bool _ => []
  | text value => (Sql.literal value.toList).toList
  | textArray [] => []
  | textArray (first :: rest) =>
    ", ".toList.intercalate ((first :: rest).map fun value => (Sql.literal value.toList).toList) ++
      [']']

theorem toList_sql (value : RowValue) : value.sql.toList = value.word.toList ++ value.quoted := by
  cases value with
  | null | bool value => simp [sql, word, quoted]
  | text value => simp [sql, word, quoted, literal_eq]
  | textArray values =>
    cases values with
    | nil => simp [sql, word, quoted]
    | cons first rest => simp [sql, word, quoted, commaSeparated, literal_eq, Function.comp_def]

theorem all_isLetter_word (value : RowValue) : value.word.toList.all isLetter = true := by
  rcases value with _ | (_ | _) | chars | (_ | ⟨first, rest⟩) <;> rw [word] <;> decide

/-- What is written behind the word at the start of a value is nothing, or begins with a quote. -/
theorem quoted_cases (value : RowValue) :
    value.quoted = [] ∨ ∃ rest, value.quoted = '\'' :: rest := by
  cases value with
  | null | bool => exact .inl rfl
  | text value => exact .inr ⟨_, Sql.toList_literal _⟩
  | textArray values =>
    cases values with
    | nil => exact .inl rfl
    | cons first rest =>
      rw [quoted, Sql.intercalate_cons, Sql.toList_literal]
      exact .inr ⟨_, rfl⟩

/-- The word at the start of a value ends where a literal begins, or where the value ends. -/
theorem takeWhile_quoted (value : RowValue) {behind : List Char}
    (ends : behind.takeWhile isLetter = []) : (value.quoted ++ behind).takeWhile isLetter = [] := by
  rcases value.quoted_cases with none | ⟨rest, quote⟩
  · rwa [none]
  · rw [quote]
    rfl

/-- **The word at the start of a value tells its form.** Only texts and arrays of texts hold more
than it says. -/
theorem forms_of_word {value other : RowValue} (same : value.word = other.word) :
    value = other ∨ (∃ chars chars', value = text chars ∧ other = text chars') ∨
      ∃ first rest first' rest', value = textArray (first :: rest) ∧
        other = textArray (first' :: rest') := by
  rcases value with _ | (_ | _) | chars | (_ | ⟨first, rest⟩) <;>
    rcases other with _ | (_ | _) | chars' | (_ | ⟨first', rest'⟩) <;>
    simp [word, boolean] at same ⊢

/-- **A value is read in one way** in front of a comma or a parenthesis. -/
theorem unique {value other : RowValue} {behind behind' : List Char}
    (parts : Parts ", ".toList ')' behind) (parts' : Parts ", ".toList ')' behind')
    (same : value.sql.toList ++ behind = other.sql.toList ++ behind') :
    value = other ∧ behind = behind' := by
  have ends : ∀ {behind}, Parts ", ".toList ')' behind → behind.takeWhile isLetter = [] := by
    intro behind parts
    obtain ⟨char, rest, rfl, rfl | rfl⟩ := Parts.exists_cons parts <;> rfl
  rw [toList_sql, toList_sql, List.append_assoc, List.append_assoc] at same
  obtain ⟨words, literals⟩ := Sql.word_unique value.all_isLetter_word
    (value.takeWhile_quoted (ends parts)) other.all_isLetter_word
    (other.takeWhile_quoted (ends parts')) same
  rcases forms_of_word (String.toList_inj.mp words) with
    rfl | ⟨chars, chars', rfl, rfl⟩ | ⟨first, rest, first', rest', rfl, rfl⟩
  · exact ⟨rfl, List.append_cancel_left literals⟩
  · obtain ⟨rfl, rest⟩ := (Sql.delimited_literals (by decide) (by decide) (by decide)).element
      trivial trivial parts parts' literals
    exact ⟨rfl, rest⟩
  · have array : Delimited (fun _ : String => True) (fun text => (Sql.literal text.toList).toList)
        ", ".toList ']' := Sql.delimited_literals (by decide) (by decide) (by decide)
    simp only [quoted, List.append_assoc, List.cons_append, List.nil_append] at literals
    obtain ⟨texts, rest⟩ := array.unique (fun _ _ => trivial) (fun _ _ => trivial) literals
    exact ⟨congrArg textArray texts, rest⟩

/-- **The values of a row are told apart.** -/
theorem delimited :
    Delimited (fun _ : RowValue => True) (fun value => value.sql.toList) ", ".toList ')' where
  element := fun _ _ parts parts' same => unique parts parts' same
  opens := by
    intro value behind rest _ same
    have here := congrArg List.head? same
    rw [toList_sql] at here
    rcases value with _ | (_ | _) | chars | (_ | ⟨first, rest⟩) <;>
      simp [word, boolean, quoted, Sql.toList_literal] at here
  apart := by
    intro behind rest same
    cases same

end RowValue

/-! ### Statements -/

/-- What is spelled like an identifier is a word. -/
theorem Ident.word_of_isSpelled {name : String} (spelled : isSpelled name.toList = true) :
    name.toList.all isTail = true ∧ name.toList ≠ [] := by
  refine ⟨all_isTail_of_isSpelled spelled, fun none => ?_⟩
  rw [none] at spelled
  cases spelled

namespace Statement

/-- **A statement that inserts a row**, into a table and columns whose names are spelled like
identifiers. -/
def Inserts : Statement → Prop
  | insert table columns _ =>
    (∀ part ∈ table, Ident.isSpelled part.toList = true) ∧
      ∀ column ∈ columns, Ident.isSpelled column.toList = true
  | _ => False

theorem toList_insert (table : QualifiedName) (columns : List String) (values : List RowValue) :
    (insert table columns values).sql.toList = "INSERT INTO ".toList ++
      (".".toList.intercalate (table.map String.toList) ++ ' ' :: '(' ::
        (", ".toList.intercalate (columns.map String.toList) ++ ')' :: (" VALUES (".toList ++
          (", ".toList.intercalate (values.map fun value => value.sql.toList) ++
            ')' :: (" ON CONFLICT DO NOTHING".toList ++ ";".toList))))) := by
  have opened : " (".toList = [' ', '('] := rfl
  have between : ") VALUES (".toList = ')' :: " VALUES (".toList := rfl
  have closed : ") ON CONFLICT DO NOTHING".toList = ')' :: " ON CONFLICT DO NOTHING".toList := rfl
  have body : (insert table columns values).body = "INSERT INTO " ++ table.sql ++ " (" ++
      commaSeparated columns ++ ") VALUES (" ++ commaSeparated (values.map RowValue.sql) ++
      ") ON CONFLICT DO NOTHING" := rfl
  rw [sql, body]
  simp only [commaSeparated, QualifiedName.sql, String.toList_append, String.toList_intercalate,
    List.map_map, Function.comp_def, opened, between, closed, List.append_assoc, List.cons_append,
    List.nil_append]

/-- **A row that is inserted is known from the statement.** The table ends at the first blank, the
columns at the first parenthesis, and the values where they are read to. -/
theorem insert_unique {table table' : QualifiedName} {columns columns' : List String}
    {values values' : List RowValue} (inserts : (insert table columns values).Inserts)
    (inserts' : (insert table' columns' values').Inserts)
    (same : (insert table columns values).sql = (insert table' columns' values').sql) :
    table = table' ∧ columns = columns' ∧ values = values' := by
  have parts : Delimited (fun part : String => part.toList.all Ident.isTail = true ∧
      part.toList ≠ []) String.toList ".".toList ' ' :=
    Sql.delimited_words (by decide) (by decide) (by decide)
  have names : Delimited (fun column : String => column.toList.all Ident.isTail = true ∧
      column.toList ≠ []) String.toList ", ".toList ')' :=
    Sql.delimited_words (by decide) (by decide) (by decide)
  have text := congrArg String.toList same
  rw [toList_insert, toList_insert] at text
  obtain ⟨rfl, behindTable⟩ := parts.unique
    (fun part member => Ident.word_of_isSpelled (inserts.1 part member))
    (fun part member => Ident.word_of_isSpelled (inserts'.1 part member))
    (List.append_cancel_left text)
  obtain ⟨rfl, behindColumns⟩ := names.unique
    (fun column member => Ident.word_of_isSpelled (inserts.2 column member))
    (fun column member => Ident.word_of_isSpelled (inserts'.2 column member))
    (List.cons.inj behindTable).2
  obtain ⟨rfl, -⟩ := RowValue.delimited.unique (fun _ _ => trivial) (fun _ _ => trivial)
    (List.append_cancel_left behindColumns)
  exact ⟨rfl, rfl, rfl⟩

end Statement

/-! ### The catalog -/

/-- **An entry of the catalog is known from the values of its row.** -/
theorem CatalogEntry.eq_of_row {entry other : CatalogEntry}
    (same : (Statement.catalogRow entry).map Prod.snd = (Statement.catalogRow other).map Prod.snd) :
    entry = other := by
  have text : ∀ first second : Option String,
      (first.map RowValue.text).getD .null = (second.map RowValue.text).getD .null →
        first = second := by
    intro first second equal
    cases first <;> cases second <;> simp_all
  have texts : ∀ first second : Option (List String),
      (first.map RowValue.textArray).getD .null = (second.map RowValue.textArray).getD .null →
        first = second := by
    intro first second equal
    cases first <;> cases second <;> simp_all
  simp only [Statement.catalogRow, List.map_cons, List.map_nil, List.cons.injEq,
    RowValue.text.injEq, RowValue.bool.injEq, and_true] at same
  obtain ⟨table, view, column, data, input, key, formula, connection, readOnly, options⟩ := same
  obtain ⟨⟩ := entry
  obtain ⟨⟩ := other
  simp only [CatalogEntry.mk.injEq]
  exact ⟨table, text _ _ view, column, data, input, key, formula, connection, readOnly,
    texts _ _ options⟩

namespace Statement

theorem inserts_ofCatalogEntry {schema : String} (spelled : Ident.isSpelled schema.toList = true)
    (entry : CatalogEntry) : (ofCatalogEntry schema entry).Inserts := by
  have columns : (catalogRow entry).map Prod.fst = catalogColumns := rfl
  refine ⟨?_, ?_⟩
  · exact List.forall_mem_cons.mpr ⟨spelled, by decide⟩
  · rw [columns]
    decide

/-- **Statements that insert rows are known from their SQL**, whatever the texts of the rows hold.
So two entries of the catalog never give the same row. -/
theorem sql_injective_of_inserts :
    (∀ statement other : Statement, statement.Inserts → other.Inserts →
      (statement.sql = other.sql ↔ statement = other)) ∧
    ∀ schema otherSchema : String, ∀ entry other : CatalogEntry,
      Ident.isSpelled schema.toList = true → Ident.isSpelled otherSchema.toList = true →
      ((ofCatalogEntry schema entry).sql = (ofCatalogEntry otherSchema other).sql ↔
        schema = otherSchema ∧ entry = other) := by
  have injective : ∀ statement other : Statement, statement.Inserts → other.Inserts →
      (statement.sql = other.sql ↔ statement = other) := by
    intro statement other inserts inserts'
    refine ⟨fun same => ?_, congrArg sql⟩
    cases statement with
    | insert table columns values =>
      cases other with
      | insert table' columns' values' =>
        obtain ⟨rfl, rfl, rfl⟩ := insert_unique inserts inserts' same
        rfl
      | _ => cases inserts'
    | _ => cases inserts
  refine ⟨injective, fun schema otherSchema entry other spelled spelled' => ?_⟩
  rw [injective _ _ (inserts_ofCatalogEntry spelled entry) (inserts_ofCatalogEntry spelled' other)]
  constructor
  · intro same
    obtain ⟨tables, -, rows⟩ := Statement.insert.inj same
    exact ⟨(List.cons.inj tables).1, CatalogEntry.eq_of_row rows⟩
  · rintro ⟨rfl, rfl⟩
    rfl

/-- One choice that looks like two is not two choices, and a view that is called `NULL` is one. -/
theorem sql_injective_of_inserts_quoted :
    let one := insert (catalogName "__meta__") ["options"] [.textArray ["a', 'b"]]
    let two := insert (catalogName "__meta__") ["options"] [.textArray ["a", "b"]]
    let hidden : CatalogEntry := { (default : CatalogEntry) with viewName := none }
    let shown : CatalogEntry := { (default : CatalogEntry) with viewName := some "NULL" }
    one.Inserts ∧ two.Inserts ∧ one.sql ≠ two.sql ∧
      Ident.isSpelled "__meta__".toList = true ∧
      (ofCatalogEntry "__meta__" hidden).sql ≠ (ofCatalogEntry "__meta__" shown).sql := by
  intro one two hidden shown
  have inserts : ∀ values, (insert (catalogName "__meta__") ["options"] values).Inserts :=
    fun _ => ⟨by decide, by decide⟩
  have spelled : Ident.isSpelled "__meta__".toList = true := by
    decide
  obtain ⟨rows, entries⟩ := sql_injective_of_inserts
  refine ⟨inserts _, inserts _, fun same => ?_, spelled, fun same => ?_⟩
  · have equal := (rows one two (inserts _) (inserts _)).mp same
    exact absurd (insert.inj equal).2.2 (by decide)
  · exact absurd ((entries _ _ hidden shown spelled spelled).mp same).2 (by decide)

end Statement

end AppSchema
