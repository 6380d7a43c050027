/-
**Defaults of columns.**

A default is kept where it has the type of its column: a truth value, a number, or any text. A
number keeps its spelling and is written in SQL without quotes, so it has to be a numeric literal.
The names of numbers are kept as well, and those are none.

* `DefaultValue.Suits`: the types of defaults; columns of other types have none;
* `DefaultValue.Keeps`: what is kept of a text, by `DefaultValue.ofText?_eq_some_iff`;
* `DefaultValue.Valid`: a default of its column's type which SQL reads as such;
* `StoredField.valid_default`: every default of a field is valid, unless a text gave the name of a
  number;
* `Settings.valid_defaults`: so are the defaults of all columns.

`Settings.default_named` is an application with a default that SQL takes for the name of a column.
-/

import AppSchema.Proofs.Application.Numbered
import AppSchema.Proofs.Schema
import AppSchema.Proofs.Text.Numeric
import AppSchema.Statement.Sql

namespace AppSchema

open Text (NamedNumber NumericLiteral)

/-! ### Numbers of the metadata -/

namespace Number

open Text (isNumeric)

theorem isNumeric_toDigits (value : Nat) : ∀ char ∈ Nat.toDigits 10 value, isNumeric char = true :=
  Text.Digits.isNumeric fun _ => Nat.isDigit_of_mem_toDigits (by decide) (le_refl 10)

theorem isNumeric_positional {digits : List Char} (exponent : Int)
    (each : ∀ char ∈ digits, isNumeric char = true) :
    ∀ char ∈ positional digits exponent, isNumeric char = true := by
  have zeros : ∀ count, ∀ char ∈ List.replicate count '0', isNumeric char = true := by
    intro count char member
    rw [List.eq_of_mem_replicate member]
    rfl
  dsimp only [positional]
  split
  · refine List.forall_mem_append.mpr ⟨List.forall_mem_append.mpr ⟨each, zeros _⟩, ?_⟩
    exact List.all_eq_true.mp (by decide)
  · split
    · refine List.forall_mem_append.mpr ⟨fun char member => each char (List.mem_of_mem_take member),
        List.forall_mem_cons.mpr ⟨rfl, fun char member => each char (List.mem_of_mem_drop member)⟩⟩
    · exact List.forall_mem_cons.mpr ⟨rfl, List.forall_mem_cons.mpr ⟨rfl,
        List.forall_mem_append.mpr ⟨zeros _, each⟩⟩⟩

theorem isNumeric_scientific {digits : List Char} (leading : Int)
    (each : ∀ char ∈ digits, isNumeric char = true) :
    ∀ char ∈ scientific digits leading, isNumeric char = true := by
  refine List.forall_mem_append.mpr ⟨List.forall_mem_append.mpr
    ⟨fun char member => each char (List.mem_of_mem_take member), ?_⟩,
    List.forall_mem_cons.mpr ⟨rfl, List.forall_mem_cons.mpr ⟨?_, isNumeric_toDigits _⟩⟩⟩
  · split
    · exact fun _ member => absurd member List.not_mem_nil
    · exact List.forall_mem_cons.mpr
        ⟨rfl, fun char member => each char (List.mem_of_mem_drop member)⟩
  · split <;> rfl

/-- **The text of a number has no other characters than numeric literals.** -/
theorem isNumeric_text (number : Number) :
    ∀ char ∈ number.text.toList, isNumeric char = true := by
  have minus : ∀ negative : Prop, [Decidable negative] →
      ∀ char ∈ (if negative then ['-'] else []), isNumeric char = true := by
    intro negative _
    split <;> exact List.all_eq_true.mp (by decide)
  cases number with
  | integer value =>
    rw [text, String.toList_ofList, integerText]
    exact List.forall_mem_append.mpr ⟨minus _, isNumeric_toDigits _⟩
  | real negative magnitude =>
    rw [text, String.toList_ofList]
    refine List.forall_mem_append.mpr ⟨minus _, ?_⟩
    rw [magnitudeText]
    split
    · exact isNumeric_positional _ (isNumeric_toDigits _)
    · exact isNumeric_scientific _ (isNumeric_toDigits _)

end Number

namespace DefaultValue

/-! ### Types -/

/-- **A default has a type**: a truth value, a number or a text. -/
inductive Suits : ColumnType → DefaultValue → Prop
  | bool (value : Bool) : Suits .boolean (.bool value)
  | numeric (spelling : String) : Suits .numeric (.number spelling)
  | integer (spelling : String) : Suits .integer (.number spelling)
  | text (value : String) : Suits .text (.text value)

/-- **A default that is valid in a column of a type.** It has the type, and a number is written as a
numeric literal. -/
structure Valid (type : ColumnType) (value : DefaultValue) : Prop where
  suits : Suits type value
  literal : ∀ spelling, value = .number spelling → NumericLiteral value.sql.toList

/-- A default is the name of a number. -/
def IsNamed (value : DefaultValue) : Prop :=
  ∃ spelling, value = .number spelling ∧ NamedNumber spelling.toList

/-- **What is kept of the text of a default.** -/
inductive Keeps : ColumnType → String → DefaultValue → Prop
  | yes : Keeps .boolean "true" (.bool true)
  | no : Keeps .boolean "false" (.bool false)
  | number {type : ColumnType} {spelling : String} : type = .numeric ∨ type = .integer →
    NumericLiteral spelling.toList ∨ NamedNumber spelling.toList →
    Keeps type spelling (.number spelling)
  | text (spelling : String) : Keeps .text spelling (.text spelling)

variable {type : ColumnType} {spelling : String} {value : DefaultValue}

theorem Keeps.ofText?_eq (keeps : Keeps type spelling value) :
    ofText? type spelling = some value := by
  cases keeps with
  | yes => rfl
  | no => rfl
  | number numeric real => rcases numeric with rfl | rfl <;> exact if_pos (Text.isReal_iff.mpr real)
  | text spelling => rfl

theorem keeps_of_ofText? (given : ofText? type spelling = some value) :
    Keeps type spelling value := by
  have number (numeric : type = .numeric ∨ type = .integer)
      (given : (if Text.isReal spelling.toList then some (number spelling) else none) =
        some value) : Keeps type spelling value := by
    split at given
    · next real =>
      cases given
      exact .number numeric (Text.isReal_iff.mp real)
    · cases given
  cases type with
  | numeric => exact number (.inl rfl) given
  | integer => exact number (.inr rfl) given
  | boolean =>
    simp only [ofText?] at given
    split at given
    · next same =>
      cases given
      exact same ▸ .yes
    · split at given
      · next same =>
        cases given
        exact same ▸ .no
      · cases given
  | text =>
    cases given
    exact .text spelling
  | json | serial | timestamp | array => cases given

/-- **A text is kept exactly so.** -/
theorem ofText?_eq_some_iff : ofText? type spelling = some value ↔ Keeps type spelling value :=
  ⟨keeps_of_ofText?, Keeps.ofText?_eq⟩

theorem Keeps.suits (keeps : Keeps type spelling value) : value.Suits type := by
  cases keeps with
  | yes => exact .bool true
  | no => exact .bool false
  | number numeric => rcases numeric with rfl | rfl <;> constructor
  | text => exact .text spelling

/-- **What is kept is valid unless it is the name of a number.** -/
theorem Keeps.valid_iff (keeps : Keeps type spelling value) :
    value.Valid type ↔ ¬ value.IsNamed := by
  constructor
  · rintro valid ⟨other, rfl, named⟩
    exact named.not_literal (valid.literal other rfl)
  · intro unnamed
    refine ⟨keeps.suits, ?_⟩
    rintro other rfl
    cases keeps with
    | number _ real => exact real.resolve_right fun named => unnamed ⟨spelling, rfl, named⟩

theorem Keeps.of_isNamed (keeps : Keeps type spelling value) (named : value.IsNamed) :
    value = .number spelling ∧ NamedNumber spelling.toList := by
  obtain ⟨other, rfl, name⟩ := named
  cases keeps
  exact ⟨rfl, name⟩

/-- **The name of a number is kept from a text only.** -/
theorem Keeps.eq_string (keeps : Keeps type spelling value) (isNamed : value.IsNamed) {given : Json}
    (plain : text? given = some spelling) : given = .string spelling := by
  have named := (keeps.of_isNamed isNamed).2
  cases given with
  | string text =>
    simp only [text?] at plain
    split at plain
    · cases plain
    · rw [Option.some.inj plain]
  | number number =>
    obtain rfl := Option.some.inj plain
    obtain ⟨char, member, apart⟩ := named.exists_not_isNumeric
    rw [number.isNumeric_text char member] at apart
    cases apart
  | bool truth =>
    have words : ∀ truth, text? (.bool truth) = some spelling →
        Text.isReal spelling.toList = false := by
      rintro (_ | _) ⟨⟩ <;> decide
    have real := Text.isReal_iff.mpr (.inr named)
    rw [words truth plain] at real
    cases real
  | _ => cases plain

end DefaultValue

/-! ### Fields -/

namespace StoredField

open DefaultValue (Keeps)

variable {source : FieldSource} {type : ColumnType} {value : DefaultValue}

/-- **The default of a field** is what is kept of the text of the given one. -/
theorem default_eq_some_iff : (ofSource source type).default = some value ↔
    ∃ given spelling, source.default = some given ∧ DefaultValue.text? given = some spelling ∧
      Keeps (ofSource source type).type spelling value := by
  constructor
  · intro kept
    obtain ⟨given, gives, kept⟩ := Option.bind_eq_some_iff.mp kept
    obtain ⟨spelling, plain, kept⟩ := Option.bind_eq_some_iff.mp kept
    exact ⟨given, spelling, gives, plain, DefaultValue.ofText?_eq_some_iff.mp kept⟩
  · rintro ⟨given, spelling, gives, plain, keeps⟩
    exact Option.bind_eq_some_iff.mpr ⟨given, gives, Option.bind_eq_some_iff.mpr
      ⟨spelling, plain, DefaultValue.ofText?_eq_some_iff.mpr keeps⟩⟩

/-- **A default of a field has the type of its column, and is valid** unless a text gave the name of
a number. -/
theorem valid_default (kept : (ofSource source type).default = some value) :
    value.Suits (ofSource source type).type ∧
      (value.Valid (ofSource source type).type ↔ ¬ value.IsNamed) ∧
      (value.IsNamed → ∃ spelling, source.default = some (.string spelling) ∧
        value = .number spelling) := by
  obtain ⟨given, spelling, gives, plain, keeps⟩ := default_eq_some_iff.mp kept
  refine ⟨keeps.suits, keeps.valid_iff, fun named => ⟨spelling, ?_, ?_⟩⟩
  · rw [gives, keeps.eq_string named plain]
  · exact (keeps.of_isNamed named).1

end StoredField

/-! ### Columns -/

/-- **A stored field of an entity is that of a field of the metadata**, or has no default. -/
theorem Application.exists_stored {objects : List ObjectSource} {entity : Entity}
    (member : entity ∈ (ofSources objects).1.entities) {field : Field}
    (inside : field ∈ entity.fields) {stored : StoredField}
    (stores : field.kind.stored? = some stored) :
    (∃ object ∈ objects, ∃ source ∈ object.fields, ∃ type,
      ColumnType.ofSource? source.sourceType = some type ∧
        stored = StoredField.ofSource source type) ∨ stored.default = none := by
  obtain ⟨object, given, _, classified, _⟩ := exists_source member
  obtain ⟨draft, sound, _, same, _⟩ := Entity.ofSource_eq_ok classified
  rw [same] at inside
  rcases List.mem_append.mp inside with own | key
  · obtain ⟨source, seen, _, read⟩ := sound.read field own
    obtain ⟨type, column, same⟩ := Reading.stored_ofSource read stores
    have there := (FieldSource.firstOfKeys_sublist [] object.fields).subset seen
    exact .inl ⟨object, given, source, there, type, column, same⟩
  · rcases List.mem_pair.mp key with rfl | rfl <;> cases stores <;> exact .inr rfl

namespace Layout.Checked

variable {schema : String} {plan : Plan} {left : List Diagnostic} {layout : Layout}

/-- **A column with a default stores a field that has it.** -/
theorem exists_stored_of_default (checked : layout.Checked schema plan left) {table : Table}
    (member : table ∈ layout.tables) {column : Column} (inside : column ∈ table.columns)
    {value : DefaultValue} (given : column.default = some value) :
    ∃ entity ∈ layout.application.entities, ∃ field ∈ entity.fields, ∃ stored,
      field.kind.stored? = some stored ∧ stored.type = column.type ∧
        stored.default = some value := by
  rcases checked.mem_tables.mp member with ⟨entity, entities, rfl⟩ | there
  · rcases mem_columns.mp inside with ⟨field, own, is⟩ | reference
    · obtain ⟨stored, stores, rfl⟩ := Option.map_eq_some_iff.mp is
      exact ⟨entity, entities, field, own, stored, stores, rfl, given⟩
    · obtain ⟨_, _, _, _, _, _, _, equal⟩ :=
        checked.sound.made _ (mem_referencesOf.mp reference)
      have equal : column = _ := equal
      rw [equal] at given
      cases given
  · obtain ⟨position, found⟩ := List.mem_iff_getElem?.mp there
    obtain ⟨_, _, _, _, equal, _⟩ := checked.sound.association position table found
    rw [equal] at inside
    rcases List.mem_pair.mp inside with rfl | rfl <;> cases given

end Layout.Checked

namespace Settings

variable {settings : Settings} {metadata : Metadata} {schema : Schema}

/-- **A default of a column is that of a field of the metadata** whose column it is. -/
theorem exists_source_of_default (built : settings.build metadata = .ok schema) {table : Table}
    (member : table ∈ schema.tables) {column : Column} (inside : column ∈ table.columns)
    {value : DefaultValue} (given : column.default = some value) :
    ∃ object ∈ metadata.objects, ∃ source ∈ object.fields, ∃ type,
      ColumnType.ofSource? source.sourceType = some type ∧
        column.type = (StoredField.ofSource source type).type ∧
        (StoredField.ofSource source type).default = some value := by
  obtain ⟨layout, left, views, laid, _, _, rfl⟩ := build_eq_ok_iff.mp built
  obtain ⟨plan, _, _, checked, _, _, same, _⟩ := exists_follows_of_layout laid
  obtain ⟨entity, entities, field, own, stored, stores, typed, keeps⟩ :=
    checked.exists_stored_of_default member inside given
  rw [same] at entities
  rcases Application.exists_stored entities own stores with
    ⟨object, objects, source, sources, type, column, rfl⟩ | none
  · exact ⟨object, List.mem_of_mem_filter objects, source, sources, type, column, typed.symm, keeps⟩
  · rw [none] at keeps
    cases keeps

/-- **A default has the type of its column, and is valid there unless it is the name of a number.**
So it is for every field of the metadata and every type, and for the columns of every application
that is compiled. -/
theorem valid_defaults (settings : Settings) (metadata : Metadata) :
    (∀ source type, ∀ value ∈ (StoredField.ofSource source type).default,
      value.Suits (StoredField.ofSource source type).type ∧
        (value.Valid (StoredField.ofSource source type).type ↔ ¬ value.IsNamed) ∧
        (value.IsNamed → ∃ spelling, source.default = some (.string spelling) ∧
          value = .number spelling)) ∧
    ∀ schema, settings.build metadata = .ok schema →
      ∀ table ∈ schema.tables, ∀ column ∈ table.columns, ∀ value ∈ column.default,
        value.Suits column.type ∧ (value.Valid column.type ↔ ¬ value.IsNamed) ∧
        ∃ object ∈ metadata.objects, ∃ source ∈ object.fields, ∃ type,
          ColumnType.ofSource? source.sourceType = some type ∧
            column.type = (StoredField.ofSource source type).type ∧
            (StoredField.ofSource source type).default = some value := by
  refine ⟨fun source type value kept => StoredField.valid_default kept, ?_⟩
  intro schema built table member column inside value given
  obtain ⟨object, objects, source, sources, type, column, typed, kept⟩ :=
    exists_source_of_default built member inside given
  obtain ⟨suits, valid, _⟩ := StoredField.valid_default kept
  rw [typed]
  exact ⟨suits, valid, object, objects, source, sources, type, column, rfl, kept⟩

/-- Items with a price, and a default for it. -/
def pricedItems (default : Json) : Metadata :=
  ⟨[{ key := "object_1", name := "Item"
      fields := [{ key := "field_1", name := "Price", sourceType := "number"
                   default := some default }] }]⟩

/-- A price that is a number by default. -/
theorem valid_defaults_pricedItems :
    ∃ schema, ({} : Settings).build (pricedItems (.string "12.5")) = .ok schema ∧
      ∃ table ∈ schema.tables, ∃ column ∈ table.columns, column.name = "price" ∧
        ∃ value ∈ column.default, value.sql = "12.5" ∧ value.Valid column.type := by
  have compiles : ({} : Settings).compilesTo (pricedItems (.string "12.5")) (fun _ schema =>
      decide (∃ table ∈ schema.tables, ∃ column ∈ table.columns, column.name = "price" ∧
        column.default = some (.number "12.5"))) = true := by
    decide +kernel
  obtain ⟨_, _, schema, _, built, holds⟩ := exists_build compiles
  obtain ⟨table, tables, column, columns, named, given⟩ := of_decide_eq_true holds
  obtain ⟨_, valid, _⟩ :=
    (valid_defaults {} _).2 schema built table tables column columns _ given
  refine ⟨schema, built, table, tables, column, columns, named, _, given, rfl, valid.mpr ?_⟩
  rintro ⟨_, ⟨⟩, name⟩
  obtain ⟨char, member, other⟩ := name.exists_not_isNumeric
  have numeric : ∀ char ∈ "12.5".toList, Text.isNumeric char = true :=
    List.all_eq_true.mp (by decide)
  rw [numeric char member] at other
  cases other

/-- **A price that is the name of a number by default.** Without quotes it is no number. -/
theorem default_named :
    ∃ schema, ({} : Settings).build (pricedItems (.string "nan")) = .ok schema ∧
      ∃ table ∈ schema.tables, ∃ column ∈ table.columns, column.type = .numeric ∧
        ∃ value ∈ column.default, value.sql = "nan" ∧ ¬ NumericLiteral value.sql.toList ∧
          ¬ value.Valid column.type := by
  have compiles : ({} : Settings).compilesTo (pricedItems (.string "nan")) (fun _ schema =>
      decide (∃ table ∈ schema.tables, ∃ column ∈ table.columns, column.type = .numeric ∧
        column.default = some (.number "nan"))) = true := by
    decide +kernel
  obtain ⟨_, _, schema, _, built, holds⟩ := exists_build compiles
  obtain ⟨table, tables, column, columns, typed, given⟩ := of_decide_eq_true holds
  have other : ¬ NumericLiteral "nan".toList :=
    (@NamedNumber.mk [] "nan".toList .none (by decide)).not_literal
  exact ⟨schema, built, table, tables, column, columns, typed, _, given, rfl, other,
    fun valid => other (valid.literal _ rfl)⟩

end Settings

end AppSchema
