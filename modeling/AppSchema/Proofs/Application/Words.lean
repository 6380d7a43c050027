/-
**The words of an application.**

What stands unquoted in a script are names, which were made from labels, and defaults that are
numbers.

* `Application.words`: the names of entities and fields, and the defaults that are not quoted;
* `Application.bare_ofSources`: all of them are bare, whatever the metadata says;
* `Application.Plain.allBare`: so are all names that are put together from plain ones.
-/

import AppSchema.Proofs.Sql.Bare
import AppSchema.Proofs.Statement.Words
import AppSchema.Proofs.Storage.Names

namespace AppSchema

open Sql (AllBare Bare allBare_cons allBare_append allBare_flatMap)

/-- The words of a kind of field: those of its default. -/
def FieldKind.words (kind : FieldKind) : List String :=
  (kind.stored?.bind StoredField.default).toList.flatMap DefaultValue.words

/-- The words of a field. -/
def Field.words (field : Field) : List String :=
  field.name.ident :: field.kind.words

/-- The words of an entity. -/
def Entity.words (entity : Entity) : List String :=
  entity.name.ident :: entity.fields.flatMap Field.words

/-- The words of an application. -/
def Application.words (application : Application) : List String :=
  application.entities.flatMap Entity.words

/-- The words of a column. -/
def Column.words (column : Column) : List String :=
  column.name :: (column.default.toList.flatMap DefaultValue.words ++ column.references.toList)

/-! ### Fields -/

/-- **A default is bare unless it is quoted.** -/
theorem DefaultValue.bare_ofText? {type : ColumnType} {spelling : String} {value : DefaultValue}
    (given : ofText? type spelling = some value) : AllBare value.words := by
  have number : ∀ {value : DefaultValue},
      (if Text.isReal spelling.toList then some (DefaultValue.number spelling) else none) =
        some value → AllBare value.words := by
    intro value given
    split at given
    · next real =>
      cases given
      exact allBare_cons.mpr ⟨Text.bare_of_isReal real, Sql.allBare_nil⟩
    · cases given
  cases type with
  | boolean =>
    simp only [ofText?] at given
    split at given
    · cases given
      exact Sql.allBare_nil
    · split at given
      · cases given
        exact Sql.allBare_nil
      · cases given
  | numeric => exact number given
  | integer => exact number given
  | text =>
    cases given
    exact Sql.allBare_nil
  | _ => cases given

theorem Reading.bare_ofSource {source : FieldSource} {kind : FieldKind}
    (read : ofSource source = .kept kind) : AllBare kind.words := by
  refine allBare_flatMap.mpr fun value given => ?_
  obtain ⟨field, stores, given⟩ := Option.bind_eq_some_iff.mp (Option.mem_toList.mp given)
  obtain ⟨type, _, rfl⟩ := stored_ofSource read stores
  obtain ⟨_, _, given⟩ := Option.bind_eq_some_iff.mp given
  obtain ⟨_, _, given⟩ := Option.bind_eq_some_iff.mp given
  exact DefaultValue.bare_ofText? given

/-! ### Applications -/

/-- **The words of an application are bare**, whatever the metadata says. -/
theorem Application.bare_ofSources (objects : List ObjectSource) :
    AllBare (ofSources objects).1.words := by
  have plain := plain_ofSources objects
  refine allBare_flatMap.mpr fun entity member => allBare_cons.mpr ⟨?_, allBare_flatMap.mpr
    fun field inside => allBare_cons.mpr ⟨?_, ?_⟩⟩
  · exact Ident.bare_of_isPlain (plain.entity entity member)
  · exact Ident.bare_of_isPlain (plain.field entity member field inside)
  · obtain ⟨object, _, _, classified, _⟩ := exists_source member
    obtain ⟨_, fields⟩ := Entity.readFrom_of_ofSource classified
    rcases fields field inside with ⟨source, _, read⟩ | ⟨count, key⟩
    · exact Reading.bare_ofSource read
    · rcases List.mem_pair.mp key with rfl | rfl <;> exact Sql.allBare_nil

/-- Names that are put together from plain names are bare. -/
theorem Application.Plain.allBare {application : Application} (plain : application.Plain)
    {words : List String} (named : ∀ word ∈ words, application.Named word) : AllBare words :=
  fun word member => Ident.bare_of_isPlain ((named word member).isPlain plain)

namespace Settings

variable {settings : Settings} {metadata : Metadata} {layout : Layout} {left : List Diagnostic}

theorem bare_words_of_layout (laid : settings.layout metadata = .ok (layout, left)) :
    AllBare layout.application.words := by
  obtain ⟨_, _, _, _, _, _, same, _⟩ := exists_follows_of_layout laid
  rw [same]
  exact Application.bare_ofSources _

end Settings

end AppSchema
