/-
**Fields that repeat a key.**

Of the fields of an object that share a key only the first is read. A later one may have any type,
settings or name: it is not classified, it is not reported, and no name of it collides. So metadata
with and without such fields is compiled to the same, whether that is a schema or an error.

* `ObjectSource.ReadAlike`: objects whose first fields of every key are the same;
* `Settings.build_eq_of_readAlike`: only the fields that are classified decide what is compiled;
* `Settings.build_withoutRepeats`: all repeated fields may be left out, or any one of them.
-/

import AppSchema.Proofs.Application.First
import AppSchema.Proofs.Script
import AppSchema.Proofs.View.Shown

namespace AppSchema

/-- An object without the fields that repeat a key. -/
def ObjectSource.withoutRepeats (object : ObjectSource) : ObjectSource :=
  { object with fields := FieldSource.withoutRepeats object.fields }

/-- Metadata without the fields that repeat a key of their object. -/
def Metadata.withoutRepeats (metadata : Metadata) : Metadata :=
  ⟨metadata.objects.map ObjectSource.withoutRepeats⟩

/-! ### Objects with the same first fields -/

/-- **Objects that are classified alike**: at most, fields that repeat a key differ. -/
structure ObjectSource.ReadAlike (object other : ObjectSource) : Prop where
  key : object.key = other.key
  name : object.name = other.name
  fields : FieldSource.firstOfKeys [] object.fields = FieldSource.firstOfKeys [] other.fields

namespace ObjectSource.ReadAlike

theorem refl (object : ObjectSource) : object.ReadAlike object :=
  ⟨rfl, rfl, rfl⟩

theorem withoutRepeats (object : ObjectSource) : object.withoutRepeats.ReadAlike object :=
  ⟨rfl, rfl, FieldSource.firstOfKeys_withoutRepeats object.fields⟩

/-- Any one field that repeats a key may be left out. -/
theorem repeated {object : ObjectSource} {front back : List FieldSource} {field : FieldSource}
    (split : object.fields = front ++ field :: back)
    (repeated : field.key ∈ front.map FieldSource.key) :
    ReadAlike { object with fields := front ++ back } object :=
  ⟨rfl, rfl, by rw [split, FieldSource.firstOfKeys_repeated repeated]⟩

end ObjectSource.ReadAlike

theorem Application.add_of_readAlike (state : Application × List Diagnostic)
    {object other : ObjectSource} (alike : object.ReadAlike other) :
    add state object = add state other := by
  have same : ∀ id, Entity.ofSource id object = Entity.ofSource id other := by
    intro id
    rw [Entity.ofSource, Entity.ofSource, alike.key, alike.name, alike.fields]
  rw [add, add, same, alike.key]

namespace Settings

variable {settings : Settings} {metadata other : Metadata}

theorem sources_eq_of_readAlike
    (alike : List.Forall₂ ObjectSource.ReadAlike metadata.objects other.objects) :
    settings.sources metadata = settings.sources other := by
  have included : ∀ ⦃object other : ObjectSource⦄, object.ReadAlike other →
      (settings.includes object = true ↔ settings.includes other = true) := by
    intro object other alike
    rw [includes, includes, alike.key]
  refine List.rel_foldl (P := Eq) ?_ rfl (List.rel_filter included alike)
  rintro state _ rfl object other alike
  exact Application.add_of_readAlike state alike

/-- **Only the fields that are classified decide what is compiled**, be it a schema or an error. -/
theorem build_eq_of_readAlike
    (alike : List.Forall₂ ObjectSource.ReadAlike metadata.objects other.objects) :
    settings.build metadata = settings.build other := by
  have same : settings.layout metadata = settings.layout other := by
    unfold layout
    rw [show Application.ofSources (metadata.objects.filter settings.includes) = _ from
      sources_eq_of_readAlike alike]
    rfl
  rw [build, build, same]

/-- **Fields that repeat a key change nothing.** Metadata is compiled to the same schema, with the
same diagnostics, or to the same error, if all of them are left out, and if any one of them is,
whatever its type, its settings and its name, and whatever became of the first field of its key. -/
theorem build_withoutRepeats (settings : Settings) (metadata : Metadata) :
    settings.build metadata.withoutRepeats = settings.build metadata ∧
    ∀ before object after front field back, metadata.objects = before ++ object :: after →
      object.fields = front ++ field :: back → field.key ∈ front.map FieldSource.key →
      settings.build ⟨before ++ { object with fields := front ++ back } :: after⟩ =
        settings.build metadata := by
  have itself : ∀ objects, List.Forall₂ ObjectSource.ReadAlike objects objects :=
    fun objects => List.forall₂_same.mpr fun object _ => .refl object
  constructor
  · refine build_eq_of_readAlike (List.forall₂_map_left_iff.mpr ?_)
    exact List.forall₂_same.mpr fun object _ => .withoutRepeats object
  · intro before object after front field back objects fields repeated
    refine build_eq_of_readAlike ?_
    rw [objects]
    exact List.rel_append (itself before) (.cons (.repeated fields repeated) (itself after))

/-- Books with a title, an equation, a connection without a relationship and a label; and behind
each of the first three a field of its key: one of no known type, one with the name of the title,
and a text formula without a text. -/
def repeatedBooks : ObjectSource :=
  ⟨"object_1", "Book",
    [{ key := "field_1", name := "Title", sourceType := "short_text" },
     { key := "field_1", name := "Cover", sourceType := "hologram" },
     { key := "field_2", name := "Pages", sourceType := "equation" },
     { key := "field_2", name := "Title", sourceType := "short_text" },
     { key := "field_3", name := "Author", sourceType := "connection" },
     { key := "field_3", name := "Code", sourceType := "concatenation" },
     textFormula "field_4" "Label" "\x7bfield_1\x7d"]⟩

/-- None of the repeated fields fails the books, collides or is reported. -/
theorem build_withoutRepeats_repeatedBooks :
    let settings : Settings := { strict := false }
    (⟨[repeatedBooks]⟩ : Metadata).withoutRepeats.objects.map (fun object =>
        object.fields.map fun field => (field.key, field.sourceType)) =
      [[("field_1", "short_text"), ("field_2", "equation"), ("field_3", "connection"),
        ("field_4", "concatenation")]] ∧
    ∃ schema, settings.build ⟨[repeatedBooks]⟩ = .ok schema ∧
      schema.tables.map (·.columns.map Column.name) = [["title", "id", "knack_id"]] ∧
      schema.diagnostics.map Diagnostic.part =
        [.field "object_1" "field_2", .field "object_1" "field_3"] ∧
      settings.build (⟨[repeatedBooks]⟩ : Metadata).withoutRepeats = .ok schema ∧
      settings.build ⟨[{ repeatedBooks with fields := repeatedBooks.fields.eraseIdx 1 }]⟩ =
        .ok schema := by
  intro settings
  have compiles : settings.compilesTo ⟨[repeatedBooks]⟩ (fun _ schema =>
      decide (schema.tables.map (·.columns.map Column.name) = [["title", "id", "knack_id"]] ∧
        schema.diagnostics.map Diagnostic.part =
          [.field "object_1" "field_2", .field "object_1" "field_3"])) = true := by
    decide +kernel
  obtain ⟨_, _, schema, _, built, holds⟩ := exists_build compiles
  obtain ⟨columns, reported⟩ := of_decide_eq_true holds
  obtain ⟨all, one⟩ := build_withoutRepeats settings ⟨[repeatedBooks]⟩
  have cover := one [] repeatedBooks [] [_] _ _ rfl rfl (List.mem_singleton.mpr rfl)
  exact ⟨by decide, schema, built, columns, reported, all.trans built, cover.trans built⟩

end Settings

end AppSchema
