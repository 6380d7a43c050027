/-
**The names of a layout.**

Whatever a layout names, and whatever a formula reads, is named after entities and their fields:
alone, with an ending, or several of them put together.

* `Application.Named`: all ways in which names are put together;
* `Application.plain_ofSources`: entities and fields have plain names, whatever the metadata says;
* `Application.Named.isPlain`: so is then every name that is put together;
* `Layout.Checked.named_table`, `Layout.Checked.named_foreignKey`: a checked layout names its tables
  and foreign keys in these ways.
-/

import AppSchema.Proofs.Application.Numbered
import AppSchema.Proofs.Ident
import AppSchema.Proofs.Storage.Layout

namespace AppSchema

/-! ### Names that are put together -/

/-- **The names of an application**, and those that are put together from them. -/
inductive Application.Named (application : Application) : String → Prop
  | entity {entity : Entity} :
    entity ∈ application.entities → Named application entity.name.ident
  | view {entity : Entity} : entity ∈ application.entities → Named application entity.viewName
  | field {entity : Entity} {field : Field} :
    entity ∈ application.entities → field ∈ entity.fields → Named application field.name.ident
  | reference {owner referenced : Entity} {field : Field} :
    owner ∈ application.entities → field ∈ owner.fields → referenced ∈ application.entities →
    Named application (Plan.referenceName field referenced)
  | association {first second : Entity} :
    first ∈ application.entities → second ∈ application.entities →
    Named application (Plan.associationName first second)
  | side {first second : Entity} :
    first ∈ application.entities → second ∈ application.entities →
    Named application (Plan.associationColumns first second).1
  | otherSide {first second : Entity} :
    first ∈ application.entities → second ∈ application.entities →
    Named application (Plan.associationColumns first second).2
  | foreignKey {table column references : String} :
    Named application table → Named application column →
    Named application (ForeignKey.of table column references).name
  /-- The alias under which a table is read from inside its own view. -/
  | related : Named application "related"
  /-- The numeric key of every table. -/
  | key : Named application "id"

/-- **The names of entities and fields are plain.** -/
structure Application.Plain (application : Application) : Prop where
  entity : ∀ entity ∈ application.entities, Ident.isPlain entity.name.ident = true
  field : ∀ entity ∈ application.entities, ∀ field ∈ entity.fields,
    Ident.isPlain field.name.ident = true

/-- Entities and fields are named after labels, and the two keys have plain names. -/
theorem Application.plain_ofSources (objects : List ObjectSource) :
    (ofSources objects).1.Plain := by
  refine ⟨fun entity member => ?_, fun entity member field inside => ?_⟩
  · obtain ⟨object, _, _, classified, _⟩ := exists_source member
    obtain ⟨named, _⟩ := Entity.readFrom_of_ofSource classified
    rw [named]
    exact Ident.isPlain_sanitize object.name
  · obtain ⟨object, _, _, classified, _⟩ := exists_source member
    obtain ⟨_, fields⟩ := Entity.readFrom_of_ofSource classified
    rcases fields field inside with ⟨source, named, _⟩ | ⟨count, key⟩
    · rw [named]
      exact Ident.isPlain_sanitize source.name
    · rcases List.mem_pair.mp key with rfl | rfl
      · show Ident.isPlain "id" = true
        decide +kernel
      · show Ident.isPlain "knack_id" = true
        decide +kernel

/-- **A name that is put together from plain names is plain.** -/
theorem Application.Named.isPlain {application : Application} (plain : application.Plain)
    {name : String} (named : application.Named name) : Ident.isPlain name = true := by
  have spelled : ∀ entity ∈ application.entities,
      Ident.isSpelled entity.name.ident.toList = true :=
    fun entity member => Ident.isSpelled_of_isPlain (plain.entity entity member)
  have tail : ∀ entity ∈ application.entities,
      entity.name.ident.toList.all Ident.isTail = true :=
    fun entity member => Ident.all_isTail_of_isPlain (plain.entity entity member)
  induction named with
  | entity member => exact plain.entity _ member
  | view member => exact Ident.isPlain_ending (spelled _ member) (by decide)
  | field member inside => exact plain.field _ member _ inside
  | @reference owner referenced field owners inside refers =>
    have front := Ident.isSpelled_of_isPlain (plain.field owner owners field inside)
    have middle := Ident.isSpelled_append front
      (show "_rel_".toList.all Ident.isTail = true from rfl)
    exact Ident.isPlain_ending (Ident.isSpelled_append middle (tail _ refers)) (by decide)
  | @association first second firstIn secondIn =>
    have between := Ident.all_isTail_append (tail first firstIn)
      (show "_to_many_".toList.all Ident.isTail = true from rfl)
    have rest := Ident.all_isTail_append between (tail second secondIn)
    have same : Plan.associationName first second =
        "many_" ++ (first.name.ident ++ "_to_many_" ++ second.name.ident) := by
      simp only [Plan.associationName, String.append_assoc]
    rw [same]
    exact Ident.isPlain_beginning rest
  | side firstIn => exact Ident.isPlain_ending (spelled _ firstIn) (by decide)
  | @otherSide first second _ secondIn =>
    refine Ident.isPlain_ending ?_ (by decide)
    split
    · exact Ident.isSpelled_append rfl (tail second secondIn)
    · rw [String.empty_append]
      exact spelled second secondIn
  | foreignKey _ _ table column =>
    have front := Ident.isSpelled_append (Ident.isSpelled_of_isPlain table)
      (show "_".toList.all Ident.isTail = true from rfl)
    have both := Ident.isSpelled_append front (Ident.all_isTail_of_isPlain column)
    exact Ident.isPlain_ending both (by decide)
  | related => decide +kernel
  | key => decide +kernel

/-- The names of every application that is laid out are plain. -/
theorem Settings.plain_of_layout {settings : Settings} {metadata : Metadata} {layout : Layout}
    {left : List Diagnostic} (laid : settings.layout metadata = .ok (layout, left)) :
    layout.application.Plain := by
  obtain ⟨_, _, _, _, _, _, same, _⟩ := exists_follows_of_layout laid
  rw [same]
  exact Application.plain_ofSources _

/-! ### Tables -/

/-- The names of a column: its own, and that of the table that it references. -/
def Column.names (column : Column) : List String :=
  column.name :: column.references.toList

/-- The names of a table and its columns. -/
def Table.names (table : Table) : List String :=
  table.name :: table.columns.flatMap Column.names

/-- The words of a foreign key, all of them names. -/
def ForeignKey.words (key : ForeignKey) : List String :=
  [key.name, key.table, key.column, key.references]

namespace Layout.Checked

variable {schema : String} {plan : Plan} {left : List Diagnostic} {layout : Layout}

/-- A column of ids is named after the field that it stores. -/
theorem named_reference (checked : layout.Checked schema plan left) {id : TableId}
    {column : Column} (member : (id, column) ∈ plan.references) :
    layout.application.Named column.name := by
  obtain ⟨owner, owners, field, own, referenced, refers, array, equal⟩ :=
    checked.sound.made (id, column) member
  have equal : column = Plan.referenceColumn field referenced array := equal
  rw [equal]
  exact .reference owners own refers

/-- An association and its columns are named after the two entities. -/
theorem named_association (checked : layout.Checked schema plan left) {table : Table}
    (member : table ∈ plan.associations) : ∀ name ∈ table.names, layout.application.Named name := by
  obtain ⟨position, found⟩ := List.mem_iff_getElem?.mp member
  obtain ⟨host, hosts, target, targets, equal, _⟩ := checked.sound.association position table found
  obtain ⟨first, second⟩ := Plan.ordered_mem hosts targets
  rw [equal]
  intro name inside
  rcases List.mem_cons.mp inside with rfl | inside
  · exact .association first second
  · obtain ⟨column, columns, inside⟩ := List.mem_flatMap.mp inside
    rcases List.mem_pair.mp columns with rfl | rfl
    · rcases List.mem_pair.mp inside with rfl | rfl
      · exact .side first second
      · exact .entity first
    · rcases List.mem_pair.mp inside with rfl | rfl
      · exact .otherSide first second
      · exact .entity second

/-- **The names of every table** are those of the application. -/
theorem named_table (checked : layout.Checked schema plan left) {table : Table}
    (member : table ∈ layout.tables) : ∀ name ∈ table.names, layout.application.Named name := by
  rcases checked.mem_tables.mp member with ⟨entity, entities, rfl⟩ | there
  · intro name inside
    rcases List.mem_cons.mp inside with rfl | inside
    · exact .entity entities
    · obtain ⟨column, columns, inside⟩ := List.mem_flatMap.mp inside
      rw [Column.names, checked.references_eq_none columns] at inside
      rw [List.mem_singleton.mp inside]
      rcases mem_columns.mp columns with ⟨field, own, is⟩ | reference
      · obtain ⟨stored, _, rfl⟩ := Option.map_eq_some_iff.mp is
        exact .field entities own
      · exact checked.named_reference (mem_referencesOf.mp reference)
  · exact checked.named_association there

/-- **The names of every foreign key** are those of the application. -/
theorem named_foreignKey (checked : layout.Checked schema plan left) {key : ForeignKey}
    (member : key ∈ layout.foreignKeys) :
    ∀ name ∈ key.words, layout.application.Named name := by
  rw [checked.layout_eq] at member
  obtain ⟨holder, holds, referenced, refers, column, reference, rfl⟩ :=
    checked.sound.foreignKey key member
  have columnNamed := checked.named_reference reference
  simp only [ForeignKey.words, List.forall_mem_cons]
  exact ⟨.foreignKey (.entity holds) columnNamed, .entity holds, columnNamed, .entity refers,
    by simp⟩

end Layout.Checked

end AppSchema
