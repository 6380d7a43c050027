/-
**Associations and the pairs that they link.**

An association is found by its name, which is put together from two names, while a relation names
its columns after its own pair. So an association fits a relation unless a relation of another pair
spells its name too:

* `Layout.Checked.backs_iff_linksApart`: every association has the columns of its relations exactly
  where different pairs have different names;
* `Layout.Checked.sharesByPair_iff_linksApart`: so is it for relations to share an association
  exactly where they link one pair;
* `Settings.associations_of_build`: both, for every application that is compiled.

`Settings.shared_by_two_pairs` is an application in which two pairs spell one name.
-/

import AppSchema.Proofs.Schema
import Mathlib.Data.Sym.Sym2

namespace AppSchema

namespace Relation

/-- The table that associates the two sides. -/
def association? : Relation → Option TableId
  | manyToMany association _ _ _ _ => some association
  | single .. => none

/-- The two tables of a relation, in no order. -/
def pair (relation : Relation) : Sym2 TableId :=
  s(relation.sides.1, relation.sides.2)

end Relation

/-- A table has a column of a name that references a table of a name. -/
def Table.Refers (table : Table) (name referenced : String) : Prop :=
  ∃ column ∈ table.columns, column.name = name ∧ column.references = some referenced

instance (table : Table) (name referenced : String) : Decidable (table.Refers name referenced) :=
  inferInstanceAs (Decidable (∃ column ∈ table.columns, _ ∧ _))

namespace Layout

/-- The relations many to many. -/
def manyToMany (layout : Layout) : List Relation :=
  (layout.relations.map Prod.snd).filter (·.isManyToMany)

/-- **The association of a relation is one, and has a column for either side.** -/
def Backs (layout : Layout) : Relation → Prop
  | .manyToMany association host target hostColumn targetColumn =>
    (layout.table association).isAssociation = true ∧
      (layout.table association).Refers hostColumn (layout.table host).name ∧
      (layout.table association).Refers targetColumn (layout.table target).name
  | .single .. => True

instance (layout : Layout) : DecidablePred layout.Backs
  | .manyToMany .. => inferInstanceAs (Decidable (_ ∧ _ ∧ _))
  | .single .. => inferInstanceAs (Decidable True)

/-- **Relations share an association exactly where they link one pair.** -/
def SharesByPair (layout : Layout) : Prop :=
  ∀ first ∈ layout.manyToMany, ∀ second ∈ layout.manyToMany,
    first.association? = second.association? ↔ first.pair = second.pair

/-- The name of an association for a relation. -/
def linkName (layout : Layout) (relation : Relation) : String :=
  Plan.linkName (layout.entity relation.sides.1) (layout.entity relation.sides.2)

/-- **Relations of different pairs have names of their own.** -/
def LinksApart (layout : Layout) : Prop :=
  ∀ first ∈ layout.manyToMany, ∀ second ∈ layout.manyToMany,
    layout.linkName first = layout.linkName second → first.pair = second.pair

instance (layout : Layout) : Decidable layout.LinksApart :=
  inferInstanceAs (Decidable (∀ first ∈ layout.manyToMany, ∀ second ∈ layout.manyToMany, _ → _))

end Layout

/-! ### The association of a pair -/

namespace Plan

variable {host target : Entity} {schema : String} {id : TableId}

theorem ordered_comm (same : host.name.ident = target.name.ident → host = target) :
    ordered target host = ordered host target := by
  unfold ordered
  by_cases before : host.name.ident ≤ target.name.ident
  · rw [if_pos before]
    by_cases after : target.name.ident ≤ host.name.ident
    · rw [if_pos after, same (String.le_antisymm before after)]
    · rw [if_neg after]
  · rw [if_neg before, if_pos ((String.le_total _ _).resolve_left before)]

/-- An order has the same two entities. -/
theorem pair_ordered (host target : Entity) :
    s((ordered host target).1, (ordered host target).2) = s(host, target) := by
  unfold ordered
  by_cases before : host.name.ident ≤ target.name.ident
  · rw [if_pos before]
  · rw [if_neg before, Sym2.eq_swap]

/-- The name of an association does not depend on the side from which it is reached. -/
theorem linkName_comm (same : host.name.ident = target.name.ident → host = target) :
    linkName target host = linkName host target := by
  rw [linkName, ordered_comm same, linkName]

/-- **The association of a pair has a column for either side**, whichever side is named first. -/
theorem refers_association (same : host.id = target.id → host = target) :
    (association schema id (ordered host target).1 (ordered host target).2).Refers
        (associationColumns host target).1 host.name.ident ∧
      (association schema id (ordered host target).1 (ordered host target).2).Refers
        (associationColumns host target).2 target.name.ident := by
  unfold ordered
  by_cases before : host.name.ident ≤ target.name.ident
  · rw [if_pos before]
    exact ⟨⟨_, List.mem_cons_self, rfl, rfl⟩,
      ⟨_, List.mem_cons_of_mem _ List.mem_cons_self, rfl, rfl⟩⟩
  · have apart : host.id ≠ target.id := by
      intro equal
      rw [same equal] at before
      exact before (String.le_refl _)
    rw [if_neg before]
    refine ⟨⟨_, List.mem_cons_of_mem _ List.mem_cons_self, ?_, rfl⟩,
      ⟨_, List.mem_cons_self, ?_, rfl⟩⟩
    · simp [associationColumn, associationColumns, apart.symm]
    · simp [associationColumn, associationColumns, apart]

/-- A column of the association of two tables that references a table is that of one of them. -/
theorem refers_association_cases {first second : Entity} {name referenced : String}
    (refers : (association schema id first second).Refers name referenced) :
    (name = (associationColumns first second).1 ∧ referenced = first.name.ident) ∨
      (name = (associationColumns first second).2 ∧ referenced = second.name.ident) := by
  obtain ⟨column, member, rfl, refers⟩ := refers
  rcases List.mem_pair.mp member with rfl | rfl
  · cases refers
    exact .inl ⟨rfl, rfl⟩
  · cases refers
    exact .inr ⟨rfl, rfl⟩

theorem related_ne (name : String) : "related_" ++ name ++ "_id" ≠ name ++ "_id" := by
  intro equal
  have lengths := congrArg String.length equal
  simp only [String.length_append] at lengths
  have some : "related_".length = 8 := rfl
  omega

/-- **The association of a pair has no columns for another pair.** Only a table linked to itself
could find both of its sides in one column, but it names them apart. -/
theorem eq_of_refers_association {first second : Entity}
    (hostSide : (association schema id first second).Refers
      (associationColumns host target).1 host.name.ident)
    (targetSide : (association schema id first second).Refers
      (associationColumns host target).2 target.name.ident)
    (same : host.name.ident = target.name.ident → host = target) :
    s(host.name.ident, target.name.ident) = s(first.name.ident, second.name.ident) := by
  have apart : host.name.ident = target.name.ident →
      (associationColumns host target).1 ≠ (associationColumns host target).2 := by
    intro equal
    rw [same equal]
    simp only [associationColumns, if_true]
    exact (related_ne _).symm
  rcases refers_association_cases hostSide with ⟨hostNamed, hostIs⟩ | ⟨hostNamed, hostIs⟩ <;>
    rcases refers_association_cases targetSide with
      ⟨targetNamed, targetIs⟩ | ⟨targetNamed, targetIs⟩
  · exact absurd (hostNamed.trans targetNamed.symm) (apart (hostIs.trans targetIs.symm))
  · rw [hostIs, targetIs]
  · rw [hostIs, targetIs, Sym2.eq_swap]
  · exact absurd (hostNamed.trans targetNamed.symm) (apart (hostIs.trans targetIs.symm))

end Plan

/-! ### The relations of a checked layout -/

namespace Layout.Checked

variable {schema : String} {plan : Plan} {left : List Diagnostic} {layout : Layout}

/-- **A relation many to many has an association of its name.** -/
theorem stored (checked : layout.Checked schema plan left) {relation : Relation}
    (member : relation ∈ layout.manyToMany) :
    ∃ host ∈ layout.application.entities, ∃ target ∈ layout.application.entities,
      ∃ table ∈ plan.associations, table.name = Plan.linkName host target ∧
        relation = .manyToMany table.id host.id target.id
          (Plan.associationColumns host target).1 (Plan.associationColumns host target).2 := by
  obtain ⟨recorded, linked⟩ := List.mem_filter.mp member
  rw [checked.relations_eq] at recorded
  obtain ⟨entry, inside, rfl⟩ := List.mem_map.mp recorded
  generalize equal : entry.2 = relation at linked
  have stores := checked.sound.relation entry inside
  rw [equal] at stores
  cases stores with
  | single => cases linked
  | manyToMany hosts targets there named =>
    exact ⟨_, hosts, _, targets, _, there, named, equal ▸ rfl⟩

theorem linkName_manyToMany (checked : layout.Checked schema plan left) {host target : Entity}
    (hosts : host ∈ layout.application.entities) (targets : target ∈ layout.application.entities)
    (association : TableId) (hostColumn targetColumn : String) :
    layout.linkName (.manyToMany association host.id target.id hostColumn targetColumn) =
      Plan.linkName host target := by
  show Plan.linkName (layout.application.entity host.id) (layout.application.entity target.id) = _
  rw [checked.wellFormed.entity_eq hosts, checked.wellFormed.entity_eq targets]

theorem table_name (checked : layout.Checked schema plan left) {entity : Entity}
    (member : entity ∈ layout.application.entities) :
    (layout.table entity.id).name = entity.name.ident := by
  rw [checked.table_entity member]
  rfl

/-- Pairs of one pair of names are one pair. -/
theorem pair_eq_of_idents (checked : layout.Checked schema plan left)
    {first second host target : Entity} (firstIn : first ∈ layout.application.entities)
    (secondIn : second ∈ layout.application.entities)
    (hosts : host ∈ layout.application.entities) (targets : target ∈ layout.application.entities)
    (same : s(first.name.ident, second.name.ident) = s(host.name.ident, target.name.ident)) :
    s(first.id, second.id) = s(host.id, target.id) := by
  rcases Sym2.eq_iff.mp same with ⟨sameHost, sameTarget⟩ | ⟨sameHost, sameTarget⟩
  · rw [checked.eq_of_ident firstIn hosts sameHost, checked.eq_of_ident secondIn targets sameTarget]
  · rw [checked.eq_of_ident firstIn targets sameHost,
      checked.eq_of_ident secondIn hosts sameTarget, Sym2.eq_swap]

/-- **Relations share an association exactly where they spell one name.** -/
theorem association_eq_iff (checked : layout.Checked schema plan left) {first second : Relation}
    (firstIn : first ∈ layout.manyToMany) (secondIn : second ∈ layout.manyToMany) :
    first.association? = second.association? ↔
      layout.linkName first = layout.linkName second := by
  obtain ⟨host, hosts, target, targets, table, there, named, rfl⟩ := checked.stored firstIn
  obtain ⟨otherHost, otherHosts, otherTarget, otherTargets, other, otherThere, otherNamed, rfl⟩ :=
    checked.stored secondIn
  rw [checked.linkName_manyToMany hosts targets,
    checked.linkName_manyToMany otherHosts otherTargets, ← named, ← otherNamed]
  constructor
  · intro shared
    rw [← checked.table_association there, ← checked.table_association otherThere,
      Option.some.inj shared]
  · intro same
    rw [List.inj_on_of_nodup_map checked.sound.distinctAssociations there otherThere same]
    rfl

/-- Relations of one pair spell one name. -/
theorem linkName_eq_of_pair (checked : layout.Checked schema plan left) {first second : Relation}
    (firstIn : first ∈ layout.manyToMany) (secondIn : second ∈ layout.manyToMany)
    (same : first.pair = second.pair) : layout.linkName first = layout.linkName second := by
  obtain ⟨host, hosts, target, targets, table, _, _, rfl⟩ := checked.stored firstIn
  obtain ⟨otherHost, otherHosts, otherTarget, otherTargets, other, _, _, rfl⟩ :=
    checked.stored secondIn
  rw [checked.linkName_manyToMany hosts targets,
    checked.linkName_manyToMany otherHosts otherTargets]
  rcases Sym2.eq_iff.mp same with ⟨sameHost, sameTarget⟩ | ⟨sameHost, sameTarget⟩
  · rw [checked.eq_of_id hosts otherHosts sameHost,
      checked.eq_of_id targets otherTargets sameTarget]
  · rw [checked.eq_of_id hosts otherTargets sameHost,
      checked.eq_of_id targets otherHosts sameTarget]
    exact Plan.linkName_comm (checked.eq_of_ident otherHosts otherTargets)

/-- **Relations share associations by pair exactly where different pairs have different names.** -/
theorem sharesByPair_iff_linksApart (checked : layout.Checked schema plan left) :
    layout.SharesByPair ↔ layout.LinksApart := by
  constructor
  · intro shares first firstIn second secondIn same
    have shared := (checked.association_eq_iff firstIn secondIn).mpr same
    exact (shares first firstIn second secondIn).mp shared
  · intro apart first firstIn second secondIn
    rw [checked.association_eq_iff firstIn secondIn]
    exact ⟨apart first firstIn second secondIn, checked.linkName_eq_of_pair firstIn secondIn⟩

/-- **Every association was made for the pair of some relation.** -/
theorem made_for (checked : layout.Checked schema plan left) {table : Table}
    (member : table ∈ plan.associations) :
    ∃ host ∈ layout.application.entities, ∃ target ∈ layout.application.entities,
      table = Plan.association schema table.id (Plan.ordered host target).1
        (Plan.ordered host target).2 ∧
      Relation.manyToMany table.id host.id target.id (Plan.associationColumns host target).1
        (Plan.associationColumns host target).2 ∈ layout.manyToMany := by
  obtain ⟨position, found⟩ := List.mem_iff_getElem?.mp member
  obtain ⟨host, hosts, target, targets, equal, field, recorded⟩ :=
    checked.sound.association position table found
  have numbered : table.id = layout.application.entities.length + position := by
    rw [equal]
    rfl
  rw [← numbered] at equal
  refine ⟨host, hosts, target, targets, equal, List.mem_filter.mpr ⟨?_, rfl⟩⟩
  rw [checked.relations_eq]
  exact List.mem_map.mpr ⟨_, recorded, rfl⟩

/-- **An association belongs to one pair.** It has the columns of those relations that link it. -/
theorem exists_owner (checked : layout.Checked schema plan left) {table : Table}
    (member : table ∈ plan.associations) :
    ∃ owner ∈ layout.manyToMany, owner.association? = some table.id ∧
      ∀ relation ∈ layout.manyToMany, relation.association? = some table.id →
        (layout.Backs relation ↔ relation.pair = owner.pair) := by
  obtain ⟨host, hosts, target, targets, equal, owns⟩ := checked.made_for member
  refine ⟨_, owns, rfl, fun relation inside associated => ?_⟩
  obtain ⟨first, firstIn, second, secondIn, other, _, _, rfl⟩ := checked.stored inside
  -- The columns of the relation are looked for in the association of the owner's pair.
  have sameTable : layout.table other.id = Plan.association schema table.id
      (Plan.ordered host target).1 (Plan.ordered host target).2 := by
    rw [Option.some.inj associated, checked.table_association member, ← equal]
  simp only [Backs, sameTable, checked.table_name firstIn, checked.table_name secondIn]
  constructor
  · rintro ⟨_, firstSide, secondSide⟩
    refine checked.pair_eq_of_idents firstIn secondIn hosts targets ?_
    rw [Plan.eq_of_refers_association firstSide secondSide (checked.eq_of_ident firstIn secondIn)]
    exact congrArg (Sym2.map (·.name.ident)) (Plan.pair_ordered host target)
  · intro same
    refine ⟨rfl, ?_⟩
    rcases Sym2.eq_iff.mp same with ⟨sameHost, sameTarget⟩ | ⟨sameHost, sameTarget⟩
    · obtain rfl := checked.eq_of_id firstIn hosts sameHost
      obtain rfl := checked.eq_of_id secondIn targets sameTarget
      exact Plan.refers_association (checked.eq_of_id firstIn secondIn)
    · obtain rfl := checked.eq_of_id firstIn targets sameHost
      obtain rfl := checked.eq_of_id secondIn hosts sameTarget
      rw [Plan.ordered_comm (checked.eq_of_ident firstIn secondIn)]
      exact Plan.refers_association (checked.eq_of_id firstIn secondIn)

/-- **Every association has the columns of its relations exactly where different pairs have
different names.** -/
theorem backs_iff_linksApart (checked : layout.Checked schema plan left) :
    (∀ relation ∈ layout.manyToMany, layout.Backs relation) ↔ layout.LinksApart := by
  constructor
  · intro backs first firstIn second secondIn same
    have shared := (checked.association_eq_iff firstIn secondIn).mpr same
    obtain ⟨_, _, _, _, table, there, _, rfl⟩ := checked.stored firstIn
    obtain ⟨owner, _, _, belongs⟩ := checked.exists_owner there
    -- Both have columns in one association, so both link the pair that owns it.
    have firstPair := (belongs _ firstIn rfl).mp (backs _ firstIn)
    have secondPair := (belongs second secondIn shared.symm).mp (backs second secondIn)
    exact firstPair.trans secondPair.symm
  · intro apart relation member
    obtain ⟨_, _, _, _, table, there, _, rfl⟩ := checked.stored member
    obtain ⟨owner, owns, associated, belongs⟩ := checked.exists_owner there
    have oneName := (checked.association_eq_iff member owns).mp associated.symm
    have onePair := apart _ member owner owns oneName
    exact (belongs _ member rfl).mpr onePair

end Layout.Checked

namespace Settings

/-- **The associations of a compiled application.** Every relation many to many has an association
of its name. That all of these have the columns of their relations, and that they are shared by
pair, holds exactly where different pairs have different names. -/
theorem associations_of_build {settings : Settings} {metadata : Metadata} {schema : Schema}
    (built : settings.build metadata = .ok schema) :
    ∃ layout left, settings.layout metadata = .ok (layout, left) ∧
      (∀ relation ∈ layout.manyToMany, ∃ table : Table, relation.association? = some table.id ∧
        schema.tables[table.id]? = some table ∧ table.isAssociation = true ∧
          table.name = layout.linkName relation) ∧
      ((∀ relation ∈ layout.manyToMany, layout.Backs relation) ↔ layout.LinksApart) ∧
      (layout.SharesByPair ↔ layout.LinksApart) := by
  obtain ⟨layout, left, views, laid, _, _, rfl⟩ := build_eq_ok_iff.mp built
  obtain ⟨plan, checked⟩ := checked_of_layout laid
  refine ⟨layout, left, laid, fun relation member => ?_, checked.backs_iff_linksApart,
    checked.sharesByPair_iff_linksApart⟩
  obtain ⟨host, hosts, target, targets, table, there, named, rfl⟩ := checked.stored member
  obtain ⟨_, _, _, _, made, _⟩ := checked.made_for there
  refine ⟨table, rfl, checked.getElem?_association there, ?_, ?_⟩
  · rw [made]
    rfl
  · rw [checked.linkName_manyToMany hosts targets, named]

/-- A connection many to many. -/
def manyToMany (key name object : String) : FieldSource :=
  { key, name, sourceType := "connection", relationship := some ⟨object, .many, .many⟩ }

/-- A pair that is linked from both sides, and a table that is linked to itself. -/
def linkedTwice : Metadata :=
  ⟨[⟨"object_1", "Author", [manyToMany "field_1" "Books" "object_2",
      manyToMany "field_2" "Friends" "object_1"]⟩,
    ⟨"object_2", "Book", [manyToMany "field_3" "Authors" "object_1"]⟩]⟩

/-- Where the names of pairs differ, all associations fit. -/
theorem associations_of_build_linkedTwice :
    ∃ layout left schema, ({} : Settings).layout linkedTwice = .ok (layout, left) ∧
      ({} : Settings).build linkedTwice = .ok schema ∧ layout.manyToMany.length = 3 ∧
      (∀ relation ∈ layout.manyToMany, layout.Backs relation) ∧ layout.SharesByPair := by
  have compiles : ({} : Settings).compilesTo linkedTwice (fun layout _ =>
      decide (layout.manyToMany.length = 3 ∧ layout.LinksApart)) = true := by
    decide +kernel
  obtain ⟨layout, left, schema, laid, built, holds⟩ := exists_build compiles
  obtain ⟨count, apart⟩ := of_decide_eq_true holds
  obtain ⟨_, _, sameLaid, _, backs, shares⟩ := associations_of_build built
  rw [laid] at sameLaid
  cases sameLaid
  exact ⟨layout, left, schema, laid, built, count, backs.mpr apart, shares.mpr apart⟩

/-- Two pairs whose names are put together to `many_x_to_many_y_to_many_z`. -/
def oneName : Metadata :=
  ⟨[⟨"object_1", "x", [manyToMany "field_1" "p" "object_2"]⟩, ⟨"object_2", "y_to_many_z", []⟩,
    ⟨"object_3", "x_to_many_y", [manyToMany "field_2" "q" "object_4"]⟩, ⟨"object_4", "z", []⟩]⟩

/-- **Two pairs may share an association**, and then it has no columns for one of them. -/
theorem shared_by_two_pairs :
    ∃ layout left schema, ({} : Settings).layout oneName = .ok (layout, left) ∧
      ({} : Settings).build oneName = .ok schema ∧
      ∃ first ∈ layout.manyToMany, ∃ second ∈ layout.manyToMany,
        first.association? = second.association? ∧ first.pair ≠ second.pair ∧
          ¬ layout.Backs second := by
  have compiles : ({} : Settings).compilesTo oneName (fun layout _ =>
      decide (∃ first ∈ layout.manyToMany, ∃ second ∈ layout.manyToMany,
        first.association? = second.association? ∧ first.pair ≠ second.pair ∧
          ¬ layout.Backs second)) = true := by
    decide +kernel
  obtain ⟨layout, left, schema, laid, built, holds⟩ := exists_build compiles
  exact ⟨layout, left, schema, laid, built, of_decide_eq_true holds⟩

end Settings

end AppSchema
