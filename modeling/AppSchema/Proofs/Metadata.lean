/-
**Metadata that is written is read back.**

Metadata is read from many values: records come as objects or as arrays, keys may be absent or
`null`, and a field keeps whatever keys it has besides. It is written in one way only, with the keys
that a field has besides behind those that have a meaning. What is read from any value is well
formed, and what is well formed is what its own JSON is read as.

* `FieldSource.WellFormed`: nothing is kept as `null`, and no key is kept under which another member
  is written;
* `FieldSource.wellFormed_of_ofJson`: every field that is read is well formed, since each member
  that is read keeps it so;
* `FieldSource.ofJson_toJson`: a well-formed field is read back;
* `Metadata.ofJson_toJson_of_ofJson`: so is all metadata that is read.
-/

import AppSchema.Metadata.Decode
import AppSchema.Proofs.Success
import Mathlib.Data.List.Nodup

namespace AppSchema

/-- A key that is new is added at the end. -/
theorem Json.insert_of_not_mem {key : String} {value : Json} {members : Json.Members}
    (absent : key ∉ members.map Prod.fst) :
    insert key value members = members ++ [(key, value)] := by
  induction members with
  | nil => rfl
  | cons member rest ih =>
    obtain ⟨first, old⟩ := member
    rw [List.map_cons, List.mem_cons, not_or] at absent
    rw [insert, if_neg (Ne.symm absent.1), ih absent.2]
    rfl

/-! ### Readers -/

namespace Decoder

variable {α : Type} {decode : Decoder α} {encode : α → Json}

theorem optional_eq_ok {value : Json} {result : Option α}
    (found : optional decode value = .ok result) :
    (value = .null ∧ result = none) ∨
      value ≠ .null ∧ ∃ inner, decode value = .ok inner ∧ result = some inner := by
  cases value
  case null => exact .inl ⟨rfl, (Except.ok.inj found).symm⟩
  all_goals
    refine .inr ⟨nofun, ?_⟩
    obtain ⟨inner, read, same⟩ := bind_eq_ok.mp found
    exact ⟨inner, read, (Except.ok.inj same).symm⟩

/-- An optional value is read back if it is not written as `null`. -/
theorem optional_getD {value : Option α}
    (given : ∀ inner, value = some inner →
      encode inner ≠ .null ∧ decode (encode inner) = .ok inner) :
    optional decode ((value.map encode).getD .null) = .ok value := by
  cases value with
  | none => rfl
  | some inner =>
    obtain ⟨present, read⟩ := given inner rfl
    rw [Option.map_some, Option.getD_some]
    cases written : encode inner
    case null => exact absurd written present
    all_goals
      rw [written] at read
      rw [optional, read]
      · rfl
      · nofun

theorem forall_of_mapM {holds : α → Prop}
    (all : ∀ element value, decode element = .ok value → holds value) {elements : List Json}
    {values : List α} (found : elements.mapM decode = .ok values) :
    ∀ value ∈ values, holds value := by
  induction elements generalizing values with
  | nil =>
    cases found
    exact fun _ member => absurd member List.not_mem_nil
  | cons first rest ih =>
    rw [List.mapM_cons] at found
    obtain ⟨head, here, found⟩ := bind_eq_ok.mp found
    obtain ⟨tail, others, found⟩ := bind_eq_ok.mp found
    cases found
    exact List.forall_mem_cons.mpr ⟨all first head here, ih others⟩

/-- **What holds of everything that is read holds of all elements of a list.** -/
theorem forall_of_list {holds : α → Prop}
    (all : ∀ element value, decode element = .ok value → holds value) {value : Json}
    {values : List α} (found : list decode value = .ok values) :
    ∀ value ∈ values, holds value := by
  cases value
  case array => exact forall_of_mapM all found
  all_goals cases found

/-- So it does of a list that is taken from the front of an array, or is absent there. -/
theorem forall_of_takeOr {holds : α → Prop}
    (all : ∀ element value, decode element = .ok value → holds value) {elements : List Json}
    {result : List α × List Json} (found : takeOr [] (list decode) elements = .ok result) :
    ∀ value ∈ result.1, holds value := by
  cases elements with
  | nil =>
    cases found
    exact fun _ member => absurd member List.not_mem_nil
  | cons first rest =>
    obtain ⟨values, read, same⟩ := bind_eq_ok.mp found
    cases same
    exact forall_of_list all read

/-- **A list is read back if its elements are.** -/
theorem list_map {values : List α}
    (read : ∀ value ∈ values, decode (encode value) = .ok value) :
    list decode (.array (values.map encode)) = .ok values := by
  show (values.map encode).mapM decode = .ok values
  induction values with
  | nil => rfl
  | cons first rest ih =>
    obtain ⟨here, others⟩ := List.forall_mem_cons.mp read
    rw [List.map_cons, List.mapM_cons, here, ih others]
    rfl

/-- **What each member keeps is kept by all.** -/
theorem members_induction {σ : Type} {read : σ → String → Json → Except DecodeError σ}
    (invariant : σ → Prop)
    (keeps : ∀ state key value next, invariant state → read state key value = .ok next →
      invariant next)
    {start result : σ} (holds : invariant start) {given : Json.Members}
    (found : members read start given = .ok result) : invariant result :=
  foldlM_induction (fun _ => invariant)
    (fun _ state member next holds step => keeps state member.1 member.2 next holds step)
    holds found

end Decoder

open Decoder

/-! ### Relationships -/

theorem Relationship.ofJson_toJson (relationship : Relationship) :
    ofJson relationship.toJson = .ok relationship := by
  obtain ⟨object, has, belongsTo⟩ := relationship
  cases has <;> cases belongsTo <;> rfl

/-! ### Fields -/

namespace FieldSource

/-- **A well-formed field.** An absent default or format is the same as `null`, and the keys of what
is written are all different. -/
structure WellFormed (field : FieldSource) : Prop where
  default : field.default ≠ some .null
  format : field.format ≠ some .null
  distinct : (keys ++ field.rest.map Prod.fst).Nodup

/-- A part of a field of which a well-formed field may come. -/
structure Partial.Sound (state : Partial) : Prop where
  default : state.default ≠ some .null
  format : state.format ≠ some .null
  distinct : (keys ++ state.rest.map Prod.fst).Nodup

/-- An optional value that is read as it is, is not kept as `null`. -/
theorem ne_null_of_optional {value : Json} {result : Option Json}
    (found : optional anything value = .ok result) : result ≠ some .null := by
  rcases optional_eq_ok found with ⟨_, rfl⟩ | ⟨present, inner, read, rfl⟩
  · nofun
  · cases read
    exact fun same => present (Option.some.inj same)

/-- A member with a key of no meaning is kept. -/
theorem readMember_of_not_mem {key : String} (other : key ∉ keys) (state : Partial)
    (value : Json) :
    readMember state key value =
      .ok { state with rest := Json.insert key value state.rest } := by
  simp only [keys, List.mem_cons, List.not_mem_nil, or_false, not_or] at other
  obtain ⟨notKey, notName, notType, notRequired, notUnique, notDefault, notFormat, notLinked⟩ :=
    other
  unfold readMember
  split <;> first | contradiction | rfl

/-- Keeping a member keeps the keys different. -/
theorem nodup_insert {members : Json.Members} (distinct : (keys ++ members.map Prod.fst).Nodup)
    {key : String} (other : key ∉ keys) (value : Json) :
    (keys ++ (Json.insert key value members).map Prod.fst).Nodup := by
  rw [Json.keys_insert]
  split
  · exact distinct
  · next absent =>
    rw [← List.append_assoc, ← List.concat_eq_append, List.nodup_concat]
    refine ⟨fun inside => ?_, distinct⟩
    rcases List.mem_append.mp inside with known | kept
    · exact other known
    · exact absent kept

/-- **Each member that is read keeps what is read sound.** -/
theorem Partial.Sound.readMember {state next : Partial} (sound : state.Sound) {key : String}
    {value : Json} (read : readMember state key value = .ok next) : next.Sound := by
  by_cases other : key ∈ keys
  · simp only [keys, List.mem_cons, List.not_mem_nil, or_false] at other
    rcases other with rfl | rfl | rfl | rfl | rfl | rfl | rfl | rfl
    case inr.inr.inr.inr.inr.inl =>
      obtain ⟨default, found, same⟩ := bind_eq_ok.mp read
      cases same
      exact { sound with default := ne_null_of_optional found }
    case inr.inr.inr.inr.inr.inr.inl =>
      obtain ⟨format, found, same⟩ := bind_eq_ok.mp read
      cases same
      exact { sound with format := ne_null_of_optional found }
    all_goals
      obtain ⟨inner, _, same⟩ := bind_eq_ok.mp read
      cases same
      exact { sound with }
  · rw [readMember_of_not_mem other] at read
    cases read
    exact { sound with distinct := nodup_insert sound.distinct other value }

/-- **Every field that is read is well formed.** -/
theorem wellFormed_of_ofJson {value : Json} {field : FieldSource}
    (read : ofJson value = .ok field) : field.WellFormed := by
  cases value
  case object given =>
    obtain ⟨state, members, complete⟩ := bind_eq_ok.mp read
    have sound : state.Sound := by
      have start : Partial.Sound {} := ⟨nofun, nofun, by decide⟩
      exact members_induction Partial.Sound (fun _ _ _ _ sound => sound.readMember) start members
    obtain ⟨key, _, complete⟩ := bind_eq_ok.mp complete
    obtain ⟨name, _, complete⟩ := bind_eq_ok.mp complete
    obtain ⟨sourceType, _, complete⟩ := bind_eq_ok.mp complete
    cases complete
    exact ⟨sound.default, sound.format, sound.distinct⟩
  all_goals cases read

/-- **Members without a meaning are kept as they are**, if their keys are new and different. -/
theorem members_rest {given : Json.Members} {state : Partial}
    (distinct : (keys ++ (state.rest ++ given).map Prod.fst).Nodup) :
    members readMember state given = .ok { state with rest := state.rest ++ given } := by
  induction given generalizing state with
  | nil =>
    rw [List.append_nil]
    rfl
  | cons member others ih =>
    obtain ⟨key, value⟩ := member
    have apart := distinct
    rw [List.map_append, List.map_cons, ← List.append_assoc] at apart
    have fresh := (List.nodup_middle.mp apart).notMem
    simp only [List.mem_append, not_or] at fresh
    obtain ⟨⟨unknown, absent⟩, _⟩ := fresh
    show (readMember state key value >>= fun next => members readMember next others) = _
    rw [readMember_of_not_mem unknown, Json.insert_of_not_mem absent]
    rw [List.append_cons _ _ others] at distinct ⊢
    exact @ih { state with rest := state.rest ++ [(key, value)] } distinct

/-- The members of a field that have a meaning, as they are written. -/
def named (field : FieldSource) : Json.Members :=
  [("key", .string field.key), ("name", .string field.name), ("type", .string field.sourceType),
    ("required", .bool field.required), ("unique", .bool field.unique),
    ("default", field.default.getD .null), ("format", field.format.getD .null),
    ("relationship", (field.relationship.map Relationship.toJson).getD .null)]

/-- What these members are of a field. -/
def ofNamed (field : FieldSource) : Partial :=
  { key := some field.key, name := some field.name, sourceType := some field.sourceType
    required := field.required, unique := field.unique, default := field.default
    format := field.format, relationship := field.relationship }

theorem optional_anything {value : Option Json} (present : value ≠ some .null) :
    optional anything (value.getD .null) = .ok value := by
  have written : optional anything ((value.map id).getD .null) = .ok value :=
    optional_getD fun inner same => ⟨fun null => present (same.trans (congrArg some null)), rfl⟩
  rwa [Option.map_id] at written

theorem members_named {field : FieldSource} (wellFormed : field.WellFormed) :
    members readMember {} field.named = .ok field.ofNamed := by
  have relationship : optional Relationship.ofJson
      ((field.relationship.map Relationship.toJson).getD .null) = .ok field.relationship :=
    optional_getD fun inner _ => ⟨nofun, Relationship.ofJson_toJson inner⟩
  simp only [members, named, List.foldlM_cons, readMember, optional_anything wellFormed.default,
    optional_anything wellFormed.format, relationship]
  rfl

/-- **A well-formed field is read back.** -/
theorem ofJson_toJson {field : FieldSource} (wellFormed : field.WellFormed) :
    ofJson field.toJson = .ok field := by
  have all : members readMember {} (field.named ++ field.rest) =
      .ok { field.ofNamed with rest := field.rest } := by
    have rest : members readMember field.ofNamed field.rest =
        .ok { field.ofNamed with rest := field.rest } := members_rest wellFormed.distinct
    rw [members, List.foldlM_append]
    exact bind_eq_ok.mpr ⟨_, members_named wellFormed, rest⟩
  exact bind_eq_ok.mpr ⟨_, all, rfl⟩

end FieldSource

/-! ### Objects -/

namespace ObjectSource

/-- All fields of an object are well formed. -/
def WellFormed (object : ObjectSource) : Prop :=
  ∀ field ∈ object.fields, field.WellFormed

/-- Each member that is read keeps the fields well formed. -/
theorem readMember_wellFormed {state next : Partial}
    (holds : ∀ field ∈ state.fields, field.WellFormed) {key : String} {value : Json}
    (read : readMember state key value = .ok next) : ∀ field ∈ next.fields, field.WellFormed := by
  unfold readMember at read
  split at read
  · obtain ⟨_, _, same⟩ := bind_eq_ok.mp read
    cases same
    exact holds
  · obtain ⟨_, _, same⟩ := bind_eq_ok.mp read
    cases same
    exact holds
  · obtain ⟨fields, found, same⟩ := bind_eq_ok.mp read
    cases same
    exact forall_of_list (fun _ _ => FieldSource.wellFormed_of_ofJson) found
  · cases read
    exact holds

/-- **Every object that is read is well formed**, whether it comes as an object or as an array. -/
theorem wellFormed_of_ofJson {value : Json} {object : ObjectSource}
    (read : ofJson value = .ok object) : object.WellFormed := by
  cases value
  case object given =>
    obtain ⟨state, members, complete⟩ := bind_eq_ok.mp read
    obtain ⟨key, _, complete⟩ := bind_eq_ok.mp complete
    obtain ⟨name, _, complete⟩ := bind_eq_ok.mp complete
    cases complete
    exact members_induction (fun state : Partial => ∀ field ∈ state.fields, field.WellFormed)
      (fun _ _ _ _ holds => readMember_wellFormed holds) (by simp) members
  case array elements =>
    obtain ⟨⟨key, _⟩, _, read⟩ := bind_eq_ok.mp read
    obtain ⟨⟨name, _⟩, _, read⟩ := bind_eq_ok.mp read
    obtain ⟨⟨fields, _⟩, third, read⟩ := bind_eq_ok.mp read
    obtain ⟨_, _, read⟩ := bind_eq_ok.mp read
    cases read
    exact forall_of_takeOr (fun _ _ => FieldSource.wellFormed_of_ofJson) third
  all_goals cases read

/-- **A well-formed object is read back.** -/
theorem ofJson_toJson {object : ObjectSource} (wellFormed : object.WellFormed) :
    ofJson object.toJson = .ok object := by
  have fields : list FieldSource.ofJson (.array (object.fields.map FieldSource.toJson)) =
      .ok object.fields :=
    list_map fun field member => FieldSource.ofJson_toJson (wellFormed field member)
  have all : members readMember {} [("key", .string object.key), ("name", .string object.name),
      ("fields", .array (object.fields.map FieldSource.toJson))] =
        .ok ⟨some object.key, some object.name, object.fields⟩ := by
    simp only [members, List.foldlM_cons, readMember, fields]
    rfl
  exact bind_eq_ok.mpr ⟨_, all, rfl⟩

end ObjectSource

/-! ### Metadata -/

namespace Metadata

/-- All objects of metadata are well formed. -/
def WellFormed (metadata : Metadata) : Prop :=
  ∀ object ∈ metadata.objects, object.WellFormed

/-- **All metadata that is read is well formed.** -/
theorem wellFormed_of_ofJson {value : Json} {metadata : Metadata}
    (read : ofJson value = .ok metadata) : metadata.WellFormed := by
  cases value
  case object given =>
    refine members_induction WellFormed (fun state key value next holds step => ?_)
      (by simp [WellFormed]) read
    unfold readMember at step
    split at step
    · obtain ⟨objects, found, same⟩ := bind_eq_ok.mp step
      cases same
      exact forall_of_list (fun _ _ => ObjectSource.wellFormed_of_ofJson) found
    · cases step
      exact holds
  case array elements =>
    obtain ⟨⟨objects, _⟩, first, read⟩ := bind_eq_ok.mp read
    obtain ⟨_, _, read⟩ := bind_eq_ok.mp read
    cases read
    exact forall_of_takeOr (fun _ _ => ObjectSource.wellFormed_of_ofJson) first
  all_goals cases read

/-- **Well-formed metadata is read back.** -/
theorem ofJson_toJson {metadata : Metadata} (wellFormed : metadata.WellFormed) :
    ofJson metadata.toJson = .ok metadata := by
  have objects : list ObjectSource.ofJson (.array (metadata.objects.map ObjectSource.toJson)) =
      .ok metadata.objects :=
    list_map fun object member => ObjectSource.ofJson_toJson (wellFormed object member)
  refine bind_eq_ok.mpr ⟨metadata, ?_, rfl⟩
  exact bind_eq_ok.mpr ⟨metadata.objects, objects, rfl⟩

/-- **What is read is what its own JSON is read as.** Whatever value metadata is read from, it is
written so that it is read back; and no field keeps a member under a key that has a meaning, nor two
under one key. -/
theorem ofJson_toJson_of_ofJson {value : Json} {metadata : Metadata}
    (read : ofJson value = .ok metadata) :
    ofJson metadata.toJson = .ok metadata ∧
      ∀ object ∈ metadata.objects, ∀ field ∈ object.fields,
        (FieldSource.keys ++ field.rest.map Prod.fst).Nodup := by
  have wellFormed := wellFormed_of_ofJson read
  exact ⟨ofJson_toJson wellFormed,
    fun object member field inside => (wellFormed object member field inside).distinct⟩

/-- Metadata without the keys of records: a book whose connection has words as keys, and an author
without fields. -/
def positional : Json :=
  .array [.array [
    .array [.string "object_1", .string "Book", .array [
      .object [("sortable", .bool true), ("type", .string "connection"),
        ("key", .string "field_1"), ("default", .null), ("name", .string "Author"),
        ("rules", .array [.object [("key", .null)]]), ("format", .object [("default", .null)]),
        ("relationship", .array [.string "object_2", .object [("one", .null)], .string "many"])]]],
    .object [("name", .string "Author"), ("scenes", .null), ("key", .string "object_2")]]]

/-- What is read of it. -/
def ofPositional : Metadata :=
  ⟨[⟨"object_1", "Book",
      [{ key := "field_1", name := "Author", sourceType := "connection"
         format := some (.object [("default", .null)])
         relationship := some ⟨"object_2", .one, .many⟩
         rest := [("sortable", .bool true), ("rules", .array [.object [("key", .null)]])] }]⟩,
    ⟨"object_2", "Author", []⟩]⟩

/-- The book keeps two members besides, behind all that have a meaning. -/
theorem ofJson_toJson_ofPositional :
    ofJson positional = .ok ofPositional ∧ ofJson ofPositional.toJson = .ok ofPositional ∧
      ∀ object ∈ ofPositional.objects, ∀ field ∈ object.fields,
        (FieldSource.keys ++ field.rest.map Prod.fst).Nodup := by
  have read : ofJson positional = .ok ofPositional := rfl
  exact ⟨read, ofJson_toJson_of_ofJson read⟩

end Metadata

end AppSchema
