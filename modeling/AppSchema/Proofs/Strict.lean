/-
**Strict and lenient compilation.**

A strict compilation stops at the first error that it reports, a lenient one goes on. Both agree up
to that error.

* `Settings.buildStopping`: the compilation that reports each part as soon as it is left out, and
  stops there if it is strict;
* `Settings.buildStopping_eq_build`: settling what was left out behind every step comes to the same;
* `Lockstep`: a computation that stops at the first error that it reports, beside one that goes on;
  `Settings.lockstep_build`: a strict compilation beside a lenient one;
* `Settings.strict_agrees_lenient`: a strict compilation gives the lenient schema or the first error
  that is reported in it, and a lenient one fails for the whole application only.
-/

import AppSchema.Proofs.View.Shown

namespace AppSchema

/-! ### Computations that fail -/

/-- **Every fault of a computation has a property.** -/
def FailsWith {ε α : Type} (property : ε → Prop) (computation : Except ε α) : Prop :=
  ∀ fault, computation = .error fault → property fault

namespace FailsWith

variable {ε α β : Type} {property : ε → Prop}

theorem ok (value : α) : FailsWith property (.ok value) := by
  intro fault failed
  cases failed

theorem error {fault : ε} (holds : property fault) :
    FailsWith property (.error fault : Except ε α) := by
  rintro _ ⟨⟩
  exact holds

theorem bind {first : Except ε α} {next : α → Except ε β} (here : FailsWith property first)
    (later : ∀ value, FailsWith property (next value)) : FailsWith property (first >>= next) := by
  cases first with
  | error fault => exact error (here fault rfl)
  | ok value => exact later value

theorem foldlM {step : β → α → Except ε β} (each : ∀ value element, FailsWith property
    (step value element)) (elements : List α) (start : β) :
    FailsWith property (elements.foldlM step start) := by
  induction elements generalizing start with
  | nil => exact ok start
  | cons element rest ih =>
    rw [List.foldlM_cons]
    exact (each start element).bind ih

theorem forM {check : α → Except ε Unit} (each : ∀ element, FailsWith property (check element))
    (elements : List α) : FailsWith property (elements.forM check) := by
  induction elements with
  | nil => exact ok ()
  | cons element rest ih => exact (each element).bind fun _ => ih

end FailsWith

/-! ### Faults of the whole application -/

/-- **The faults that concern a whole application**: names that collide, metadata that contradicts
itself, and views on a cycle. -/
inductive Fault.Global : Fault → Prop
  | collision {scope first second ident : String} :
    Global (.identifierCollision scope first second ident)
  | metadata {fault : MetadataFault} : Global (.invalidMetadata fault)
  | cycle {members : List String} : Global (.cyclicViewDependency members)

/-- A fault of a whole application, without context. -/
def Error.Global (error : Error) : Prop :=
  error.contexts = [] ∧ error.root.Global

theorem Application.checkNames_global (application : Application) :
    FailsWith Fault.Global application.checkNames := by
  unfold checkNames
  split
  · exact .error .collision
  · exact .ok ()

theorem Index.ofApplication_global (application : Application) :
    FailsWith Fault.Global (ofApplication application) := by
  refine .foldlM (fun index entity => ?_) _ _
  unfold addEntity
  split
  · exact .error .metadata
  · refine .foldlM (fun index field => ?_) _ _
    unfold addField
    split
    · exact .error .metadata
    · exact .ok _

theorem Table.check_global (table : Table) : FailsWith Fault.Global table.check := by
  unfold check
  split
  · exact .error .collision
  · split
    · exact .error .metadata
    · exact .ok ()

theorem Layout.checkRelationNames_global (layout : Layout) :
    FailsWith Fault.Global layout.checkRelationNames := by
  unfold checkRelationNames
  split
  · exact .error .collision
  · exact .ok ()

theorem Layout.checkLengths_global (layout : Layout) :
    FailsWith Fault.Global layout.checkLengths := by
  unfold checkLengths
  split
  · exact .error .metadata
  · exact .ok ()

theorem View.order_global (views : List View) : FailsWith Fault.Global (View.order views) := by
  unfold View.order
  simp only
  split
  · exact .ok _
  · exact .error .cycle

/-! ### Reporting at once -/

namespace Diagnostic

variable {σ α : Type}

/-- Reports a diagnostic behind others. Where it is strict, it stops at an error instead. -/
def report (strict : Bool) (reported : List Diagnostic) (diagnostic : Diagnostic) :
    Except Error (List Diagnostic) :=
  if strict && diagnostic.isError then .error diagnostic.error
  else .ok (reported ++ [diagnostic])

/-- A step that reports what it leaves out as soon as it is done. -/
def stopping (strict : Bool) (step : σ × List Diagnostic → α → σ × List Diagnostic)
    (state : σ × List Diagnostic) (element : α) : Except Error (σ × List Diagnostic) := do
  let (next, left) := step (state.1, []) element
  let reported ← left.foldlM (report strict) state.2
  return (next, reported)

/-- **A step that does not look at what is reported**, but only adds to it. -/
def Adds (step : σ × List Diagnostic → α → σ × List Diagnostic) : Prop :=
  ∀ state reported element, step (state, reported) element =
    ((step (state, []) element).1, reported ++ (step (state, []) element).2)

theorem settle_append (strict : Bool) (first second : List Diagnostic) :
    settle strict (first ++ second) =
      (settle strict first >>= fun _ => settle strict second) := by
  unfold settle
  rw [List.find?_append]
  cases first.find? isError <;> cases second.find? isError <;> cases strict <;> rfl

theorem settle_singleton (strict : Bool) (diagnostic : Diagnostic) :
    settle strict [diagnostic] =
      if strict && diagnostic.isError then .error diagnostic.error else .ok () := by
  unfold settle
  cases isError : diagnostic.isError <;> cases strict <;> simp [isError]

/-- **Reporting one by one** stops where settling them all does. -/
theorem foldlM_report (strict : Bool) (reported diagnostics : List Diagnostic) :
    diagnostics.foldlM (report strict) reported =
      (settle strict diagnostics >>= fun _ => .ok (reported ++ diagnostics)) := by
  induction diagnostics generalizing reported with
  | nil => rw [List.append_nil]; rfl
  | cons diagnostic rest ih =>
    rw [List.foldlM_cons, ← List.singleton_append (l := rest), settle_append, settle_singleton,
      report]
    split
    · rfl
    · show List.foldlM (report strict) (reported ++ [diagnostic]) rest = _
      rw [ih, List.append_assoc]
      rfl

theorem Adds.foldl {step : σ × List Diagnostic → α → σ × List Diagnostic} (adds : Adds step)
    (elements : List α) (state : σ) (reported : List Diagnostic) :
    elements.foldl step (state, reported) =
      ((elements.foldl step (state, [])).1, reported ++ (elements.foldl step (state, [])).2) := by
  induction elements generalizing state reported with
  | nil => simp
  | cons element rest ih =>
    have next := ih (step (state, []) element).1
    rw [List.foldl_cons, List.foldl_cons, adds, next]
    rw [next (step (state, []) element).2, List.append_assoc]

theorem stopping_eq (strict : Bool) (step : σ × List Diagnostic → α → σ × List Diagnostic)
    (state : σ × List Diagnostic) (element : α) :
    stopping strict step state element =
      (settle strict (step (state.1, []) element).2 >>= fun _ =>
        .ok ((step (state.1, []) element).1, state.2 ++ (step (state.1, []) element).2)) := by
  unfold stopping
  simp only [foldlM_report]
  cases settle strict (step (state.1, []) element).2 <;> rfl

/-- **Stopping at the first error that a run reports** comes to settling behind the run. -/
theorem Adds.foldlM_stopping {step : σ × List Diagnostic → α → σ × List Diagnostic}
    (adds : Adds step) (strict : Bool) (elements : List α) (state : σ)
    (reported : List Diagnostic) :
    elements.foldlM (stopping strict step) (state, reported) =
      (settle strict (elements.foldl step (state, [])).2 >>= fun _ =>
        .ok ((elements.foldl step (state, [])).1,
          reported ++ (elements.foldl step (state, [])).2)) := by
  induction elements generalizing state reported with
  | nil => simp [settle, pure, Except.pure, bind, Except.bind]
  | cons element rest ih =>
    have later := adds.foldl rest (step (state, []) element).1 (step (state, []) element).2
    rw [List.foldlM_cons, List.foldl_cons, later, settle_append, stopping_eq]
    cases settle strict (step (state, []) element).2 with
    | error fault => rfl
    | ok _ =>
      show List.foldlM (stopping strict step) ((step (state, []) element).1,
        reported ++ (step (state, []) element).2) rest = _
      rw [ih, List.append_assoc]
      rfl

end Diagnostic

theorem Application.adds_add : Diagnostic.Adds (σ := Application) Application.add := by
  intro application reported object
  unfold Application.add
  cases Entity.ofSource application.entities.length object <;> rfl

theorem Plan.adds_attempt (application : Application) (index : Index) (schema : String) :
    Diagnostic.Adds (Plan.attempt application index schema) := by
  rintro plan reported ⟨host, field, connection⟩
  unfold Plan.attempt
  simp only
  cases plan.add application index schema host field connection <;> simp

theorem Formula.adds_attempt (layout : Layout) : Diagnostic.Adds (Formula.attempt layout) := by
  intro compiled reported formula
  unfold Formula.attempt
  cases compile layout formula.2 <;> simp

namespace Settings

variable {settings : Settings} {metadata : Metadata} {schema : Schema} {layout : Layout}
  {left : List Diagnostic}

/-- The layout of an application, with every part reported as soon as it is left out. -/
def layoutStopping (settings : Settings) (metadata : Metadata) :
    Except Error (Layout × List Diagnostic) := do
  let (application, reported) ← (metadata.objects.filter settings.includes).foldlM
    (Diagnostic.stopping settings.strict Application.add) ({}, [])
  require application.checkNames
  let index ← require (Index.ofApplication application)
  let (plan, reported) ← application.connections.foldlM
    (Diagnostic.stopping settings.strict (Plan.attempt application index settings.dataSchema))
    (Plan.initial application, reported)
  let layout := plan.layout application index settings.dataSchema
  require layout.checkTables
  require layout.checkRelationNames
  require layout.checkLengths
  return (layout, reported)

/-- Compiles an application, with every part reported as soon as it is left out. -/
def buildStopping (settings : Settings) (metadata : Metadata) : Except Error Schema := do
  let (layout, reported) ← settings.layoutStopping metadata
  let (formulas, reported) ← (layout.application.entities.flatMap fun entity =>
    entity.formulaFields.map (entity, ·)).foldlM
      (Diagnostic.stopping settings.strict (Formula.attempt layout)) ([], reported)
  let views ← require (View.order (View.ofLayout layout formulas))
  return {
    dataSchema := settings.dataSchema
    metadataSchema := settings.metadataSchema
    tables := layout.tables
    foreignKeys := layout.foreignKeys
    views
    catalog := CatalogEntry.ofLayout layout formulas
    diagnostics := reported }

theorem layoutStopping_eq_layout : settings.layoutStopping metadata = settings.layout metadata := by
  unfold layoutStopping layout Application.ofSources Layout.ofApplication
  simp only [Application.adds_add.foldlM_stopping, (Plan.adds_attempt _ _ _).foldlM_stopping,
    List.nil_append, bind_assoc]
  rfl

/-- **Stopping at the first error that is reported** comes to settling what was left out behind
every step. -/
theorem buildStopping_eq_build : settings.buildStopping metadata = settings.build metadata := by
  unfold buildStopping build Formula.compileAll
  simp only [layoutStopping_eq_layout, (Formula.adds_attempt _).foldlM_stopping, bind_assoc]
  rfl

end Settings

/-! ### Two runs in lockstep -/

/-- **A lenient run and a strict one in lockstep.** `before` was reported ahead of them, and `left`
is all that is reported behind them. The strict run gives what the lenient one gives, unless an
error is reported on the way; and where the lenient run fails, so does the strict one. -/
structure Lockstep {α : Type} (before : List Diagnostic) (left : α → List Diagnostic)
    (run : Bool → Except Error α) : Prop where
  succeeds : ∀ value, run false = .ok value → ∃ added, left value = before ++ added ∧
    run true = (Diagnostic.settle true added >>= fun _ => .ok value)
  fails : ∀ error, run false = .error error → error.Global ∧ ∃ other, run true = .error other

namespace Lockstep

variable {α β : Type} {before : List Diagnostic} {left : α → List Diagnostic}

theorem pure {value : α} (reported : left value = before) :
    Lockstep before left fun _ => .ok value where
  succeeds := by
    rintro _ ⟨⟩
    exact ⟨[], by rw [reported, List.append_nil], rfl⟩
  fails := by
    rintro _ ⟨⟩

/-- **A check on the whole application.** -/
theorem require {check : Except Fault α} (global : FailsWith Fault.Global check) :
    Lockstep before (fun _ => before) fun _ => Settings.require check := by
  cases check with
  | ok value => exact .pure rfl
  | error fault =>
    refine ⟨?_, ?_⟩
    · rintro _ ⟨⟩
    · rintro _ ⟨⟩
      exact ⟨⟨rfl, global fault rfl⟩, _, rfl⟩

/-- **Settling what a step has left out.** -/
theorem settle (added : List Diagnostic) :
    Lockstep before (fun _ => before ++ added) (Diagnostic.settle · added) := by
  have lenient : Diagnostic.settle false added = .ok () := Diagnostic.settle_eq_ok.mpr (by simp)
  refine ⟨?_, ?_⟩
  · rintro ⟨⟩ _
    refine ⟨added, rfl, ?_⟩
    cases Diagnostic.settle true added <;> rfl
  · intro error failed
    rw [lenient] at failed
    cases failed

/-- **One after the other.** -/
theorem bind {leftBoth : β → List Diagnostic} {first : Bool → Except Error α}
    {next : α → Bool → Except Error β} (here : Lockstep before left first)
    (later : ∀ value, Lockstep (left value) leftBoth (next value)) :
    Lockstep before leftBoth fun strict => first strict >>= fun value => next value strict where
  succeeds result succeeded := by
    obtain ⟨value, lenient, succeeded⟩ := bind_eq_ok.mp succeeded
    obtain ⟨added, reported, strict⟩ := here.succeeds value lenient
    obtain ⟨more, all, behind⟩ := (later value).succeeds result succeeded
    refine ⟨added ++ more, by rw [all, reported, List.append_assoc], ?_⟩
    rw [strict, Diagnostic.settle_append]
    cases Diagnostic.settle true added with
    | error fault => rfl
    | ok _ => exact behind
  fails error failed := by
    cases lenient : first false with
    | error fault =>
      rw [lenient] at failed
      cases failed
      obtain ⟨global, other, strict⟩ := here.fails _ lenient
      exact ⟨global, other, by rw [strict]; rfl⟩
    | ok value =>
      rw [lenient] at failed
      obtain ⟨added, _, strict⟩ := here.succeeds value lenient
      obtain ⟨global, other, behind⟩ := (later value).fails error failed
      refine ⟨global, ?_⟩
      rw [strict]
      cases Diagnostic.settle true added with
      | error fault => exact ⟨fault, rfl⟩
      | ok _ => exact ⟨other, behind⟩

end Lockstep

namespace Settings

variable {settings : Settings}

@[simp] theorem strict_setStrict (strict : Bool) : (settings.setStrict strict).strict = strict :=
  rfl

@[simp] theorem dataSchema_setStrict (strict : Bool) :
    (settings.setStrict strict).dataSchema = settings.dataSchema := rfl

@[simp] theorem includes_setStrict (strict : Bool) :
    (settings.setStrict strict).includes = settings.includes := rfl

theorem lockstep_layout (settings : Settings) (metadata : Metadata) :
    Lockstep [] Prod.snd fun strict => (settings.setStrict strict).layout metadata := by
  unfold Settings.layout
  simp only [strict_setStrict, dataSchema_setStrict, includes_setStrict]
  refine .bind (.settle _) fun _ => ?_
  refine .bind (.require (Application.checkNames_global _)) fun _ => ?_
  refine .bind (.require (Index.ofApplication_global _)) fun _ => ?_
  refine .bind (.settle _) fun _ => ?_
  refine .bind (.require (.forM Table.check_global _)) fun _ => ?_
  refine .bind (.require (Layout.checkRelationNames_global _)) fun _ => ?_
  refine .bind (.require (Layout.checkLengths_global _)) fun _ => ?_
  exact .pure rfl

/-- **Both compilations of an application go in lockstep.** -/
theorem lockstep_build (settings : Settings) (metadata : Metadata) :
    Lockstep [] Schema.diagnostics fun strict => (settings.setStrict strict).build metadata := by
  refine .bind (settings.lockstep_layout metadata) fun laid => ?_
  refine .bind (.settle _) fun _ => ?_
  refine .bind (.require (View.order_global _)) fun views => ?_
  show Lockstep _ _ fun _ => .ok (settings.schemaOf laid.1 laid.2 views)
  exact .pure rfl

/-- **A strict compilation agrees with the lenient one up to the first error.** Where the lenient
one gives a schema, the strict one gives the same if no error is reported in it, and otherwise the first
error that is, in the context of its part. Where the lenient one fails, so does the strict one, and
the fault concerns the whole application. The strict one may stop as soon as it reports an error. -/
theorem strict_agrees_lenient (settings : Settings) (metadata : Metadata) :
    (∀ schema, (settings.setStrict false).build metadata = .ok schema →
      ((∀ diagnostic ∈ schema.diagnostics, diagnostic.isError = false) →
        (settings.setStrict true).build metadata = .ok schema) ∧
      ∀ first, schema.diagnostics.find? Diagnostic.isError = some first →
        ∃ error, (settings.setStrict true).build metadata = .error error ∧
          error.root = first.fault ∧ error.message = first.message) ∧
    (∀ error, (settings.setStrict false).build metadata = .error error →
      (∃ other, (settings.setStrict true).build metadata = .error other) ∧
        error.contexts = [] ∧ error.root.Global) ∧
    (settings.setStrict true).buildStopping metadata =
      (settings.setStrict true).build metadata := by
  have lockstep := settings.lockstep_build metadata
  refine ⟨fun schema built => ?_, fun error failed => ?_, buildStopping_eq_build⟩
  · obtain ⟨added, same, strict⟩ := lockstep.succeeds schema built
    rw [← List.nil_append added, ← same] at strict
    refine ⟨fun harmless => ?_, fun first found => ?_⟩
    · rw [strict, Diagnostic.settle_eq_ok.mpr fun _ => harmless]
      rfl
    · refine ⟨first.error, ?_, rfl, first.message_error⟩
      rw [strict, Diagnostic.settle, found]
      rfl
  · obtain ⟨⟨plain, global⟩, fails⟩ := lockstep.fails error failed
    exact ⟨fails, plain, global⟩

/-- Two objects with one name. -/
def twins : Metadata :=
  ⟨[⟨"object_1", "Book", []⟩, ⟨"object_2", "book", []⟩]⟩

/-- A formula that is compiled, one that is left out, and two objects with one name. -/
theorem strict_agrees_lenient_labelledBooks :
    (∃ schema, (setStrict {} false).build (labelledBooks "upper(x)") = .ok schema ∧
      (setStrict {} true).build (labelledBooks "upper(x)") = .ok schema) ∧
    (∃ schema first, (setStrict {} false).build (labelledBooks "random(x)") = .ok schema ∧
      schema.diagnostics.find? Diagnostic.isError = some first ∧
      ∃ error, (setStrict {} true).build (labelledBooks "random(x)") = .error error ∧
        error.root = first.fault ∧ error.message = first.message) ∧
    ∃ error, (setStrict {} false).build twins = .error error ∧
      (∃ other, (setStrict {} true).build twins = .error other) ∧ error.root.Global := by
  refine ⟨?_, ?_, ?_⟩
  · have compiles : ({ strict := false } : Settings).compilesTo (labelledBooks "upper(x)")
        (fun _ schema => schema.diagnostics.all (!·.isError)) = true := by
      decide +kernel
    obtain ⟨_, _, schema, _, built, holds⟩ := exists_build compiles
    have harmless : ∀ diagnostic ∈ schema.diagnostics, diagnostic.isError = false := by
      simpa using holds
    exact ⟨schema, built, ((strict_agrees_lenient {} _).1 schema built).1 harmless⟩
  · have compiles : ({ strict := false } : Settings).compilesTo (labelledBooks "random(x)")
        (fun _ schema => (schema.diagnostics.find? Diagnostic.isError).isSome) = true := by
      decide +kernel
    obtain ⟨_, _, schema, _, built, holds⟩ := exists_build compiles
    obtain ⟨first, found⟩ := Option.isSome_iff_exists.mp holds
    exact ⟨schema, first, built, found, ((strict_agrees_lenient {} _).1 schema built).2 first found⟩
  · have failed : (setStrict {} false).build twins =
        .error (.ofFault (.identifierCollision "tables" "Book" "book" "book")) := by
      rfl
    obtain ⟨fails, _, global⟩ := (strict_agrees_lenient {} twins).2.1 _ failed
    exact ⟨_, failed, fails, global⟩

end Settings

end AppSchema
