/-
**Applications that are compiled.**

* `Settings.build_eq_ok_iff`: an application is compiled where its layout passes all checks, its
  formulas pass, and its views have an order;
* `Settings.checked_of_build`: then its schema is that of a checked layout;
* `Settings.exists_build`: a compiled application with given properties, found by computation where
  the views are in order already.
-/

import AppSchema.Proofs.Storage.Layout
import AppSchema.Proofs.View.Order

namespace AppSchema.Settings

variable {settings : Settings} {metadata : Metadata} {schema : Schema} {layout : Layout}
  {left : List Diagnostic}

/-- The views of a layout, in the order of its entities. -/
def viewsOf (layout : Layout) : List View :=
  View.ofLayout layout (Formula.compileAll layout).1

/-- The schema of a layout whose views have an order. -/
def schemaOf (settings : Settings) (layout : Layout) (left : List Diagnostic)
    (views : List View) : Schema :=
  { dataSchema := settings.dataSchema
    metadataSchema := settings.metadataSchema
    tables := layout.tables
    foreignKeys := layout.foreignKeys
    views
    catalog := CatalogEntry.ofLayout layout (Formula.compileAll layout).1
    diagnostics := left ++ (Formula.compileAll layout).2 }

/-- **What compiling an application takes.** -/
theorem build_eq_ok_iff :
    settings.build metadata = .ok schema ↔
      ∃ layout left views, settings.layout metadata = .ok (layout, left) ∧
        Diagnostic.settle settings.strict (Formula.compileAll layout).2 = .ok () ∧
        View.order (viewsOf layout) = .ok views ∧ schema = settings.schemaOf layout left views := by
  unfold Settings.build
  constructor
  · intro built
    obtain ⟨⟨layout, left⟩, laid, built⟩ := bind_eq_ok.mp built
    obtain ⟨_, settled, built⟩ := bind_eq_ok.mp built
    obtain ⟨views, ordered, built⟩ := bind_eq_ok.mp built
    exact ⟨layout, left, views, laid, settled, require_eq_ok.mp ordered,
      (Except.ok.inj built).symm⟩
  · rintro ⟨layout, left, views, laid, settled, ordered, rfl⟩
    refine bind_eq_ok.mpr ⟨_, laid, bind_eq_ok.mpr ⟨_, settled, ?_⟩⟩
    exact bind_eq_ok.mpr ⟨views, require_eq_ok.mpr ordered, rfl⟩

/-- **A compiled application is that of a checked layout**, with its views in some order. -/
theorem checked_of_build (built : settings.build metadata = .ok schema) :
    ∃ layout left plan views, settings.layout metadata = .ok (layout, left) ∧
      layout.Checked settings.dataSchema plan left ∧ views.Perm (viewsOf layout) ∧
      schema = settings.schemaOf layout left views := by
  obtain ⟨layout, left, views, laid, _, ordered, same⟩ := build_eq_ok_iff.mp built
  obtain ⟨plan, checked⟩ := checked_of_layout laid
  obtain ⟨_, order⟩ := View.exists_dependencyOrder ordered
  exact ⟨layout, left, plan, views, laid, checked, order.perm, same⟩

/-- Whether an application is compiled with its views as they are, to a schema with a property. -/
def compilesTo (settings : Settings) (metadata : Metadata) (property : Layout → Schema → Bool) :
    Bool :=
  match settings.layout metadata with
  | .ok (layout, left) =>
    (Diagnostic.settle settings.strict (Formula.compileAll layout).2).toBool &&
      decide (View.InOrder (viewsOf layout)) &&
      property layout (settings.schemaOf layout left (viewsOf layout))
  | .error _ => false

/-- **A compiled application, found by computation.** -/
theorem exists_build {property : Layout → Schema → Bool}
    (compiles : settings.compilesTo metadata property = true) :
    ∃ layout left schema, settings.layout metadata = .ok (layout, left) ∧
      settings.build metadata = .ok schema ∧ property layout schema = true := by
  unfold compilesTo at compiles
  cases laid : settings.layout metadata with
  | error fault => simp [laid] at compiles
  | ok pair =>
    obtain ⟨layout, left⟩ := pair
    simp only [laid, Bool.and_eq_true, decide_eq_true_eq] at compiles
    obtain ⟨⟨settled, inOrder⟩, holds⟩ := compiles
    refine ⟨layout, left, _, rfl, build_eq_ok_iff.mpr ⟨layout, left, _, laid, ?_,
      View.order_eq_self inOrder, rfl⟩, holds⟩
    cases outcome : Diagnostic.settle settings.strict (Formula.compileAll layout).2 with
    | error fault => simp [outcome, Except.toBool] at settled
    | ok value => rfl

end AppSchema.Settings
