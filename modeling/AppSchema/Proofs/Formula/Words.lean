/-
**The words of compiled formulas.**

All names in a compiled formula were made from names of entities and fields, and a number in it is a
count.

* `Layout.Checked.bare_resolves`: what references stand for is bare;
* `Layout.Checked.bare_compile`: the words of a compiled formula are bare.
-/

import AppSchema.Proofs.Application.Words
import AppSchema.Proofs.Formula.Names

namespace AppSchema

open Sql (AllBare Bare allBare_cons allBare_append allBare_flatMap allBare_nil)

/-- The words of a compiled formula. -/
def CompiledFormula.words (formula : CompiledFormula) : List String :=
  formula.name :: (formula.expr.words ++ formula.joins.flatMap Join.words)

namespace Layout.Checked

variable {schema : String} {plan : Plan} {left : List Diagnostic} {layout : Layout}

/-- **What references stand for is bare**, and so is all that is built from it. -/
theorem bare_resolves (checked : layout.Checked schema plan left)
    (plain : layout.application.Plain) {host : Entity} (hosts : host ∈ layout.application.entities)
    {formula : Field} (hosted : formula.id.table = host.id) :
    Formula.Resolves (Formula.resolver layout formula) (fun _ _ => True)
      fun _ expr => AllBare expr.words where
  refl _ := trivial
  trans _ _ _ _ _ := trivial
  mono _ _ _ _ holds := holds
  literal _ _ := allBare_nil
  count _ argument count given := by
    unfold Formula.count? at given
    split at given
    · split at given
      · next integer =>
        cases given
        have spelled := Text.bare_of_isInteger integer
        exact allBare_cons.mpr ⟨by rwa [Bare, String.toList_ofList], allBare_nil⟩
      · cases given
    · cases given
  single _ _ := Formula.bare_single
  apply _ _ _ _ := Function.bare_apply
  resolved _ _ _ _ found := ⟨trivial, plain.allBare (checked.named_resolver hosts hosted found)⟩

/-- **The words of a compiled formula are bare.** -/
theorem bare_compile (checked : layout.Checked schema plan left)
    (plain : layout.application.Plain) {host : Entity} (hosts : host ∈ layout.application.entities)
    {formula : Field} (inside : formula ∈ host.fields) {compiled : CompiledFormula}
    (found : Formula.compile layout formula = .ok compiled) : AllBare compiled.words := by
  have hosted := (checked.wellFormed.field_eq hosts inside).1
  have sound := checked.sound_of_compile hosts inside found
  have expr : AllBare compiled.expr.words := by
    unfold Formula.compile at found
    split at found
    · exact plain.allBare (checked.named_compileAggregate hosts hosted found)
    · obtain ⟨pieces, _, found⟩ := bind_eq_ok.mp found
      obtain ⟨⟨parts, reads⟩, evaluated, found⟩ := bind_eq_ok.mp found
      cases found
      obtain ⟨_, gives⟩ := (checked.bare_resolves plain hosts hosted).expressions pieces evaluated
      rw [Sql.Expr.words]
      exact Sql.Expr.allBare_wordsEach.mpr gives
    · cases found
  rw [CompiledFormula.words, sound.name_eq, allBare_cons, allBare_append, allBare_flatMap]
  refine ⟨Ident.bare_of_isPlain (plain.field host hosts formula inside), expr,
    fun join member => ?_⟩
  exact plain.allBare (checked.named_joinOf hosts (sound.reads.join join member).1)

end Layout.Checked

end AppSchema
