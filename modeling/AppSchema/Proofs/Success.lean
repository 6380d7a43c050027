/-
**Computations that succeed.**

A computation that may fail and succeeds has succeeded at every step, so what each step keeps is
kept by the whole.

* `bind_eq_ok`: a sequence succeeds if both of its parts do;
* `foldlM_induction`: an invariant of the steps over a list holds behind the last;
* `exists_foldlM`: the steps over a list succeed if each does.
-/

import AppSchema.Formula.Expression

namespace AppSchema

section

variable {ε α β : Type}

theorem bind_eq_ok {first : Except ε α} {next : α → Except ε β} {result : β} :
    (first >>= next) = .ok result ↔ ∃ value, first = .ok value ∧ next value = .ok result := by
  cases first with
  | error fault => simp [bind, Except.bind]
  | ok value => simp [bind, Except.bind]

theorem toOption_eq_some {outcome : Except ε α} {value : α} :
    outcome.toOption = some value ↔ outcome = .ok value := by
  cases outcome <;> simp [Except.toOption]

/-- A property of what a computation gives, found by running it. -/
theorem exists_of_any {outcome : Except ε α} {property : α → Bool}
    (holds : outcome.toOption.any property = true) :
    ∃ value, outcome = .ok value ∧ property value = true := by
  cases outcome with
  | error fault => cases holds
  | ok value => exact ⟨value, rfl, holds⟩

theorem foldlM_induction_from {step : β → α → Except ε β} (invariant : List α → β → Prop)
    (keeps : ∀ seen value element result, invariant seen value →
      step value element = .ok result → invariant (seen ++ [element]) result)
    {seen : List α} {start : β} (holds : invariant seen start) {elements : List α} {result : β}
    (folded : elements.foldlM step start = .ok result) : invariant (seen ++ elements) result := by
  induction elements generalizing seen start with
  | nil =>
    cases folded
    rwa [List.append_nil]
  | cons element elements ih =>
    rw [List.foldlM_cons, bind_eq_ok] at folded
    obtain ⟨value, stepped, folded⟩ := folded
    rw [List.append_cons]
    exact ih (keeps seen start element value holds stepped) folded

/-- **An invariant of the steps over a list holds behind the last.** It may speak of the elements
that the steps have seen. -/
theorem foldlM_induction {step : β → α → Except ε β} (invariant : List α → β → Prop)
    (keeps : ∀ seen value element result, invariant seen value →
      step value element = .ok result → invariant (seen ++ [element]) result)
    {start : β} (holds : invariant [] start) {elements : List α} {result : β}
    (folded : elements.foldlM step start = .ok result) : invariant elements result :=
  foldlM_induction_from invariant keeps holds folded

theorem exists_foldlM_from {step : β → α → Except ε β} {all : List α} (invariant : List α → β → Prop)
    (steps : ∀ seen value element rest, all = seen ++ element :: rest → invariant seen value →
      ∃ result, step value element = .ok result ∧ invariant (seen ++ [element]) result)
    {seen : List α} {start : β} (holds : invariant seen start) {elements : List α}
    (split : all = seen ++ elements) : ∃ result, elements.foldlM step start = .ok result := by
  induction elements generalizing seen start with
  | nil => exact ⟨start, rfl⟩
  | cons element elements ih =>
    obtain ⟨between, stepped, kept⟩ := steps seen start element elements split holds
    obtain ⟨result, folded⟩ := ih kept (by rw [split, List.append_cons])
    exact ⟨result, by rw [List.foldlM_cons, stepped]; exact folded⟩

/-- **Steps over a list succeed if each does**, from every value that the steps before it may give. -/
theorem exists_foldlM {step : β → α → Except ε β} {elements : List α}
    (invariant : List α → β → Prop)
    (steps : ∀ seen value element rest, elements = seen ++ element :: rest → invariant seen value →
      ∃ result, step value element = .ok result ∧ invariant (seen ++ [element]) result)
    {start : β} (holds : invariant [] start) :
    ∃ result, elements.foldlM step start = .ok result :=
  exists_foldlM_from invariant steps holds rfl

end

namespace Formula.Evaluation

variable {σ α β : Type}

theorem bind_eq_ok {first : Evaluation σ α} {next : α → Evaluation σ β} {state : σ}
    {result : β × σ} :
    (first >>= next) state = .ok result ↔
      ∃ value between, first state = .ok (value, between) ∧ next value between = .ok result := by
  show ((first state) >>= fun pair => next pair.1 pair.2) = .ok result ↔ _
  rw [AppSchema.bind_eq_ok, Prod.exists]

theorem lift_eq_ok {outcome : Except Fault α} {state : σ} {result : α × σ} :
    (outcome : Evaluation σ α) state = .ok result ↔ ∃ value, outcome = .ok value ∧
      result = (value, state) := by
  show (outcome >>= fun value => Except.ok (value, state)) = .ok result ↔ _
  rw [AppSchema.bind_eq_ok]
  simp only [Except.ok.injEq, eq_comm]

end Formula.Evaluation

end AppSchema
