/-
**Values of JSON.**

An object is a list of members in the order of their keys' first appearance. `Json.insert` is the
rule for a key that is given again: the later value takes the place of the earlier one.

* `Json.keys_insert`: an insertion adds a key at the end or leaves the keys as they are.
-/

import AppSchema.Json.Number

namespace AppSchema

/-- A value of JSON. -/
inductive Json
  | null
  | bool (value : Bool)
  | number (value : Number)
  | string (value : String)
  | array (elements : List Json)
  | object (members : List (String × Json))
  deriving Inhabited

namespace Json

/-- The members of an object. -/
abbrev Members := List (String × Json)

/-- Gives a key a value, at the place of the key if it has one and at the end otherwise. -/
def insert (key : String) (value : Json) : Members → Members
  | [] => [(key, value)]
  | (other, old) :: rest =>
    if other = key then (key, value) :: rest else (other, old) :: insert key value rest

theorem keys_insert (key : String) (value : Json) (members : Members) :
    (insert key value members).map Prod.fst =
      if key ∈ members.map Prod.fst then members.map Prod.fst
      else members.map Prod.fst ++ [key] := by
  induction members with
  | nil => rfl
  | cons member rest ih =>
      obtain ⟨first, old⟩ := member
      by_cases found : first = key
      · subst found
        simp [insert]
      · have differs : key ≠ first := fun equal => found equal.symm
        simp only [insert, if_neg found, List.map_cons, ih, List.mem_cons, differs, false_or]
        split <;> simp

/-- The member of an object with a key. -/
def get? (key : String) : Json → Option Json
  | .object members => members.lookup key
  | _ => none

/-- The text of a string. -/
def string? : Json → Option String
  | .string value => some value
  | _ => none

/-- The elements of an array. -/
def elements? : Json → Option (List Json)
  | .array elements => some elements
  | _ => none

end Json

end AppSchema
