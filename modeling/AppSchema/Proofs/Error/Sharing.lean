/-
**Errors that are shared, in context.**

* `Shelf.Coherent`: each part is stored once. Wherever slots hold a part of one identity, it is the
  same fault on top of the same parts. Every operation preserves this (`Coherent.perform`), so it
  holds of every shelf that is ever built (`Built.coherent`). A context that was attached as it is
  while another error held it would break it.
* `Shelf.Attaches`: what decides between the two routes of a context (`wrap_of_attaches`,
  `wrap_of_not_attaches`). From outside it is `Shelf.Alone`: the context has no cause, and no other
  slot holds it (`alone_iff_attaches`).
* `Shelf.InContext`: what an error in a context is, by either route.
* `Shelf.Follows`: an error on its way through a run of operations, with the messages of the
  contexts that it was given. They stay on top of it (`Follows.onTop`), so that its message lists
  them, the last one first, in front of its own (`Handle.Over.message`).
* `Built.context_inFront`: all of this for an error of any shelf that is ever built.
-/

import AppSchema.Error.Shelf
import Mathlib.Data.List.Basic

namespace AppSchema

namespace Handle

variable (handle : Handle) (link : SharedFault)

@[simp] theorem links_push : (handle.push link).links = link :: handle.links := rfl

@[simp] theorem error_push : (handle.push link).error = handle.error.context link.fault := rfl

variable {handle}

theorem holds_iff {id : Nat} :
    handle.holds id = true ↔ ∃ part under, part :: under <:+ handle.links ∧ part.id = id := by
  simp only [holds, List.any_eq_true, beq_iff_eq]
  constructor
  · rintro ⟨part, member, same⟩
    obtain ⟨above, under, split⟩ := List.append_of_mem member
    exact ⟨part, under, ⟨above, split.symm⟩, same⟩
  · rintro ⟨part, under, suffix, same⟩
    exact ⟨part, suffix.subset List.mem_cons_self, same⟩

/-- An error without contexts is its root. -/
theorem error_of_contexts (alone : handle.contexts = []) :
    handle.error = Error.ofFault handle.root.fault := by
  simp [error, Error.ofFault, alone]

theorem outer_of_contexts (alone : handle.contexts = []) : handle.outer = handle.root := by
  simp [outer, alone]

/-- Whether an error is another one below contexts with the given messages, the last one first. -/
structure Over (result error : Handle) (messages : List String) : Prop where
  root : result.root = error.root
  links : ∃ added, result.links = added ++ error.links ∧ added.map (·.fault.message) = messages

theorem Over.refl (error : Handle) : error.Over error [] := ⟨rfl, [], rfl, rfl⟩

/-- The message lists the contexts, the last one first, and the error behind them. -/
theorem Over.message {result error : Handle} {messages : List String}
    (onTop : result.Over error messages) :
    result.error.message =
      String.intercalate ": " (messages ++ error.error.chain.map Fault.message) := by
  have chain (handle : Handle) : handle.error.chain = handle.links.map SharedFault.fault := by
    simp [Handle.error, Error.chain, Handle.links]
  obtain ⟨added, links, rfl⟩ := onTop.links
  simp only [Error.message, chain, links, List.map_append, List.map_map, Function.comp_def]

end Handle

namespace Shelf

variable {shelf before after : Shelf} {slot contextSlot : Nat} {error context : Handle}

/-! ### Slots -/

@[simp] theorem get?_push (handle : Option Handle) :
    (shelf.push handle).get? slot =
      if slot = shelf.slots.length then handle else shelf.get? slot := by
  simp only [get?, push, List.getElem?_append]
  split_ifs with inside added added
  · omega
  · rfl
  · simp [added]
  · rw [List.getElem?_eq_none (by simp; omega), List.getElem?_eq_none (by omega)]

@[simp] theorem get?_clear (taken : Nat) :
    (shelf.clear taken).get? slot = if slot = taken then none else shelf.get? slot := by
  simp only [get?, clear, List.getElem?_set]
  split_ifs <;> first | rfl | omega

@[simp] theorem length_clear (taken : Nat) :
    (shelf.clear taken).slots.length = shelf.slots.length :=
  List.length_set

theorem lt_length_of_get? (found : shelf.get? slot = some error) : slot < shelf.slots.length := by
  by_contra outside
  rw [get?, List.getElem?_eq_none (by omega)] at found
  cases found

/-! ### The parts that are held -/

/-- Whether a row of parts, outermost first, is the lower end of an error in some slot. -/
def Held (shelf : Shelf) (chain : List SharedFault) : Prop :=
  ∃ slot handle, shelf.get? slot = some handle ∧ chain <:+ handle.links

theorem holds_iff_get? {id : Nat} :
    shelf.holds id = true ↔
      ∃ slot handle, shelf.get? slot = some handle ∧ handle.holds id = true := by
  simp only [holds, get?, List.any_eq_true, List.mem_iff_getElem?, Option.any_eq_true,
    Option.join_eq_some_iff]
  constructor
  · rintro ⟨_, ⟨slot, found⟩, handle, rfl, held⟩
    exact ⟨slot, handle, found, held⟩
  · rintro ⟨slot, handle, found, held⟩
    exact ⟨_, ⟨slot, found⟩, handle, rfl, held⟩

theorem holds_iff {id : Nat} :
    shelf.holds id = true ↔ ∃ part under, shelf.Held (part :: under) ∧ part.id = id := by
  simp only [holds_iff_get?, Handle.holds_iff, Held]
  constructor
  · rintro ⟨slot, handle, found, part, under, suffix, same⟩
    exact ⟨part, under, ⟨slot, handle, found, suffix⟩, same⟩
  · rintro ⟨part, under, ⟨slot, handle, found, suffix⟩, same⟩
    exact ⟨slot, handle, found, part, under, suffix, same⟩

theorem Held.of_suffix {chain lower : List SharedFault} (held : shelf.Held chain)
    (suffix : lower <:+ chain) : shelf.Held lower := by
  obtain ⟨slot, handle, found, within⟩ := held
  exact ⟨slot, handle, found, suffix.trans within⟩

theorem held_links (found : shelf.get? slot = some error) : shelf.Held error.links :=
  ⟨slot, error, found, List.suffix_rfl⟩

theorem Held.of_clear {chain : List SharedFault} {taken : Nat}
    (held : (shelf.clear taken).Held chain) : shelf.Held chain := by
  obtain ⟨slot, handle, found, suffix⟩ := held
  rw [get?_clear] at found
  split_ifs at found
  exact ⟨slot, handle, found, suffix⟩

theorem Held.of_push {chain : List SharedFault} {handle : Option Handle}
    (held : (shelf.push handle).Held chain) :
    (∃ added, handle = some added ∧ chain <:+ added.links) ∨ shelf.Held chain := by
  obtain ⟨slot, found, get, suffix⟩ := held
  rw [get?_push] at get
  split_ifs at get
  · exact .inl ⟨found, get, suffix⟩
  · exact .inr ⟨slot, found, get, suffix⟩

/-! ### A part is stored once -/

/-- Each part that is held has an identity that is taken, and parts of one identity are one part,
with the same parts below it. Slots hold their parts by value, so this is what makes it true that
errors which share a part share all that is below it, and that nobody sees a part being attached. -/
structure Coherent (shelf : Shelf) : Prop where
  lt_next {part : SharedFault} {under : List SharedFault} :
    shelf.Held (part :: under) → part.id < shelf.next
  eq_of_id {part other : SharedFault} {under otherUnder : List SharedFault} :
    shelf.Held (part :: under) → shelf.Held (other :: otherUnder) → part.id = other.id →
      part :: under = other :: otherUnder

/-- Nothing new is held. -/
theorem Coherent.mono (coherent : before.Coherent) (next : before.next ≤ after.next)
    (held : ∀ part under, after.Held (part :: under) → before.Held (part :: under)) :
    after.Coherent where
  lt_next here := Nat.lt_of_lt_of_le (coherent.lt_next (held _ _ here)) next
  eq_of_id here there := coherent.eq_of_id (held _ _ here) (held _ _ there)

/-- One new part is held, or a part that was alone is put on top of others. -/
theorem Coherent.extend (coherent : before.Coherent) (next : before.next ≤ after.next)
    (link : SharedFault) (below : List SharedFault) (taken : link.id < after.next)
    (held : ∀ part under, after.Held (part :: under) →
      part :: under = link :: below ∨ before.Held (part :: under) ∧ part.id ≠ link.id) :
    after.Coherent where
  lt_next here := by
    obtain same | ⟨old, -⟩ := held _ _ here
    · rw [List.cons.injEq] at same
      rwa [same.1]
    · exact Nat.lt_of_lt_of_le (coherent.lt_next old) next
  eq_of_id {part other under otherUnder} here there same := by
    obtain new | ⟨old, differs⟩ := held _ _ here <;>
      obtain newer | ⟨older, differ⟩ := held _ _ there
    · rw [new, newer]
    · rw [List.cons.injEq] at new
      exact absurd (by rw [← same, new.1]) differ
    · rw [List.cons.injEq] at newer
      exact absurd (by rw [same, newer.1]) differs
    · exact coherent.eq_of_id old older same

theorem coherent_empty : ({} : Shelf).Coherent := by
  have unheld {chain : List SharedFault} : ¬ ({} : Shelf).Held chain := by
    rintro ⟨slot, handle, found, -⟩
    cases found
  exact ⟨fun held => absurd held unheld, fun held => absurd held unheld⟩

/-! ### The two routes of a context -/

/-- Whether a context is attached as it is: nothing is below it, and its part is held neither by a
slot nor by the error. -/
def Attaches (shelf : Shelf) (error context : Handle) : Prop :=
  context.contexts = [] ∧
    shelf.holds context.root.id = false ∧ error.holds context.root.id = false

theorem wrap_of_attaches (attached : shelf.Attaches error context) :
    shelf.wrap error context = shelf.push (some (error.push context.root)) := by
  obtain ⟨alone, unheld, unshared⟩ := attached
  simp only [wrap, Handle.outer_of_contexts alone, unheld, unshared, alone, List.isEmpty_nil,
    Bool.or_false, Bool.not_false, Bool.and_true, if_true]

theorem wrap_of_not_attaches (flattened : ¬ shelf.Attaches error context) :
    shelf.wrap error context =
      { shelf with next := shelf.next + 1 }.push
        (some (error.push ⟨shelf.next, .adHoc context.error.message⟩)) := by
  rw [wrap]
  refine if_neg fun attached => flattened ?_
  simp only [Bool.and_eq_true, List.isEmpty_iff, Bool.not_eq_true', Bool.or_eq_false_iff]
    at attached
  rwa [Handle.outer_of_contexts attached.1] at attached

theorem message_of_attaches (attached : shelf.Attaches error context) :
    context.root.fault.message = context.error.message := by
  rw [Handle.error_of_contexts attached.1, Error.message_ofFault]

/-- By either route, a part with the message of the context is put on top of the error. -/
theorem wrap_eq (shelf : Shelf) (error context : Handle) :
    ∃ next link, link.fault.message = context.error.message ∧
      shelf.wrap error context =
        ({ shelf with next := next } : Shelf).push (some (error.push link)) := by
  by_cases attached : shelf.Attaches error context
  · exact ⟨shelf.next, _, message_of_attaches attached, wrap_of_attaches attached⟩
  · exact ⟨shelf.next + 1, _, rfl, wrap_of_not_attaches attached⟩

theorem Coherent.wrap (coherent : before.Coherent) (next : before.next ≤ shelf.next)
    (held : ∀ part under, shelf.Held (part :: under) → before.Held (part :: under))
    (errorHeld : before.Held error.links)
    (taken : context.root.id < shelf.next) : (shelf.wrap error context).Coherent := by
  have pushed {rest : Shelf} {link part : SharedFault} {under : List SharedFault}
      (slots : rest.slots = shelf.slots)
      (here : (rest.push (some (error.push link))).Held (part :: under)) :
      part :: under = link :: error.links ∨ part :: under <:+ error.links ∨
        shelf.Held (part :: under) := by
    obtain ⟨added, same, suffix⟩ | old := here.of_push
    · cases same
      rw [Handle.links_push, List.suffix_cons_iff] at suffix
      exact suffix.imp_right .inl
    · exact .inr (.inr (by simpa only [Held, get?, slots] using old))
  by_cases attached : shelf.Attaches error context
  · rw [wrap_of_attaches attached]
    obtain ⟨-, unheld, unshared⟩ := attached
    refine coherent.extend next context.root error.links taken fun part under here => ?_
    obtain new | inner | old := pushed rfl here
    · exact .inl new
    · refine .inr ⟨errorHeld.of_suffix inner, fun same => ?_⟩
      rw [Handle.holds_iff.mpr ⟨part, under, inner, same⟩] at unshared
      cases unshared
    · refine .inr ⟨held _ _ old, fun same => ?_⟩
      rw [holds_iff.mpr ⟨part, under, old, same⟩] at unheld
      cases unheld
  · rw [wrap_of_not_attaches attached]
    refine coherent.extend (Nat.le_succ_of_le next) ⟨shelf.next, .adHoc context.error.message⟩
      error.links (Nat.lt_succ_self shelf.next) fun part under here => ?_
    obtain new | old : part :: under = _ ∨ before.Held (part :: under) :=
      (pushed rfl here).imp_right (Or.elim · errorHeld.of_suffix (held _ _))
    · exact .inl new
    · exact .inr ⟨old, Nat.ne_of_lt (Nat.lt_of_lt_of_le (coherent.lt_next old) next)⟩

/-! ### Operations -/

/-- What can be done to the errors on a shelf. -/
inductive Operation
  | make (fault : Fault)
  | copy (slot : Nat)
  | root (slot : Nat)
  | drop (slot : Nat)
  | contextText (slot : Nat) (text : String)
  | contextSlot (slot contextSlot : Nat)

/-- Performs an operation. -/
def perform (shelf : Shelf) : Operation → Shelf
  | .make fault => shelf.make fault
  | .copy slot => shelf.copy slot
  | .root slot => shelf.root slot
  | .drop slot => shelf.drop slot
  | .contextText slot text => shelf.contextText slot text
  | .contextSlot slot contextSlot => shelf.contextSlot slot contextSlot

/-- Whether an operation takes what is in a slot. -/
def Operation.Takes : Operation → Nat → Prop
  | .make _, _ | .copy _, _ | .root _, _ => False
  | .drop slot, place | .contextText slot _, place => place = slot
  | .contextSlot slot contextSlot, place => place = slot ∨ place = contextSlot

/-- Every shelf that is ever built: the empty one, and what an operation makes of one. -/
inductive Built : Shelf → Prop
  | empty : Built {}
  | perform {shelf : Shelf} (operation : Operation) :
    Built shelf → Built (shelf.perform operation)

theorem contextText_of_get? (found : shelf.get? slot = some error) (text : String) :
    shelf.contextText slot text =
      Shelf.wrap ⟨shelf.next + 1, (shelf.clear slot).slots⟩ error
        { root := ⟨shelf.next, .adHoc text⟩ } := by
  simp only [contextText, found]

theorem contextSlot_of_get? (found : shelf.get? slot = some error) (differ : contextSlot ≠ slot)
    (contextFound : shelf.get? contextSlot = some context) :
    shelf.contextSlot slot contextSlot =
      ((shelf.clear slot).clear contextSlot).wrap error context := by
  simp only [Shelf.contextSlot, found, get?_clear, differ, if_false, contextFound]

/-- Everything that a context from a slot can do. -/
theorem contextSlot_cases (shelf : Shelf) (slot contextSlot : Nat) :
    (∃ error context, shelf.get? slot = some error ∧ contextSlot ≠ slot ∧
      shelf.get? contextSlot = some context) ∨
    shelf.contextSlot slot contextSlot = shelf.push none ∨
    shelf.contextSlot slot contextSlot = (shelf.clear slot).push none := by
  cases found : shelf.get? slot with
  | none => exact .inr (.inl (by simp only [Shelf.contextSlot, found]))
  | some error =>
    by_cases same : contextSlot = slot
    · exact .inr (.inr (by simp only [Shelf.contextSlot, found, get?_clear, same, if_true]))
    cases contextFound : shelf.get? contextSlot with
    | none =>
      exact .inr (.inr (by
        simp only [Shelf.contextSlot, found, get?_clear, same, if_false, contextFound]))
    | some context => exact .inl ⟨error, context, rfl, same, rfl⟩

theorem Coherent.clear (coherent : shelf.Coherent) (taken : Nat) : (shelf.clear taken).Coherent :=
  coherent.mono (Nat.le_refl _) fun _ _ held => held.of_clear

/-- The parts of an error that is added are held already. -/
theorem Coherent.push (coherent : shelf.Coherent) {handle : Option Handle}
    (held : ∀ added, handle = some added → shelf.Held added.links) :
    (shelf.push handle).Coherent := by
  refine coherent.mono (Nat.le_refl _) fun part under here => ?_
  obtain ⟨added, same, suffix⟩ | old := here.of_push
  · exact (held added same).of_suffix suffix
  · exact old

theorem Coherent.push_none (coherent : shelf.Coherent) : (shelf.push none).Coherent :=
  coherent.push nofun

/-- An operation keeps each part stored once. -/
theorem Coherent.perform (coherent : shelf.Coherent) (operation : Operation) :
    (shelf.perform operation).Coherent := by
  cases operation with
  | make fault =>
    refine coherent.extend (Nat.le_succ _) ⟨shelf.next, fault⟩ [] (Nat.lt_succ_self shelf.next)
      fun part under here => ?_
    obtain ⟨added, same, suffix⟩ | old := Held.of_push here
    · cases same
      rw [Handle.links, List.nil_append, List.suffix_cons_iff] at suffix
      exact .inl (suffix.resolve_right (by simp))
    · exact .inr ⟨old, Nat.ne_of_lt (coherent.lt_next old)⟩
  | copy slot => exact coherent.push fun added found => held_links found
  | root slot =>
    refine coherent.push fun added found => ?_
    obtain ⟨handle, stored, rfl⟩ := Option.map_eq_some_iff.mp found
    exact (held_links stored).of_suffix (List.suffix_append _ _)
  | drop slot => exact (coherent.clear slot).push_none
  | contextText slot text =>
    cases found : shelf.get? slot with
    | none => simpa only [Shelf.perform, contextText, found] using coherent.push_none
    | some error =>
      rw [Shelf.perform, contextText_of_get? found]
      exact coherent.wrap (Nat.le_succ _) (fun _ _ held => Held.of_clear held)
        (held_links found) (Nat.lt_succ_self shelf.next)
  | contextSlot slot contextSlot =>
    obtain ⟨error, context, found, differ, contextFound⟩ | result | result :=
      shelf.contextSlot_cases slot contextSlot
    · rw [Shelf.perform, contextSlot_of_get? found differ contextFound]
      exact coherent.wrap (Nat.le_refl _) (fun _ _ held => held.of_clear.of_clear)
        (held_links found)
        (coherent.lt_next ((held_links contextFound).of_suffix (List.suffix_append _ _)))
    · rw [Shelf.perform, result]
      exact coherent.push_none
    · rw [Shelf.perform, result]
      exact (coherent.clear slot).push_none

theorem Built.coherent (built : shelf.Built) : shelf.Coherent := by
  induction built with
  | empty => exact coherent_empty
  | perform operation _ ih => exact ih.perform operation

/-! ### An error in a context -/

/-- What an operation does not take stays as it is. -/
theorem get?_perform {operation : Operation} {place : Nat} {handle : Handle}
    (free : ¬ operation.Takes place) (found : shelf.get? place = some handle) :
    (shelf.perform operation).get? place = some handle := by
  have pushed {rest : Shelf} {added : Option Handle}
      (kept : rest.get? place = some handle) (length : rest.slots.length = shelf.slots.length) :
      (rest.push added).get? place = some handle := by
    rw [get?_push, if_neg (by rw [length]; exact Nat.ne_of_lt (lt_length_of_get? found)), kept]
  have wrapped {rest : Shelf} {error context : Handle}
      (kept : rest.get? place = some handle) (length : rest.slots.length = shelf.slots.length) :
      (rest.wrap error context).get? place = some handle := by
    obtain ⟨next, link, -, result⟩ := rest.wrap_eq error context
    rw [result]
    exact pushed kept length
  cases operation with
  | make _ | copy _ | root _ => exact pushed found rfl
  | drop slot =>
    have differ : place ≠ slot := free
    exact pushed (by rw [get?_clear, if_neg differ, found]) (length_clear _)
  | contextText slot text =>
    have differ : place ≠ slot := free
    have kept : (shelf.clear slot).get? place = some handle := by
      rw [get?_clear, if_neg differ, found]
    cases taken : shelf.get? slot with
    | none => simpa only [perform, contextText, taken] using pushed found rfl
    | some error =>
      rw [perform, contextText_of_get? taken]
      exact wrapped kept (length_clear _)
  | contextSlot slot contextSlot =>
    obtain ⟨differ, differs⟩ := not_or.mp free
    have kept : (shelf.clear slot).get? place = some handle := by
      rw [get?_clear, if_neg differ, found]
    obtain ⟨error, context, taken, apart, contextFound⟩ | result | result :=
      shelf.contextSlot_cases slot contextSlot
    · rw [perform, contextSlot_of_get? taken apart contextFound]
      exact wrapped (by rw [get?_clear, if_neg differs, kept]) (by simp)
    · rw [perform, result]
      exact pushed found rfl
    · rw [perform, result]
      exact pushed kept (length_clear _)

/-- Whether an error has no cause and is held by no slot but its own. -/
structure Alone (shelf : Shelf) (slot : Nat) (handle : Handle) : Prop where
  contexts : handle.contexts = []
  unshared : ∀ other error, other ≠ slot → shelf.get? other = some error →
    error.holds handle.root.id = false

theorem alone_iff_attaches (differ : contextSlot ≠ slot) (found : shelf.get? slot = some error) :
    shelf.Alone contextSlot context ↔
      ((shelf.clear slot).clear contextSlot).Attaches error context := by
  constructor
  · rintro ⟨contexts, unshared⟩
    refine ⟨contexts, ?_, unshared _ _ differ.symm found⟩
    rw [Bool.eq_false_iff, ne_eq, holds_iff_get?]
    rintro ⟨other, handle, stored, held⟩
    simp only [get?_clear] at stored
    split_ifs at stored with taken
    rw [unshared other handle taken stored] at held
    cases held
  · rintro ⟨contexts, unheld, unshared⟩
    refine ⟨contexts, fun other handle apart stored => ?_⟩
    by_cases same : other = slot
    · rw [same, found, Option.some.injEq] at stored
      rwa [← stored]
    · rw [Bool.eq_false_iff, ne_eq, holds_iff_get?] at unheld
      rw [Bool.eq_false_iff]
      exact fun held => unheld ⟨other, handle, by simpa [apart, same] using stored, held⟩

/-- An error in a context with a message: the message in front, the parts of the error below a part
of the context, and every slot that nothing is taken from as it was. -/
structure InContext (shelf : Shelf) (operation : Operation) (error : Handle) (text : String)
    (result : Handle) : Prop where
  found : (shelf.perform operation).get? shelf.slots.length = some result
  message : result.error.message = text ++ ": " ++ error.error.message
  links : result.links = result.outer :: error.links
  outer : result.outer.fault.message = text
  root : result.root = error.root
  others : ∀ other handle, ¬ operation.Takes other → shelf.get? other = some handle →
    (shelf.perform operation).get? other = some handle
  coherent : (shelf.perform operation).Coherent

theorem Coherent.inContext (coherent : shelf.Coherent) {operation : Operation} {rest : Shelf}
    {link : SharedFault} {message : String}
    (performed : shelf.perform operation = rest.push (some (error.push link)))
    (length : rest.slots.length = shelf.slots.length) (same : link.fault.message = message) :
    shelf.InContext operation error message (error.push link) where
  found := by rw [performed, get?_push, if_pos length.symm]
  message := by rw [Handle.error_push, Error.message_context, same]
  links := rfl
  outer := same
  root := rfl
  others _ _ := get?_perform
  coherent := coherent.perform operation

theorem Coherent.inContext_slot (coherent : shelf.Coherent) (found : shelf.get? slot = some error)
    (differ : contextSlot ≠ slot) (contextFound : shelf.get? contextSlot = some context) :
    ∃ result, shelf.InContext (.contextSlot slot contextSlot) error context.error.message result ∧
      (shelf.Alone contextSlot context → result.outer = context.outer) ∧
      (¬ shelf.Alone contextSlot context →
        result.outer = ⟨shelf.next, .adHoc context.error.message⟩) := by
  have performed : shelf.perform (.contextSlot slot contextSlot) = _ :=
    contextSlot_of_get? found differ contextFound
  rw [alone_iff_attaches differ found]
  by_cases attached : ((shelf.clear slot).clear contextSlot).Attaches error context
  · rw [wrap_of_attaches attached] at performed
    exact ⟨_, coherent.inContext performed (by simp) (message_of_attaches attached),
      fun _ => (Handle.outer_of_contexts attached.1).symm,
      fun flattened => absurd attached flattened⟩
  · rw [wrap_of_not_attaches attached] at performed
    exact ⟨_, coherent.inContext performed (by simp) rfl, fun alone => absurd alone attached,
      fun _ => rfl⟩

theorem Coherent.inContext_text (coherent : shelf.Coherent) (found : shelf.get? slot = some error)
    (text : String) :
    shelf.InContext (.contextText slot text) error text
      (error.push ⟨shelf.next, .adHoc text⟩) := by
  have fresh {part : SharedFault} {under : List SharedFault} (held : shelf.Held (part :: under)) :
      part.id ≠ shelf.next :=
    Nat.ne_of_lt (coherent.lt_next held)
  have attached : Shelf.Attaches ⟨shelf.next + 1, (shelf.clear slot).slots⟩ error
      { root := ⟨shelf.next, .adHoc text⟩ } := by
    refine ⟨rfl, ?_, ?_⟩ <;> rw [Bool.eq_false_iff, ne_eq]
    · rw [holds_iff]
      rintro ⟨part, under, held, same⟩
      exact fresh (Held.of_clear held) same
    · rw [Handle.holds_iff]
      rintro ⟨part, under, suffix, same⟩
      exact fresh ((held_links found).of_suffix suffix) same
  have performed : shelf.perform (.contextText slot text) = _ := contextText_of_get? found text
  rw [wrap_of_attaches attached] at performed
  exact coherent.inContext performed (length_clear slot) rfl

/-! ### Contexts one after the other -/

/-- An error on its way: from a slot of one shelf, through operations that leave it in its place or
put it in a context, to a slot of a later one, with the messages of the contexts, the last one
first. -/
inductive Follows (shelf : Shelf) (slot : Nat) : Shelf → Nat → List String → Prop
  | start : Follows shelf slot shelf slot []
  | other {later : Shelf} {place : Nat} {messages : List String} (operation : Operation) :
    Follows shelf slot later place messages → ¬ operation.Takes place →
    Follows shelf slot (later.perform operation) place messages
  | text {later : Shelf} {place : Nat} {messages : List String} (text : String) :
    Follows shelf slot later place messages →
    Follows shelf slot (later.perform (.contextText place text)) later.slots.length
      (text :: messages)
  | slot {later : Shelf} {place : Nat} {messages : List String} (contextSlot : Nat)
      (context : Handle) :
    Follows shelf slot later place messages → contextSlot ≠ place →
    later.get? contextSlot = some context →
    Follows shelf slot (later.perform (.contextSlot place contextSlot)) later.slots.length
      (context.error.message :: messages)

theorem InContext.onTop {operation : Operation} {message : String} {messages : List String}
    {result wrapped : Handle} (inContext : shelf.InContext operation result message wrapped)
    (onTop : result.Over error messages) : wrapped.Over error (message :: messages) := by
  obtain ⟨added, links, rfl⟩ := onTop.links
  refine ⟨inContext.root.trans onTop.root, wrapped.outer :: added, ?_, ?_⟩
  · rw [inContext.links, links, List.cons_append]
  · rw [List.map_cons, inContext.outer]

theorem Follows.onTop {later : Shelf} {place : Nat} {messages : List String}
    (follows : shelf.Follows slot later place messages) (coherent : shelf.Coherent)
    (found : shelf.get? slot = some error) :
    later.Coherent ∧ ∃ result, later.get? place = some result ∧ result.Over error messages := by
  induction follows with
  | start => exact ⟨coherent, error, found, .refl error⟩
  | other operation _ free ih =>
    obtain ⟨whole, result, stored, onTop⟩ := ih
    exact ⟨whole.perform operation, result, get?_perform free stored, onTop⟩
  | text text _ ih =>
    obtain ⟨whole, result, stored, onTop⟩ := ih
    have inContext := whole.inContext_text stored text
    exact ⟨inContext.coherent, _, inContext.found, inContext.onTop onTop⟩
  | slot contextSlot context _ differ contextFound ih =>
    obtain ⟨whole, result, stored, onTop⟩ := ih
    obtain ⟨wrapped, inContext, -⟩ := whole.inContext_slot stored differ contextFound
    exact ⟨inContext.coherent, wrapped, inContext.found, inContext.onTop onTop⟩

/-- **An error in a context.** On every shelf that is ever built, an error that is given a context
has the message of the context in front of its own, its own parts below, and its root. What is on
top is the context itself when it has no cause and nothing else holds it, and a new part with its
message otherwise; no other slot changes. Hence after any run of operations the message lists the
contexts that the error was given, the last one first, and ends with that of the error. -/
theorem Built.context_inFront (built : shelf.Built) (found : shelf.get? slot = some error) :
    (∀ contextSlot context, contextSlot ≠ slot → shelf.get? contextSlot = some context →
      ∃ result,
        shelf.InContext (.contextSlot slot contextSlot) error context.error.message result ∧
        (shelf.Alone contextSlot context → result.outer = context.outer) ∧
        (¬ shelf.Alone contextSlot context →
          result.outer = ⟨shelf.next, .adHoc context.error.message⟩)) ∧
    (∀ text, ∃ result, shelf.InContext (.contextText slot text) error text result ∧
      result.outer = ⟨shelf.next, .adHoc text⟩) ∧
    ∀ later place messages, shelf.Follows slot later place messages →
      ∃ result, later.get? place = some result ∧ result.root = error.root ∧
        result.error.message =
          String.intercalate ": " (messages ++ error.error.chain.map Fault.message) := by
  have coherent := built.coherent
  refine ⟨fun _ _ => coherent.inContext_slot found,
    fun text => ⟨_, coherent.inContext_text found text, rfl⟩,
    fun later place messages follows => ?_⟩
  obtain ⟨-, result, stored, onTop⟩ := follows.onTop coherent found
  exact ⟨result, stored, onTop.root, onTop.message⟩

/-- A formula that is wrong, a context for it, and a copy of the context. -/
def copiedContext : Shelf :=
  ((Shelf.perform {}
    (.make (.malformedFormula "field_9" (some 4) (.described "missing `)`")))).perform
      (.make (.adHoc "while resolving"))).perform (.copy 1)

/-- The context is flattened, as it has a copy; the copy stays as it is, and is attached as it is
when it is given as a context later. -/
theorem Built.context_inFront_copied :
    copiedContext.Built ∧ (∃ error, copiedContext.get? 0 = some error) ∧
      (∃ result, (copiedContext.contextSlot 0 1).get? 3 = some result ∧
        result.error.message =
          "while resolving: malformed formula in field `field_9` at offset 4: missing `)`" ∧
        result.outer = ⟨2, .adHoc "while resolving"⟩ ∧
        ((copiedContext.contextSlot 0 1).get? 2).map (·.error.message) =
          some "while resolving") ∧
      ∃ result,
        (((copiedContext.contextSlot 0 1).contextText 3 "object").contextSlot 4 2).get? 5 =
          some result ∧
        result.error.message = "while resolving: object: while resolving: " ++
          "malformed formula in field `field_9` at offset 4: missing `)`" := by
  have built : copiedContext.Built := .perform _ (.perform _ (.perform _ .empty))
  have found : copiedContext.get? 0 = some ⟨[], ⟨0, .malformedFormula "field_9" (some 4)
    (.described "missing `)`")⟩⟩ := rfl
  have copied : ¬ copiedContext.Alone 1 ⟨[], ⟨1, .adHoc "while resolving"⟩⟩ := fun alone =>
    absurd (alone.unshared 2 _ (by decide) rfl) (by decide)
  obtain ⟨single, -, run⟩ := built.context_inFront found
  refine ⟨built, ⟨_, found⟩, ?_, ?_⟩
  · obtain ⟨result, inContext, -, flattened⟩ := single 1 _ (by decide) rfl
    refine ⟨result, inContext.found, inContext.message.trans (by rfl), flattened copied, ?_⟩
    have kept : (copiedContext.contextSlot 0 1).get? 2 = _ :=
      inContext.others 2 _ (by simp [Operation.Takes]) rfl
    rw [kept]
    rfl
  · have here : copiedContext.Follows 0 copiedContext 0 [] := .start
    have flattened := here.slot 1 _ (by decide) rfl
    obtain ⟨result, stored, -, message⟩ :=
      run _ _ _ ((flattened.text "object").slot 2 _ (by decide) rfl)
    exact ⟨result, stored, message.trans (by rfl)⟩

end Shelf
end AppSchema
