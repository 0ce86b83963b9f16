import C4.Proofs.References

/-!
# Faults

The first reference in an outline that leads nowhere, entity by entity: it is the first of the
references of the entity that does not resolve. Lookups that the ownership of entities makes safe
never fail.
-/
namespace C4

open Dsl

namespace Dsl

def fault (items : List Item) : Option RenderError := firstStop (eventsOf items)

@[simp] theorem fault_nil : fault [] = none := by
  rw [fault, eventsOf]
  rfl

theorem fault_append (items more : List Item) :
    fault (items ++ more) = (fault items).or (fault more) := by
  rw [fault, eventsOf_append, firstStop_append]
  rfl

theorem fault_cons (item : Item) (rest : List Item) :
    fault (item :: rest) = (fault [item]).or (fault rest) :=
  fault_append [item] rest

theorem compositional_fault : Compositional fun items => fault items = none where
  nil := fault_nil
  append := by
    intro items rest h hrest
    rw [fault_append, h, hrest]
    rfl

theorem fault_flatMap_eq_none {α : Type*} {f : α → List Item} {l : List α}
    (h : ∀ a ∈ l, fault (f a) = none) : fault (l.flatMap f) = none :=
  compositional_fault.flatMap h

theorem fault_map_eq_none {α : Type*} {f : α → Item} {l : List α}
    (h : ∀ a ∈ l, fault [f a] = none) : fault (l.map f) = none :=
  compositional_fault.map h

@[simp] theorem fault_line (subject : Subject) (text : String) :
    fault [.line subject text] = none := by
  rw [fault, eventsOf_eq_flatMap, List.flatMap_singleton, Item.events]
  rfl

@[simp] theorem fault_gap (subject : Subject) : fault [.gap subject] = none := by
  rw [fault, eventsOf_eq_flatMap, List.flatMap_singleton, Item.events]
  rfl

@[simp] theorem fault_note (record : Record) : fault [.note record] = none := by
  rw [fault, eventsOf_eq_flatMap, List.flatMap_singleton, Item.events]
  rfl

@[simp] theorem fault_note_cons (record : Record) (rest : List Item) :
    fault (.note record :: rest) = fault rest := by
  rw [fault_cons, fault_note, Option.none_or]

@[simp] theorem fault_dangling (error : RenderError) : fault [.dangling error] = some error := by
  rw [fault, eventsOf_eq_flatMap, List.flatMap_singleton, Item.events]
  rfl

@[simp] theorem fault_block (subject : Subject) (header : String) (body : List Item) :
    fault [.block subject header body] = fault body := by
  rw [fault, eventsOf_eq_flatMap, List.flatMap_singleton, Item.events, firstStop_braces]
  rfl

@[simp] theorem fault_entity (subject : Subject) (header : String) (body : List Item) :
    fault [.entity subject header body] = fault body := by
  by_cases hbody : body = []
  · subst hbody
    rw [fault, eventsOf_eq_flatMap, List.flatMap_singleton, Item.events, fault_nil]
    rfl
  · rw [fault, eventsOf_eq_flatMap, List.flatMap_singleton, events_entity_of_ne_nil _ _ hbody,
      firstStop_braces]
    rfl

theorem fault_spaced {separator : List Item} (hseparator : fault separator = none)
    (sections : List (List Item)) :
    fault (spaced separator sections) = fault sections.flatten := by
  induction sections with
  | nil => rfl
  | cons items rest ih =>
    rw [List.flatten_cons, fault_append]
    cases items with
    | nil =>
      rw [fault_nil, Option.none_or, ← ih]
      rfl
    | cons item items =>
      unfold spaced
      rw [fault_append, ← ih]
      split
      · next hnil => rw [hnil]
      · rw [fault_append, hseparator, Option.none_or]

def tokenFault {α : Type*} : Except RenderError α → Option RenderError
  | .error e => some e
  | .ok _ => none

theorem fault_withToken {token : Except RenderError String} {draw : String → List Item}
    (h : ∀ t, token = .ok t → fault (draw t) = none) :
    fault (withToken token draw) = tokenFault token := by
  cases token with
  | error e => exact fault_dangling e
  | ok t => exact h t rfl

theorem exists_token_of_fault {token : Except RenderError String} {draw : String → List Item}
    (h : fault (withToken token draw) = none) : ∃ t, token = .ok t ∧ fault (draw t) = none := by
  cases token with
  | error e => cases (fault_dangling e).symm.trans h
  | ok t => exact ⟨t, rfl, h⟩

theorem fault_withToken_of_resolved {token : Except RenderError String}
    {draw : String → List Item} {error : Option RenderError} (ht : tokenFault token = none)
    (h : ∀ t, token = .ok t → fault (draw t) = error) : fault (withToken token draw) = error := by
  cases token with
  | error e => cases ht
  | ok t => exact h t rfl

end Dsl

namespace Model

def missing (m : Model) (references : List Reference) : Option RenderError :=
  (m.unresolved? references).map Reference.error

variable (m : Model)

@[simp] theorem missing_nil : m.missing [] = none := rfl

theorem missing_append (references more : List Reference) :
    m.missing (references ++ more) = (m.missing references).or (m.missing more) := by
  unfold missing unresolved?
  rw [List.find?_append]
  cases references.find? fun r => !m.exists? r <;> rfl

theorem missing_cons (r : Reference) (rest : List Reference) :
    m.missing (r :: rest) = (m.missing [r]).or (m.missing rest) :=
  m.missing_append [r] rest

theorem missing_of_exists {r : Reference} (h : m.exists? r = true) : m.missing [r] = none := by
  simp [missing, unresolved?, h]

theorem missing_of_not_exists {r : Reference} (h : m.exists? r = false) :
    m.missing [r] = some r.error := by
  simp [missing, unresolved?, h]

theorem missing_eq_none_iff {references : List Reference} :
    m.missing references = none ↔ ∀ r ∈ references, m.exists? r = true := by
  simp [missing, unresolved?]

end Model

theorem Dsl.fault_flatMap_eq_missing {m : Model} {α : Type*} {f : α → List Item}
    {g : α → List Reference} {l : List α} (h : ∀ a ∈ l, fault (f a) = m.missing (g a)) :
    fault (l.flatMap f) = m.missing (l.flatMap g) := by
  induction l with
  | nil => exact fault_nil
  | cons a rest ih =>
    rw [List.flatMap_cons, List.flatMap_cons, fault_append, m.missing_append,
      h a List.mem_cons_self, ih fun b hb => h b (List.mem_cons_of_mem _ hb)]

end C4
