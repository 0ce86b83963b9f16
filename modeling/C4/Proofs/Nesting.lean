import C4.Outline.Basic
import Mathlib.Tactic.TypeStar

/-!
# Nesting

The events of an outline are a flat list. Which blocks a directive stands in is found again by
counting the blocks that have been opened and not yet closed. The events of one item close every
block that they open, so what stands around an item is the same for all that follows it.
-/
namespace C4.Dsl

theorem eventsOf_cons (item : Item) (rest : List Item) :
    eventsOf (item :: rest) = item.events ++ eventsOf rest := by
  rw [eventsOf]

theorem eventsOf_eq_flatMap (items : List Item) : eventsOf items = items.flatMap Item.events := by
  induction items with
  | nil => rw [eventsOf, List.flatMap_nil]
  | cons item rest ih => rw [eventsOf_cons, ih, List.flatMap_cons]

theorem eventsOf_append (items more : List Item) :
    eventsOf (items ++ more) = eventsOf items ++ eventsOf more := by
  simp only [eventsOf_eq_flatMap, List.flatMap_append]

theorem events_entity_of_ne_nil (subject : Subject) (header : String) {body : List Item}
    (h : body ≠ []) : (Item.entity subject header body).events =
      .write subject (.opening header) :: (eventsOf body ++ [.write subject .closing]) := by
  cases body with
  | nil => exact absurd rfl h
  | cons first rest => rw [Item.events, eventsOf_cons, List.append_assoc]

def Event.error? : Event → Option RenderError
  | .stop error => some error
  | _ => none

def firstStop (events : List Event) : Option RenderError := events.findSome? Event.error?

def beforeStop (events : List Event) : List Event := events.takeWhile (·.error?.isNone)

@[simp] theorem firstStop_append (events more : List Event) :
    firstStop (events ++ more) = (firstStop events).or (firstStop more) :=
  List.findSome?_append

theorem isNone_of_firstStop {events : List Event} (h : firstStop events = none) :
    ∀ event ∈ events, event.error?.isNone = true := by
  intro event hevent
  rw [List.findSome?_eq_none_iff.1 h event hevent]
  rfl

theorem beforeStop_append_of_none {events : List Event} (h : firstStop events = none)
    (more : List Event) : beforeStop (events ++ more) = events ++ beforeStop more :=
  List.takeWhile_append_of_pos (isNone_of_firstStop h)

theorem beforeStop_of_none {events : List Event} (h : firstStop events = none) :
    beforeStop events = events := by
  simpa [beforeStop] using beforeStop_append_of_none h []

theorem beforeStop_append_of_some {events : List Event} {error : RenderError}
    (h : firstStop events = some error) (more : List Event) :
    beforeStop (events ++ more) = beforeStop events := by
  induction events with
  | nil => cases h
  | cons event rest ih =>
    cases event with
    | write subject directive => exact congrArg (_ :: ·) (ih h)
    | note record => exact congrArg (_ :: ·) (ih h)
    | stop e => rfl

theorem firstStop_braces (subject : Subject) (header : String) (events : List Event) :
    firstStop (.write subject (.opening header) :: (events ++ [.write subject .closing])) =
      firstStop events := by
  have h : firstStop (events ++ [.write subject .closing]) = firstStop events := by
    rw [firstStop_append]
    exact Option.or_none
  exact h

/-- Induction over outlines, in which the bodies of blocks are lists. -/
theorem Item.induction {P : Item → Prop}
    (line : ∀ subject text, P (.line subject text))
    (entity : ∀ subject header body, (∀ item ∈ body, P item) → P (.entity subject header body))
    (block : ∀ subject header body, (∀ item ∈ body, P item) → P (.block subject header body))
    (gap : ∀ subject, P (.gap subject)) (note : ∀ record, P (.note record))
    (dangling : ∀ error, P (.dangling error)) : ∀ item, P item
  | .line subject text => line subject text
  | .entity subject header body => entity subject header body fun item _ =>
    Item.induction line entity block gap note dangling item
  | .block subject header body => block subject header body fun item _ =>
    Item.induction line entity block gap note dangling item
  | .gap subject => gap subject
  | .note record => note record
  | .dangling error => dangling error

/-- The blocks that a directive stands in, the innermost first, each with its subject and its
header. -/
abbrev Surround := List (Subject × String)

/-- A directive in its place. A closing brace stands in the block that it closes. -/
structure Placed where
  around : Surround
  subject : Subject
  directive : Directive

def Directive.surround (around : Surround) (subject : Subject) : Directive → Surround
  | .opening header => (subject, header) :: around
  | .closing => around.tail
  | _ => around

def placedFrom (around : Surround) : List Event → List Placed
  | [] => []
  | .write subject directive :: rest =>
    ⟨around, subject, directive⟩ :: placedFrom (directive.surround around subject) rest
  | .note _ :: rest => placedFrom around rest
  | .stop _ :: rest => placedFrom around rest

def surroundAfter (around : Surround) : List Event → Surround
  | [] => around
  | .write subject directive :: rest => surroundAfter (directive.surround around subject) rest
  | .note _ :: rest => surroundAfter around rest
  | .stop _ :: rest => surroundAfter around rest

theorem surroundAfter_append (around : Surround) (events more : List Event) :
    surroundAfter around (events ++ more) = surroundAfter (surroundAfter around events) more := by
  induction events generalizing around with
  | nil => rfl
  | cons event rest ih =>
    cases event with
    | write subject directive => exact ih _
    | note record => exact ih _
    | stop error => exact ih _

theorem placedFrom_append (around : Surround) (events more : List Event) :
    placedFrom around (events ++ more) =
      placedFrom around events ++ placedFrom (surroundAfter around events) more := by
  induction events generalizing around with
  | nil => rfl
  | cons event rest ih =>
    cases event with
    | write subject directive => exact congrArg (_ :: ·) (ih _)
    | note record => exact ih _
    | stop error => exact ih _

theorem surroundAfter_eventsOf {items : List Item}
    (h : ∀ item ∈ items, ∀ around, surroundAfter around item.events = around)
    (around : Surround) : surroundAfter around (eventsOf items) = around := by
  induction items with
  | nil => rw [eventsOf, surroundAfter]
  | cons item rest ih =>
    rw [eventsOf_cons, surroundAfter_append, h item List.mem_cons_self,
      ih fun item hitem => h item (List.mem_cons_of_mem _ hitem)]

theorem surroundAfter_events (item : Item) (around : Surround) :
    surroundAfter around item.events = around := by
  -- Blocks, with braces in any case, leave what is around them to their body and get it back.
  have braces (subject : Subject) (header : String) (body : List Item)
      (h : ∀ item ∈ body, ∀ around, surroundAfter around item.events = around)
      (around : Surround) : surroundAfter around
        (.write subject (.opening header) :: (eventsOf body ++ [.write subject .closing])) =
          around := by
    rw [surroundAfter, surroundAfter_append, surroundAfter_eventsOf h]
    rfl
  induction item using Item.induction generalizing around with
  | line subject text => rw [Item.events]; rfl
  | entity subject header body ih =>
    by_cases hbody : body = []
    · subst hbody
      rw [Item.events]
      rfl
    · rw [events_entity_of_ne_nil _ _ hbody]
      exact braces subject header body ih around
  | block subject header body ih =>
    rw [Item.events]
    exact braces subject header body ih around
  | gap subject => rw [Item.events]; rfl
  | note record => rw [Item.events]; rfl
  | dangling error => rw [Item.events]; rfl

def Item.placed (around : Surround) (item : Item) : List Placed := placedFrom around item.events

def placedOf (around : Surround) (items : List Item) : List Placed :=
  items.flatMap (Item.placed around)

theorem placedFrom_eventsOf (around : Surround) (items : List Item) :
    placedFrom around (eventsOf items) = placedOf around items := by
  induction items with
  | nil => rw [eventsOf]; rfl
  | cons item rest ih =>
    rw [eventsOf_cons, placedFrom_append, surroundAfter_events, ih]
    rfl

variable (around : Surround)

@[simp] theorem placedOf_nil : placedOf around [] = [] := rfl

@[simp] theorem placedOf_cons (item : Item) (rest : List Item) :
    placedOf around (item :: rest) = item.placed around ++ placedOf around rest := rfl

@[simp] theorem placedOf_append (items more : List Item) :
    placedOf around (items ++ more) = placedOf around items ++ placedOf around more :=
  List.flatMap_append

@[simp] theorem placed_line (subject : Subject) (text : String) :
    (Item.line subject text).placed around = [⟨around, subject, .line text⟩] := by
  rw [Item.placed, Item.events]
  rfl

@[simp] theorem placed_gap (subject : Subject) :
    (Item.gap subject).placed around = [⟨around, subject, .gap⟩] := by
  rw [Item.placed, Item.events]
  rfl

@[simp] theorem placed_note (record : Record) : (Item.note record).placed around = [] := by
  rw [Item.placed, Item.events]
  rfl

@[simp] theorem placed_dangling (error : RenderError) :
    (Item.dangling error).placed around = [] := by
  rw [Item.placed, Item.events]
  rfl

def braced (subject : Subject) (header : String) (body : List Item) : List Placed :=
  ⟨around, subject, .opening header⟩ ::
    (placedOf ((subject, header) :: around) body ++
      [⟨(subject, header) :: around, subject, .closing⟩])

theorem placedFrom_braces (subject : Subject) (header : String) (body : List Item) :
    placedFrom around
      (.write subject (.opening header) :: (eventsOf body ++ [.write subject .closing])) =
        braced around subject header body := by
  rw [placedFrom, placedFrom_append, placedFrom_eventsOf,
    surroundAfter_eventsOf fun item _ => surroundAfter_events item]
  rfl

@[simp] theorem placed_block (subject : Subject) (header : String) (body : List Item) :
    (Item.block subject header body).placed around = braced around subject header body := by
  rw [Item.placed, Item.events, placedFrom_braces]

theorem placed_entity (subject : Subject) (header : String) (body : List Item) :
    (Item.entity subject header body).placed around =
      if body = [] then [⟨around, subject, .line header⟩]
      else braced around subject header body := by
  by_cases hbody : body = []
  · subst hbody
    rw [Item.placed, Item.events, if_pos rfl]
    rfl
  · rw [Item.placed, events_entity_of_ne_nil _ _ hbody, placedFrom_braces, if_neg hbody]

theorem suffix_of_mem_placed (item : Item) (around : Surround) :
    ∀ p ∈ item.placed around, around <:+ p.around := by
  have braces (subject : Subject) (header : String) (body : List Item)
      (h : ∀ item ∈ body, ∀ around, ∀ p ∈ item.placed around, around <:+ p.around)
      (around : Surround) : ∀ p ∈ braced around subject header body, around <:+ p.around := by
    intro p hp
    rcases List.mem_cons.1 hp with rfl | hp
    · exact List.suffix_rfl
    · refine (List.suffix_cons (subject, header) around).trans ?_
      rcases List.mem_append.1 hp with hp | hp
      · obtain ⟨item, hitem, hp⟩ := List.mem_flatMap.1 hp
        exact h item hitem _ p hp
      · obtain rfl := List.mem_singleton.1 hp
        exact List.suffix_rfl
  induction item using Item.induction generalizing around with
  | line | gap => simp
  | note | dangling => simp
  | entity subject header body ih =>
    rw [placed_entity]
    split
    · simp
    · exact braces subject header body ih around
  | block subject header body ih =>
    rw [placed_block]
    exact braces subject header body ih around

theorem suffix_of_mem_placedOf {items : List Item} {around : Surround} {p : Placed}
    (hp : p ∈ placedOf around items) : around <:+ p.around := by
  obtain ⟨item, -, hp⟩ := List.mem_flatMap.1 hp
  exact suffix_of_mem_placed item around p hp

/-- A property that some items have when they are put together from items that have it. -/
structure Compositional (P : List Item → Prop) : Prop where
  nil : P []
  append : ∀ {items rest : List Item}, P items → P rest → P (items ++ rest)

section Compositional

variable {P : List Item → Prop}

theorem Compositional.flatMap (h : Compositional P) {α : Type*} {f : α → List Item} {l : List α}
    (hl : ∀ a ∈ l, P (f a)) : P (l.flatMap f) := by
  induction l with
  | nil => exact h.nil
  | cons a rest ih =>
    rw [List.flatMap_cons]
    exact h.append (hl a List.mem_cons_self) (ih fun b hb => hl b (List.mem_cons_of_mem _ hb))

theorem Compositional.map (h : Compositional P) {α : Type*} {f : α → Item} {l : List α}
    (hl : ∀ a ∈ l, P [f a]) : P (l.map f) := by
  rw [List.map_eq_flatMap]
  exact h.flatMap hl

theorem Compositional.spaced (h : Compositional P) {separator : List Item}
    {sections : List (List Item)} (hseparator : P separator)
    (hsections : ∀ items ∈ sections, P items) : P (spaced separator sections) := by
  induction sections with
  | nil => exact h.nil
  | cons items rest ih =>
    have hrest := ih fun items hitems => hsections items (List.mem_cons_of_mem _ hitems)
    cases items with
    | nil => exact hrest
    | cons item items =>
      unfold Dsl.spaced
      refine h.append (hsections _ List.mem_cons_self) ?_
      split
      · exact h.nil
      · exact h.append hseparator hrest

theorem withToken_of_draw {token : Except RenderError String} {draw : String → List Item}
    (hdangling : ∀ error, P [.dangling error]) (h : ∀ t, token = .ok t → P (draw t)) :
    P (withToken token draw) := by
  cases token with
  | error e => exact hdangling e
  | ok t => exact h t rfl

end Compositional

end C4.Dsl
