import C4.Proofs.Contents
import C4.Proofs.Parallel
import Mathlib.Data.Int.Notation
import Mathlib.Data.Nat.Notation

/-!
# Stored texts

The texts that a workspace stores and a document shows, entity by entity as the table of contents
has them. Every other character of a document comes from the layout, from a keyword, a number or a
token. A text can be written in quotes, as the key of a property or joined with others; in none of
these ways is a line feed in it added, lost or changed into something else.
-/
namespace C4

open Dsl

namespace Dsl

def breaks (text : String) : ℕ := text.toList.count '\n'

def breaksIn (texts : List String) : ℕ := (texts.flatMap String.toList).count '\n'

end Dsl

def Properties.texts (p : Properties) : List String := p.entries.flatMap fun e => [e.1, e.2]

def HealthCheck.texts (check : HealthCheck) : List String :=
  check.name :: check.url :: check.properties.texts

def Enterprise.texts (e : Enterprise) : List String := e.name :: e.properties.texts

namespace Model

variable (m : Model)

/-- An instance has no name of its own. -/
def elementTexts : ElementId → List String
  | .person id => (m.person? id).elim [] fun p => p.name :: (p.description.toList ++ p.tags.items)
  | .softwareSystem id =>
    (m.softwareSystem? id).elim [] fun s => s.name :: (s.description.toList ++ s.tags.items)
  | .container id => (m.container? id).elim [] fun c =>
    c.name :: (c.description.toList ++ c.technology.toList ++ c.tags.items)
  | .component id => (m.component? id).elim [] fun c =>
    c.name :: (c.description.toList ++ c.technology.toList ++ c.tags.items)
  | .deploymentNode id => (m.deploymentNode? id).elim [] fun n =>
    n.name :: (n.description.toList ++ n.technology.toList ++ n.tags.items ++ n.properties.texts)
  | .infrastructureNode id => (m.infrastructureNode? id).elim [] fun n =>
    n.name :: (n.description.toList ++ n.technology.toList ++ n.tags.items ++ n.properties.texts)
  | .containerInstance id => (m.containerInstance? id).elim [] fun i =>
    i.tags.items ++ i.properties.texts ++ i.healthChecks.flatMap HealthCheck.texts

def relationshipTexts (id : RelationshipId) : List String :=
  (m.relationship? id).elim [] fun r => r.description.toList ++ r.technology.toList

end Model

def ViewHeader.texts (header : ViewHeader) : List String :=
  header.key.toList ++ header.description.toList

def DynamicStep.texts (step : DynamicStep) : List String :=
  step.description.toList ++ step.technology.toList

/-- A filtered view also shows the key of the view that it is based on. -/
def Views.texts (vs : Views) (id : ViewId) : List String :=
  ((vs.header? id).elim [] ViewHeader.texts) ++
    match id with
    | .dynamic index => (vs.dynamic[index]?).elim [] fun v =>
      v.segments.flatMap fun segment => segment.steps.flatMap DynamicStep.texts
    | .deployment index => (vs.deployment[index]?).elim [] fun v => [v.environment.name]
    | .filtered index => (vs.filtered[index]?).elim [] fun v =>
      (vs.keyOf? v.base).toList ++ v.title.toList ++ v.filters.map (·.value)
    | _ => []

def ElementStyle.Attribute.texts : ElementStyle.Attribute → List String
  | .icon text | .background text | .color text | .stroke text | .fontFamily text
  | .fontStyle text => [text]
  | .icons texts => texts
  | _ => []

def RelationshipStyle.Attribute.texts : RelationshipStyle.Attribute → List String
  | .color text | .fontColor text | .fontFamily text | .fontStyle text => [text]
  | _ => []

def Styles.texts (s : Styles) : List String :=
  s.elements.flatMap (fun style => style.tag :: style.attributes.flatMap (·.texts)) ++
    s.relationships.flatMap fun style => style.tag :: style.attributes.flatMap (·.texts)

namespace Workspace

/-- A workspace that extends another one shows neither its name nor its description. -/
def headerTexts (w : Workspace) : List String :=
  match w.base with
  | some path => [path]
  | none => w.name.toList ++ w.description.toList

/-- The texts of an entity itself, those of its health checks and styles included. -/
def textsOf (w : Workspace) : Subject → List String
  | .workspace _ => w.headerTexts
  | .model => w.model.properties.texts
  | .enterprise _ => w.model.enterprise.elim [] Enterprise.texts
  | .environment name => [name]
  | .element id _ => w.model.elementTexts id
  | .relationship id _ => w.model.relationshipTexts id
  | .view id _ => w.views.texts id
  | .styles => w.views.styles.texts
  | .views | .healthCheck _ | .elementStyle _ | .relationshipStyle _ => []

def textsIn (w : Workspace) (entries : List Entry) : List String :=
  entries.flatMap fun entry => w.textsOf entry.subject

def texts (w : Workspace) : List String := w.textsIn w.contents

variable (w : Workspace)

@[simp] theorem textsIn_nil : w.textsIn [] = [] := rfl

@[simp] theorem textsIn_cons (entry : Entry) (entries : List Entry) :
    w.textsIn (entry :: entries) = w.textsOf entry.subject ++ w.textsIn entries :=
  List.flatMap_cons

@[simp] theorem textsIn_append (entries more : List Entry) :
    w.textsIn (entries ++ more) = w.textsIn entries ++ w.textsIn more :=
  List.flatMap_append

@[simp] theorem textsIn_flatMap {α : Type*} (e : α → List Entry) (l : List α) :
    w.textsIn (l.flatMap e) = l.flatMap fun a => w.textsIn (e a) :=
  List.flatMap_assoc

end Workspace

namespace Dsl

@[simp] theorem breaks_append (text more : String) :
    breaks (text ++ more) = breaks text + breaks more := by
  simp [breaks]

@[simp] theorem breaks_of_not_mem {text : String} (h : '\n' ∉ text.toList) : breaks text = 0 :=
  List.count_eq_zero.2 h

@[simp] theorem breaksIn_nil : breaksIn [] = 0 := rfl

@[simp] theorem breaksIn_cons (text : String) (texts : List String) :
    breaksIn (text :: texts) = breaks text + breaksIn texts := by
  simp [breaksIn, breaks]

@[simp] theorem breaksIn_append (texts more : List String) :
    breaksIn (texts ++ more) = breaksIn texts + breaksIn more := by
  simp [breaksIn]

theorem breaksIn_eq_zero_iff {texts : List String} :
    breaksIn texts = 0 ↔ ∀ text ∈ texts, '\n' ∉ text.toList := by
  simp only [breaksIn, List.count_eq_zero, List.mem_flatMap, not_exists, not_and]

theorem count_escape (text : List Char) : (escape text).count '\n' = text.count '\n' := by
  induction text with
  | nil => rfl
  | cons c rest ih =>
    unfold escape
    split
    · next hc => simp [hc, ih]
    · simp [List.count_cons, ih]

@[simp] theorem breaks_quote (text : String) : breaks (quote text) = breaks text := by
  simp [breaks, quote, count_escape]

theorem breaksIn_positional (args : List (Option String)) :
    breaksIn (positional args) = breaksIn (args.flatMap Option.toList) := by
  induction args with
  | nil => rfl
  | cons argument rest ih =>
    rw [List.flatMap_cons, breaksIn_append, ← ih]
    cases argument with
    | some text =>
      have hwritten : positional (some text :: rest) = text :: positional rest := by
        simp [positional]
      simp [hwritten]
    | none =>
      cases hrest : positional rest <;> simp [positional, hrest]

@[simp] theorem breaks_arguments (args : List (Option String)) :
    breaks (arguments args) = breaksIn (args.flatMap Option.toList) := by
  have hjoin (texts : List String) :
      breaks (String.join (texts.map fun text => " " ++ quote text)) = breaksIn texts := by
    induction texts with
    | nil => rfl
    | cons text texts ih => simp [String.join_cons, ih]
  rw [arguments, hjoin, breaksIn_positional]

@[simp] theorem breaks_propertyKey (key : String) : breaks (propertyKey key) = breaks key := by
  unfold propertyKey
  split
  · exact breaks_quote key
  · rfl

theorem breaks_intercalate {separator : String} (h : breaks separator = 0) (texts : List String) :
    breaks (String.intercalate separator texts) = breaksIn texts := by
  induction texts with
  | nil => rfl
  | cons text rest ih =>
    cases rest with
    | nil => simp [breaks]
    | cons next rest =>
      have hcons : breaks (String.intercalate separator (text :: next :: rest)) = breaks text +
          breaks separator + breaks (String.intercalate separator (next :: rest)) := by
        simp [breaks, Nat.add_assoc]
      rw [hcons, h, ih, breaksIn_cons text, Nat.add_zero]

@[simp] theorem breaks_repr_nat (n : ℕ) : breaks n.repr = 0 := by
  refine breaks_of_not_mem fun hmem => ?_
  rw [Nat.toList_repr] at hmem
  have hdigit : '\n'.isDigit := Nat.isDigit_of_mem_toDigits (by decide) (by decide) hmem
  exact absurd hdigit (by decide)

@[simp] theorem breaks_repr_int (n : ℤ) : breaks n.repr = 0 := by
  rw [Int.repr_eq_if]
  split <;> simp

@[simp] theorem breaks_toString_bool (b : Bool) : breaks (toString b) = 0 := by
  cases b <;> decide

theorem breaks_token {m : Model} {id : ElementId} {token : String} (h : m.token id = .ok token) :
    breaks token = 0 := breaks_of_not_mem (not_mem_token h (by decide))

end Dsl

end C4
