import C4.Proofs.Changes
import C4.Proofs.Contents

/-!
# Attribution

Every line of a document belongs to one entity. A line that introduces an entity belongs to that
one, and the model says which entities may be introduced where and by what text. Any other line
belongs to the entity in whose block it stands, and a closing brace to the block that it closes.
-/
namespace C4

open Dsl

namespace Model

inductive Headed (m : Model) : ElementId → String → String → Prop
  | person {id : PersonId} {p : Person} {token : String} (hp : m.person? id = some p)
    (ht : m.token id = .ok token) :
    Headed m id p.name (elementHeader token "person" p.name [p.description])
  | softwareSystem {id : SoftwareSystemId} {s : SoftwareSystem} {token : String}
    (hs : m.softwareSystem? id = some s) (ht : m.token id = .ok token) :
    Headed m id s.name (elementHeader token "softwareSystem" s.name [s.description])
  | container {id : ContainerId} {c : Container} {token : String}
    (hc : m.container? id = some c) (ht : m.token id = .ok token) :
    Headed m id c.name (elementHeader token "container" c.name [c.description, c.technology])
  | component {id : ComponentId} {c : Component} {token : String}
    (hc : m.component? id = some c) (ht : m.token id = .ok token) :
    Headed m id c.name (elementHeader token "component" c.name [c.description, c.technology])
  | deploymentNode {id : DeploymentNodeId} {n : DeploymentNode} {token : String}
    (hn : m.deploymentNode? id = some n) (ht : m.token id = .ok token) :
    Headed m id n.name
      (elementHeader token "deploymentNode" n.name [n.description, n.technology])
  | infrastructureNode {id : InfrastructureNodeId} {n : InfrastructureNode} {token : String}
    (hn : m.infrastructureNode? id = some n) (ht : m.token id = .ok token) :
    Headed m id n.name
      (elementHeader token "infrastructureNode" n.name [n.description, n.technology])
  /-- An instance is named after its container. -/
  | containerInstance {id : ContainerInstanceId} {i : ContainerInstance} {c : Container}
    {token container : String} (hi : m.containerInstance? id = some i)
    (hc : m.container? i.container = some c) (ht : m.token id = .ok token)
    (hcontainer : m.token i.container = .ok container) :
    Headed m id c.name (token ++ " = containerInstance " ++ container)

theorem Headed.nameOf? {m : Model} {id : ElementId} {name text : String}
    (h : m.Headed id name text) : m.nameOf? id = some name := by
  cases h with
  | person h _ | softwareSystem h _ | container h _ | component h _ | deploymentNode h _
  | infrastructureNode h _ => simp [Model.nameOf?, h]
  | containerInstance hi hc _ _ => simp [Model.nameOf?, hi, hc]

theorem exists_container_of_token {m : Model} {id : ContainerInstanceId} {i : ContainerInstance}
    {container : String} (hi : m.containerInstance? id = some i)
    (hcontainer : m.token i.container = .ok container) :
    ∃ c, m.container? i.container = some c ∧ m.nameOf? id = some c.name := by
  cases hc : m.container? i.container with
  | none => simp [token, nameOf?, hc] at hcontainer
  | some c => exact ⟨c, rfl, by simp [nameOf?, hi, hc]⟩

def Holds (m : Model) : Subject → ElementId → Prop
  | .model, .person id => id ∈ m.personIds ∧ m.isOutside (.person id)
  | .model, .softwareSystem id => id ∈ m.softwareSystemIds ∧ m.isOutside (.softwareSystem id)
  | .enterprise name, .person id =>
    m.enterprise.map (·.name) = some name ∧ .person id ∈ m.members
  | .enterprise name, .softwareSystem id =>
    m.enterprise.map (·.name) = some name ∧ .softwareSystem id ∈ m.members
  | .element (.softwareSystem s) name, .container c =>
    m.nameOf? s = some name ∧ c ∈ m.containersOf s
  | .element (.container c) name, .component x => m.nameOf? c = some name ∧ x ∈ m.componentsOf c
  | .environment name, .deploymentNode id => id ∈ m.topLevel ∧
      (m.deploymentNode? id).map (·.environment.name) = some name
  | .element (.deploymentNode n) name, .deploymentNode c =>
    m.nameOf? n = some name ∧ c ∈ m.childrenOf n
  | .element (.deploymentNode n) name, .infrastructureNode i =>
    m.nameOf? n = some name ∧ i ∈ m.infrastructureOf n
  | .element (.deploymentNode n) name, .containerInstance i =>
    m.nameOf? n = some name ∧ i ∈ m.instancesOf n
  | _, _ => False

end Model

/-- Which entity a line introduces, given the entity in whose block it stands. -/
inductive Workspace.Introduces (w : Workspace) : Option Subject → String → Subject → Prop
  | workspace : Introduces w none w.headerLine w.subject
  | model : Introduces w (some w.subject) "model" .model
  | views : Introduces w (some w.subject) "views" .views
  | element {outer : Subject} {id : ElementId} {name text : String}
    (hholds : w.model.Holds outer id) (hheaded : w.model.Headed id name text) :
    Introduces w (some outer) text (.element id name)
  | enterprise {e : Enterprise} (he : w.model.enterprise = some e) :
    Introduces w (some .model) ("enterprise " ++ quote e.name) (.enterprise e.name)
  | environment {id : DeploymentNodeId} {n : DeploymentNode} (hid : id ∈ w.model.topLevel)
    (hn : w.model.deploymentNode? id = some n) :
    Introduces w (some .model) ("deploymentEnvironment " ++ quote n.environment.name)
      (.environment n.environment.name)
  | healthCheck {id : ContainerInstanceId} {i : ContainerInstance} {check : HealthCheck}
    {name : String} (hi : w.model.containerInstance? id = some i)
    (hname : w.model.nameOf? id = some name) (hcheck : check ∈ i.healthChecks) :
    Introduces w (some (.element id name))
      ("healthCheck " ++ quote check.name ++ " " ++ quote check.url) (.healthCheck check.name)
  | relationship {id : RelationshipId} {r : Relationship} {source target : String}
    (hr : w.model.relationship? id = some r) (hsource : w.model.token r.source = .ok source)
    (htarget : w.model.token r.target = .ok target) :
    Introduces w (some .model)
      (source ++ " -> " ++ target ++
        arguments [r.description, r.technology, r.interactionStyle.map InteractionStyle.name])
      (.relationship id (source ++ " -> " ++ target ++
        arguments [r.description, r.technology, r.interactionStyle.map InteractionStyle.name]))
  /-- A view is named by its key, or else by its keyword. -/
  | view {id : ViewId} {header : ViewHeader} {text : String}
    (hview : w.views.header? id = some header)
    (htext : text = id.keyword ∨ ∃ scope, text = viewHeaderLine id scope header) :
    Introduces w (some .views) text (.view id (header.key.getD id.keyword))
  | styles : Introduces w (some .views) "styles" .styles
  | elementStyle {style : ElementStyle} (hstyle : style ∈ w.views.styles.elements) :
    Introduces w (some .styles) ("element " ++ quote style.tag) (.elementStyle style.tag)
  | relationshipStyle {style : RelationshipStyle}
    (hstyle : style ∈ w.views.styles.relationships) :
    Introduces w (some .styles) ("element " ++ quote style.tag) (.relationshipStyle style.tag)

namespace Dsl

/-- The subject of a line is the entity that it introduces, or else the one around it. -/
def Belongs (w : Workspace) (around : Surround) (subject : Subject) (text : String) : Prop :=
  if introduces around text then w.Introduces around.owner? text subject
  else around.owner? = some subject

/-- The subject of a directive is the innermost entity that it belongs to. -/
def Placed.Attributed (w : Workspace) (p : Placed) : Prop :=
  match p.directive with
  | .line text => Belongs w p.around p.subject text
  | .opening header => Belongs w p.around p.subject header
  | .closing => p.around.owner? = some p.subject
  | .gap => p.around.owner? = some p.subject

/-- Everything in some items belongs where it should, and what they introduce is known. It is
only begun when a reference leads nowhere. -/
structure Fits (w : Workspace) (around : Surround) (items : List Item) (entries : List Entry) :
    Prop where
  attributed : ∀ p ∈ placedOf around items, p.Attributed w
  begun : contents (placedFrom around (beforeStop (eventsOf items))) <+: entries
  complete : firstStop (eventsOf items) = none → contents (placedOf around items) = entries

structure Spoken (w : Workspace) (around : Surround) (subject : Subject) (text : String)
    (entries : List Entry) : Prop where
  belongs : Belongs w around subject text
  introduced : entriesOf around subject text = entries

theorem spoken_of_introduces {w : Workspace} {around : Surround} {subject : Subject}
    {text : String} (htext : introduces around text = true)
    (h : w.Introduces around.owner? text subject) :
    Spoken w around subject text [⟨around.owner?, subject⟩] where
  belongs := by rwa [Belongs, if_pos htext]
  introduced := by rw [entriesOf, if_pos htext]

theorem spoken_of_own {w : Workspace} {subject : Subject} {header text : String}
    {around : Surround} (h : introduces ((subject, header) :: around) text = false) :
    Spoken w ((subject, header) :: around) subject text [] := by
  have htext : ¬ introduces ((subject, header) :: around) text = true := by
    rw [h]
    exact Bool.false_ne_true
  exact ⟨by rw [Belongs, if_neg htext]; rfl, by rw [entriesOf, if_neg htext]⟩

section Fits

variable {w : Workspace} {around : Surround} {subject : Subject} {entries more : List Entry}

theorem contents_append (placed rest : List Placed) :
    contents (placed ++ rest) = contents placed ++ contents rest := List.flatMap_append

theorem fits_of_complete {items : List Item} (hstop : firstStop (eventsOf items) = none)
    (hattributed : ∀ p ∈ placedOf around items, p.Attributed w)
    (hcontents : contents (placedOf around items) = entries) : Fits w around items entries where
  attributed := hattributed
  begun := by
    have hplaced : placedFrom around (beforeStop (eventsOf items)) = placedOf around items := by
      rw [beforeStop_of_none hstop, placedFrom_eventsOf]
    exact hplaced ▸ hcontents ▸ List.prefix_rfl
  complete := fun _ => hcontents

theorem Fits.congr {items : List Item} (h : Fits w around items entries) (he : entries = more) :
    Fits w around items more := he ▸ h

theorem fits_nil : Fits w around [] [] :=
  fits_of_complete (by rw [eventsOf]; rfl) (fun _ h => nomatch h) rfl

theorem fits_append {items rest : List Item} (h : Fits w around items entries)
    (hrest : Fits w around rest more) : Fits w around (items ++ rest) (entries ++ more) where
  attributed := by
    intro p hp
    rw [placedOf_append] at hp
    rcases List.mem_append.1 hp with hp | hp
    · exact h.attributed p hp
    · exact hrest.attributed p hp
  begun := by
    rw [eventsOf_append]
    -- What follows a reference that leads nowhere is not reached, and its entries are missing.
    cases hstop : firstStop (eventsOf items) with
    | some error =>
      rw [beforeStop_append_of_some hstop]
      exact h.begun.trans (List.prefix_append ..)
    | none =>
      rw [beforeStop_append_of_none hstop, placedFrom_append, placedFrom_eventsOf,
        surroundAfter_eventsOf fun item _ => surroundAfter_events item, contents_append,
        h.complete hstop, List.prefix_append_right_inj]
      exact hrest.begun
  complete := by
    intro hstop
    rw [eventsOf_append, firstStop_append, Option.or_eq_none_iff] at hstop
    rw [placedOf_append, contents_append, h.complete hstop.1, hrest.complete hstop.2]

theorem fits_append_own {items rest : List Item} (h : Fits w around items [])
    (hrest : Fits w around rest []) : Fits w around (items ++ rest) [] := fits_append h hrest

theorem fits_cons {item : Item} {rest : List Item} (h : Fits w around [item] entries)
    (hrest : Fits w around rest more) : Fits w around (item :: rest) (entries ++ more) :=
  fits_append h hrest

theorem fits_flatMap {α : Type*} {f : α → List Item} {e : α → List Entry} {l : List α}
    (h : ∀ a ∈ l, Fits w around (f a) (e a)) : Fits w around (l.flatMap f) (l.flatMap e) := by
  induction l with
  | nil => exact fits_nil
  | cons a rest ih =>
    rw [List.flatMap_cons, List.flatMap_cons]
    exact fits_append (h a List.mem_cons_self) (ih fun b hb => h b (List.mem_cons_of_mem _ hb))

theorem fits_map {α : Type*} {f : α → Item} {e : α → List Entry} {l : List α}
    (h : ∀ a ∈ l, Fits w around [f a] (e a)) : Fits w around (l.map f) (l.flatMap e) := by
  rw [List.map_eq_flatMap]
  exact fits_flatMap h

theorem compositional_fits : Compositional fun items => Fits w around items [] where
  nil := fits_nil
  append := fits_append_own

theorem fits_flatMap_own {α : Type*} {f : α → List Item} {l : List α}
    (h : ∀ a ∈ l, Fits w around (f a) []) : Fits w around (l.flatMap f) [] :=
  compositional_fits.flatMap h

theorem fits_map_own {α : Type*} {f : α → Item} {l : List α}
    (h : ∀ a ∈ l, Fits w around [f a] []) : Fits w around (l.map f) [] :=
  compositional_fits.map h

theorem fits_note (record : Record) : Fits w around [.note record] [] :=
  fits_of_complete (by simp [eventsOf_eq_flatMap, Item.events, firstStop, Event.error?])
    (by simp) (by simp [contents])

theorem fits_dangling (error : RenderError) : Fits w around [.dangling error] entries where
  attributed := by simp
  begun := by
    simp [eventsOf_eq_flatMap, Item.events, beforeStop, Event.error?, placedFrom, contents]
  complete := by simp [eventsOf_eq_flatMap, Item.events, firstStop, Event.error?]

theorem fits_line {text : String} (h : Spoken w around subject text entries) :
    Fits w around [.line subject text] entries := by
  refine fits_of_complete (by simp [eventsOf_eq_flatMap, Item.events, firstStop, Event.error?])
    (fun p hp => ?_) ?_
  · simp only [placedOf_cons, placed_line, placedOf_nil, List.append_nil, List.mem_singleton]
      at hp
    subst hp
    exact h.belongs
  · simpa [contents, Placed.entries] using h.introduced

theorem fits_gap (h : around.owner? = some subject) : Fits w around [.gap subject] [] := by
  refine fits_of_complete (by simp [eventsOf_eq_flatMap, Item.events, firstStop, Event.error?])
    (fun p hp => ?_) ?_
  · simp only [placedOf_cons, placed_gap, placedOf_nil, List.append_nil, List.mem_singleton] at hp
    subst hp
    exact h
  · simp [contents, Placed.entries]

theorem attributed_braced {header : String} {body : List Item}
    (h : Spoken w around subject header entries)
    (hbody : Fits w ((subject, header) :: around) body more) :
    ∀ p ∈ braced around subject header body, p.Attributed w := by
  intro p hp
  rcases List.mem_cons.1 hp with rfl | hp
  · exact h.belongs
  · rcases List.mem_append.1 hp with hp | hp
    · exact hbody.attributed p hp
    · obtain rfl := List.mem_singleton.1 hp
      rfl

theorem contents_braced {header : String} {body : List Item}
    (h : Spoken w around subject header entries) :
    contents (braced around subject header body) =
      entries ++ contents (placedOf ((subject, header) :: around) body) := by
  rw [braced, contents, List.flatMap_cons, List.flatMap_append]
  simp only [Placed.entries, h.introduced, List.flatMap_cons, List.flatMap_nil, List.append_nil]
  rfl

theorem begun_braces {header : String} {body : List Item}
    (h : Spoken w around subject header entries)
    (hbody : Fits w ((subject, header) :: around) body more) :
    contents (placedFrom around (beforeStop (.write subject (.opening header) ::
      (eventsOf body ++ [.write subject .closing])))) <+: entries ++ more := by
  have hopening : contents (placedFrom around (beforeStop (.write subject (.opening header) ::
      (eventsOf body ++ [.write subject .closing])))) =
        entries ++ contents (placedFrom ((subject, header) :: around)
          (beforeStop (eventsOf body ++ [.write subject .closing]))) :=
    congrArg (· ++ _) h.introduced
  rw [hopening, List.prefix_append_right_inj]
  cases hstop : firstStop (eventsOf body) with
  | some error =>
    rw [beforeStop_append_of_some hstop]
    exact hbody.begun
  | none =>
    rw [beforeStop_append_of_none hstop, placedFrom_append, placedFrom_eventsOf, contents_append,
      hbody.complete hstop]
    exact (List.append_nil more).symm ▸ List.prefix_rfl

theorem fits_block {header : String} {body : List Item}
    (h : Spoken w around subject header entries)
    (hbody : Fits w ((subject, header) :: around) body more) :
    Fits w around [.block subject header body] (entries ++ more) := by
  have hevents : eventsOf [.block subject header body] =
      .write subject (.opening header) :: (eventsOf body ++ [.write subject .closing]) := by
    rw [eventsOf_eq_flatMap, List.flatMap_singleton, Item.events]
  have hplaced : placedOf around [.block subject header body] =
      braced around subject header body := by simp
  refine ⟨?_, ?_, fun hstop => ?_⟩
  · rw [hplaced]
    exact attributed_braced h hbody
  · rw [hevents]
    exact begun_braces h hbody
  · rw [hevents, firstStop_braces] at hstop
    rw [hplaced, contents_braced h, hbody.complete hstop]

theorem fits_entity {header : String} {body : List Item}
    (h : Spoken w around subject header entries)
    (hbody : Fits w ((subject, header) :: around) body more) :
    Fits w around [.entity subject header body] (entries ++ more) := by
  by_cases hnil : body = []
  · -- Without braces there is only the header, and nothing is introduced in the body.
    subst hnil
    have hmore : more = [] := (hbody.complete (by rw [eventsOf]; rfl)).symm
    rw [hmore, List.append_nil]
    have hplaced : placedOf around [.entity subject header []] =
        placedOf around [.line subject header] := by simp [placed_entity]
    have hevents : eventsOf [.entity subject header []] = eventsOf [.line subject header] := by
      simp [eventsOf_eq_flatMap, Item.events]
    obtain ⟨hattributed, hbegun, hcomplete⟩ := fits_line h
    exact ⟨hplaced ▸ hattributed, hevents ▸ hbegun, hplaced ▸ hevents ▸ hcomplete⟩
  · have hplaced : placedOf around [.entity subject header body] =
        placedOf around [.block subject header body] := by simp [placed_entity, hnil]
    have hevents : eventsOf [.entity subject header body] =
        eventsOf [.block subject header body] := by
      simp only [eventsOf_eq_flatMap, List.flatMap_singleton, events_entity_of_ne_nil _ _ hnil,
        Item.events]
    obtain ⟨hattributed, hbegun, hcomplete⟩ := fits_block h hbody
    exact ⟨hplaced ▸ hattributed, hevents ▸ hbegun, hplaced ▸ hevents ▸ hcomplete⟩

theorem fits_withToken {token : Except RenderError String} {draw : String → List Item}
    (h : ∀ t, token = .ok t → Fits w around (draw t) entries) :
    Fits w around (withToken token draw) entries :=
  withToken_of_draw (P := fun items => Fits w around items entries) fits_dangling h

theorem fits_spaced {separator : List Item} {sections : List (List Item)}
    {entries : List (List Entry)} (hseparator : Fits w around separator [])
    (h : List.Forall₂ (Fits w around) sections entries) :
    Fits w around (spaced separator sections) entries.flatten := by
  induction h with
  | nil => exact fits_nil
  | @cons items e rest es hitems _ ih =>
    rw [List.flatten_cons]
    cases items with
    | nil =>
      have he : e = [] := (hitems.complete (by rw [eventsOf]; rfl)).symm
      rw [he]
      exact ih
    | cons item items =>
      unfold spaced
      refine fits_append hitems ?_
      split
      · next hnil => exact hnil ▸ ih
      · exact fits_append hseparator ih

end Fits

end Dsl

end C4
