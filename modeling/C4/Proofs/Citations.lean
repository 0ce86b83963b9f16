import C4.Proofs.Placement

/-!
# Citations

Which elements a line refers to by their tokens: the header of an instance to its container, an
arrow to its two ends, and the lines of views to what they are about and what they include. The
other lines of views say nothing about elements.
-/
namespace C4

open Dsl

namespace Dsl

def Everywhere (P : Subject → Directive → Prop) (items : List Item) : Prop :=
  ∀ around, ∀ p ∈ placedOf around items, P p.subject p.directive

section Everywhere

variable {P : Subject → Directive → Prop} {subject : Subject}

theorem everywhere_nil : Everywhere P [] := by
  intro around p hp
  cases hp

theorem Everywhere.mono {Q : Subject → Directive → Prop} {items : List Item}
    (h : Everywhere P items) (himp : ∀ subject directive, P subject directive →
      Q subject directive) : Everywhere Q items := by
  intro around p hp
  exact himp _ _ (h around p hp)

theorem everywhere_append {items more : List Item} (h : Everywhere P items)
    (hmore : Everywhere P more) : Everywhere P (items ++ more) := by
  intro around p hp
  rw [placedOf_append] at hp
  rcases List.mem_append.1 hp with hp | hp
  · exact h around p hp
  · exact hmore around p hp

theorem everywhere_cons {item : Item} {rest : List Item} (h : Everywhere P [item])
    (hrest : Everywhere P rest) : Everywhere P (item :: rest) :=
  everywhere_append h hrest

theorem compositional_everywhere : Compositional (Everywhere P) :=
  ⟨everywhere_nil, everywhere_append⟩

theorem everywhere_flatMap {α : Type*} {f : α → List Item} {l : List α}
    (h : ∀ a ∈ l, Everywhere P (f a)) : Everywhere P (l.flatMap f) :=
  compositional_everywhere.flatMap h

theorem everywhere_map {α : Type*} {f : α → Item} {l : List α}
    (h : ∀ a ∈ l, Everywhere P [f a]) : Everywhere P (l.map f) :=
  compositional_everywhere.map h

theorem everywhere_line {text : String} (h : P subject (.line text)) :
    Everywhere P [.line subject text] := by
  intro around p hp
  simp only [placedOf_cons, placed_line, placedOf_nil, List.append_nil, List.mem_singleton] at hp
  subst hp
  exact h

theorem everywhere_gap (h : P subject .gap) : Everywhere P [.gap subject] := by
  intro around p hp
  simp only [placedOf_cons, placed_gap, placedOf_nil, List.append_nil, List.mem_singleton] at hp
  subst hp
  exact h

theorem everywhere_note (record : Record) : Everywhere P [.note record] := by
  intro around p hp
  simp at hp

theorem everywhere_dangling (error : RenderError) : Everywhere P [.dangling error] := by
  intro around p hp
  simp at hp

theorem everywhere_block {header : String} {body : List Item} (hopen : P subject (.opening header))
    (hclose : P subject .closing) (hbody : Everywhere P body) :
    Everywhere P [.block subject header body] := by
  intro around p hp
  simp only [placedOf_cons, placed_block, placedOf_nil, List.append_nil] at hp
  rcases List.mem_cons.1 hp with rfl | hp
  · exact hopen
  · rcases List.mem_append.1 hp with hp | hp
    · exact hbody _ p hp
    · obtain rfl := List.mem_singleton.1 hp
      exact hclose

theorem everywhere_entity {header : String} {body : List Item} (hline : P subject (.line header))
    (hopen : P subject (.opening header)) (hclose : P subject .closing)
    (hbody : Everywhere P body) : Everywhere P [.entity subject header body] := by
  intro around p hp
  rw [placedOf_cons, placedOf_nil, List.append_nil, placed_entity] at hp
  split at hp
  · obtain rfl := List.mem_singleton.1 hp
    exact hline
  · refine everywhere_block hopen hclose hbody around p ?_
    rwa [placedOf_cons, placedOf_nil, List.append_nil, placed_block]

theorem everywhere_withToken {token : Except RenderError String} {draw : String → List Item}
    (h : ∀ t, token = .ok t → Everywhere P (draw t)) : Everywhere P (withToken token draw) :=
  withToken_of_draw everywhere_dangling h

end Everywhere

end Dsl

def IncludeExpression.named (e : IncludeExpression) : List ElementId :=
  match e.subject with
  | some id => [id]
  | none => e.source.toList ++ e.target.toList

/-- How the text of an include expression names elements by their tokens. -/
inductive Model.Spells (m : Model) : List ElementId → String → Prop
  | nothing : Spells m [] "*"
  | element {id : ElementId} {token : String} (ht : m.token id = .ok token)
    (afferent efferent : Bool) :
    Spells m [id] ((if afferent then "->" else "") ++ token ++ (if efferent then "->" else ""))
  | arrow {source target : ElementId} {s t : String} (hs : m.token source = .ok s)
    (ht : m.token target = .ok t) : Spells m [source, target] (s ++ " -> " ++ t)

def Views.static? (vs : Views) : ViewId → Option (ElementId × ViewHeader × Inclusions)
  | .systemContext index =>
    (vs.systemContext[index]?).map fun v => (.softwareSystem v.scope, v.header, v.inclusions)
  | .container index =>
    (vs.container[index]?).map fun v => (.softwareSystem v.scope, v.header, v.inclusions)
  | .component index =>
    (vs.component[index]?).map fun v => (.container v.scope, v.header, v.inclusions)
  | _ => none

inductive Silent : Directive → Prop
  | closing : Silent .closing
  | block {header : String} (h : header ∈ ["", "deploymentView", "filteredView"]) :
    Silent (.opening header)
  | unscoped (id : ViewId) (header : ViewHeader) : Silent (.opening (viewHeaderLine id "*" header))
  | flag {text : String} (h : text ∈ ["autoLayout", "include *", "include element.type==Person",
      "include element.type==SoftwareSystem"]) : Silent (.line text)
  | quoted {keyword : String} (text : String)
    (h : keyword ∈ ["environment", "key", "description", "baseView", "title"]) :
    Silent (.line (keyword ++ " " ++ quote text))
  | filter (f : FilterCriterion) :
    Silent (.line (f.mode.name ++ " " ++ f.type.label ++ " " ++ quote f.value))

inductive Workspace.Mentions (w : Workspace) : ViewId → Directive → List ElementId → Prop
  | staticScope {id : ViewId} {scope : ElementId} {header : ViewHeader} {i : Inclusions}
    {token : String} (hview : w.views.static? id = some (scope, header, i))
    (ht : w.model.token scope = .ok token) :
    Mentions w id (.opening (viewHeaderLine id token header)) [scope]
  | element {id : ViewId} {scope e : ElementId} {header : ViewHeader} {i : Inclusions}
    {token : String} (hview : w.views.static? id = some (scope, header, i))
    (he : e ∈ i.elements) (ht : w.model.token e = .ok token) :
    Mentions w id (.line ("include " ++ token)) [e]
  | expression {id : ViewId} {scope : ElementId} {header : ViewHeader} {i : Inclusions}
    {e : IncludeExpression} {text : String}
    (hview : w.views.static? id = some (scope, header, i)) (he : e ∈ i.expressions)
    (htext : w.model.Spells e.named text) :
    Mentions w id (.line ("include " ++ text)) e.named
  | dynamicScope {index : ℕ} {v : DynamicView} {scope : ElementId} {token : String}
    (hview : w.views.dynamic[index]? = some v) (hscope : v.scope = some scope)
    (ht : w.model.token scope = .ok token) :
    Mentions w (.dynamic index) (.opening (viewHeaderLine (.dynamic index) token v.header)) [scope]
  | step {index : ℕ} {v : DynamicView} {step : DynamicStep} {source target : String}
    (hview : w.views.dynamic[index]? = some v) (hstep : step ∈ v.steps)
    (hs : w.model.token step.source = .ok source) (ht : w.model.token step.target = .ok target) :
    Mentions w (.dynamic index)
      (.line (source ++ " -> " ++ target ++ arguments [step.description, step.technology]))
      [step.source, step.target]
  | softwareSystem {index : ℕ} {v : DeploymentView} {system : SoftwareSystemId} {token : String}
    (hview : w.views.deployment[index]? = some v) (hscope : v.scope = some system)
    (ht : w.model.token (.softwareSystem system) = .ok token) :
    Mentions w (.deployment index) (.line ("softwareSystem " ++ token)) [.softwareSystem system]
  | shownElement {index : ℕ} {v : DeploymentView} {e : ElementId} {token : String}
    (hview : w.views.deployment[index]? = some v) (he : e ∈ shownElements w.model v)
    (ht : w.model.token e = .ok token) :
    Mentions w (.deployment index) (.line ("include " ++ token)) [e]
  | shownRelationship {index : ℕ} {v : DeploymentView} {id : RelationshipId} {r : Relationship}
    {source target : String} (hview : w.views.deployment[index]? = some v)
    (hid : id ∈ shownRelationships w.model v) (hr : w.model.relationship? id = some r)
    (hs : w.model.token r.source = .ok source) (ht : w.model.token r.target = .ok target) :
    Mentions w (.deployment index) (.line ("include " ++ (source ++ " -> " ++ target)))
      [r.source, r.target]
  | nothing {id : ViewId} {directive : Directive} (h : Silent directive) :
    Mentions w id directive []

/-- The elements that a directive of a document refers to by their tokens. -/
inductive Workspace.Cites (w : Workspace) (p : Placed) : List ElementId → Prop
  | containerInstance {id : ContainerInstanceId} {i : ContainerInstance} {own token : String}
    (hid : p.entity? = some (.element (.containerInstance id)))
    (hi : w.model.containerInstance? id = some i)
    (ht : w.model.token (.container i.container) = .ok token)
    (htext : p.directive.text? = some (own ++ " = containerInstance " ++ token)) :
    Cites w p [.container i.container]
  | relationship {id : RelationshipId} {r : Relationship} {source target rest : String}
    (hid : p.entity? = some (.relationship id)) (hr : w.model.relationship? id = some r)
    (hs : w.model.token r.source = .ok source) (ht : w.model.token r.target = .ok target)
    (htext : p.directive.text? = some (source ++ " -> " ++ target ++ rest)) :
    Cites w p [r.source, r.target]
  | view {id : ViewId} {name : String} {cited : List ElementId}
    (hviews : [(.views, "views"), (w.subject, w.headerLine)] <:+ p.around)
    (hsubject : p.subject = .view id name) (h : w.Mentions id p.directive cited) :
    Cites w p cited

theorem Model.Spells.token {m : Model} {ids : List ElementId} {text : String}
    (h : m.Spells ids text) : ∀ id ∈ ids, ∃ token, m.token id = .ok token := by
  cases h with
  | nothing => simp
  | element ht => simp [ht]
  | arrow hs ht => simp [hs, ht]

theorem Workspace.Mentions.token {w : Workspace} {id : ViewId} {directive : Directive}
    {cited : List ElementId} (h : w.Mentions id directive cited) :
    ∀ e ∈ cited, ∃ token, w.model.token e = .ok token := by
  cases h with
  | staticScope _ ht | element _ _ ht | dynamicScope _ _ ht | softwareSystem _ _ ht
  | shownElement _ _ ht => simp [ht]
  | expression _ _ htext => exact htext.token
  | step _ _ hs ht | shownRelationship _ _ _ hs ht => simp [hs, ht]
  | nothing => simp

theorem Workspace.Cites.token {w : Workspace} {p : Placed} {cited : List ElementId}
    (h : w.Cites p cited) : ∀ e ∈ cited, ∃ token, w.model.token e = .ok token := by
  cases h with
  | containerInstance _ _ ht => simp [ht]
  | relationship _ _ hs ht => simp [hs, ht]
  | view _ _ h => exact h.token

def Workspace.Tells (w : Workspace) (id : ViewId) (subject : Subject) (directive : Directive) :
    Prop :=
  (∃ name, subject = .view id name) ∧ ∃ cited, w.Mentions id directive cited

section Tells

variable {w : Workspace} {id : ViewId} {name : String}

theorem Silent.tells {directive : Directive} (h : Silent directive) :
    w.Tells id (.view id name) directive := ⟨⟨name, rfl⟩, [], .nothing h⟩

theorem Workspace.Mentions.tells {directive : Directive} {cited : List ElementId}
    (h : w.Mentions id directive cited) : w.Tells id (.view id name) directive :=
  ⟨⟨name, rfl⟩, cited, h⟩

theorem everywhere_silentLine {text : String} (h : Silent (.line text)) :
    Everywhere (w.Tells id) [.line (.view id name) text] := everywhere_line h.tells

theorem everywhere_autoLayoutLine (header : ViewHeader) :
    Everywhere (w.Tells id) (autoLayoutLine (.view id name) header) := by
  unfold autoLayoutLine
  split
  · exact everywhere_silentLine (.flag (by simp))
  · exact everywhere_nil

theorem everywhere_quotedLine {keyword : String} (text : Option String)
    (h : keyword ∈ ["environment", "key", "description", "baseView", "title"]) :
    Everywhere (w.Tells id) (quotedLine (.view id name) keyword text) := by
  unfold quotedLine
  split
  · exact everywhere_nil
  · exact everywhere_silentLine (.quoted _ h)

theorem everywhere_keyAndDescription (header : ViewHeader) :
    Everywhere (w.Tells id) (keyAndDescription (.view id name) header) :=
  everywhere_append (everywhere_quotedLine _ (by simp)) (everywhere_quotedLine _ (by simp))

theorem everywhere_includeItems {token : Except RenderError String}
    (h : ∀ text, token = .ok text → ∃ cited, w.Mentions id (.line ("include " ++ text)) cited) :
    Everywhere (w.Tells id) (includeItems (.view id name) token) := by
  refine everywhere_withToken fun text htext => ?_
  obtain ⟨cited, hcited⟩ := h text htext
  exact everywhere_line hcited.tells

theorem everywhere_flagLines (i : Inclusions) :
    Everywhere (w.Tells id) (flagLines (.view id name) i) := by
  have flag (condition : Bool) {text : String} (h : Silent (.line text)) :
      Everywhere (w.Tells id) (if condition then [.line (.view id name) text] else []) := by
    split
    · exact everywhere_silentLine h
    · exact everywhere_nil
  unfold flagLines
  split
  · exact everywhere_silentLine (.flag (by simp))
  · exact everywhere_append (flag _ (.flag (by simp))) (flag _ (.flag (by simp)))

theorem optionalToken_eq_ok {m : Model} {id : Option ElementId} {token : Option String}
    (h : optionalToken m id = .ok token) :
    (id = none ∧ token = none) ∨ ∃ e t, id = some e ∧ token = some t ∧ m.token e = .ok t := by
  cases id with
  | none =>
    cases h
    exact Or.inl ⟨rfl, rfl⟩
  | some e =>
    have hmap : (m.token e).map some = .ok token := h
    cases ht : m.token e with
    | error error =>
      rw [ht] at hmap
      cases hmap
    | ok t =>
      rw [ht] at hmap
      cases hmap
      exact Or.inr ⟨e, t, rfl, rfl, ht⟩

theorem spells_expressionText {m : Model} {e : IncludeExpression} {text : String}
    (h : expressionText m e = .ok text) : m.Spells e.named text := by
  obtain ⟨subject, hsubject, h⟩ := bind_eq_ok h
  obtain ⟨source, hsource, h⟩ := bind_eq_ok h
  obtain ⟨target, htarget, h⟩ := bind_eq_ok h
  unfold IncludeExpression.named
  rcases optionalToken_eq_ok hsubject with ⟨hs, rfl⟩ | ⟨s, ts, hs, rfl, hts⟩
  · -- Without a subject the text is that of the ends.
    rcases optionalToken_eq_ok hsource with ⟨ha, rfl⟩ | ⟨a, ta, ha, rfl, hta⟩ <;>
      rcases optionalToken_eq_ok htarget with ⟨hb, rfl⟩ | ⟨b, tb, hb, rfl, htb⟩ <;>
      cases h <;> simp only [hs, ha, hb]
    · exact .nothing
    · simpa using Model.Spells.element htb true false
    · simpa using Model.Spells.element hta false true
    · exact .arrow hta htb
  · cases h
    simp only [hs]
    exact .element hts e.afferent e.efferent

theorem everywhere_staticViewItems {scope : ElementId} {header : ViewHeader} {i : Inclusions}
    (hview : w.views.static? id = some (scope, header, i)) :
    Everywhere (w.Tells id) (staticViewItems w.model id scope header i) := by
  refine everywhere_withToken fun token ht => everywhere_block
    (Workspace.Mentions.staticScope hview ht).tells Silent.closing.tells
    (everywhere_append (everywhere_append (everywhere_append (everywhere_flagLines i) ?elements)
      ?expressions) (everywhere_autoLayoutLine header))
  case elements =>
    exact everywhere_flatMap fun e he => everywhere_includeItems fun text htext =>
      ⟨_, .element hview he htext⟩
  case expressions =>
    exact everywhere_flatMap fun e he => everywhere_includeItems fun text htext =>
      ⟨_, .expression hview he (spells_expressionText htext)⟩

theorem everywhere_dynamicViewItems {index : ℕ} {v : DynamicView}
    (hview : w.views.dynamic[index]? = some v) (hadvances : v.Advances) :
    Everywhere (w.Tells (.dynamic index)) (dynamicViewItems w.model (.dynamic index) v) := by
  have step (step : DynamicStep) (hstep : step ∈ v.steps) : Everywhere (w.Tells (.dynamic index))
      (stepItems w.model (viewSubject (.dynamic index) v.header) step) := by
    refine everywhere_withToken fun ends hends => everywhere_line ?_
    obtain ⟨source, target, hs, ht, rfl⟩ := arrow_eq_ok hends
    exact (Workspace.Mentions.step hview hstep hs ht).tells
  have braces : Silent (.opening "") := .block (by simp)
  have segment (s : Segment) (hs : s ∈ v.segments) : Everywhere (w.Tells (.dynamic index))
      (segmentItems w.model (viewSubject (.dynamic index) v.header) s) := by
    -- The segments together have the steps of the view, each once.
    have hsteps : ∀ step ∈ s.steps, step ∈ v.steps := by
      intro step hstep
      rw [← DynamicView.segments_steps hadvances]
      exact List.mem_flatMap.2 ⟨s, hs, hstep⟩
    cases s with
    | single a => exact step a (hsteps a (List.mem_singleton_self a))
    | together steps =>
      exact everywhere_block braces.tells Silent.closing.tells (everywhere_map fun a ha =>
        everywhere_block braces.tells Silent.closing.tells (step a (hsteps a ha)))
  refine everywhere_withToken fun text htext => everywhere_block ?scope Silent.closing.tells
    (everywhere_append (everywhere_flatMap segment) (everywhere_autoLayoutLine v.header))
  case scope =>
    cases hscope : v.scope with
    | none =>
      rw [hscope] at htext
      cases htext
      exact (Silent.unscoped ..).tells
    | some scope =>
      rw [hscope] at htext
      exact (Workspace.Mentions.dynamicScope hview hscope htext).tells

theorem everywhere_deploymentViewItems {index : ℕ} {v : DeploymentView}
    (hview : w.views.deployment[index]? = some v) :
    Everywhere (w.Tells (.deployment index))
      (deploymentViewItems w.model (.deployment index) v) := by
  have henvironment : Silent (.line ("environment " ++ quote v.environment.name)) :=
    Silent.quoted v.environment.name (by decide : "environment" ∈ _)
  refine everywhere_block (Silent.block (by simp [ViewId.keyword])).tells Silent.closing.tells
    (everywhere_append ?scope (everywhere_cons (everywhere_silentLine henvironment)
      (everywhere_append (everywhere_append (everywhere_append (everywhere_keyAndDescription _)
        (everywhere_autoLayoutLine _)) ?elements) ?relationships)))
  case scope =>
    cases hscope : v.scope with
    | none => exact everywhere_nil
    | some system =>
      exact everywhere_withToken fun token ht =>
        everywhere_line (Workspace.Mentions.softwareSystem hview hscope ht).tells
  case elements =>
    exact everywhere_flatMap fun e he => everywhere_includeItems fun text htext =>
      ⟨_, .shownElement hview he htext⟩
  case relationships =>
    refine everywhere_flatMap fun id hid => everywhere_includeItems fun text htext => ?_
    unfold includedRelationship at htext
    cases hr : w.model.relationship? id with
    | none =>
      rw [hr] at htext
      cases htext
    | some r =>
      rw [hr] at htext
      obtain ⟨source, target, hs, ht, rfl⟩ := arrow_eq_ok htext
      exact ⟨_, .shownRelationship hview hid hr hs ht⟩

theorem everywhere_filteredViewItems (index : ℕ) (v : FilteredView) :
    Everywhere (w.Tells (.filtered index)) (filteredViewItems w.views (.filtered index) v) := by
  refine everywhere_append ?note (everywhere_block (Silent.block (by simp [ViewId.keyword])).tells
    Silent.closing.tells (everywhere_append (everywhere_append (everywhere_append
      (everywhere_append (everywhere_quotedLine _ (by simp)) (everywhere_quotedLine _ (by simp)))
      (everywhere_keyAndDescription _)) ?filters) (everywhere_autoLayoutLine _)))
  case filters => exact everywhere_map fun f _ => everywhere_silentLine (.filter f)
  case note =>
    split
    · exact everywhere_note _
    · exact everywhere_nil

theorem everywhere_viewItems (hadvances : ∀ v ∈ w.views.dynamic, v.Advances) (id : ViewId) :
    Everywhere (w.Tells id) (viewItems w.model w.views id) := by
  cases id with
  | systemContext index | container index | component index =>
    exact getD_map_of (motive := Everywhere _) (everywhere_dangling _) fun v hv =>
      everywhere_staticViewItems (by simp [Views.static?, hv])
  | dynamic index =>
    exact getD_map_of (motive := Everywhere _) (everywhere_dangling _) fun v hv =>
      everywhere_dynamicViewItems hv (hadvances v (Array.mem_of_getElem? hv))
  | deployment index =>
    exact getD_map_of (motive := Everywhere _) (everywhere_dangling _) fun v hv =>
      everywhere_deploymentViewItems hv
  | filtered index =>
    exact getD_map_of (motive := Everywhere _) (everywhere_dangling _) fun v _ =>
      everywhere_filteredViewItems index v

def Workspace.TellsView (w : Workspace) (subject : Subject) (directive : Directive) : Prop :=
  ∀ id name, subject = .view id name → ∃ cited, w.Mentions id directive cited

theorem everywhere_stylesItems (s : Styles) : Everywhere w.TellsView (stylesItems s) := by
  have other {subject : Subject} {directive : Directive} (h : ∀ id name, subject ≠ .view id name) :
      w.TellsView subject directive := fun id name hsubject => absurd hsubject (h id name)
  have style {subject : Subject} (tag : String) (lines : List String)
      (h : ∀ id name, subject ≠ .view id name) :
      Everywhere w.TellsView [styleItem subject tag lines] :=
    everywhere_block (other h) (other h) (everywhere_map fun text _ => everywhere_line (other h))
  unfold stylesItems
  split
  · exact everywhere_nil
  · refine everywhere_cons (everywhere_note _) (everywhere_block (other (by simp))
      (other (by simp)) (everywhere_append ?elements ?relationships))
    case elements => exact everywhere_map fun s _ => style _ _ (by simp)
    case relationships => exact everywhere_map fun s _ => style _ _ (by simp)

theorem everywhere_viewsBlock (hadvances : ∀ v ∈ w.views.dynamic, v.Advances) (l : Layout) :
    Everywhere w.TellsView [viewsBlock l w.model w.views] := by
  have own {directive : Directive} : w.TellsView .views directive := by
    intro id name hsubject
    cases hsubject
  refine everywhere_block own own (compositional_everywhere.spaced ?separator
    fun items hitems => ?_)
  case separator =>
    unfold Layout.separator
    split
    · exact everywhere_gap own
    · exact everywhere_nil
  rcases List.mem_append.1 hitems with hitems | hitems
  · obtain ⟨id, -, rfl⟩ := List.mem_map.1 hitems
    refine (everywhere_viewItems hadvances id).mono fun subject directive htells => ?_
    obtain ⟨⟨name, rfl⟩, hcited⟩ := htells
    intro id' name' hsubject
    cases hsubject
    exact hcited
  · obtain rfl := List.mem_singleton.1 hitems
    exact everywhere_stylesItems _

end Tells

end C4
