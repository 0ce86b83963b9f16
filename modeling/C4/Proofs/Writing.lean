import C4.Proofs.Citations
import C4.Proofs.Discipline
import C4.Proofs.Sections
import C4.Proofs.Slices
import C4.Proofs.StoredTexts

/-!
# Writing

Which stored texts the items of an outline are written from. The line feeds inside the directives
of some items are those of their texts, all of them and no others: what keywords, numbers and tokens
add has none. Blank rows are the layout's alone and are no part of any section.
-/
namespace C4

open Dsl

namespace Dsl

/-- How many line feeds there are inside some directives, those that end their rows left out. -/
def contentBreaks (placed : List Placed) : ℕ :=
  breaksIn (placed.map fun p => p.directive.content)

/-- What some items are written from: the line feeds inside their directives are those of the
texts, unless a reference leads nowhere, and no row of them is left blank. -/
structure Written (items : List Item) (texts : List String) : Prop where
  count : fault items = none → ∀ around, contentBreaks (placedOf around items) = breaksIn texts
  solid : Everywhere (fun _ directive => directive ≠ .gap) items

variable {items rest : List Item} {texts more : List String} {subject : Subject}

@[simp] theorem contentBreaks_nil : contentBreaks [] = 0 := rfl

@[simp] theorem contentBreaks_cons (p : Placed) (placed : List Placed) :
    contentBreaks (p :: placed) = breaks p.directive.content + contentBreaks placed :=
  breaksIn_cons ..

@[simp] theorem contentBreaks_append (placed later : List Placed) :
    contentBreaks (placed ++ later) = contentBreaks placed + contentBreaks later := by
  simp [contentBreaks]

@[simp] theorem flatMap_none {α : Type*} (l : List α) :
    l.flatMap (fun _ => ([] : List String)) = [] :=
  List.flatMap_eq_nil_iff.2 fun _ _ => rfl

theorem breaks_content_opening (header : String) :
    breaks (Directive.opening header).content = breaks header := by
  by_cases hempty : header = ""
  · subst hempty
    decide
  · simp [Directive.content, hempty]

theorem breaks_content_closing : breaks Directive.closing.content = 0 := by decide

theorem Written.congr (h : Written items texts) (hsame : breaksIn texts = breaksIn more) :
    Written items more where
  count hfault around := (h.count hfault around).trans hsame
  solid := h.solid

theorem written_nil : Written [] [] where
  count _ _ := rfl
  solid := everywhere_nil

theorem written_append (h : Written items texts) (hrest : Written rest more) :
    Written (items ++ rest) (texts ++ more) where
  count hfault around := by
    rw [fault_append, Option.or_eq_none_iff] at hfault
    rw [placedOf_append, contentBreaks_append, breaksIn_append, h.count hfault.1,
      hrest.count hfault.2]
  solid := everywhere_append h.solid hrest.solid

theorem written_silent_append (h : Written items []) (hrest : Written rest more) :
    Written (items ++ rest) more :=
  written_append h hrest

theorem written_flatMap {α : Type*} {f : α → List Item} {g : α → List String} {l : List α}
    (h : ∀ a ∈ l, Written (f a) (g a)) : Written (l.flatMap f) (l.flatMap g) := by
  induction l with
  | nil => exact written_nil
  | cons a l ih =>
    rw [List.flatMap_cons, List.flatMap_cons]
    refine written_append (h a List.mem_cons_self) (ih fun b hb => ?_)
    exact h b (List.mem_cons_of_mem _ hb)

theorem written_map {α : Type*} {f : α → Item} {g : α → List String} {l : List α}
    (h : ∀ a ∈ l, Written [f a] (g a)) : Written (l.map f) (l.flatMap g) := by
  rw [List.map_eq_flatMap]
  exact written_flatMap h

theorem written_line {text : String} (h : breaks text = breaksIn texts) :
    Written [.line subject text] texts where
  count _ around := by simp [Directive.content, h]
  solid := everywhere_line Directive.noConfusion

theorem written_note (record : Record) : Written [.note record] [] where
  count _ around := by simp
  solid := everywhere_note record

theorem written_note_cons {record : Record} (h : Written items texts) :
    Written (.note record :: items) texts :=
  written_silent_append (written_note record) h

theorem written_dangling (error : RenderError) : Written [.dangling error] texts where
  count hfault := by
    rw [fault_dangling] at hfault
    cases hfault
  solid := everywhere_dangling error

theorem written_withToken {token : Except RenderError String} {draw : String → List Item}
    (h : ∀ t, token = .ok t → Written (draw t) texts) : Written (withToken token draw) texts :=
  withToken_of_draw (P := fun items => Written items texts) written_dangling h

theorem written_block {header : String} {body : List Item}
    (hheader : breaks header = breaksIn texts) (hbody : Written body more) :
    Written [.block subject header body] (texts ++ more) where
  count hfault around := by
    rw [fault_block] at hfault
    simp [braced, breaks_content_opening, breaks_content_closing, hheader,
      hbody.count hfault]
  solid := everywhere_block Directive.noConfusion Directive.noConfusion hbody.solid

theorem written_plainBlock {header : String} {body : List Item} (hheader : breaks header = 0)
    (hbody : Written body more) : Written [.block subject header body] more :=
  written_block (hheader.trans breaksIn_nil.symm) hbody

theorem written_namedBlock {keyword name : String} {body : List Item}
    (hkeyword : breaks keyword = 0) (hbody : Written body more) :
    Written [.block subject (keyword ++ quote name) body] (name :: more) := by
  have hheader : breaks (keyword ++ quote name) = breaksIn [name] := by simp [hkeyword]
  exact written_block hheader hbody

theorem written_entity {header : String} {body : List Item}
    (hheader : breaks header = breaksIn texts) (hbody : Written body more) :
    Written [.entity subject header body] (texts ++ more) where
  count hfault around := by
    rw [fault_entity] at hfault
    have hmore := hbody.count hfault
    rw [placedOf_cons, placedOf_nil, List.append_nil, placed_entity]
    split
    · next hnil =>
      have hnone : breaksIn more = 0 := by rw [← hmore around, hnil]; rfl
      simp [Directive.content, hheader, hnone]
    · simp [braced, breaks_content_opening, breaks_content_closing, hheader, hmore]
  solid := everywhere_entity Directive.noConfusion Directive.noConfusion Directive.noConfusion
    hbody.solid

theorem written_tagLines (tags : Tags) : Written (tagLines subject tags) tags.items := by
  unfold tagLines
  split
  · next hempty =>
    rw [Tags.isEmpty, List.isEmpty_iff] at hempty
    rw [hempty]
    exact written_nil
  · exact written_line (by simp [Tags.joined, breaks_intercalate])

theorem written_propertyBlock (properties : Properties) :
    Written (propertyBlock subject properties) properties.texts := by
  unfold propertyBlock Properties.texts
  split
  · next hempty =>
    rw [Properties.isEmpty, List.isEmpty_iff] at hempty
    rw [hempty]
    exact written_nil
  · exact written_plainBlock (by decide)
      (written_map fun entry _ => written_line (by simp [propertyLine]))

theorem breaks_elementHeader {token : String} (keyword : String) (hkeyword : breaks keyword = 0)
    (ht : breaks token = 0) (name : String) (args : List (Option String)) :
    breaks (elementHeader token keyword name args) =
      breaksIn (name :: args.flatMap Option.toList) := by
  simp [elementHeader, ht, hkeyword]

section Entities

variable {w : Workspace} (outer : Subject)

theorem written_personItems (id : PersonId) :
    Written (personItems w.model id) (w.textsIn (w.model.personContents outer id)) := by
  unfold personItems Model.personContents
  cases hp : w.model.person? id with
  | none => exact written_dangling _
  | some p =>
    refine written_withToken fun token ht => written_note_cons ?_
    have hheader := breaks_elementHeader "person" (by decide) (breaks_token ht)
      p.name [p.description]
    refine (written_entity hheader (written_tagLines p.tags)).congr ?_
    simp [Workspace.textsIn, Workspace.textsOf, Model.elementTexts, hp]

theorem written_componentItems (id : ComponentId) :
    Written (componentItems w.model id) (w.textsIn (w.model.componentContents outer id)) := by
  unfold componentItems Model.componentContents
  cases hc : w.model.component? id with
  | none => exact written_dangling _
  | some c =>
    refine written_withToken fun token ht => ?_
    have hheader := breaks_elementHeader "component" (by decide) (breaks_token ht)
      c.name [c.description, c.technology]
    refine (written_entity hheader (written_tagLines c.tags)).congr ?_
    simp [Workspace.textsIn, Workspace.textsOf, Model.elementTexts, hc]

theorem written_containerItems (id : ContainerId) :
    Written (containerItems w.model id) (w.textsIn (w.model.containerContents outer id)) := by
  unfold containerItems Model.containerContents
  cases hc : w.model.container? id with
  | none => exact written_dangling _
  | some c =>
    refine written_withToken fun token ht => ?_
    have hheader := breaks_elementHeader "container" (by decide) (breaks_token ht)
      c.name [c.description, c.technology]
    refine (written_entity hheader (written_append (written_tagLines c.tags)
      (written_flatMap fun x _ => written_componentItems (.element id c.name) x))).congr ?_
    simp [Workspace.textsOf, Model.elementTexts, hc]

theorem written_softwareSystemItems (id : SoftwareSystemId) :
    Written (softwareSystemItems w.model id)
      (w.textsIn (w.model.softwareSystemContents outer id)) := by
  unfold softwareSystemItems Model.softwareSystemContents
  cases hs : w.model.softwareSystem? id with
  | none => exact written_dangling _
  | some s =>
    refine written_withToken fun token ht => written_note_cons ?_
    have hheader := breaks_elementHeader "softwareSystem" (by decide) (breaks_token ht)
      s.name [s.description]
    refine (written_entity hheader (written_append (written_tagLines s.tags)
      (written_flatMap fun c _ => written_containerItems (.element id s.name) c))).congr ?_
    simp [Workspace.textsOf, Model.elementTexts, hs]

theorem written_enterpriseItems {e : Enterprise} (he : w.model.enterprise = some e) :
    Written (enterpriseItems w.model e) (w.textsIn (w.model.enterpriseContents e)) := by
  rw [Model.enterpriseContents, Workspace.textsIn_cons, Workspace.textsIn_append,
    Workspace.textsIn_flatMap, Workspace.textsIn_flatMap, Workspace.textsOf, he,
    ← List.append_assoc]
  refine written_namedBlock (by decide) (written_append (written_append
    (written_propertyBlock e.properties) (written_flatMap fun id _ => ?person))
    (written_flatMap fun id _ => ?system))
  case person =>
    cases id with
    | person id => exact written_personItems _ id
    | _ => exact written_nil
  case system =>
    cases id with
    | softwareSystem id => exact written_softwareSystemItems _ id
    | _ => exact written_nil

theorem written_relationshipItems (id : RelationshipId) :
    Written (relationshipItems w.model id) (w.textsIn (w.model.relationshipContents id)) := by
  unfold relationshipItems Model.relationshipContents
  cases hr : w.model.relationship? id with
  | none => exact written_dangling _
  | some r =>
    refine written_withToken fun ends hends => ?_
    obtain ⟨s, t, hs, ht, rfl⟩ := arrow_eq_ok hends
    simp only [hends]
    have hstyle : breaksIn (r.interactionStyle.map InteractionStyle.name).toList = 0 := by
      cases r.interactionStyle with
      | none => rfl
      | some style => cases style <;> decide
    refine written_line ?_
    simp [Workspace.textsOf, Model.relationshipTexts, hr, breaks_token hs, breaks_token ht, hstyle]

theorem written_infrastructureNodeItems (id : InfrastructureNodeId) :
    Written (infrastructureNodeItems w.model id)
      (w.textsIn (w.model.infrastructureNodeContents outer id)) := by
  unfold infrastructureNodeItems Model.infrastructureNodeContents
  cases hn : w.model.infrastructureNode? id with
  | none => exact written_dangling _
  | some n =>
    refine written_withToken fun token ht => ?_
    have hheader := breaks_elementHeader "infrastructureNode" (by decide) (breaks_token ht)
      n.name [n.description, n.technology]
    refine (written_entity hheader (written_append (written_tagLines n.tags)
      (written_propertyBlock n.properties))).congr ?_
    simp [Workspace.textsOf, Model.elementTexts, hn]

theorem written_numberLine {keyword : String} (hkeyword : breaks keyword = 0)
    (number : Option UInt32) : Written (numberLine subject keyword number) [] := by
  unfold numberLine
  split
  · exact written_nil
  · exact written_line (by simp [hkeyword])

theorem written_healthCheckItem (check : HealthCheck) :
    Written [healthCheckItem check] check.texts := by
  have hheader : breaks ("healthCheck " ++ quote check.name ++ " " ++ quote check.url) =
      breaksIn [check.name, check.url] := by simp
  exact written_entity hheader (written_append (written_append
    (written_numberLine (by decide) check.interval)
    (written_numberLine (by decide) check.timeout)) (written_propertyBlock check.properties))

theorem written_containerInstanceItems (id : ContainerInstanceId) :
    Written (containerInstanceItems w.model id)
      (w.textsIn (w.model.containerInstanceContents outer id)) := by
  unfold containerInstanceItems Model.containerInstanceContents
  cases hi : w.model.containerInstance? id with
  | none => exact written_dangling _
  | some i =>
    refine written_withToken fun token ht => written_withToken fun container hcontainer => ?_
    have hheader : breaks (token ++ " = containerInstance " ++ container) = breaksIn [] := by
      simp [breaks_token ht, breaks_token hcontainer]
    refine (written_entity hheader (written_append (written_append (written_append
      (written_tagLines i.tags) (written_propertyBlock i.properties))
      (written_numberLine (by decide) i.instanceId))
      (written_map fun check _ => written_healthCheckItem check))).congr ?_
    simp [Workspace.textsOf, Model.elementTexts, hi]

theorem written_nodeItems {children : List Item} {entries : List Entry} {id : DeploymentNodeId}
    {n : DeploymentNode} (hn : w.model.deploymentNode? id = some n)
    (hchildren : Written children (w.textsIn entries)) :
    Written (nodeItems w.model id n children) (w.textsIn (⟨some outer, .element id n.name⟩ ::
      (entries ++
        n.infrastructureNodes.flatMap
          (w.model.infrastructureNodeContents (.element id n.name)) ++
        n.containerInstances.flatMap
          (w.model.containerInstanceContents (.element id n.name))))) := by
  refine written_withToken fun token ht => written_note_cons ?_
  have hheader := breaks_elementHeader "deploymentNode" (by decide) (breaks_token ht)
      n.name [n.description, n.technology]
  refine (written_entity hheader (written_append (written_append (written_append (written_append
    (written_tagLines n.tags) (written_propertyBlock n.properties)) hchildren)
    (written_flatMap fun i _ => written_infrastructureNodeItems (.element id n.name) i))
    (written_flatMap fun i _ =>
      written_containerInstanceItems (.element id n.name) i))).congr ?_
  simp [Workspace.textsOf, Model.elementTexts, hn]

theorem written_nestedNodeItems (depth : ℕ) (outer : Subject) (id : DeploymentNodeId) :
    Written (nestedNodeItems w.model depth id)
      (w.textsIn (w.model.nodeContents depth outer id)) := by
  induction depth generalizing outer id with
  | zero =>
    unfold nestedNodeItems Model.nodeContents
    cases hn : w.model.deploymentNode? id with
    | none => exact written_dangling _
    | some n => exact written_nodeItems _ hn written_nil
  | succ depth ih =>
    unfold nestedNodeItems Model.nodeContents
    cases hn : w.model.deploymentNode? id with
    | none => exact written_dangling _
    | some n =>
      refine written_nodeItems _ hn ?_
      rw [Workspace.textsIn_flatMap]
      exact written_flatMap fun c _ => ih _ c

theorem written_environmentsItems : Written (environmentsItems w.model)
    (w.textsIn ((environmentGroups w.model).flatMap w.model.environmentContents)) := by
  unfold environmentsItems
  split
  · exact written_dangling _
  rw [Workspace.textsIn_flatMap]
  refine written_flatMap fun g _ => written_note_cons ?_
  rw [Model.environmentContents, Workspace.textsIn_cons, Workspace.textsIn_flatMap]
  exact written_namedBlock (by decide) (written_flatMap fun id _ => written_nestedNodeItems _ _ id)

theorem breaks_keyword (id : ViewId) : breaks id.keyword = 0 := by
  cases id <;> simp [ViewId.keyword]

theorem breaks_arrow {m : Model} {source target : ElementId} {ends : String}
    (h : arrow m source target = .ok ends) : breaks ends = 0 := by
  obtain ⟨s, t, hs, ht, rfl⟩ := arrow_eq_ok h
  simp [breaks_token hs, breaks_token ht]

theorem breaks_of_spells {m : Model} {ids : List ElementId} {text : String}
    (h : m.Spells ids text) : breaks text = 0 := by
  cases h with
  | nothing => decide
  | element ht afferent efferent => cases afferent <;> cases efferent <;> simp [breaks_token ht]
  | arrow hs ht => simp [breaks_token hs, breaks_token ht]

theorem written_autoLayoutLine (header : ViewHeader) :
    Written (autoLayoutLine subject header) [] := by
  unfold autoLayoutLine
  split
  · exact written_line (by decide)
  · exact written_nil

theorem written_quotedLine {keyword : String} (hkeyword : breaks keyword = 0)
    (text : Option String) : Written (quotedLine subject keyword text) text.toList := by
  unfold quotedLine
  split
  · exact written_nil
  · exact written_line (by simp [hkeyword])

theorem written_keyAndDescription (header : ViewHeader) :
    Written (keyAndDescription subject header) header.texts :=
  written_append (written_quotedLine (by decide) _) (written_quotedLine (by decide) _)

theorem written_includeItems {token : Except RenderError String}
    (h : ∀ text, token = .ok text → breaks text = 0) :
    Written (includeItems subject token) [] :=
  written_withToken fun text htext => written_line (by simp [h text htext])

theorem written_flatMap_nil {α : Type*} {f : α → List Item} {l : List α}
    (h : ∀ a ∈ l, Written (f a) []) : Written (l.flatMap f) [] :=
  flatMap_none l ▸ written_flatMap h

theorem written_inclusionItems (m : Model) (i : Inclusions) :
    Written (inclusionItems m subject i) [] := by
  have flag (condition : Bool) {text : String} (h : breaks text = 0) :
      Written (if condition then [.line subject text] else []) [] := by
    split
    · exact written_line h
    · exact written_nil
  have flags : Written (flagLines subject i) [] := by
    unfold flagLines
    split
    · exact written_line (by decide)
    · exact written_append (flag _ (by decide)) (flag _ (by decide))
  have elements : Written
      (i.elements.flatMap fun id => includeItems subject (m.token id)) [] :=
    written_flatMap_nil fun id _ => written_includeItems fun _ ht => breaks_token ht
  have expressions : Written
      (i.expressions.flatMap fun e => includeItems subject (expressionText m e)) [] :=
    written_flatMap_nil fun e _ => written_includeItems fun _ ht =>
      breaks_of_spells (spells_expressionText ht)
  exact written_append (written_append flags elements) expressions

theorem written_stepItems (m : Model) (step : DynamicStep) :
    Written (stepItems m subject step) step.texts :=
  written_withToken fun ends hends =>
    written_line (by simp [breaks_arrow hends, DynamicStep.texts])

theorem written_segmentItems (m : Model) (segment : Segment) :
    Written (segmentItems m subject segment) (segment.steps.flatMap DynamicStep.texts) := by
  cases segment with
  | single step =>
    refine (written_stepItems m step).congr ?_
    simp [Segment.steps]
  | together steps =>
    refine written_plainBlock (by decide) (written_map fun step _ => ?_)
    exact written_plainBlock (by decide) (written_stepItems m step)

theorem breaks_viewHeaderLine (id : ViewId) {scope : String} (hscope : breaks scope = 0)
    (header : ViewHeader) : breaks (viewHeaderLine id scope header) = breaksIn header.texts := by
  simp [viewHeaderLine, breaks_keyword, hscope, ViewHeader.texts]

theorem written_staticViewItems (m : Model) (id : ViewId) (scope : ElementId)
    (header : ViewHeader) (i : Inclusions) :
    Written (staticViewItems m id scope header i) header.texts := by
  refine written_withToken fun token ht => ?_
  refine (written_block (breaks_viewHeaderLine id (breaks_token ht) header)
    (written_append (written_inclusionItems m i) (written_autoLayoutLine header))).congr ?_
  simp

theorem written_dynamicViewItems (m : Model) (id : ViewId) (v : DynamicView) :
    Written (dynamicViewItems m id v) (v.header.texts ++
      v.segments.flatMap fun segment => segment.steps.flatMap DynamicStep.texts) := by
  refine written_withToken fun scope hscope => ?_
  have hbreaks : breaks scope = 0 := by
    cases hv : v.scope with
    | none =>
      rw [hv] at hscope
      cases hscope
      decide
    | some e =>
      rw [hv] at hscope
      exact breaks_token hscope
  refine (written_block (breaks_viewHeaderLine id hbreaks v.header) (written_append
    (written_flatMap fun segment _ => written_segmentItems m segment)
    (written_autoLayoutLine v.header))).congr ?_
  simp

theorem written_deploymentViewItems (m : Model) (id : ViewId) (v : DeploymentView) :
    Written (deploymentViewItems m id v) (v.header.texts ++ [v.environment.name]) := by
  have henvironment : Written
      [.line (viewSubject id v.header) ("environment " ++ quote v.environment.name)]
      [v.environment.name] := written_line (by simp)
  have elements : Written ((shownElements m v).flatMap fun e =>
      includeItems (viewSubject id v.header) (m.token e)) [] :=
    written_flatMap_nil fun e _ => written_includeItems fun _ ht => breaks_token ht
  have relationships : Written ((shownRelationships m v).flatMap fun r =>
      includeItems (viewSubject id v.header) (includedRelationship m r)) [] := by
    refine written_flatMap_nil fun r _ => written_includeItems fun text htext => ?_
    unfold includedRelationship at htext
    split at htext
    · cases htext
    · exact breaks_arrow htext
  refine (written_plainBlock (breaks_keyword id) (written_silent_append ?scope
    (written_append henvironment
      (written_append (written_append (written_append (written_keyAndDescription v.header)
        (written_autoLayoutLine v.header)) elements) relationships)))).congr ?count
  case scope =>
    split
    · exact written_nil
    · exact written_withToken fun t ht => written_line (by simp [breaks_token ht])
  case count => simp [Nat.add_comm]

theorem written_filteredViewItems (vs : Views) (id : ViewId) (v : FilteredView) :
    Written (filteredViewItems vs id v) (v.header.texts ++
      ((vs.keyOf? v.base).toList ++ v.title.toList ++ v.filters.map (·.value))) := by
  have hnote (condition : Bool) (record : Record) :
      Written (if condition then [.note record] else []) [] := by
    split
    · exact written_note record
    · exact written_nil
  have hfilter (f : FilterCriterion) :
      Written [filterLine (viewSubject id v.header) f] [f.value] := by
    have hmode : breaks f.mode.name = 0 := by cases f.mode <;> decide
    have htype : breaks f.type.label = 0 := by cases f.type <;> decide
    exact written_line (by simp [hmode, htype])
  refine (written_append (hnote _ _) (written_plainBlock (breaks_keyword id)
    (written_append (written_append (written_append (written_append
      (written_quotedLine (by decide) _) (written_quotedLine (by decide) _))
      (written_keyAndDescription v.header)) (written_map fun f _ => hfilter f))
      (written_autoLayoutLine v.header)))).congr ?_
  rw [List.map_eq_flatMap]
  simp
  omega

theorem written_viewItems (id : ViewId) :
    Written (viewItems w.model w.views id) (w.textsIn (w.views.viewContents id)) := by
  have found {α : Type} {views : Array α} {index : ℕ} {items : α → List Item}
      {header : α → ViewHeader} (hheader : w.views.header? id = (views[index]?).map header)
      (h : ∀ v, views[index]? = some v → w.views.header? id = some (header v) →
        Written (items v) (w.views.texts id)) :
      Written (((views[index]?).map items).getD [.dangling (.unknownView id)])
        (w.textsIn (w.views.viewContents id)) := by
    cases hv : views[index]? with
    | none => exact written_dangling _
    | some v =>
      rw [hv, Option.map_some] at hheader
      refine (h v hv hheader).congr ?_
      simp [Views.viewContents, hheader, Workspace.textsOf, viewSubject]
  cases id with
  | systemContext index | container index | component index =>
    refine found rfl fun v hv hheader => (written_staticViewItems ..).congr ?_
    simp [Views.texts, hheader]
  | dynamic index =>
    refine found rfl fun v hv hheader => (written_dynamicViewItems ..).congr ?_
    simp [Views.texts, hheader, hv]
  | deployment index =>
    refine found rfl fun v hv hheader => (written_deploymentViewItems ..).congr ?_
    simp [Views.texts, hheader, hv]
  | filtered index =>
    refine found rfl fun v hv hheader => (written_filteredViewItems ..).congr ?_
    simp [Views.texts, hheader, hv]

end Entities

theorem breaks_elementAttribute (a : ElementStyle.Attribute) :
    breaks a.text = breaksIn a.texts := by
  have hshape (v : Shape) : breaks v.name = 0 := by cases v <;> simp [Shape.name]
  have hborder (v : BorderStyle) : breaks v.name = 0 := by cases v <;> simp [BorderStyle.name]
  have hicons (vs : List String) :
      breaks (String.intercalate ", " (vs.map quote)) = breaksIn vs := by
    rw [breaks_intercalate (by decide)]
    induction vs with
    | nil => rfl
    | cons v vs ih => simp [ih]
  unfold ElementStyle.Attribute.text ElementStyle.Attribute.texts
  cases a <;> simp [hshape, hborder, hicons]

theorem breaks_relationshipAttribute (a : RelationshipStyle.Attribute) :
    breaks a.text = breaksIn a.texts := by
  have hline (v : LineStyle) : breaks v.name = 0 := by cases v <;> simp [LineStyle.name]
  have hrouting (v : Routing) : breaks v.name = 0 := by cases v <;> simp [Routing.name]
  have hterminator (v : Terminator) : breaks v.name = 0 := by cases v <;> simp [Terminator.name]
  unfold RelationshipStyle.Attribute.text RelationshipStyle.Attribute.texts
  cases a <;> simp [hline, hrouting, hterminator]

theorem written_styleItem {α : Type*} {tag : String} {attributes : List α} {text : α → String}
    {texts : α → List String} (h : ∀ a, breaks (text a) = breaksIn (texts a)) :
    Written [styleItem subject tag (attributes.map text)] (tag :: attributes.flatMap texts) := by
  refine written_namedBlock (by decide) ?_
  rw [List.map_map]
  exact written_map fun a _ => written_line (h a)

theorem written_stylesItems (w : Workspace) :
    Written (stylesItems w.views.styles) (w.textsIn (Views.stylesContents w.views.styles)) := by
  unfold stylesItems Views.stylesContents
  split
  · exact written_nil
  · refine written_note_cons ((written_plainBlock (by decide) (written_append
      (written_map fun style _ => written_styleItem breaks_elementAttribute)
      (written_map fun style _ => written_styleItem breaks_relationshipAttribute))).congr ?_)
    simp [Workspace.textsOf, Styles.texts]

theorem written_modelSections (w : Workspace) : List.Forall₂ Written (modelSections w.model)
    [w.model.properties.texts,
      w.textsIn ((w.model.personIds.filter fun id => w.model.isOutside (.person id)).flatMap
        (w.model.personContents .model)),
      w.textsIn ((w.model.softwareSystemIds.filter fun id =>
        w.model.isOutside (.softwareSystem id)).flatMap (w.model.softwareSystemContents .model)),
      w.textsIn (w.model.enterprise.elim [] w.model.enterpriseContents),
      w.textsIn ((environmentGroups w.model).flatMap w.model.environmentContents),
      w.textsIn (w.model.relationshipIds.flatMap w.model.relationshipContents)] := by
  rw [modelSections]
  refine .cons (written_propertyBlock _) (.cons ?people (.cons ?systems (.cons ?enterprise
    (.cons written_environmentsItems (.cons ?relationships .nil)))))
  case people =>
    rw [Workspace.textsIn_flatMap]
    exact written_flatMap fun id _ => written_personItems _ id
  case systems =>
    rw [Workspace.textsIn_flatMap]
    exact written_flatMap fun id _ => written_softwareSystemItems _ id
  case enterprise =>
    cases he : w.model.enterprise with
    | none => exact written_nil
    | some e => exact written_enterpriseItems he
  case relationships =>
    rw [Workspace.textsIn_flatMap]
    exact written_flatMap fun id _ => written_relationshipItems id

theorem written_viewSections (w : Workspace) (ids : List ViewId) : List.Forall₂ Written
    (ids.map (viewItems w.model w.views) ++ [stylesItems w.views.styles])
    (ids.map (fun id => w.textsIn (w.views.viewContents id)) ++
      [w.textsIn (Views.stylesContents w.views.styles)]) := by
  induction ids with
  | nil => exact .cons (written_stylesItems w) .nil
  | cons id ids ih => exact .cons (written_viewItems id) ih

end Dsl

end C4
