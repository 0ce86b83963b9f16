import C4.Proofs.Sections
import C4.Proofs.Slices

/-!
# Assembly

A finished document, put together from the slices of its entities. Every element, relationship
and view, and the styles, can be rendered by itself, and the document holds the result as it is,
only deeper.
-/
namespace C4

open Dsl

namespace Workspace

section Parts

variable (w : Workspace)

def inModel : Surround := [(.model, "model"), (w.subject, w.headerLine)]

def inViews : Surround := [(.views, "views"), (w.subject, w.headerLine)]

/-- The boundary of the enterprise around its properties and the slices of its members, people
before software systems. -/
def enterprisePart (around : Surround) (e : Enterprise) : List Placed :=
  enclosed around (.enterprise e.name) ("enterprise " ++ quote e.name) fun around =>
    propertyDirectives around (.enterprise e.name) e.properties ++
      e.members.flatMap (fun id =>
        match id with
        | .person id => w.slice around (.element (.person id))
        | _ => []) ++
      e.members.flatMap (fun id =>
        match id with
        | .softwareSystem id => w.slice around (.element (.softwareSystem id))
        | _ => [])

def environmentPart (around : Surround) (g : Environment × List DeploymentNodeId) : List Placed :=
  enclosed around (.environment g.1.name) ("deploymentEnvironment " ++ quote g.1.name) fun around =>
    g.2.flatMap fun id => w.slice around (.element (.deploymentNode id))

def modelParts (around : Surround) : List (List Placed) :=
  [propertyDirectives around .model w.model.properties,
    (w.model.personIds.filter fun id => w.model.isOutside (.person id)).flatMap
      fun id => w.slice around (.element (.person id)),
    (w.model.softwareSystemIds.filter fun id => w.model.isOutside (.softwareSystem id)).flatMap
      fun id => w.slice around (.element (.softwareSystem id)),
    w.model.enterprise.elim [] (w.enterprisePart around),
    (environmentGroups w.model).flatMap (w.environmentPart around),
    w.model.relationshipIds.flatMap fun id => w.slice around (.relationship id)]

def viewParts (around : Surround) : List (List Placed) :=
  w.views.ids.map (fun id => w.slice around (.view id)) ++ [w.slice around .styles]

def BeginsView (around : Surround) (id : ViewId) (placed : List Placed) : Prop :=
  ∃ name text own, w.Introduces (some .views) text (.view id name) ∧
    placed = ⟨around, .view id name, .opening text⟩ :: own

/-- What a finished document is put together from. -/
structure Assembled (l : Layout) : Prop where
  text : (w.render l).result = .ok (l.textOf (w.placed l))
  /-- Where an element or a relationship is introduced its slice begins. -/
  introduced : ∀ before p after, w.placed l = before ++ p :: after →
    ∀ r, p.entity? = some r → w.Renders l r.fragment ∧
      ∃ own, w.slice p.around r.fragment = p :: own ∧ own <+: after
  element : ∀ id, w.model.Listed id → ∃ p ∈ w.placed l, p.entity? = some (.element id)
  relationship : ∀ id ∈ w.model.relationshipIds, w.Renders l (.relationship id) ∧
    w.slice w.inModel (.relationship id) <:+: w.placed l ∧
    ∃ line, w.Introduces (some .model) line (.relationship id line) ∧
      w.slice w.inModel (.relationship id) =
        [⟨w.inModel, .relationship id line, .line line⟩]
  view : ∀ id ∈ w.views.ids, w.Renders l (.view id) ∧
    w.slice w.inViews (.view id) <:+: w.placed l ∧
    w.BeginsView w.inViews id (w.slice w.inViews (.view id))
  styles : w.views.styles.isEmpty = false → w.Renders l .styles ∧
    w.slice w.inViews .styles <:+: w.placed l ∧
    ∃ own, w.slice w.inViews .styles = ⟨w.inViews, .styles, .opening "styles"⟩ :: own
  /-- There is nothing in a document but these slices, the properties of the model, the lines
  around what belongs to the enterprise and to environments, and the gaps between sections. -/
  document : w.placed l = enclosed [] w.subject w.headerLine fun around =>
    enclosed around .model "model" (fun around =>
      setApart (l.gap around .model) (w.modelParts around)) ++
    enclosed around .views "views" (fun around =>
      setApart (l.gap around .views) (w.viewParts around))

end Parts

variable {w : Workspace} {l : Layout} {around : Surround}

theorem placedOf_enterpriseItems {e : Enterprise}
    (hfault : fault (enterpriseItems w.model e) = none) :
    placedOf around (enterpriseItems w.model e) = w.enterprisePart around e := by
  unfold enterpriseItems at hfault ⊢
  rw [fault_block, fault_append, fault_append, Option.or_eq_none_iff, Option.or_eq_none_iff]
    at hfault
  obtain ⟨⟨-, hpeople⟩, hsystems⟩ := hfault
  rw [placedOf_block]
  refine congrArg (enclosed around _ _) (funext fun around => ?_)
  rw [placedOf_append, placedOf_append, placedOf_propertyBlock]
  refine congrArg₂ (· ++ ·) (congrArg (propertyDirectives around _ _ ++ ·) ?people) ?systems
  case people =>
    refine placedOf_flatMap_eq hpeople fun id _ hid => ?_
    cases id with
    | person id => exact placedOf_eq_slice (f := .element (.person id)) hid around
    | _ => rfl
  case systems =>
    refine placedOf_flatMap_eq hsystems fun id _ hid => ?_
    cases id with
    | softwareSystem id => exact placedOf_eq_slice (f := .element (.softwareSystem id)) hid around
    | _ => rfl

theorem placedOf_environmentItems {g : Environment × List DeploymentNodeId}
    (hfault : fault (environmentItems w.model g) = none) :
    placedOf around (environmentItems w.model g) = w.environmentPart around g := by
  unfold environmentItems at hfault ⊢
  rw [fault_note_cons, fault_block] at hfault
  rw [placedOf_cons, placed_note, List.nil_append, placedOf_block]
  refine congrArg (enclosed around _ _) (funext fun around => ?_)
  exact placedOf_flatMap_eq hfault fun id _ hid =>
    placedOf_eq_slice (f := .element (.deploymentNode id)) hid around

theorem environmentsItems_of_fault {m : Model} (h : fault (environmentsItems m) = none) :
    environmentsItems m = (environmentGroups m).flatMap (environmentItems m) := by
  unfold environmentsItems at h ⊢
  cases hunknown : unknownRoot? m with
  | none => rfl
  | some id =>
    rw [hunknown, fault_dangling] at h
    cases h

theorem placedOf_modelSections (hfault : fault (modelSections w.model).flatten = none) :
    (modelSections w.model).map (placedOf around) = w.modelParts around := by
  rw [modelSections] at hfault ⊢
  simp only [List.flatten_cons, List.flatten_nil, fault_append, Option.or_eq_none_iff] at hfault
  obtain ⟨-, hpeople, hsystems, henterprise, henvironments, hrelationships, -⟩ := hfault
  simp only [modelParts, List.map_cons, List.map_nil, List.cons.injEq, and_true]
  refine ⟨placedOf_propertyBlock .., ?people, ?systems, ?enterprise, ?environments,
    ?relationships⟩
  case people =>
    exact placedOf_flatMap_eq hpeople fun id _ hid =>
      placedOf_eq_slice (f := .element (.person id)) hid around
  case systems =>
    exact placedOf_flatMap_eq hsystems fun id _ hid =>
      placedOf_eq_slice (f := .element (.softwareSystem id)) hid around
  case enterprise =>
    cases he : w.model.enterprise with
    | none => rfl
    | some e =>
      rw [he] at henterprise
      exact placedOf_enterpriseItems henterprise
  case environments =>
    have hdrawn := environmentsItems_of_fault henvironments
    rw [hdrawn] at henvironments ⊢
    exact placedOf_flatMap_eq henvironments fun g _ hg => placedOf_environmentItems hg
  case relationships =>
    exact placedOf_flatMap_eq hrelationships fun id _ hid =>
      placedOf_eq_slice (f := .relationship id) hid around

theorem placedOf_viewSections (hfault : fault (w.views.ids.map (viewItems w.model w.views) ++
      [stylesItems w.views.styles]).flatten = none) :
    (w.views.ids.map (viewItems w.model w.views) ++ [stylesItems w.views.styles]).map
      (placedOf around) = w.viewParts around := by
  have hnone (items : List Item) (hitems : items ∈ w.views.ids.map (viewItems w.model w.views) ++
      [stylesItems w.views.styles]) : fault items = none :=
    fault_of_isInfix (List.infix_of_mem_flatten hitems) hfault
  rw [List.map_append, List.map_map, viewParts]
  refine congrArg₂ (· ++ ·) ?_ ?_
  · refine List.map_congr_left fun id hid => placedOf_eq_slice (f := .view id) ?_ around
    exact hnone _ (List.mem_append_left _ (List.mem_map_of_mem hid))
  · have hstyles := hnone _ (List.mem_append_right _ List.mem_cons_self)
    exact congrArg (fun placed => [placed]) (placedOf_eq_slice (f := .styles) hstyles around)

theorem exists_slice_relationship {id : RelationshipId}
    (hfault : fault (Fragment.outline w (.relationship id)) = none) :
    ∃ line, w.Introduces (some .model) line (.relationship id line) ∧
      w.slice around (.relationship id) = [⟨around, .relationship id line, .line line⟩] := by
  rw [← placedOf_eq_slice hfault]
  rw [Fragment.outline] at hfault ⊢
  unfold relationshipItems at hfault ⊢
  cases hr : w.model.relationship? id with
  | none =>
    rw [hr, fault_dangling] at hfault
    cases hfault
  | some r =>
    rw [hr] at hfault
    obtain ⟨ends, hends, -⟩ := exists_token_of_fault hfault
    obtain ⟨source, target, hsource, htarget, rfl⟩ := arrow_eq_ok hends
    refine ⟨_, .relationship hr hsource htarget, ?_⟩
    simp [withToken, hends]

section View

variable {id : ViewId} {header : ViewHeader} {body : List Item}

theorem beginsView_block (hview : w.views.header? id = some header) {text : String}
    (htext : text = id.keyword ∨ ∃ scope, text = viewHeaderLine id scope header) :
    w.BeginsView around id (placedOf around [.block (viewSubject id header) text body]) :=
  ⟨_, text, _, .view hview htext, placedOf_block ..⟩

theorem beginsView_withToken (hview : w.views.header? id = some header)
    {token : Except RenderError String} {body : String → List Item}
    (hfault : fault (withToken token fun scope =>
      [.block (viewSubject id header) (viewHeaderLine id scope header) (body scope)]) = none) :
    w.BeginsView around id (placedOf around (withToken token fun scope =>
      [.block (viewSubject id header) (viewHeaderLine id scope header) (body scope)])) := by
  obtain ⟨scope, rfl, -⟩ := exists_token_of_fault hfault
  exact beginsView_block hview (Or.inr ⟨scope, rfl⟩)

theorem beginsView_viewItems (hfault : fault (viewItems w.model w.views id) = none) :
    w.BeginsView around id (placedOf around (viewItems w.model w.views id)) := by
  have found {α : Type} {views : Array α} {index : ℕ} {items : α → List Item}
      {header : α → ViewHeader} (hheader : w.views.header? id = (views[index]?).map header)
      (hitems : fault (((views[index]?).map items).getD [.dangling (.unknownView id)]) = none)
      (h : ∀ v, w.views.header? id = some (header v) → fault (items v) = none →
        w.BeginsView around id (placedOf around (items v))) :
      w.BeginsView around id
        (placedOf around (((views[index]?).map items).getD [.dangling (.unknownView id)])) := by
    cases hv : views[index]? with
    | none =>
      rw [hv] at hitems
      cases (fault_dangling _).symm.trans hitems
    | some v =>
      rw [hv] at hheader hitems
      exact h v hheader hitems
  unfold viewItems at hfault ⊢
  cases id with
  | systemContext index => exact found rfl hfault fun v hv hitems => beginsView_withToken hv hitems
  | container index => exact found rfl hfault fun v hv hitems => beginsView_withToken hv hitems
  | component index => exact found rfl hfault fun v hv hitems => beginsView_withToken hv hitems
  | dynamic index => exact found rfl hfault fun v hv hitems => beginsView_withToken hv hitems
  | deployment index => exact found rfl hfault fun v hv _ => beginsView_block hv (Or.inl rfl)
  | filtered index =>
    refine found rfl hfault fun v hv _ => ?_
    unfold filteredViewItems
    rw [placedOf_append]
    have homitted : placedOf around (if (w.views.keyOf? v.base).isNone then
        [.note ⟨.debug, "Base view has no key, omitting baseView",
          [("view", (viewSubject (.filtered index) v.header).name)]⟩] else []) = [] := by
      split <;> simp
    rw [homitted]
    exact beginsView_block hv (Or.inl rfl)

end View

theorem exists_slice_styles (hstyles : w.views.styles.isEmpty = false)
    (hfault : fault (Fragment.outline w .styles) = none) :
    ∃ own, w.slice around .styles = ⟨around, .styles, .opening "styles"⟩ :: own := by
  rw [← placedOf_eq_slice hfault, Fragment.outline, stylesItems, hstyles,
    if_neg Bool.false_ne_true, placedOf_cons, placed_note, List.nil_append, placedOf_block]
  exact ⟨_, rfl⟩

section Finished

variable (hfault : fault (w.outline l) = none)
include hfault

theorem fault_sections : fault (modelSections w.model).flatten = none ∧
    fault (w.views.ids.map (viewItems w.model w.views) ++
      [stylesItems w.views.styles]).flatten = none := by
  rwa [fault_outline_eq, Option.or_eq_none_iff, modelBlock, viewsBlock, fault_block, fault_block,
    fault_spaced (fault_separator l _), fault_spaced (fault_separator l _)] at hfault

theorem modelDirectives_eq : w.modelDirectives l =
    enclosed [(w.subject, w.headerLine)] .model "model" fun around =>
      setApart (l.gap around .model) (w.modelParts around) := by
  obtain ⟨hmodel, -⟩ := fault_sections hfault
  rw [modelDirectives_eq_placedOf, modelBlock, placedOf_block]
  refine congrArg (enclosed _ _ _) (funext fun around => ?_)
  rw [placedOf_spaced hmodel (shown_modelSections w.model), placedOf_separator,
    placedOf_modelSections hmodel]

theorem viewsDirectives_eq : w.viewsDirectives l =
    enclosed [(w.subject, w.headerLine)] .views "views" fun around =>
      setApart (l.gap around .views) (w.viewParts around) := by
  obtain ⟨-, hviews⟩ := fault_sections hfault
  rw [viewsDirectives_eq_placedOf, viewsBlock, placedOf_block]
  refine congrArg (enclosed _ _ _) (funext fun around => ?_)
  rw [placedOf_spaced hviews (shown_viewSections w.model w.views), placedOf_separator,
    placedOf_viewSections hviews]

theorem placed_eq_enclosed : w.placed l = enclosed [] w.subject w.headerLine fun around =>
    enclosed around .model "model" (fun around =>
      setApart (l.gap around .model) (w.modelParts around)) ++
    enclosed around .views "views" (fun around =>
      setApart (l.gap around .views) (w.viewParts around)) := by
  rw [placed_of_outcome_ok (outcome_ok_iff_fault.2 hfault), modelDirectives_eq hfault,
    viewsDirectives_eq hfault]
  simp [enclosed]

theorem infix_of_mem_modelParts {part : List Placed} (hpart : part ∈ w.modelParts w.inModel) :
    part <:+: w.placed l := by
  rw [placed_eq_enclosed hfault]
  refine infix_enclosed (.trans (infix_enclosed ?_) (List.prefix_append ..).isInfix)
  exact infix_setApart hpart

theorem infix_of_mem_viewParts {part : List Placed} (hpart : part ∈ w.viewParts w.inViews) :
    part <:+: w.placed l := by
  rw [placed_eq_enclosed hfault]
  refine infix_enclosed (.trans (infix_enclosed ?_) (List.suffix_append ..).isInfix)
  exact infix_setApart hpart

theorem fault_of_relationship {id : RelationshipId} (hid : id ∈ w.model.relationshipIds) :
    fault (Fragment.outline w (.relationship id)) = none := by
  have hsection : w.model.relationshipIds.flatMap (relationshipItems w.model) ∈
      modelSections w.model := by simp [modelSections]
  have hsections := fault_of_isInfix (List.infix_of_mem_flatten hsection) (fault_sections hfault).1
  exact fault_of_isInfix (infix_flatMap (relationshipItems w.model) hid) hsections

theorem fault_of_view {id : ViewId} (hid : id ∈ w.views.ids) :
    fault (Fragment.outline w (.view id)) = none := by
  have hsection : viewItems w.model w.views id ∈
      w.views.ids.map (viewItems w.model w.views) ++ [stylesItems w.views.styles] :=
    List.mem_append_left _ (List.mem_map_of_mem hid)
  exact fault_of_isInfix (List.infix_of_mem_flatten hsection) (fault_sections hfault).2

theorem fault_of_styles : fault (Fragment.outline w .styles) = none := by
  have hsection : stylesItems w.views.styles ∈
      w.views.ids.map (viewItems w.model w.views) ++ [stylesItems w.views.styles] :=
    List.mem_append_right _ List.mem_cons_self
  exact fault_of_isInfix (List.infix_of_mem_flatten hsection) (fault_sections hfault).2

theorem exists_placed_of_listed (h : w.model.skeleton.Sound) {id : ElementId}
    (hid : w.model.Listed id) : ∃ p ∈ w.placed l, p.entity? = some (.element id) := by
  have hmodel : fault [modelBlock l w.model] = none := by
    rw [fault_outline_eq, Option.or_eq_none_iff] at hfault
    exact hfault.1
  -- Members that do not exist would have stopped the rendering.
  have hmembers : ∀ r ∈ w.model.memberReferences, w.model.exists? r = true := by
    have hnone := hmodel
    rw [fault_modelBlock h, w.model.missing_eq_none_iff] at hnone
    exact fun r hr => hnone r (List.mem_append_left _ (List.mem_append_left _ hr))
  have hmem : .element id ∈ referencesIn w.model.elementContents :=
    (Model.referencesIn_elementContents_perm h hmembers).mem_iff.2
      (List.mem_map_of_mem ((Model.mem_elements h).2 hid))
  have hdirectives : .element id ∈ (w.modelDirectives l).filterMap Placed.entity? := by
    rw [filterMap_entity?, modelDirectives_eq_placedOf, (fits_modelBlock w l).complete hmodel]
    change _ ∈ referencesIn (w.model.elementContents ++ _)
    rw [referencesIn_append]
    exact List.mem_append_left _ hmem
  obtain ⟨p, hp, hp'⟩ := List.mem_filterMap.1 hdirectives
  refine ⟨p, ?_, hp'⟩
  rw [placed_of_outcome_ok (outcome_ok_iff_fault.2 hfault)]
  exact List.mem_append_left _ (List.mem_append_right _ hp)

theorem Assembled.of_fault (h : w.model.skeleton.Sound) : w.Assembled l := by
  refine ⟨?text, ?introduced, fun id => exists_placed_of_listed hfault h, ?relationship, ?view,
    ?styles, placed_eq_enclosed hfault⟩
  case text => exact result_of_fault hfault
  case introduced =>
    intro before p after hsplit r hr
    have hsliced := sliced_placed h hfault
    rw [hsplit] at hsliced
    obtain ⟨hown, hslice⟩ := hsliced.starts hr
    exact ⟨renders_of_fault hown l, hslice⟩
  case relationship =>
    intro id hid
    have hown := fault_of_relationship hfault hid
    have hslice := infix_flatMap (fun id => w.slice w.inModel (.relationship id)) hid
    refine ⟨renders_of_fault hown l, hslice.trans ?_, exists_slice_relationship hown⟩
    exact infix_of_mem_modelParts hfault (by simp [modelParts])
  case view =>
    intro id hid
    have hown := fault_of_view hfault hid
    have hbegins : w.BeginsView w.inViews id (w.slice w.inViews (.view id)) :=
      placedOf_eq_slice hown w.inViews ▸ beginsView_viewItems hown
    refine ⟨renders_of_fault hown l, infix_of_mem_viewParts hfault ?_, hbegins⟩
    exact List.mem_append_left _ (List.mem_map_of_mem hid)
  case styles =>
    intro hstyles
    have hown := fault_of_styles hfault
    refine ⟨renders_of_fault hown l, infix_of_mem_viewParts hfault ?_,
      exists_slice_styles hstyles hown⟩
    exact List.mem_append_right _ List.mem_cons_self

end Finished

/-- What a view refers to can be found if the view was rendered, by itself or in a document. -/
theorem fault_of_shown {id : ViewId} (hid : id ∈ w.views.ids)
    (hok : (∃ text, (w.renderFragment (.view id) l).result = .ok text) ∨
      ∃ text, (w.render l).result = .ok text) : fault (Fragment.outline w (.view id)) = none := by
  rcases hok with ⟨text, hok⟩ | hok
  · exact fault_of_renderFragment hok
  · exact fault_of_view (outcome_ok_iff_fault.1 (exists_result_iff.1 hok)) hid

end Workspace

/-- Whatever a finished document holds is a slice that a fragment comes to by itself, or stands
around such slices. -/
theorem document_assembled (w : Workspace) (l : Layout) (hm : w.model.Reachable)
    (hok : ∃ text, (w.render l).result = .ok text) : w.Assembled l := by
  have hfault := Workspace.outcome_ok_iff_fault.1 (Workspace.exists_result_iff.1 hok)
  exact Workspace.Assembled.of_fault hfault hm.sound

/-- A node with an instance on it is nested in a root and stands four levels deep. -/
theorem document_assembled_with_nested_node :
    ∃ w : Workspace, w.model.Reachable ∧ (∃ text, (w.render ⟨2, true⟩).result = .ok text) ∧
      w.Assembled ⟨2, true⟩ ∧
      (∃ before p after, w.placed ⟨2, true⟩ = before ++ p :: after ∧
        p.entity? = some (.element (.deploymentNode ⟨1⟩)) ∧ p.around.length = 4 ∧
        ∃ own, w.slice p.around (.element (.deploymentNode ⟨1⟩)) = p :: own ∧ own <+: after) ∧
      (w.fragmentPlaced (.element (.deploymentNode ⟨1⟩))).length = 5 ∧
      w.slice w.inModel (.relationship ⟨0⟩) <:+: w.placed ⟨2, true⟩ ∧
      w.slice w.inViews (.view (.container 0)) <:+: w.placed ⟨2, true⟩ ∧
      w.slice w.inViews .styles <:+: w.placed ⟨2, true⟩ := by
  let history : List Edit := [.addPerson "User" "", .addPerson "Clerk" "",
    .addSoftwareSystem "Bank" "", .addContainer ⟨0⟩ "Ledger", .setEnterprise "Group",
    .setEnterpriseProperty "kind" "bank", .addToEnterprise (.person ⟨1⟩),
    .addDeploymentNode "Site" "" "" .production, .addChildNode ⟨0⟩ "Rack" "" "",
    .addContainerInstance ⟨1⟩ ⟨0⟩,
    .setContainerInstance ⟨0⟩ (.healthCheck (.create "Ping" "/ping")),
    .addRelationship (.person ⟨0⟩) (.containerInstance ⟨0⟩), .setProperty "stage" "test"]
  let views := (Views.empty.addContainerView ⟨0⟩ "" "").2
  obtain ⟨w, hm, hfault, hfacts⟩ : ∃ w : Workspace,
      Model.empty.performAll history = some w.model ∧ fault (w.outline ⟨2, true⟩) = none ∧
      ((w.placed ⟨2, true⟩).filter fun p =>
        p.entity? = some (.element (.deploymentNode ⟨1⟩))).map (·.around.length) = [4] ∧
      (w.fragmentPlaced (.element (.deploymentNode ⟨1⟩))).length = 5 ∧
      w.model.relationshipIds = [⟨0⟩] ∧ w.views.ids = [.container 0] ∧
      w.views.styles.isEmpty = false :=
    ⟨{ Workspace.empty with
      model := (Model.empty.performAll history).getD .empty
      views := { views with styles := Styles.empty.addElementStyle (.create "Person") } },
      by decide +kernel⟩
  obtain ⟨hdepth, hlength, hrelationships, hviews, hstyles⟩ := hfacts
  have hreachable : w.model.Reachable := ⟨history, hm⟩
  have hok : ∃ text, (w.render ⟨2, true⟩).result = .ok text :=
    Workspace.exists_result_iff.2 (Workspace.outcome_ok_iff_fault.2 hfault)
  have hassembled := document_assembled w ⟨2, true⟩ hreachable hok
  obtain ⟨p, hp, hpdepth⟩ := List.mem_map.1
    (hdepth ▸ List.mem_singleton_self 4 : 4 ∈ (((w.placed ⟨2, true⟩).filter fun p =>
      p.entity? = some (.element (.deploymentNode ⟨1⟩))).map (·.around.length)))
  obtain ⟨hmem, hid⟩ := List.mem_filter.1 hp
  rw [decide_eq_true_iff] at hid
  obtain ⟨before, after, hsplit⟩ := List.append_of_mem hmem
  refine ⟨w, hreachable, hok, hassembled, ⟨before, p, after, hsplit, hid, hpdepth, ?_⟩, hlength,
    (hassembled.relationship _ ?_).2.1, (hassembled.view _ ?_).2.1,
    (hassembled.styles hstyles).2.1⟩
  · exact (hassembled.introduced before p after hsplit _ hid).2
  · rw [hrelationships]
    exact List.mem_singleton_self _
  · rw [hviews]
    exact List.mem_singleton_self _

end C4
