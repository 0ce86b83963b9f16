import C4.Proofs.Delivery
import C4.Proofs.Deployed
import C4.Proofs.Faults

/-!
# Resolution

A rendering succeeds if and only if everything that the workspace refers to exists, and otherwise
its error is about the first reference that does not resolve.
-/
namespace C4

open Dsl Forest

namespace Model

variable {m : Model}

theorem tokenFault_token (h : m.skeleton.Sound) (id : ElementId) :
    tokenFault (m.token id) = m.missing (m.tokenReferences id) := by
  -- An element with a name of its own only has to exist; an instance also needs a container.
  have named {id : ElementId} {r : Reference} (hr : r.error = .unknownElement id)
      (hexists : (m.nameOf? id).isSome = m.exists? r)
      (hnone : m.nameOf? id = none → m.token id = .error (.unknownElement id))
      (hsome : ∀ name, m.nameOf? id = some name → m.token id = .ok (identifier name)) :
      tokenFault (m.token id) = m.missing [r] := by
    cases hname : m.nameOf? id with
    | none =>
      rw [hname] at hexists
      rw [hnone hname, m.missing_of_not_exists hexists.symm, hr]
      rfl
    | some name =>
      rw [hname] at hexists
      rw [hsome name hname, m.missing_of_exists hexists.symm]
      rfl
  cases id with
  | person | softwareSystem | container | component | deploymentNode | infrastructureNode =>
    refine named rfl Option.isSome_map (fun hname => ?_) fun name hname => ?_
    · simp only [token, hname]
    · simp only [token, hname]
  | containerInstance id =>
    simp only [token, tokenReferences]
    cases hi : m.containerInstance? id with
    | none =>
      have hid : m.exists? (.element (.containerInstance id)) = false := by simp [exists?, hi]
      exact (m.missing_of_not_exists hid).symm
    | some i =>
      have hid : m.exists? (.element (.containerInstance id)) = true := by simp [exists?, hi]
      rw [missing_cons, m.missing_of_exists hid, Option.none_or]
      cases hc : m.container? i.container with
      | none =>
        have hcontainer : m.exists? (.element i.container) = false := by simp [exists?, hc]
        simp only [m.missing_of_not_exists hcontainer, hc]
        rfl
      | some c =>
        have hcontainer : m.exists? (.element i.container) = true := by simp [exists?, hc]
        obtain ⟨n, hn⟩ := Option.isSome_iff_exists.1 (host_isSome h hi)
        simp only [m.missing_of_exists hcontainer, hc, hn]
        rfl

theorem tokenFault_arrow (h : m.skeleton.Sound) (source target : ElementId) :
    tokenFault (arrow m source target) = m.missing (m.endReferences source target) := by
  rw [endReferences, missing_append, ← tokenFault_token h, ← tokenFault_token h]
  unfold arrow
  cases m.token source with
  | error e => rfl
  | ok s =>
    cases m.token target with
    | error e => rfl
    | ok t => rfl

end Model

section Elements

variable {m : Model}

@[simp] theorem fault_tagLines (subject : Subject) (tags : Tags) :
    fault (tagLines subject tags) = none := by
  unfold tagLines
  split <;> simp

@[simp] theorem fault_propertyBlock (subject : Subject) (properties : Properties) :
    fault (propertyBlock subject properties) = none := by
  unfold propertyBlock
  split
  · exact fault_nil
  · rw [fault_block]
    exact fault_map_eq_none fun entry _ => fault_line ..

@[simp] theorem fault_numberLine (subject : Subject) (keyword : String) (number : Option UInt32) :
    fault (numberLine subject keyword number) = none := by
  unfold numberLine
  split <;> simp

@[simp] theorem fault_healthCheckItem (check : HealthCheck) :
    fault [healthCheckItem check] = none := by
  simp [healthCheckItem, fault_append]

theorem fault_unknownElement {id : ElementId} (h : m.exists? (.element id) = false) :
    fault [.dangling (.unknownElement id)] = m.missing [.element id] :=
  (fault_dangling _).trans (m.missing_of_not_exists h).symm

theorem fault_personItems (h : m.skeleton.Sound) (id : PersonId) :
    fault (personItems m id) = m.missing [.element id] := by
  unfold personItems
  cases hp : m.person? id with
  | none => exact fault_unknownElement (by simp [Model.exists?, hp])
  | some p =>
    refine (fault_withToken fun t _ => ?_).trans (Model.tokenFault_token h _)
    simp

theorem fault_componentItems (h : m.skeleton.Sound) (id : ComponentId) :
    fault (componentItems m id) = m.missing [.element id] := by
  unfold componentItems
  cases hc : m.component? id with
  | none => exact fault_unknownElement (by simp [Model.exists?, hc])
  | some c =>
    refine (fault_withToken fun t _ => ?_).trans (Model.tokenFault_token h _)
    simp

theorem fault_containerItems (h : m.skeleton.Sound) (id : ContainerId) :
    fault (containerItems m id) = m.missing [.element id] := by
  unfold containerItems
  cases hc : m.container? id with
  | none => exact fault_unknownElement (by simp [Model.exists?, hc])
  | some c =>
    refine (fault_withToken fun t _ => ?_).trans (Model.tokenFault_token h _)
    have hcomponents : fault (c.components.flatMap (componentItems m)) = none := by
      refine fault_flatMap_eq_none fun x hx => ?_
      have hmem : x ∈ m.componentsOf id := by simpa [Model.componentsOf, hc] using hx
      rw [fault_componentItems h]
      exact m.missing_of_exists (Model.component_isSome h hmem)
    simp [fault_append, hcomponents]

theorem fault_softwareSystemItems (h : m.skeleton.Sound) (id : SoftwareSystemId) :
    fault (softwareSystemItems m id) = m.missing [.element id] := by
  unfold softwareSystemItems
  cases hs : m.softwareSystem? id with
  | none => exact fault_unknownElement (by simp [Model.exists?, hs])
  | some s =>
    refine (fault_withToken fun t _ => ?_).trans (Model.tokenFault_token h _)
    have hcontainers : fault (s.containers.flatMap (containerItems m)) = none := by
      refine fault_flatMap_eq_none fun c hc => ?_
      have hmem : c ∈ m.containersOf id := by simpa [Model.containersOf, hs] using hc
      rw [fault_containerItems h]
      exact m.missing_of_exists (Model.container_isSome h hmem)
    simp [fault_append, hcontainers]

theorem fault_enterpriseItems (h : m.skeleton.Sound) {e : Enterprise}
    (he : m.enterprise = some e) :
    fault (enterpriseItems m e) = m.missing m.memberReferences := by
  have hmembers : m.members = e.members := by rw [Model.members, he]; rfl
  unfold enterpriseItems Model.memberReferences
  rw [fault_block, fault_append, fault_append, fault_propertyBlock, Option.none_or,
    m.missing_append, hmembers]
  congr 1
  · refine fault_flatMap_eq_missing fun id _ => ?_
    cases id with
    | person id => exact fault_personItems h id
    | _ => exact fault_nil
  · refine fault_flatMap_eq_missing fun id _ => ?_
    cases id with
    | softwareSystem id => exact fault_softwareSystemItems h id
    | _ => exact fault_nil

theorem fault_relationshipItems (h : m.skeleton.Sound) (id : RelationshipId)
    (hid : (m.relationship? id).isSome) :
    fault (relationshipItems m id) = m.missing (m.relationshipReferences id) := by
  obtain ⟨r, hr⟩ := Option.isSome_iff_exists.1 hid
  unfold relationshipItems Model.relationshipReferences
  simp only [hr]
  refine (fault_withToken fun ends _ => ?_).trans (Model.tokenFault_arrow h ..)
  exact fault_line ..

theorem fault_infrastructureNodeItems (h : m.skeleton.Sound) (id : InfrastructureNodeId) :
    fault (infrastructureNodeItems m id) = m.missing [.element id] := by
  unfold infrastructureNodeItems
  cases hn : m.infrastructureNode? id with
  | none => exact fault_unknownElement (by simp [Model.exists?, hn])
  | some n =>
    refine (fault_withToken fun t _ => ?_).trans (Model.tokenFault_token h _)
    simp [fault_append]

/-- The container is looked up twice, for the instance and for itself. -/
theorem fault_containerInstanceItems (h : m.skeleton.Sound) (id : ContainerInstanceId)
    (hid : (m.containerInstance? id).isSome) :
    fault (containerInstanceItems m id) = m.missing (m.instanceReferences id) := by
  obtain ⟨i, hi⟩ := Option.isSome_iff_exists.1 hid
  have hinstance : m.exists? (.element (.containerInstance id)) = true := hid
  have htoken : tokenFault (m.token id) = m.missing [.element i.container] := by
    rw [Model.tokenFault_token h, Model.tokenReferences, m.missing_cons,
      m.missing_of_exists hinstance, Option.none_or]
    simp only [hi]
  unfold containerInstanceItems Model.instanceReferences
  simp only [hi]
  rw [← htoken]
  cases ht : m.token id with
  | error e => exact fault_dangling e
  | ok t =>
    rw [ht] at htoken
    have hcontainer : tokenFault (m.token i.container) = none :=
      (Model.tokenFault_token h _).trans htoken.symm
    have hchecks : fault (i.healthChecks.map healthCheckItem) = none :=
      fault_map_eq_none fun check _ => fault_healthCheckItem check
    change fault (withToken (m.token i.container) _) = none
    refine (fault_withToken fun c _ => ?_).trans hcontainer
    simp [fault_append, hchecks]

theorem fault_nodeEntity (h : m.skeleton.Sound) {id : DeploymentNodeId} {n : DeploymentNode}
    (hn : m.deploymentNode? id = some n) {children : List Item} {references : List Reference}
    (hchildren : fault children = m.missing references) (subject : Subject) (text : String) :
    fault [.entity subject text
      (tagLines subject n.tags ++ propertyBlock subject n.properties ++ children ++
        n.infrastructureNodes.flatMap (infrastructureNodeItems m) ++
        n.containerInstances.flatMap (containerInstanceItems m))] =
      m.missing (references ++ (m.instancesOf id).flatMap m.instanceReferences) := by
  have hlisted : m.infrastructureOf id = n.infrastructureNodes := by
    simp [Model.infrastructureOf, hn]
  have hrun : m.instancesOf id = n.containerInstances := by simp [Model.instancesOf, hn]
  -- What a node lists exists, so infrastructure is no source of faults.
  have infrastructure :
      fault (n.infrastructureNodes.flatMap (infrastructureNodeItems m)) = none := by
    refine fault_flatMap_eq_none fun i hi => ?_
    rw [fault_infrastructureNodeItems h, m.missing_of_exists (r := .element i)
      (Model.infrastructureNode_isSome h (hlisted ▸ hi))]
  have instances : fault (n.containerInstances.flatMap (containerInstanceItems m)) =
      m.missing (n.containerInstances.flatMap m.instanceReferences) :=
    fault_flatMap_eq_missing fun i hi =>
      fault_containerInstanceItems h i (Model.containerInstance_isSome h (hrun ▸ hi))
  rw [fault_entity, fault_append, fault_append, fault_append, fault_append, fault_tagLines,
    fault_propertyBlock, Option.none_or, Option.none_or, hchildren, infrastructure, instances,
    Option.or_none, m.missing_append, hrun]

theorem tokenFault_node (h : m.skeleton.Sound) {id : DeploymentNodeId}
    (hid : (m.deploymentNode? id).isSome) : tokenFault (m.token id) = none :=
  (Model.tokenFault_token h _).trans (m.missing_of_exists (r := .element id) hid)

theorem fault_nestedNodeItems (h : m.skeleton.Sound) (depth : ℕ) {id : DeploymentNodeId}
    (hid : (m.deploymentNode? id).isSome) :
    fault (nestedNodeItems m depth id) = m.missing (m.nodeReferences depth id) := by
  induction depth generalizing id with
  | zero =>
    obtain ⟨n, hn⟩ := Option.isSome_iff_exists.1 hid
    unfold nestedNodeItems Model.nodeReferences
    simp only [hn]
    refine fault_withToken_of_resolved (tokenFault_node h hid) fun t _ =>
      (fault_note_cons ..).trans ?_
    exact fault_nodeEntity h hn (fault_nil : fault [] = m.missing []) ..
  | succ depth ih =>
    obtain ⟨n, hn⟩ := Option.isSome_iff_exists.1 hid
    unfold nestedNodeItems Model.nodeReferences
    simp only [hn]
    refine fault_withToken_of_resolved (tokenFault_node h hid) fun t _ =>
      (fault_note_cons ..).trans ?_
    have hlisted : m.childrenOf id = n.children := by simp [Model.childrenOf, hn]
    have hchildren : fault (n.children.flatMap (nestedNodeItems m depth)) =
        m.missing ((m.childrenOf id).flatMap (m.nodeReferences depth)) := by
      rw [hlisted]
      exact fault_flatMap_eq_missing fun c hc => ih (Model.child_isSome h (hlisted ▸ hc))
    exact fault_nodeEntity h hn hchildren ..

theorem fault_environmentsItems (h : m.skeleton.Sound) :
    fault (environmentsItems m) = m.missing m.deploymentReferences := by
  rw [environmentsItems_of_isSome fun id => Model.root_isSome h]
  refine fault_flatMap_eq_missing fun g hg => ?_
  unfold environmentItems
  rw [fault_note_cons, fault_block]
  refine fault_flatMap_eq_missing fun id hid => ?_
  obtain ⟨-, hids⟩ := gathers_of_mem hg
  exact fault_nestedNodeItems h _ (Model.root_isSome h (hids id hid).1)

end Elements

section Views

variable {m : Model}

@[simp] theorem fault_autoLayoutLine (subject : Subject) (header : ViewHeader) :
    fault (autoLayoutLine subject header) = none := by
  unfold autoLayoutLine
  split <;> simp

@[simp] theorem fault_quotedLine (subject : Subject) (keyword : String) (text : Option String) :
    fault (quotedLine subject keyword text) = none := by
  unfold quotedLine
  split <;> simp

@[simp] theorem fault_keyAndDescription (subject : Subject) (header : ViewHeader) :
    fault (keyAndDescription subject header) = none := by
  simp [keyAndDescription, fault_append]

theorem fault_includeItems (subject : Subject) (token : Except RenderError String) :
    fault (includeItems subject token) = tokenFault token :=
  fault_withToken fun _ _ => fault_line ..

@[simp] theorem fault_flagLines (subject : Subject) (i : Inclusions) :
    fault (flagLines subject i) = none := by
  unfold flagLines
  split
  · exact fault_line ..
  · rw [fault_append]
    split <;> split <;> simp

theorem tokenFault_optionalToken (h : m.skeleton.Sound) (id : Option ElementId) :
    tokenFault (optionalToken m id) = m.missing (id.toList.flatMap m.tokenReferences) := by
  cases id with
  | none => rfl
  | some id =>
    rw [Option.toList_some, List.flatMap_singleton, ← Model.tokenFault_token h]
    change tokenFault ((m.token id).map some) = _
    cases m.token id <;> rfl

theorem tokenFault_expressionText (h : m.skeleton.Sound) (e : IncludeExpression) :
    tokenFault (expressionText m e) = m.missing (e.references m) := by
  rw [IncludeExpression.references, List.flatMap_append, List.flatMap_append, m.missing_append,
    m.missing_append, ← tokenFault_optionalToken h, ← tokenFault_optionalToken h,
    ← tokenFault_optionalToken h]
  unfold expressionText
  cases optionalToken m e.subject with
  | error e => rfl
  | ok s =>
    cases optionalToken m e.source with
    | error e => rfl
    | ok f =>
      cases optionalToken m e.target with
      | error e => rfl
      | ok t => rfl

theorem fault_inclusionItems (h : m.skeleton.Sound) (subject : Subject) (i : Inclusions) :
    fault (inclusionItems m subject i) = m.missing
      (i.elements.flatMap m.tokenReferences ++
        i.expressions.flatMap (IncludeExpression.references m)) := by
  unfold inclusionItems
  rw [fault_append, fault_append, fault_flagLines, Option.none_or, m.missing_append]
  congr 1
  · exact fault_flatMap_eq_missing fun id _ =>
      (fault_includeItems ..).trans (Model.tokenFault_token h id)
  · exact fault_flatMap_eq_missing fun e _ =>
      (fault_includeItems ..).trans (tokenFault_expressionText h e)

theorem fault_withToken_eq_missing {token : Except RenderError String}
    {draw : String → List Item} {references more : List Reference}
    (htoken : tokenFault token = m.missing references)
    (hdraw : ∀ t, token = .ok t → fault (draw t) = m.missing more) :
    fault (withToken token draw) = m.missing (references ++ more) := by
  rw [m.missing_append, ← htoken]
  cases token with
  | error e => exact fault_dangling e
  | ok t => exact hdraw t rfl

theorem fault_staticViewItems (h : m.skeleton.Sound) {σ : Type} (id : ViewId) (scope : ElementId)
    (v : StaticView σ) :
    fault (staticViewItems m id scope v.header v.inclusions) =
      m.missing (v.references m scope) := by
  unfold staticViewItems StaticView.references
  rw [List.append_assoc]
  refine fault_withToken_eq_missing (Model.tokenFault_token h scope) fun t _ => ?_
  rw [fault_block, fault_append, fault_autoLayoutLine, Option.or_none, fault_inclusionItems h]

theorem fault_stepItems (h : m.skeleton.Sound) (subject : Subject) (step : DynamicStep) :
    fault (stepItems m subject step) = m.missing (m.endReferences step.source step.target) :=
  (fault_withToken fun _ _ => fault_line ..).trans (Model.tokenFault_arrow h ..)

theorem fault_segmentItems (h : m.skeleton.Sound) (subject : Subject) (segment : Segment) :
    fault (segmentItems m subject segment) = m.missing
      (segment.steps.flatMap fun step => m.endReferences step.source step.target) := by
  cases segment with
  | single step =>
    rw [Segment.steps, List.flatMap_singleton]
    exact fault_stepItems h subject step
  | together steps =>
    unfold segmentItems Segment.steps
    rw [fault_block, List.map_eq_flatMap]
    refine fault_flatMap_eq_missing fun step _ => ?_
    rw [fault_block, fault_stepItems h]

theorem fault_dynamicViewItems (h : m.skeleton.Sound) (id : ViewId) {v : DynamicView}
    (hv : v.Advances) : fault (dynamicViewItems m id v) = m.missing (v.references m) := by
  have hbody (subject : Subject) : fault (v.segments.flatMap (segmentItems m subject)) =
      m.missing (v.steps.flatMap fun step => m.endReferences step.source step.target) := by
    rw [← DynamicView.segments_steps hv, List.flatMap_assoc]
    exact fault_flatMap_eq_missing fun segment _ => fault_segmentItems h subject segment
  unfold dynamicViewItems DynamicView.references
  refine fault_withToken_eq_missing ?_ fun t _ => ?_
  · cases v.scope with
    | none => rfl
    | some scope =>
      rw [Option.toList_some, List.flatMap_singleton]
      exact Model.tokenFault_token h scope
  · rw [fault_block, fault_append, hbody, fault_autoLayoutLine, Option.or_none]

theorem tokenFault_includedRelationship (h : m.skeleton.Sound) (id : RelationshipId) :
    tokenFault (includedRelationship m id) =
      m.missing (.relationship id :: m.relationshipReferences id) := by
  unfold includedRelationship Model.relationshipReferences
  cases hr : m.relationship? id with
  | none =>
    have hid : m.exists? (.relationship id) = false := by simp [Model.exists?, hr]
    exact (m.missing_of_not_exists hid).symm
  | some r =>
    have hid : m.exists? (.relationship id) = true := by simp [Model.exists?, hr]
    rw [m.missing_cons, m.missing_of_exists hid, Option.none_or]
    exact Model.tokenFault_arrow h ..

theorem fault_deploymentViewItems (h : m.skeleton.Sound) (id : ViewId) (v : DeploymentView) :
    fault (deploymentViewItems m id v) = m.missing (v.references m) := by
  unfold deploymentViewItems DeploymentView.references
  rw [fault_block, fault_append, fault_cons, fault_line, Option.none_or, fault_append,
    fault_append, fault_append, fault_keyAndDescription, fault_autoLayoutLine, Option.none_or,
    Option.none_or, List.append_assoc, m.missing_append, m.missing_append]
  congr 1
  · cases v.scope with
    | none => exact fault_nil
    | some system =>
      rw [Option.toList_some, List.flatMap_singleton]
      exact (fault_withToken fun _ _ => fault_line ..).trans (Model.tokenFault_token h _)
  · congr 1
    · exact fault_flatMap_eq_missing fun id _ =>
        (fault_includeItems ..).trans (Model.tokenFault_token h id)
    · exact fault_flatMap_eq_missing fun id _ =>
        (fault_includeItems ..).trans (tokenFault_includedRelationship h id)

theorem fault_filteredViewItems (vs : Views) (id : ViewId) (v : FilteredView) :
    fault (filteredViewItems vs id v) = none := by
  have hfilters (subject : Subject) : fault (v.filters.map (filterLine subject)) = none :=
    fault_map_eq_none fun f _ => fault_line ..
  unfold filteredViewItems
  rw [fault_append, fault_block]
  split <;> simp [fault_append, hfilters]

theorem fault_viewItems (h : m.skeleton.Sound) {vs : Views}
    (hvs : ∀ v ∈ vs.dynamic, v.Advances) {id : ViewId} (hid : id ∈ vs.ids) :
    fault (viewItems m vs id) = m.missing (vs.references m id) := by
  have found {α : Type} {views : Array α} {index : ℕ} {items : α → List Item}
      {references : α → List Reference} (hindex : index < views.size)
      (hitems : ∀ v ∈ views, fault (items v) = m.missing (references v)) :
      fault (((views[index]?).map items).getD [.dangling (.unknownView id)]) =
        m.missing ((views[index]?).elim [] references) := by
    rw [Array.getElem?_eq_getElem hindex]
    exact hitems _ (Array.getElem_mem hindex)
  simp only [Views.ids, List.mem_append, List.mem_map, List.mem_range] at hid
  rcases hid with ((((⟨index, hindex, rfl⟩ | ⟨index, hindex, rfl⟩) | ⟨index, hindex, rfl⟩) |
    ⟨index, hindex, rfl⟩) | ⟨index, hindex, rfl⟩) | ⟨index, hindex, rfl⟩
  · exact found hindex fun v _ => fault_staticViewItems h _ _ v
  · exact found hindex fun v _ => fault_staticViewItems h _ _ v
  · exact found hindex fun v _ => fault_staticViewItems h _ _ v
  · exact found hindex fun v hv => fault_dynamicViewItems h _ (hvs v hv)
  · exact found hindex fun v _ => fault_deploymentViewItems h _ v
  · simp only [viewItems, Array.getElem?_eq_getElem hindex]
    exact fault_filteredViewItems ..

@[simp] theorem fault_stylesItems (s : Styles) : fault (stylesItems s) = none := by
  have hstyle (subject : Subject) (tag : String) (lines : List String) :
      fault [styleItem subject tag lines] = none := by
    unfold styleItem
    rw [fault_block]
    exact fault_map_eq_none fun text _ => fault_line ..
  unfold stylesItems
  split
  · exact fault_nil
  · rw [fault_note_cons, fault_block, fault_append,
      fault_map_eq_none fun style _ => hstyle _ style.tag style.lines,
      fault_map_eq_none fun style _ => hstyle _ style.tag style.lines, Option.none_or]

end Views

section Workspaces

variable {m : Model}

@[simp] theorem fault_separator (l : Layout) (subject : Subject) :
    fault (l.separator subject) = none := by
  unfold Layout.separator
  split <;> simp

theorem fault_modelSections (h : m.skeleton.Sound) :
    fault (modelSections m).flatten = m.missing (m.memberReferences ++ m.deploymentReferences ++
      m.relationshipIds.flatMap m.relationshipReferences) := by
  -- Whoever is not a member comes from the model itself and exists; members may not.
  have people : fault ((m.personIds.filter fun id => m.isOutside (.person id)).flatMap
      (personItems m)) = none := by
    refine fault_flatMap_eq_none fun id hid => ?_
    rw [fault_personItems h]
    exact m.missing_of_exists (Model.mem_personIds.1 (List.mem_of_mem_filter hid))
  have systems : fault ((m.softwareSystemIds.filter fun id =>
      m.isOutside (.softwareSystem id)).flatMap (softwareSystemItems m)) = none := by
    refine fault_flatMap_eq_none fun id hid => ?_
    rw [fault_softwareSystemItems h]
    exact m.missing_of_exists (Model.mem_softwareSystemIds.1 (List.mem_of_mem_filter hid))
  have enterprise : fault (m.enterprise.elim [] (enterpriseItems m)) =
      m.missing m.memberReferences := by
    cases he : m.enterprise with
    | none => simp [Model.memberReferences, Model.members, he]
    | some e => exact fault_enterpriseItems h he
  have relationships : fault (m.relationshipIds.flatMap (relationshipItems m)) =
      m.missing (m.relationshipIds.flatMap m.relationshipReferences) :=
    fault_flatMap_eq_missing fun id hid =>
      fault_relationshipItems h id (Model.mem_relationshipIds.1 hid)
  rw [modelSections, m.missing_append, m.missing_append]
  simp only [List.flatten_cons, List.flatten_nil, fault_append, fault_nil, fault_propertyBlock,
    people, systems, enterprise, fault_environmentsItems h, relationships, Option.none_or,
    Option.or_none, Option.or_assoc]

theorem fault_viewSections (h : m.skeleton.Sound) {vs : Views}
    (hvs : ∀ v ∈ vs.dynamic, v.Advances) :
    fault (vs.ids.map (viewItems m vs) ++ [stylesItems vs.styles]).flatten =
      m.missing (vs.ids.flatMap (vs.references m)) := by
  rw [List.flatten_append, ← List.flatMap_def, List.flatten_singleton, fault_append,
    fault_stylesItems, Option.or_none]
  exact fault_flatMap_eq_missing fun id hid => fault_viewItems h hvs hid

theorem fault_modelBlock (h : m.skeleton.Sound) (l : Layout) :
    fault [modelBlock l m] = m.missing (m.memberReferences ++ m.deploymentReferences ++
      m.relationshipIds.flatMap m.relationshipReferences) := by
  rw [modelBlock, fault_block, fault_spaced (fault_separator l _), fault_modelSections h]

theorem fault_viewsBlock (h : m.skeleton.Sound) {vs : Views}
    (hvs : ∀ v ∈ vs.dynamic, v.Advances) (l : Layout) :
    fault [viewsBlock l m vs] = m.missing (vs.ids.flatMap (vs.references m)) := by
  rw [viewsBlock, fault_block, fault_spaced (fault_separator l _), fault_viewSections h hvs]

theorem fault_outline_eq (w : Workspace) (l : Layout) : fault (w.outline l) =
    (fault [modelBlock l w.model]).or (fault [viewsBlock l w.model w.views]) := by
  have hcollisions : fault ((collisions w.model).map .note) = none :=
    fault_map_eq_none fun record _ => fault_note record
  have hphase (p : Phase) (rest : List Item) : fault (p.note :: rest) = fault rest :=
    fault_note_cons ..
  unfold Workspace.outline
  rw [fault_append, hcollisions, Option.none_or, hphase, fault_block, hphase,
    fault_cons (modelBlock ..), hphase, fault_note_cons, fault_cons (viewsBlock ..), hphase,
    fault_nil, Option.or_none]

theorem fault_outline {w : Workspace} (h : w.model.skeleton.Sound)
    (hvs : ∀ v ∈ w.views.dynamic, v.Advances) (l : Layout) :
    fault (w.outline l) = w.model.missing w.references := by
  unfold Workspace.references
  rw [fault_outline_eq, fault_modelBlock h, fault_viewsBlock h hvs, ← w.model.missing_append]

end Workspaces

end C4
