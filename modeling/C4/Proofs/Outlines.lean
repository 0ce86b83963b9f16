import C4.Proofs.Attribution
import C4.Proofs.Environments

/-!
# Outlines that fit

The outlines of all entities, one by one: everything in them belongs where it should, and what
they introduce is what the table of contents has for them.
-/
namespace C4.Dsl

section Elements

variable {w : Workspace} {outer : Subject} {header : String} {rest : Surround}

theorem definesToken_of_headed {m : Model} {id : ElementId} {name text : String}
    (h : m.Headed id name text) : definesToken text = true := by
  cases h with
  | person _ ht | softwareSystem _ ht | container _ ht | component _ ht | deploymentNode _ ht
  | infrastructureNode _ ht =>
    unfold elementHeader
    rw [String.append_assoc, String.append_assoc, String.append_assoc]
    exact definesToken_of_token ht _
  | @containerInstance _ _ _ token container hi hc ht hcontainer =>
    have htext : token ++ " = containerInstance " ++ container =
        token ++ " = " ++ ("containerInstance " ++ container) := by
      have hkeyword : " = containerInstance " = " = " ++ "containerInstance " := rfl
      rw [hkeyword, String.append_assoc, String.append_assoc, String.append_assoc]
    rw [htext]
    exact definesToken_of_token ht _

theorem introduces_of_holds {m : Model} {id : ElementId} {text : String}
    (hholds : m.Holds outer id) (hheader : header ≠ "properties")
    (htext : definesToken text = true) : introduces ((outer, header) :: rest) text = true := by
  rw [introduces_cons, if_neg (not_or.2 ⟨hheader, definesToken_ne_properties htext⟩)]
  cases outer with
  | model | enterprise | environment => rfl
  | element => rw [Subject.admits, htext, Bool.true_or]
  | workspace | views | styles | healthCheck | relationship | view | elementStyle
  | relationshipStyle => exact hholds.elim

theorem spoken_element {id : ElementId} {name text : String}
    (hholds : w.model.Holds outer id) (hheader : header ≠ "properties")
    (hheaded : w.model.Headed id name text) :
    Spoken w ((outer, header) :: rest) (.element id name) text
      [⟨some outer, .element id name⟩] :=
  spoken_of_introduces (introduces_of_holds hholds hheader (definesToken_of_headed hheaded))
    (.element hholds hheaded)

theorem fits_propertyBlock (subject : Subject) (header : String) (properties : Properties) :
    Fits w ((subject, header) :: rest) (propertyBlock subject properties) [] := by
  unfold propertyBlock
  split
  · exact fits_nil
  · refine fits_block (spoken_of_own (introduces_properties ..)) (fits_map_own fun entry _ => ?_)
    exact fits_line (spoken_of_own (introduces_inside_properties ..))

theorem fits_tagLines (id : ElementId) (name header : String) (tags : Tags) :
    Fits w ((.element id name, header) :: rest) (tagLines (.element id name) tags) [] := by
  unfold tagLines
  split
  · exact fits_nil
  · exact fits_line (spoken_of_own (introduces_tags ..))

theorem fits_personItems {id : PersonId} (hholds : w.model.Holds outer id)
    (hheader : header ≠ "properties") :
    Fits w ((outer, header) :: rest) (personItems w.model id)
      (w.model.personContents outer id) := by
  unfold personItems Model.personContents
  cases hp : w.model.person? id with
  | none => exact fits_dangling _
  | some p =>
    refine fits_withToken fun token ht => fits_cons (fits_note _) ?_
    exact fits_entity (spoken_element hholds hheader (.person hp ht)) (fits_tagLines ..)

theorem fits_componentItems {id : ComponentId} (hholds : w.model.Holds outer id)
    (hheader : header ≠ "properties") :
    Fits w ((outer, header) :: rest) (componentItems w.model id)
      (w.model.componentContents outer id) := by
  unfold componentItems Model.componentContents
  cases hc : w.model.component? id with
  | none => exact fits_dangling _
  | some c =>
    refine fits_withToken fun token ht => ?_
    exact fits_entity (spoken_element hholds hheader (.component hc ht)) (fits_tagLines ..)

theorem fits_containerItems {id : ContainerId} (hholds : w.model.Holds outer id)
    (hheader : header ≠ "properties") :
    Fits w ((outer, header) :: rest) (containerItems w.model id)
      (w.model.containerContents outer id) := by
  unfold containerItems Model.containerContents
  cases hc : w.model.container? id with
  | none => exact fits_dangling _
  | some c =>
    refine fits_withToken fun token ht => ?_
    have hheaded : w.model.Headed id c.name _ := .container hc ht
    refine fits_entity (spoken_element hholds hheader hheaded)
      (fits_append (fits_tagLines ..) (fits_flatMap fun x hx => ?_))
    refine fits_componentItems ⟨hheaded.nameOf?, ?_⟩
      (definesToken_ne_properties (definesToken_of_headed hheaded))
    rwa [Model.componentsOf, hc]

theorem fits_softwareSystemItems {id : SoftwareSystemId} (hholds : w.model.Holds outer id)
    (hheader : header ≠ "properties") :
    Fits w ((outer, header) :: rest) (softwareSystemItems w.model id)
      (w.model.softwareSystemContents outer id) := by
  unfold softwareSystemItems Model.softwareSystemContents
  cases hs : w.model.softwareSystem? id with
  | none => exact fits_dangling _
  | some s =>
    refine fits_withToken fun token ht => fits_cons (fits_note _) ?_
    have hheaded : w.model.Headed id s.name _ := .softwareSystem hs ht
    refine fits_entity (spoken_element hholds hheader hheaded)
      (fits_append (fits_tagLines ..) (fits_flatMap fun c hc => ?_))
    refine fits_containerItems ⟨hheaded.nameOf?, ?_⟩
      (definesToken_ne_properties (definesToken_of_headed hheaded))
    rwa [Model.containersOf, hs]

theorem introduces_inside_model (header : String) {text : String} (hheader : header ≠ "properties")
    (htext : text ≠ "properties") : introduces ((.model, header) :: rest) text = true := by
  rw [introduces_cons, if_neg (not_or.2 ⟨hheader, htext⟩)]
  rfl

theorem keyword_ne_properties {keyword : String} (h : ' ' ∈ keyword.toList) (text : String) :
    keyword ++ text ≠ "properties" := by
  refine ne_properties_of_blank ?_
  rw [String.toList_append]
  exact List.mem_append_left _ h

theorem fits_enterpriseItems {e : Enterprise} (he : w.model.enterprise = some e)
    (hheader : header ≠ "properties") :
    Fits w ((.model, header) :: rest) (enterpriseItems w.model e)
      (w.model.enterpriseContents e) := by
  have hline : "enterprise " ++ quote e.name ≠ "properties" :=
    keyword_ne_properties (by decide) _
  have hmembers : w.model.members = e.members := by rw [Model.members, he]; rfl
  have hname : w.model.enterprise.map (·.name) = some e.name := by rw [he]; rfl
  refine fits_block (spoken_of_introduces (introduces_inside_model _ hheader hline)
    (.enterprise he)) (fits_append (fits_append (fits_propertyBlock ..) ?people) ?systems)
  case people =>
    refine fits_flatMap fun id hid => ?_
    cases id with
    | person id =>
      exact fits_personItems ⟨hname, hmembers ▸ hid⟩ hline
    | _ => exact fits_nil
  case systems =>
    refine fits_flatMap fun id hid => ?_
    cases id with
    | softwareSystem id =>
      exact fits_softwareSystemItems ⟨hname, hmembers ▸ hid⟩ hline
    | _ => exact fits_nil

theorem bind_eq_ok {ε α β : Type} {x : Except ε α} {f : α → Except ε β} {b : β}
    (h : x >>= f = .ok b) : ∃ a, x = .ok a ∧ f a = .ok b := by
  cases x with
  | error e => cases h
  | ok a => exact ⟨a, rfl, h⟩

theorem arrow_eq_ok {m : Model} {source target : ElementId} {ends : String}
    (h : arrow m source target = .ok ends) :
    ∃ s t, m.token source = .ok s ∧ m.token target = .ok t ∧ ends = s ++ " -> " ++ t := by
  obtain ⟨s, hs, h⟩ := bind_eq_ok h
  obtain ⟨t, ht, h⟩ := bind_eq_ok h
  cases h
  exact ⟨s, t, hs, ht, rfl⟩

theorem fits_relationshipItems (id : RelationshipId) (hheader : header ≠ "properties") :
    Fits w ((.model, header) :: rest) (relationshipItems w.model id)
      (w.model.relationshipContents id) := by
  unfold relationshipItems Model.relationshipContents
  cases hr : w.model.relationship? id with
  | none => exact fits_dangling _
  | some r =>
    refine fits_withToken fun ends hends => ?_
    simp only [hends]
    obtain ⟨s, t, hs, ht, rfl⟩ := arrow_eq_ok hends
    refine fits_line (spoken_of_introduces (introduces_inside_model _ hheader ?_)
      (.relationship hr hs ht))
    refine ne_properties_of_blank ?_
    simp [String.toList_append]

theorem fits_infrastructureNodeItems {id : InfrastructureNodeId}
    (hholds : w.model.Holds outer id) (hheader : header ≠ "properties") :
    Fits w ((outer, header) :: rest) (infrastructureNodeItems w.model id)
      (w.model.infrastructureNodeContents outer id) := by
  unfold infrastructureNodeItems Model.infrastructureNodeContents
  cases hn : w.model.infrastructureNode? id with
  | none => exact fits_dangling _
  | some n =>
    refine fits_withToken fun token ht => ?_
    exact fits_entity (spoken_element hholds hheader (.infrastructureNode hn ht))
      (fits_append (fits_tagLines ..) (fits_propertyBlock ..))

theorem introduces_inside_healthCheck (name header text : String) :
    introduces ((.healthCheck name, header) :: rest) text = false := by
  rw [introduces_cons]
  exact ite_self false

theorem fits_healthCheckItem {id : ContainerInstanceId} {i : ContainerInstance} {name : String}
    {check : HealthCheck} (hi : w.model.containerInstance? id = some i)
    (hname : w.model.nameOf? id = some name) (hcheck : check ∈ i.healthChecks)
    (hheader : header ≠ "properties") :
    Fits w ((.element id name, header) :: rest) [healthCheckItem check]
      [⟨some (.element id name), .healthCheck check.name⟩] := by
  have number (keyword header : String) (number : Option UInt32) (rest : Surround) :
      Fits w ((.healthCheck check.name, header) :: rest)
        (numberLine (.healthCheck check.name) keyword number) [] := by
    unfold numberLine
    split
    · exact fits_nil
    · exact fits_line (spoken_of_own (introduces_inside_healthCheck ..))
  refine fits_entity (spoken_of_introduces ?_ (.healthCheck hi hname hcheck))
    (fits_append (fits_append (number ..) (number ..)) (fits_propertyBlock ..))
  have hne : "healthCheck " ++ quote check.name ++ " " ++ quote check.url ≠ "properties" := by
    rw [String.append_assoc, String.append_assoc]
    exact keyword_ne_properties (by decide) _
  rw [introduces_cons, if_neg (not_or.2 ⟨hheader, hne⟩), Subject.admits, Bool.or_eq_true]
  refine Or.inr (List.isPrefixOf_iff_prefix.2 ?_)
  rw [String.append_assoc, String.append_assoc, String.toList_append]
  exact List.prefix_append ..

theorem fits_instanceNumber (id : ElementId) (name header : String) (number : Option UInt32) :
    Fits w ((.element id name, header) :: rest)
      (numberLine (.element id name) "instanceId" number) [] := by
  unfold numberLine
  split
  · exact fits_nil
  · exact fits_line (spoken_of_own (introduces_instanceId ..))

theorem fits_containerInstanceItems {id : ContainerInstanceId} (hholds : w.model.Holds outer id)
    (hheader : header ≠ "properties") :
    Fits w ((outer, header) :: rest) (containerInstanceItems w.model id)
      (w.model.containerInstanceContents outer id) := by
  unfold containerInstanceItems Model.containerInstanceContents
  cases hi : w.model.containerInstance? id with
  | none => exact fits_dangling _
  | some i =>
    refine fits_withToken fun token ht => fits_withToken fun container hcontainer => ?_
    obtain ⟨c, hc, hname⟩ := Model.exists_container_of_token hi hcontainer
    rw [hname, Option.getD_some]
    have hheaded : w.model.Headed id c.name _ := .containerInstance hi hc ht hcontainer
    have hown := definesToken_ne_properties (definesToken_of_headed hheaded)
    exact fits_entity (spoken_element hholds hheader hheaded) (fits_append (fits_append
      (fits_append (fits_tagLines ..) (fits_propertyBlock ..)) (fits_instanceNumber ..))
      (fits_map fun check hcheck => fits_healthCheckItem hi hheaded.nameOf? hcheck hown))

theorem fits_nodeEntity {id : DeploymentNodeId} {n : DeploymentNode} {token text : String}
    {children : List Item} {entries : List Entry} (hholds : w.model.Holds outer id)
    (hheader : header ≠ "properties")
    (hn : w.model.deploymentNode? id = some n) (ht : w.model.token id = .ok token)
    (htext : text = elementHeader token "deploymentNode" n.name [n.description, n.technology])
    (hchildren : text ≠ "properties" →
      Fits w ((.element id n.name, text) :: (outer, header) :: rest) children entries) :
    Fits w ((outer, header) :: rest) [.entity (.element id n.name) text
      (tagLines (.element id n.name) n.tags ++ propertyBlock (.element id n.name) n.properties ++
        children ++ n.infrastructureNodes.flatMap (infrastructureNodeItems w.model) ++
        n.containerInstances.flatMap (containerInstanceItems w.model))]
      (⟨some outer, .element id n.name⟩ ::
        (entries ++
          n.infrastructureNodes.flatMap
            (w.model.infrastructureNodeContents (.element id n.name)) ++
          n.containerInstances.flatMap
            (w.model.containerInstanceContents (.element id n.name)))) := by
  have hheaded : w.model.Headed id n.name text := htext ▸ .deploymentNode hn ht
  have hown := definesToken_ne_properties (definesToken_of_headed hheaded)
  refine fits_entity (spoken_element hholds hheader hheaded) (fits_append (fits_append
    (fits_append (fits_append (fits_tagLines ..) (fits_propertyBlock ..)) (hchildren hown))
    ?infrastructure) ?instances)
  case infrastructure =>
    refine fits_flatMap fun i hi => fits_infrastructureNodeItems ⟨hheaded.nameOf?, ?_⟩ hown
    rwa [Model.infrastructureOf, hn]
  case instances =>
    refine fits_flatMap fun i hi => fits_containerInstanceItems ⟨hheaded.nameOf?, ?_⟩ hown
    rwa [Model.instancesOf, hn]

theorem fits_nestedNodeItems (depth : ℕ) {outer : Subject} {header : String} {rest : Surround}
    {id : DeploymentNodeId} (hholds : w.model.Holds outer id) (hheader : header ≠ "properties") :
    Fits w ((outer, header) :: rest) (nestedNodeItems w.model depth id)
      (w.model.nodeContents depth outer id) := by
  induction depth generalizing outer header rest id with
  | zero =>
    unfold nestedNodeItems Model.nodeContents
    cases hn : w.model.deploymentNode? id with
    | none => exact fits_dangling _
    | some n =>
      refine fits_withToken fun token ht => fits_cons (fits_note _) ?_
      exact fits_nodeEntity hholds hheader hn ht rfl fun _ => fits_nil
  | succ depth ih =>
    unfold nestedNodeItems Model.nodeContents
    cases hn : w.model.deploymentNode? id with
    | none => exact fits_dangling _
    | some n =>
      refine fits_withToken fun token ht => fits_cons (fits_note _) ?_
      refine fits_nodeEntity hholds hheader hn ht rfl fun hown => fits_flatMap fun c hc => ?_
      refine ih ⟨Model.Headed.nameOf? (.deploymentNode hn ht), ?_⟩ hown
      rwa [Model.childrenOf, hn]

theorem fits_environmentsItems (hheader : header ≠ "properties") :
    Fits w ((.model, header) :: rest) (environmentsItems w.model)
      ((environmentGroups w.model).flatMap w.model.environmentContents) := by
  unfold environmentsItems
  split
  · exact fits_dangling _
  refine fits_flatMap fun g hg => fits_cons (fits_note _) ?_
  obtain ⟨hne, hids⟩ := gathers_of_mem hg
  obtain ⟨id, hid⟩ := List.exists_mem_of_ne_nil _ hne
  obtain ⟨hroot, n, hn, henvironment⟩ := hids id hid
  have hline : "deploymentEnvironment " ++ quote g.1.name ≠ "properties" :=
    keyword_ne_properties (by decide) _
  refine fits_block (spoken_of_introduces (introduces_inside_model _ hheader hline)
    (henvironment ▸ .environment hroot hn)) (fits_flatMap fun id hid => ?_)
  obtain ⟨hroot, n, hn, henvironment⟩ := hids id hid
  refine fits_nestedNodeItems _ ⟨hroot, ?_⟩ hline
  rw [hn, ← henvironment]
  rfl

theorem fits_separator (l : Layout) (subject : Subject) :
    Fits w ((subject, header) :: rest) (l.separator subject) [] := by
  unfold Layout.separator
  split
  · exact fits_gap rfl
  · exact fits_nil

theorem fits_modelSections (hheader : header ≠ "properties") :
    List.Forall₂ (Fits w ((.model, header) :: rest)) (modelSections w.model)
      [[],
        (w.model.personIds.filter fun id => w.model.isOutside (.person id)).flatMap
          (w.model.personContents .model),
        (w.model.softwareSystemIds.filter fun id => w.model.isOutside (.softwareSystem id)).flatMap
          (w.model.softwareSystemContents .model),
        w.model.enterprise.elim [] w.model.enterpriseContents,
        (environmentGroups w.model).flatMap w.model.environmentContents,
        w.model.relationshipIds.flatMap w.model.relationshipContents] := by
  refine .cons (fits_propertyBlock ..) (.cons ?people (.cons ?systems (.cons ?enterprise
    (.cons (fits_environmentsItems hheader) (.cons ?relationships .nil)))))
  case people =>
    exact fits_flatMap fun id hid => fits_personItems (List.mem_filter.1 hid) hheader
  case systems =>
    exact fits_flatMap fun id hid => fits_softwareSystemItems (List.mem_filter.1 hid) hheader
  case enterprise =>
    cases he : w.model.enterprise with
    | none => exact fits_nil
    | some e => exact fits_enterpriseItems he hheader
  case relationships => exact fits_flatMap fun id _ => fits_relationshipItems id hheader

end Elements

section Views

variable {w : Workspace} {id : ViewId} {name header : String} {rest : Surround}

theorem introduces_inside_view (id : ViewId) (name header text : String) (rest : Surround) :
    introduces ((.view id name, header) :: rest) text = false := by
  rw [introduces_cons]
  exact ite_self false

theorem fits_viewLine (text : String) :
    Fits w ((.view id name, header) :: rest) [.line (.view id name) text] [] :=
  fits_line (spoken_of_own (introduces_inside_view ..))

theorem fits_viewBlock {text : String} {body : List Item}
    (h : Fits w ((.view id name, text) :: (.view id name, header) :: rest) body []) :
    Fits w ((.view id name, header) :: rest) [.block (.view id name) text body] [] :=
  fits_block (spoken_of_own (introduces_inside_view ..)) h

theorem fits_includeItems (token : Except RenderError String) :
    Fits w ((.view id name, header) :: rest) (includeItems (.view id name) token) [] :=
  fits_withToken fun _ _ => fits_viewLine _

theorem fits_autoLayoutLine (h : ViewHeader) :
    Fits w ((.view id name, header) :: rest) (autoLayoutLine (.view id name) h) [] := by
  unfold autoLayoutLine
  split
  · exact fits_viewLine _
  · exact fits_nil

theorem fits_quotedLine (keyword : String) (text : Option String) :
    Fits w ((.view id name, header) :: rest) (quotedLine (.view id name) keyword text) [] := by
  unfold quotedLine
  split
  · exact fits_nil
  · exact fits_viewLine _

theorem fits_keyAndDescription (h : ViewHeader) :
    Fits w ((.view id name, header) :: rest) (keyAndDescription (.view id name) h) [] :=
  fits_append (fits_quotedLine ..) (fits_quotedLine ..)

theorem fits_inclusionItems (m : Model) (i : Inclusions) :
    Fits w ((.view id name, header) :: rest) (inclusionItems m (.view id name) i) [] := by
  have flag (condition : Bool) (text : String) : Fits w ((.view id name, header) :: rest)
      (if condition then [.line (.view id name) text] else []) [] := by
    split
    · exact fits_viewLine _
    · exact fits_nil
  have flags : Fits w ((.view id name, header) :: rest) (flagLines (.view id name) i) [] := by
    unfold flagLines
    split
    · exact fits_viewLine _
    · exact fits_append (flag ..) (flag ..)
  exact fits_append (fits_append flags (fits_flatMap_own fun _ _ => fits_includeItems _))
    (fits_flatMap_own fun _ _ => fits_includeItems _)

theorem fits_stepItems (m : Model) (step : DynamicStep) :
    Fits w ((.view id name, header) :: rest) (stepItems m (.view id name) step) [] :=
  fits_withToken fun _ _ => fits_viewLine _

theorem fits_segmentItems (m : Model) (segment : Segment) :
    Fits w ((.view id name, header) :: rest) (segmentItems m (.view id name) segment) [] := by
  cases segment with
  | single step => exact fits_stepItems m step
  | together steps =>
    exact fits_viewBlock (fits_map_own fun step _ => fits_viewBlock (fits_stepItems m step))

theorem fits_viewOutline {h : ViewHeader} {text : String} {body : List Item}
    (hview : w.views.header? id = some h)
    (htext : text = id.keyword ∨ ∃ scope, text = viewHeaderLine id scope h)
    (hbody : Fits w ((viewSubject id h, text) :: (.views, "views") :: rest) body []) :
    Fits w ((.views, "views") :: rest) [.block (viewSubject id h) text body]
      [⟨some .views, viewSubject id h⟩] := by
  refine fits_block (spoken_of_introduces ?_ (.view hview htext)) hbody
  have hne : text ≠ "properties" := by
    rcases htext with rfl | ⟨scope, rfl⟩
    · cases id <;> simp [ViewId.keyword]
    · refine ne_properties_of_blank ?_
      unfold viewHeaderLine
      simp [String.toList_append]
  rw [introduces_cons, if_neg (not_or.2 ⟨by decide, hne⟩)]
  rfl

theorem fits_staticViewItems (m : Model) (scope : ElementId) {h : ViewHeader} (i : Inclusions)
    (hview : w.views.header? id = some h) :
    Fits w ((.views, "views") :: rest) (staticViewItems m id scope h i)
      [⟨some .views, viewSubject id h⟩] :=
  fits_withToken fun _ _ => fits_viewOutline hview (Or.inr ⟨_, rfl⟩)
    (fits_append (fits_inclusionItems ..) (fits_autoLayoutLine _))

theorem fits_dynamicViewItems (m : Model) {v : DynamicView}
    (hview : w.views.header? id = some v.header) :
    Fits w ((.views, "views") :: rest) (dynamicViewItems m id v)
      [⟨some .views, viewSubject id v.header⟩] :=
  fits_withToken fun _ _ => fits_viewOutline hview (Or.inr ⟨_, rfl⟩)
    (fits_append (fits_flatMap_own fun _ _ => fits_segmentItems ..) (fits_autoLayoutLine _))

theorem fits_deploymentViewItems (m : Model) {v : DeploymentView}
    (hview : w.views.header? id = some v.header) :
    Fits w ((.views, "views") :: rest) (deploymentViewItems m id v)
      [⟨some .views, viewSubject id v.header⟩] := by
  refine fits_viewOutline hview (Or.inl rfl) (fits_append_own ?scope ?lines)
  case scope =>
    split
    · exact fits_nil
    · exact fits_withToken fun _ _ => fits_viewLine _
  case lines =>
    exact fits_cons (fits_viewLine _)
      (fits_append (fits_append (fits_append (fits_keyAndDescription _) (fits_autoLayoutLine _))
        (fits_flatMap_own fun _ _ => fits_includeItems _))
        (fits_flatMap_own fun _ _ => fits_includeItems _))

theorem fits_filteredViewItems {v : FilteredView} (hview : w.views.header? id = some v.header) :
    Fits w ((.views, "views") :: rest) (filteredViewItems w.views id v)
      [⟨some .views, viewSubject id v.header⟩] := by
  have omitted (condition : Bool) (record : Record) : Fits w ((.views, "views") :: rest)
      (if condition then [.note record] else []) [] := by
    split
    · exact fits_note _
    · exact fits_nil
  exact fits_append (omitted ..) (fits_viewOutline hview (Or.inl rfl)
    (fits_append (fits_append (fits_append (fits_append (fits_quotedLine ..) (fits_quotedLine ..))
      (fits_keyAndDescription _)) (fits_map_own fun _ _ => fits_viewLine _))
      (fits_autoLayoutLine _)))

theorem fits_viewItems (id : ViewId) :
    Fits w ((.views, "views") :: rest) (viewItems w.model w.views id)
      (w.views.viewContents id) := by
  have found {α : Type} {views : Array α} {index : ℕ} {items : α → List Item}
      {header : α → ViewHeader} (hheader : w.views.header? id = (views[index]?).map header)
      (h : ∀ v, w.views.header? id = some (header v) →
        Fits w ((.views, "views") :: rest) (items v) [⟨some .views, viewSubject id (header v)⟩]) :
      Fits w ((.views, "views") :: rest)
        (((views[index]?).map items).getD [.dangling (.unknownView id)])
        (w.views.viewContents id) := by
    cases hv : views[index]? with
    | none => exact fits_dangling _
    | some v =>
      rw [hv, Option.map_some] at hheader
      unfold Views.viewContents
      rw [hheader]
      exact h v hheader
  cases id with
  | systemContext index => exact found rfl fun v hv => fits_staticViewItems _ _ _ hv
  | container index => exact found rfl fun v hv => fits_staticViewItems _ _ _ hv
  | component index => exact found rfl fun v hv => fits_staticViewItems _ _ _ hv
  | dynamic index => exact found rfl fun v hv => fits_dynamicViewItems _ hv
  | deployment index => exact found rfl fun v hv => fits_deploymentViewItems _ hv
  | filtered index => exact found rfl fun v hv => fits_filteredViewItems hv

theorem introduces_inside_views {text : String} (htext : text ≠ "properties") :
    introduces ((.views, "views") :: rest) text = true := by
  rw [introduces_cons, if_neg (not_or.2 ⟨by decide, htext⟩)]
  rfl

theorem fits_styleItem {subject : Subject} {tag : String} {lines : List String}
    (hsubject : w.Introduces (some .styles) ("element " ++ quote tag) subject)
    (hown : ∀ text, subject.admits text = false) :
    Fits w ((.styles, "styles") :: rest) [styleItem subject tag lines]
      [⟨some .styles, subject⟩] := by
  have hline : "element " ++ quote tag ≠ "properties" := keyword_ne_properties (by decide) _
  refine fits_block (spoken_of_introduces ?_ hsubject) (fits_map_own fun text _ => ?_)
  · rw [introduces_cons, if_neg (not_or.2 ⟨by decide, hline⟩)]
    rfl
  · refine fits_line (spoken_of_own ?_)
    rw [introduces_cons, hown, ite_self]

theorem fits_stylesItems :
    Fits w ((.views, "views") :: rest) (stylesItems w.views.styles)
      (Views.stylesContents w.views.styles) := by
  unfold stylesItems Views.stylesContents
  split
  · exact fits_nil
  · exact fits_cons (fits_note _) (fits_block (spoken_of_introduces
      (introduces_inside_views (by decide)) .styles) (fits_append
        (fits_map fun style hstyle => fits_styleItem (.elementStyle hstyle) fun _ => rfl)
        (fits_map fun style hstyle => fits_styleItem (.relationshipStyle hstyle) fun _ => rfl)))

end Views

theorem headerLine_ne_properties (w : Workspace) : w.headerLine ≠ "properties" := by
  have hstart : "workspace".toList <+: w.headerLine.toList := by
    unfold Workspace.headerLine
    split
    · rw [String.toList_append]
      exact (by decide : "workspace".toList <+: "workspace extends ".toList).trans
        (List.prefix_append ..)
    · rw [String.toList_append]
      exact List.prefix_append ..
  intro h
  rw [h] at hstart
  exact absurd hstart (by decide)

theorem fits_viewSections (w : Workspace) (rest : Surround) (ids : List ViewId) :
    List.Forall₂ (Fits w ((.views, "views") :: rest))
      (ids.map (viewItems w.model w.views) ++ [stylesItems w.views.styles])
      (ids.map w.views.viewContents ++ [Views.stylesContents w.views.styles]) := by
  induction ids with
  | nil => exact .cons fits_stylesItems .nil
  | cons id ids ih => exact .cons (fits_viewItems id) ih

theorem introduces_inside_workspace (w : Workspace) {text : String} (htext : text ≠ "properties") :
    introduces [(w.subject, w.headerLine)] text = true := by
  rw [introduces_cons, if_neg (not_or.2 ⟨headerLine_ne_properties w, htext⟩)]
  rfl

theorem fits_modelBlock (w : Workspace) (l : Layout) :
    Fits w [(w.subject, w.headerLine)] [modelBlock l w.model] (⟨some w.subject, .model⟩ ::
      (w.model.elementContents ++
        w.model.relationshipIds.flatMap w.model.relationshipContents)) := by
  refine Fits.congr (fits_block (spoken_of_introduces
    (introduces_inside_workspace w (by decide)) .model)
    (fits_spaced (fits_separator l .model) (fits_modelSections (by decide)))) ?_
  simp [Model.elementContents, Surround.owner?]

theorem fits_viewsBlock (w : Workspace) (l : Layout) :
    Fits w [(w.subject, w.headerLine)] [viewsBlock l w.model w.views] (⟨some w.subject, .views⟩ ::
      (w.views.ids.flatMap w.views.viewContents ++ Views.stylesContents w.views.styles)) := by
  refine Fits.congr (fits_block (spoken_of_introduces
    (introduces_inside_workspace w (by decide)) .views)
    (fits_spaced (fits_separator l .views) (fits_viewSections w _ w.views.ids))) ?_
  simp [Surround.owner?, List.flatMap_def]

theorem fits_outline (w : Workspace) (l : Layout) : Fits w [] (w.outline l) w.contents := by
  refine Fits.congr (fits_append (fits_map_own fun record _ => fits_note record)
    (fits_cons (fits_note _) (fits_block (spoken_of_introduces rfl .workspace)
      (fits_cons (fits_note _) (fits_cons (fits_modelBlock w l) (fits_cons (fits_note _)
        (fits_cons (fits_note _) (fits_cons (fits_viewsBlock w l) (fits_note _))))))))) ?_
  simp [Workspace.contents, Surround.owner?]

end C4.Dsl
