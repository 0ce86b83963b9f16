import C4.Outline.Document
import C4.Proofs.Environments
import C4.Proofs.Nesting

/-!
# Scripts and their outlines

The script of every entity is its outline read from top to bottom, and so is the script of a
document. A block is opened exactly when the outline has something to nest, and a section is
there exactly when its outline holds something.
-/
namespace C4

open Dsl

namespace Dsl

variable {subject : Subject} {header : String}

@[simp] theorem eventsOf_nil : eventsOf [] = [] := by
  rw [eventsOf]

@[simp] theorem eventsOf_line (text : String) :
    eventsOf [.line subject text] = Script.line subject text := by
  rw [eventsOf_cons, Item.events, eventsOf_nil]
  rfl

@[simp] theorem eventsOf_dangling (error : RenderError) :
    eventsOf [.dangling error] = Script.stop error := by
  rw [eventsOf_cons, Item.events, eventsOf_nil]
  rfl

theorem eventsOf_note_cons (record : Record) (items : List Item) :
    eventsOf (.note record :: items) = Script.note record ++ eventsOf items := by
  rw [eventsOf_cons, Item.events]
  rfl

theorem eventsOf_block (body : List Item) :
    eventsOf [.block subject header body] = Script.block subject header (eventsOf body) := by
  rw [eventsOf_cons, Item.events, eventsOf_nil, List.append_nil]
  rfl

theorem eventsOf_entity (hasBody : Bool) {body : List Item} (h : body.isEmpty = !hasBody) :
    eventsOf [.entity subject header body] =
      Script.entity subject header hasBody (eventsOf body) := by
  rw [eventsOf_cons, eventsOf_nil, List.append_nil]
  cases hasBody with
  | false =>
    rw [List.isEmpty_iff.1 h, Item.events]
    rfl
  | true =>
    rw [events_entity_of_ne_nil _ _ (List.isEmpty_eq_false_iff.1 h)]
    rfl

theorem eventsOf_withToken {token : Except RenderError String} {draw : String → List Item}
    {script : String → Script} (h : ∀ t, eventsOf (draw t) = script t) :
    eventsOf (withToken token draw) = Script.withToken token script := by
  cases token with
  | error e => exact eventsOf_dangling e
  | ok t => exact h t

theorem eventsOf_flatMap {α : Type*} {f : α → List Item} {script : α → Script}
    (h : ∀ a, eventsOf (f a) = script a) (l : List α) :
    eventsOf (l.flatMap f) = l.flatMap script := by
  induction l with
  | nil => exact eventsOf_nil
  | cons a rest ih => rw [List.flatMap_cons, eventsOf_append, h, ih, List.flatMap_cons]

theorem eventsOf_map {α : Type*} {f : α → Item} {script : α → Script}
    (h : ∀ a, eventsOf [f a] = script a) (l : List α) :
    eventsOf (l.map f) = l.flatMap script := by
  rw [List.map_eq_flatMap]
  exact eventsOf_flatMap h l

theorem isEmpty_append {α : Type*} (l more : List α) :
    (l ++ more).isEmpty = (l.isEmpty && more.isEmpty) := by
  cases l <;> rfl

theorem isEmpty_flatMap {α β : Type*} {f : α → List β} (h : ∀ a, f a ≠ []) (l : List α) :
    (l.flatMap f).isEmpty = l.isEmpty := by
  cases l with
  | nil => rfl
  | cons a l => simp [h a]

theorem withToken_ne_nil {token : Except RenderError String} {draw : String → List Item}
    (h : ∀ t, draw t ≠ []) : withToken token draw ≠ [] :=
  withToken_of_draw (P := (· ≠ [])) (fun _ => List.cons_ne_nil _ _) fun t _ => h t

section Elements

variable (m : Model)

@[simp] theorem isEmpty_tagLines (tags : Tags) :
    (tagLines subject tags).isEmpty = tags.isEmpty := by
  unfold tagLines
  split <;> simp_all

theorem eventsOf_tagLines (tags : Tags) :
    eventsOf (tagLines subject tags) = tagScript subject tags := by
  unfold tagLines tagScript
  split
  · exact eventsOf_nil
  · exact eventsOf_line _

@[simp] theorem isEmpty_propertyBlock (properties : Properties) :
    (propertyBlock subject properties).isEmpty = properties.isEmpty := by
  unfold propertyBlock
  split <;> simp_all

theorem eventsOf_propertyBlock (properties : Properties) :
    eventsOf (propertyBlock subject properties) = propertyScript subject properties := by
  unfold propertyBlock propertyScript
  split
  · exact eventsOf_nil
  · rw [eventsOf_block, eventsOf_map fun entry => eventsOf_line _]
    rfl

theorem eventsOf_personItems (id : PersonId) :
    eventsOf (personItems m id) = personScript m id := by
  unfold personItems personScript
  cases m.person? id with
  | none => exact eventsOf_dangling _
  | some p =>
    refine eventsOf_withToken fun t => ?_
    rw [eventsOf_note_cons, eventsOf_entity (!p.tags.isEmpty) (by simp),
      eventsOf_tagLines]

theorem personItems_ne_nil (id : PersonId) : personItems m id ≠ [] := by
  unfold personItems
  split
  · exact List.cons_ne_nil _ _
  · exact withToken_ne_nil fun t => List.cons_ne_nil _ _

theorem eventsOf_componentItems (id : ComponentId) :
    eventsOf (componentItems m id) = componentScript m id := by
  unfold componentItems componentScript
  cases m.component? id with
  | none => exact eventsOf_dangling _
  | some c =>
    refine eventsOf_withToken fun t => ?_
    rw [eventsOf_entity (!c.tags.isEmpty) (by simp), eventsOf_tagLines]

theorem componentItems_ne_nil (id : ComponentId) : componentItems m id ≠ [] := by
  unfold componentItems
  split
  · exact List.cons_ne_nil _ _
  · exact withToken_ne_nil fun t => List.cons_ne_nil _ _

theorem eventsOf_containerItems (id : ContainerId) :
    eventsOf (containerItems m id) = containerScript m id := by
  unfold containerItems containerScript
  cases m.container? id with
  | none => exact eventsOf_dangling _
  | some c =>
    refine eventsOf_withToken fun t => ?_
    rw [eventsOf_entity (!c.tags.isEmpty || !c.components.isEmpty)
        (by simp [isEmpty_append, isEmpty_flatMap (componentItems_ne_nil m)]),
      eventsOf_append, eventsOf_tagLines, eventsOf_flatMap (eventsOf_componentItems m)]

theorem containerItems_ne_nil (id : ContainerId) : containerItems m id ≠ [] := by
  unfold containerItems
  split
  · exact List.cons_ne_nil _ _
  · exact withToken_ne_nil fun t => List.cons_ne_nil _ _

theorem eventsOf_softwareSystemItems (id : SoftwareSystemId) :
    eventsOf (softwareSystemItems m id) = softwareSystemScript m id := by
  unfold softwareSystemItems softwareSystemScript
  cases m.softwareSystem? id with
  | none => exact eventsOf_dangling _
  | some s =>
    refine eventsOf_withToken fun t => ?_
    rw [eventsOf_note_cons, eventsOf_entity (!s.tags.isEmpty || !s.containers.isEmpty)
        (by simp [isEmpty_append, isEmpty_flatMap (containerItems_ne_nil m)]),
      eventsOf_append, eventsOf_tagLines, eventsOf_flatMap (eventsOf_containerItems m)]

theorem softwareSystemItems_ne_nil (id : SoftwareSystemId) : softwareSystemItems m id ≠ [] := by
  unfold softwareSystemItems
  split
  · exact List.cons_ne_nil _ _
  · exact withToken_ne_nil fun t => List.cons_ne_nil _ _

theorem eventsOf_enterpriseItems (e : Enterprise) :
    eventsOf (enterpriseItems m e) = enterpriseScript m e := by
  unfold enterpriseItems enterpriseScript
  rw [eventsOf_block, eventsOf_append, eventsOf_append, eventsOf_propertyBlock,
    eventsOf_flatMap fun id => ?people, eventsOf_flatMap fun id => ?systems]
  case people =>
    cases id with
    | person id => exact eventsOf_personItems m id
    | _ => exact eventsOf_nil
  case systems =>
    cases id with
    | softwareSystem id => exact eventsOf_softwareSystemItems m id
    | _ => exact eventsOf_nil

theorem eventsOf_relationshipItems (id : RelationshipId) :
    eventsOf (relationshipItems m id) = relationshipScript m id := by
  unfold relationshipItems relationshipScript
  cases m.relationship? id with
  | none => exact eventsOf_dangling _
  | some r => exact eventsOf_withToken fun ends => eventsOf_line _

theorem relationshipItems_ne_nil (id : RelationshipId) : relationshipItems m id ≠ [] := by
  unfold relationshipItems
  split
  · exact List.cons_ne_nil _ _
  · exact withToken_ne_nil fun t => List.cons_ne_nil _ _

end Elements

section Deployment

variable (m : Model)

theorem eventsOf_infrastructureNodeItems (id : InfrastructureNodeId) :
    eventsOf (infrastructureNodeItems m id) = infrastructureNodeScript m id := by
  unfold infrastructureNodeItems infrastructureNodeScript
  cases m.infrastructureNode? id with
  | none => exact eventsOf_dangling _
  | some n =>
    refine eventsOf_withToken fun t => ?_
    rw [eventsOf_entity (!n.tags.isEmpty || !n.properties.isEmpty) (by simp [isEmpty_append]),
      eventsOf_append, eventsOf_tagLines, eventsOf_propertyBlock]

theorem infrastructureNodeItems_ne_nil (id : InfrastructureNodeId) :
    infrastructureNodeItems m id ≠ [] := by
  unfold infrastructureNodeItems
  split
  · exact List.cons_ne_nil _ _
  · exact withToken_ne_nil fun t => List.cons_ne_nil _ _

@[simp] theorem isEmpty_numberLine (keyword : String) (number : Option UInt32) :
    (numberLine subject keyword number).isEmpty = number.isNone := by
  cases number <;> rfl

theorem eventsOf_numberLine (keyword : String) (number : Option UInt32) :
    eventsOf (numberLine subject keyword number) = numberScript subject keyword number := by
  cases number with
  | none => exact eventsOf_nil
  | some n => exact eventsOf_line _

theorem eventsOf_healthCheckItem (check : HealthCheck) :
    eventsOf [healthCheckItem check] = healthCheckScript check := by
  unfold healthCheckItem healthCheckScript
  rw [eventsOf_entity check.hasBody (by simp [isEmpty_append, HealthCheck.hasBody, Bool.and_assoc]),
    eventsOf_append, eventsOf_append, eventsOf_numberLine, eventsOf_numberLine,
    eventsOf_propertyBlock]

theorem eventsOf_containerInstanceItems (id : ContainerInstanceId) :
    eventsOf (containerInstanceItems m id) = containerInstanceScript m id := by
  unfold containerInstanceItems containerInstanceScript
  cases m.containerInstance? id with
  | none => exact eventsOf_dangling _
  | some i =>
    refine eventsOf_withToken fun t => eventsOf_withToken fun container => ?_
    rw [eventsOf_entity i.hasBody (by simp [isEmpty_append, ContainerInstance.hasBody, Bool.and_assoc]),
      eventsOf_append, eventsOf_append, eventsOf_append, eventsOf_tagLines,
      eventsOf_propertyBlock, eventsOf_numberLine, eventsOf_map eventsOf_healthCheckItem]

theorem containerInstanceItems_ne_nil (id : ContainerInstanceId) :
    containerInstanceItems m id ≠ [] := by
  unfold containerInstanceItems
  split
  · exact List.cons_ne_nil _ _
  · exact withToken_ne_nil fun t => withToken_ne_nil fun container => List.cons_ne_nil _ _

theorem nodeItems_ne_nil (id : DeploymentNodeId) (n : DeploymentNode) (nested : List Item) :
    nodeItems m id n nested ≠ [] :=
  withToken_ne_nil fun _ => List.cons_ne_nil _ _

theorem eventsOf_nodeItems (id : DeploymentNodeId) (n : DeploymentNode)
    {children : List DeploymentNodeId} {nested : List Item}
    (h : nested.isEmpty = children.isEmpty) :
    eventsOf (nodeItems m id n nested) = nodeScript m id n children (eventsOf nested) := by
  refine eventsOf_withToken fun t => ?_
  rw [eventsOf_note_cons, eventsOf_entity { n with children := children }.hasBody (by
      simp [h, isEmpty_append, DeploymentNode.hasBody, Bool.and_assoc,
        isEmpty_flatMap (infrastructureNodeItems_ne_nil m),
        isEmpty_flatMap (containerInstanceItems_ne_nil m)])]
  simp only [eventsOf_append, eventsOf_tagLines, eventsOf_propertyBlock,
    eventsOf_flatMap (eventsOf_infrastructureNodeItems m),
    eventsOf_flatMap (eventsOf_containerInstanceItems m)]

theorem nestedNodeItems_ne_nil (depth : ℕ) (id : DeploymentNodeId) :
    nestedNodeItems m depth id ≠ [] := by
  unfold nestedNodeItems
  split
  · exact List.cons_ne_nil _ _
  · split
    · exact nodeItems_ne_nil m id _ _
    · exact nodeItems_ne_nil m id _ _

theorem eventsOf_nestedNodeItems (depth : ℕ) (id : DeploymentNodeId) :
    eventsOf (nestedNodeItems m depth id) = nestedNodeScript m depth id := by
  -- On the last level there are no children, neither in the body nor for the test.
  induction depth generalizing id with
  | zero =>
    unfold nestedNodeItems nestedNodeScript
    cases m.deploymentNode? id with
    | none => exact eventsOf_dangling _
    | some n => exact (eventsOf_nodeItems m id n rfl).trans (by rw [eventsOf_nil])
  | succ depth ih =>
    unfold nestedNodeItems nestedNodeScript
    cases m.deploymentNode? id with
    | none => exact eventsOf_dangling _
    | some n =>
      have hchildren := isEmpty_flatMap (nestedNodeItems_ne_nil m depth) n.children
      exact (eventsOf_nodeItems m id n hchildren).trans (by rw [eventsOf_flatMap ih])

theorem eventsOf_deploymentNodeItems (id : DeploymentNodeId) :
    eventsOf (deploymentNodeItems m id) = deploymentNodeScript m id :=
  eventsOf_nestedNodeItems m _ id

theorem eventsOf_environmentItems (group : Group) :
    eventsOf (environmentItems m group) = environmentScript m group := by
  unfold environmentItems environmentScript
  rw [eventsOf_note_cons, eventsOf_block, eventsOf_flatMap (eventsOf_deploymentNodeItems m)]

theorem eventsOf_environmentsItems : eventsOf (environmentsItems m) = environmentsScript m := by
  unfold environmentsItems environmentsScript
  cases unknownRoot? m with
  | some id => exact eventsOf_dangling _
  | none => exact eventsOf_flatMap (eventsOf_environmentItems m) _

variable {m}

theorem unknownRoot?_eq_none_iff :
    unknownRoot? m = none ↔ ∀ id ∈ m.topLevel, (m.deploymentNode? id).isSome := by
  simp [unknownRoot?, Option.isSome_iff_ne_none]

theorem environmentsItems_of_isSome (h : ∀ id ∈ m.topLevel, (m.deploymentNode? id).isSome) :
    environmentsItems m = (environmentGroups m).flatMap (environmentItems m) := by
  rw [environmentsItems, unknownRoot?_eq_none_iff.2 h]

theorem isEmpty_environmentsItems : (environmentsItems m).isEmpty = m.topLevel.isEmpty := by
  unfold environmentsItems
  cases hunknown : unknownRoot? m with
  | some id =>
    have hmem : id ∈ m.topLevel := List.mem_of_find?_eq_some hunknown
    exact (List.isEmpty_eq_false_iff.2 (List.ne_nil_of_mem hmem)).symm
  | none =>
    have hgroups := environmentGroups_perm (unknownRoot?_eq_none_iff.1 hunknown)
    have hblock (g : Group) : environmentItems m g ≠ [] := List.cons_ne_nil _ _
    rw [isEmpty_flatMap hblock, Bool.eq_iff_iff, List.isEmpty_iff, List.isEmpty_iff]
    constructor
    · intro hnil
      rw [hnil] at hgroups
      exact List.nil_perm.1 hgroups
    · intro hnil
      rw [environmentGroups, hnil, List.foldl_nil]

end Deployment

section Views

variable (m : Model)

theorem eventsOf_autoLayoutLine (header : ViewHeader) :
    eventsOf (autoLayoutLine subject header) = autoLayoutScript subject header := by
  unfold autoLayoutLine autoLayoutScript
  split
  · exact eventsOf_line _
  · exact eventsOf_nil

theorem eventsOf_quotedLine (keyword : String) (text : Option String) :
    eventsOf (quotedLine subject keyword text) = quotedScript subject keyword text := by
  cases text with
  | none => exact eventsOf_nil
  | some t => exact eventsOf_line _

theorem eventsOf_keyAndDescription (header : ViewHeader) :
    eventsOf (keyAndDescription subject header) = keyScript subject header := by
  unfold keyAndDescription keyScript
  rw [eventsOf_append, eventsOf_quotedLine, eventsOf_quotedLine]

theorem eventsOf_includeItems (token : Except RenderError String) :
    eventsOf (includeItems subject token) = includeScript subject token :=
  eventsOf_withToken fun _ => eventsOf_line _

theorem eventsOf_flagLines (i : Inclusions) :
    eventsOf (flagLines subject i) = flagScript subject i := by
  unfold flagLines flagScript
  simp only [apply_ite eventsOf, eventsOf_append, eventsOf_line, eventsOf_nil]

theorem eventsOf_inclusionItems (i : Inclusions) :
    eventsOf (inclusionItems m subject i) = inclusionScript m subject i := by
  unfold inclusionItems inclusionScript
  rw [eventsOf_append, eventsOf_append, eventsOf_flagLines,
    eventsOf_flatMap fun id => eventsOf_includeItems _,
    eventsOf_flatMap fun e => eventsOf_includeItems _]

theorem eventsOf_staticViewItems (id : ViewId) (scope : ElementId) (header : ViewHeader)
    (i : Inclusions) :
    eventsOf (staticViewItems m id scope header i) = staticViewScript m id scope header i := by
  refine eventsOf_withToken fun t => ?_
  rw [eventsOf_block, eventsOf_append, eventsOf_inclusionItems, eventsOf_autoLayoutLine]

theorem eventsOf_stepItems (step : DynamicStep) :
    eventsOf (stepItems m subject step) = stepScript m subject step :=
  eventsOf_withToken fun _ => eventsOf_line _

theorem eventsOf_segmentsFrom (steps : List DynamicStep) (stretches : List Stretch)
    (limit index : ℕ) :
    eventsOf ((DynamicView.segmentsFrom steps stretches limit index).flatMap
      (segmentItems m subject)) = stepLoop m subject steps stretches limit index := by
  induction limit generalizing index with
  | zero => exact eventsOf_nil
  | succ limit ih =>
    unfold DynamicView.segmentsFrom stepLoop
    cases steps[index]? with
    | none => exact eventsOf_nil
    | some step =>
      cases stretches.find? (·.start = index) with
      | none =>
        simp only [List.flatMap_cons]
        rw [eventsOf_append, ih, segmentItems, eventsOf_stepItems]
      | some s =>
        have hinside (step : DynamicStep) :
            eventsOf [.block subject "" (stepItems m subject step)] =
              Script.opening subject "" ++ stepScript m subject step ++
                Script.closing subject := by
          rw [eventsOf_block, eventsOf_stepItems]
          rfl
        simp only [List.flatMap_cons]
        rw [eventsOf_append, ih, segmentItems, eventsOf_block, eventsOf_map hinside]
        rfl

theorem eventsOf_segments (v : DynamicView) :
    eventsOf (v.segments.flatMap (segmentItems m subject)) = stepsScript m subject v :=
  eventsOf_segmentsFrom m v.steps v.parallel v.steps.length 0

theorem eventsOf_dynamicViewItems (id : ViewId) (v : DynamicView) :
    eventsOf (dynamicViewItems m id v) = dynamicViewScript m id v := by
  refine eventsOf_withToken fun t => ?_
  rw [eventsOf_block, eventsOf_append, eventsOf_segments, eventsOf_autoLayoutLine]

theorem eventsOf_deploymentViewItems (id : ViewId) (v : DeploymentView) :
    eventsOf (deploymentViewItems m id v) = deploymentViewScript m id v := by
  unfold deploymentViewItems deploymentViewScript
  have hbody (items : List Item) :
      eventsOf (.line (viewSubject id v.header) ("environment " ++ quote v.environment.name) ::
        items) = Script.line (viewSubject id v.header)
          ("environment " ++ quote v.environment.name) ++ eventsOf items := by
    rw [eventsOf_cons, Item.events]
    rfl
  rw [eventsOf_block, eventsOf_append, hbody]
  simp only [eventsOf_append, eventsOf_keyAndDescription, eventsOf_autoLayoutLine,
    eventsOf_flatMap fun _ => eventsOf_includeItems _, List.append_assoc]
  cases v.scope with
  | none => rw [eventsOf_nil]
  | some system => rw [eventsOf_withToken fun t => eventsOf_line _]

theorem eventsOf_filteredViewItems (vs : Views) (id : ViewId) (v : FilteredView) :
    eventsOf (filteredViewItems vs id v) = filteredViewScript vs id v := by
  unfold filteredViewItems filteredViewScript
  have hfilter (f : FilterCriterion) : eventsOf [filterLine (viewSubject id v.header) f] =
      filterScript (viewSubject id v.header) f := eventsOf_line _
  simp only [eventsOf_append, apply_ite eventsOf, eventsOf_note_cons, eventsOf_nil,
    List.append_nil, eventsOf_block, eventsOf_quotedLine, eventsOf_keyAndDescription,
    eventsOf_autoLayoutLine, eventsOf_map hfilter]

theorem eventsOf_viewItems (vs : Views) (id : ViewId) :
    eventsOf (viewItems m vs id) = viewScript m vs id := by
  have found {α : Type} (view : Option α) {items : α → List Item} {script : α → Script}
      (h : ∀ v, eventsOf (items v) = script v) :
      eventsOf ((view.map items).getD [.dangling (.unknownView id)]) =
        (view.map script).getD (Script.stop (.unknownView id)) := by
    cases view with
    | none => exact eventsOf_dangling _
    | some v => exact h v
  cases id with
  | systemContext | container | component =>
    exact found _ fun v => eventsOf_staticViewItems m _ _ _ _
  | dynamic => exact found _ fun v => eventsOf_dynamicViewItems m _ v
  | deployment => exact found _ fun v => eventsOf_deploymentViewItems m _ v
  | filtered => exact found _ fun v => eventsOf_filteredViewItems vs _ v

/-- What holds of every view as it is drawn, and of the reference to a view that does not exist. -/
theorem getD_map_of {α β : Type*} {motive : β → Prop} {view : Option α} {draw : α → β}
    {missing : β} (hmissing : motive missing) (h : ∀ v, view = some v → motive (draw v)) :
    motive ((view.map draw).getD missing) := by
  cases view with
  | none => exact hmissing
  | some v => exact h v rfl

theorem viewItems_ne_nil (vs : Views) (id : ViewId) : viewItems m vs id ≠ [] := by
  have hmissing : [Item.dangling (.unknownView id)] ≠ [] := List.cons_ne_nil _ _
  cases id with
  | systemContext | container | component | dynamic =>
    exact getD_map_of (motive := (· ≠ [])) hmissing fun v _ =>
      withToken_ne_nil fun t => List.cons_ne_nil _ _
  | deployment =>
    exact getD_map_of (motive := (· ≠ [])) hmissing fun v _ => List.cons_ne_nil _ _
  | filtered =>
    exact getD_map_of (motive := (· ≠ [])) hmissing fun v _ =>
      List.append_ne_nil_of_right_ne_nil _ (List.cons_ne_nil _ _)

theorem eventsOf_styleItem (tag : String) (lines : List String) :
    eventsOf [styleItem subject tag lines] = styleScript subject tag lines := by
  unfold styleItem styleScript
  rw [eventsOf_block, eventsOf_map fun line => eventsOf_line _]

theorem eventsOf_stylesItems (s : Styles) : eventsOf (stylesItems s) = stylesScript s := by
  unfold stylesItems stylesScript
  split
  · exact eventsOf_nil
  · rw [eventsOf_note_cons, eventsOf_block, eventsOf_append,
      eventsOf_map fun style => eventsOf_styleItem _ _,
      eventsOf_map fun style => eventsOf_styleItem _ _]

theorem isEmpty_stylesItems (s : Styles) : (stylesItems s).isEmpty = s.isEmpty := by
  unfold stylesItems
  split
  · next hempty => exact hempty.symm
  · next hempty => simpa using hempty

end Views

section Documents

/-- A section is its items, and it is there exactly when it has some. -/
def Section.Holds (s : Section) (items : List Item) : Prop :=
  items.isEmpty = !s.present ∧ eventsOf items = s.script

theorem isEmpty_of_holds {sections : List Section} {items : List (List Item)}
    (h : List.Forall₂ Section.Holds sections items) :
    items.map List.isEmpty = sections.map (!·.present) := by
  induction h with
  | nil => rfl
  | cons hs _ ih => exact congrArg₂ List.cons hs.1 ih

theorem sections_eq_eventsOf (separator : List Item) {sections : List Section}
    {items : List (List Item)} (h : List.Forall₂ Section.Holds sections items) :
    Script.sections (eventsOf separator) true sections = eventsOf (spaced separator items) ∧
    Script.sections (eventsOf separator) false sections =
      if spaced separator items = [] then []
      else eventsOf separator ++ eventsOf (spaced separator items) := by
  induction h with
  | nil => simp [Script.sections, spaced]
  | @cons s i sections items hs _ ih =>
    obtain ⟨hpresent, hscript⟩ := hs
    obtain ⟨hfirst, hlater⟩ := ih
    cases i with
    | nil =>
      have habsent : s.present = false := by simpa using hpresent
      simp only [Script.sections, spaced, habsent]
      exact ⟨hfirst, hlater⟩
    | cons item rest =>
      have hthere : s.present = true := by simpa using hpresent
      have hspaced : spaced separator ((item :: rest) :: items) = item :: rest ++
          if spaced separator items = [] then [] else separator ++ spaced separator items := by
        rw [spaced]
        cases spaced separator items <;> rfl
      have hevents : eventsOf (spaced separator ((item :: rest) :: items)) =
          s.script ++ Script.sections (eventsOf separator) false sections := by
        rw [hspaced, eventsOf_append, hscript, hlater]
        simp only [apply_ite eventsOf, eventsOf_append, eventsOf_nil]
      have hne : spaced separator ((item :: rest) :: items) ≠ [] := by
        rw [hspaced]
        exact List.cons_ne_nil _ _
      rw [if_neg hne, hevents]
      simp [Script.sections, hthere]

variable (l : Layout) (m : Model)

theorem eventsOf_separator (subject : Subject) :
    eventsOf (l.separator subject) = l.separatorScript subject := by
  unfold Layout.separator Layout.separatorScript
  split
  · rw [eventsOf_cons, Item.events, eventsOf_nil]
    rfl
  · exact eventsOf_nil

theorem holds_flatMap {α : Type*} {f : α → List Item} {script : α → Script}
    (hne : ∀ a, f a ≠ []) (h : ∀ a, eventsOf (f a) = script a) (l : List α) :
    Section.Holds ⟨!l.isEmpty, l.flatMap script⟩ (l.flatMap f) :=
  ⟨by simp [isEmpty_flatMap hne], eventsOf_flatMap h l⟩

theorem holds_modelSections :
    List.Forall₂ Section.Holds (modelSectionScripts m) (modelSections m) := by
  have henterprise : Section.Holds ⟨m.enterprise.isSome, m.enterprise.elim [] (enterpriseScript m)⟩
      (m.enterprise.elim [] (enterpriseItems m)) := by
    cases m.enterprise with
    | none => exact ⟨rfl, eventsOf_nil⟩
    | some e => exact ⟨rfl, eventsOf_enterpriseItems m e⟩
  exact .cons ⟨by simp, eventsOf_propertyBlock _⟩
    (.cons (holds_flatMap (personItems_ne_nil m) (eventsOf_personItems m) _)
    (.cons (holds_flatMap (softwareSystemItems_ne_nil m) (eventsOf_softwareSystemItems m) _)
    (.cons henterprise (.cons ⟨by simp [isEmpty_environmentsItems], eventsOf_environmentsItems m⟩
    (.cons (holds_flatMap (relationshipItems_ne_nil m) (eventsOf_relationshipItems m) _) .nil)))))

theorem holds_viewSections (vs : Views) : List.Forall₂ Section.Holds (viewSectionScripts m vs)
    (vs.ids.map (viewItems m vs) ++ [stylesItems vs.styles]) := by
  refine List.rel_append ?_ (.cons ⟨by simp [isEmpty_stylesItems], eventsOf_stylesItems _⟩ .nil)
  rw [List.forall₂_map_left_iff, List.forall₂_map_right_iff, List.forall₂_same]
  intro id _
  exact ⟨List.isEmpty_eq_false_iff.2 (viewItems_ne_nil m vs id), eventsOf_viewItems m vs id⟩

theorem eventsOf_modelBlock : eventsOf [modelBlock l m] = modelScript l m := by
  obtain ⟨hsections, -⟩ := sections_eq_eventsOf (l.separator .model)
    (holds_modelSections m)
  rw [modelBlock, eventsOf_block, ← hsections, eventsOf_separator]
  rfl

theorem eventsOf_viewsBlock (vs : Views) : Script.note ⟨.debug, "Emitting views",
      [("views", toString vs.ids.length)]⟩ ++ eventsOf [viewsBlock l m vs] =
    viewsScript l m vs := by
  obtain ⟨hsections, -⟩ := sections_eq_eventsOf (l.separator .views)
    (holds_viewSections m vs)
  rw [viewsBlock, eventsOf_block, ← hsections, eventsOf_separator]
  rfl

theorem eventsOf_elementItems (id : ElementId) :
    eventsOf (elementItems m id) = elementScript m id := by
  cases id with
  | person id => exact eventsOf_personItems m id
  | softwareSystem id => exact eventsOf_softwareSystemItems m id
  | container id => exact eventsOf_containerItems m id
  | component id => exact eventsOf_componentItems m id
  | deploymentNode id => exact eventsOf_deploymentNodeItems m id
  | infrastructureNode id => exact eventsOf_infrastructureNodeItems m id
  | containerInstance id => exact eventsOf_containerInstanceItems m id

end Documents

theorem Fragment.eventsOf_outline (w : Workspace) (f : Fragment) :
    eventsOf (f.outline w) = f.script w := by
  cases f with
  | element id => exact eventsOf_elementItems w.model id
  | relationship id => exact eventsOf_relationshipItems w.model id
  | view id => exact eventsOf_viewItems w.model w.views id
  | styles => exact eventsOf_stylesItems w.views.styles

end Dsl

namespace Workspace

/-- What the first phase opens and the last one closes is the block of the workspace. -/
theorem eventsOf_outline (w : Workspace) (l : Layout) : eventsOf (w.outline l) = w.script l := by
  have hreport : eventsOf ((collisions w.model).map .note) =
      (collisions w.model).flatMap Script.note := by
    refine eventsOf_map (fun record => ?_) _
    rw [eventsOf_note_cons, eventsOf_nil, List.append_nil]
  have hbody : eventsOf [Phase.model.note, modelBlock l w.model, Phase.views.note,
        .note ⟨.debug, "Emitting views", [("views", toString w.views.ids.length)]⟩,
        viewsBlock l w.model w.views, Phase.close.note] =
      Script.note Phase.model.record ++ modelScript l w.model ++
        (Script.note Phase.views.record ++ viewsScript l w.model w.views) ++
        Script.note Phase.close.record := by
    rw [← eventsOf_modelBlock, ← eventsOf_viewsBlock]
    simp only [Phase.note, eventsOf_cons, Item.events, eventsOf_nil, Script.note,
      List.append_nil, List.append_assoc]
  rw [outline, eventsOf_append, hreport, Phase.note, eventsOf_note_cons, eventsOf_block, hbody]
  simp [script, phasesScript, phaseScript, Phase.sequence, Script.block, Script.entity]

end Workspace

end C4
