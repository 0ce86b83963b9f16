import C4.Proofs.Listing
import C4.Proofs.Verdict

/-!
# Placement

What the model block of a finished document consists of: a line for each element of the model
that has its place in it, in the block of the entity that it belongs to, and after these an
arrow for each relationship.
-/
namespace C4

open Dsl Forest

namespace Model

variable {m : Model}

def subjectOf? (m : Model) (id : ElementId) : Option Subject := (m.nameOf? id).map (.element id)

/-- People and software systems stand in the enterprise if they are members of it. -/
def memberBlock? (m : Model) (id : ElementId) : Option Subject :=
  if id ∈ m.members then m.enterprise.map fun e => .enterprise e.name else some .model

/-- The entity in whose block an element belongs. -/
def outer? (m : Model) : ElementId → Option Subject
  | .person id => m.memberBlock? id
  | .softwareSystem id => m.memberBlock? id
  | .container id => (m.systemOf? id).bind fun s => m.subjectOf? s
  | .component id => (m.containerOf? id).bind fun c => m.subjectOf? c
  | .deploymentNode id =>
    match m.parentOf? id with
    | some p => m.subjectOf? p
    | none => (m.deploymentNode? id).map (.environment ·.environment.name)
  | .infrastructureNode id => (m.infrastructureHost? id).bind fun n => m.subjectOf? n
  | .containerInstance id => (m.instanceHost? id).bind fun n => m.subjectOf? n

theorem subjectOf?_eq_some {id : ElementId} {name : String} (h : m.nameOf? id = some name) :
    m.subjectOf? id = some (.element id name) := by
  rw [subjectOf?, h]
  rfl

theorem memberBlock?_of_outside {id : ElementId} (h : m.isOutside id = true) :
    m.memberBlock? id = some .model := by
  rw [isOutside_eq, decide_eq_true_iff] at h
  rw [memberBlock?, if_neg h]

theorem memberBlock?_of_member {id : ElementId} {name : String}
    (hname : m.enterprise.map (·.name) = some name) (h : id ∈ m.members) :
    m.memberBlock? id = some (.enterprise name) := by
  obtain ⟨e, he, rfl⟩ := Option.map_eq_some_iff.1 hname
  rw [memberBlock?, if_pos h, he]
  rfl

theorem outer?_of_holds (h : m.skeleton.Sound) {outer : Subject} {id : ElementId}
    (hholds : m.Holds outer id) : m.outer? id = some outer := by
  -- All elements but people, systems and nodes belong to an owner that the model knows.
  have below {ι : Type} {owner : Option ι} {make : ι → ElementId} {p : ι} {name : String}
      (howner : owner = some p) (hname : m.nameOf? (make p) = some name) :
      (owner.bind fun p => m.subjectOf? (make p)) = some (.element (make p) name) := by
    rw [howner]
    exact subjectOf?_eq_some hname
  unfold Holds at hholds
  split at hholds
  · exact memberBlock?_of_outside hholds.2
  · exact memberBlock?_of_outside hholds.2
  · exact memberBlock?_of_member hholds.1 hholds.2
  · exact memberBlock?_of_member hholds.1 hholds.2
  · exact below (h.containers.mem_iff.1 hholds.2) hholds.1
  · exact below (h.components.mem_iff.1 hholds.2) hholds.1
  · have hfree : m.parentOf? _ = none := (h.roots_free _ hholds.1).2
    obtain ⟨n, hn, hname⟩ := Option.map_eq_some_iff.1 hholds.2
    simp only [outer?, hfree, hn, Option.map_some, hname]
  · have hparent : m.parentOf? _ = some _ := h.children.mem_iff.1 hholds.2
    simp only [outer?, hparent]
    exact subjectOf?_eq_some hholds.1
  · exact below (h.infrastructure.mem_iff.1 hholds.2) hholds.1
  · exact below (h.instances.mem_iff.1 hholds.2) hholds.1
  · cases hholds

end Model

namespace Dsl

def Directive.text? : Directive → Option String
  | .line text => some text
  | .opening header => some header
  | .closing => none
  | .gap => none

def Placed.entity? (p : Placed) : Option Reference := p.entries.head?.bind (·.subject.reference?)

theorem Placed.entries_eq (p : Placed) : p.entries =
    match p.directive.text? with
    | none => []
    | some text => entriesOf p.around p.subject text := by
  unfold Placed.entries Directive.text?
  cases p.directive <;> rfl

theorem referencesIn_entries (p : Placed) : referencesIn p.entries = p.entity?.toList := by
  unfold Placed.entity?
  rw [p.entries_eq]
  split
  · rfl
  · unfold entriesOf
    split
    · cases hr : p.subject.reference? <;> simp [referencesIn, hr]
    · rfl

theorem filterMap_entity? (placed : List Placed) :
    placed.filterMap Placed.entity? = referencesIn (contents placed) := by
  induction placed with
  | nil => rfl
  | cons p rest ih =>
    have hcontents : contents (p :: rest) = p.entries ++ contents rest := rfl
    rw [hcontents, referencesIn_append, referencesIn_entries, ← ih, List.filterMap_cons]
    cases p.entity? <;> rfl

theorem Placed.entity?_eq_some {p : Placed} {r : Reference} (h : p.entity? = some r) :
    ∃ text, p.directive.text? = some text ∧ introduces p.around text = true ∧
      p.subject.reference? = some r := by
  unfold Placed.entity? at h
  rw [p.entries_eq] at h
  split at h
  · cases h
  · next text htext =>
    unfold entriesOf at h
    split at h
    · next hintroduces => exact ⟨text, htext, hintroduces, h⟩
    · cases h

theorem Placed.Attributed.introduces_of_entity? {w : Workspace} {p : Placed} {r : Reference}
    (h : p.Attributed w) (hr : p.entity? = some r) :
    ∃ text, p.directive.text? = some text ∧ w.Introduces p.around.owner? text p.subject ∧
      p.subject.reference? = some r := by
  obtain ⟨text, htext, hintroduces, hsubject⟩ := Placed.entity?_eq_some hr
  refine ⟨text, htext, ?_, hsubject⟩
  have hbelongs : Belongs w p.around p.subject text := by
    unfold Placed.Attributed at h
    unfold Directive.text? at htext
    cases hdirective : p.directive with
    | line | opening =>
      rw [hdirective] at h htext
      cases htext
      exact h
    | closing | gap =>
      rw [hdirective] at htext
      cases htext
  rwa [Belongs, if_pos hintroduces] at hbelongs

end Dsl

namespace Workspace

theorem Introduces.of_element {w : Workspace} {block : Option Subject} {text : String}
    {subject : Subject} {id : ElementId} (h : w.Introduces block text subject)
    (hid : subject.reference? = some (.element id)) :
    ∃ outer name, block = some outer ∧ w.model.Holds outer id ∧ w.model.Headed id name text := by
  cases h with
  | @element outer _ name _ hholds hheaded =>
    cases hid
    exact ⟨outer, name, rfl, hholds, hheaded⟩
  | _ => cases hid

theorem Introduces.of_relationship {w : Workspace} {block : Option Subject} {text : String}
    {subject : Subject} {id : RelationshipId} (h : w.Introduces block text subject)
    (hid : subject.reference? = some (.relationship id)) :
    block = some .model ∧ ∃ r source target, w.model.relationship? id = some r ∧
      w.model.token r.source = .ok source ∧ w.model.token r.target = .ok target ∧
      text = source ++ " -> " ++ target ++ arguments
        [r.description, r.technology, r.interactionStyle.map InteractionStyle.name] := by
  cases h with
  | relationship hr hsource htarget =>
    cases hid
    exact ⟨rfl, _, _, _, hr, hsource, htarget, rfl⟩
  | _ => cases hid

end Workspace

namespace Workspace

def modelDirectives (w : Workspace) (l : Layout) : List Placed :=
  placedFrom [(w.subject, w.headerLine)] (modelScript l w.model)

def viewsDirectives (w : Workspace) (l : Layout) : List Placed :=
  placedFrom [(w.subject, w.headerLine)] (viewsScript l w.model w.views)

theorem modelDirectives_eq_placedOf (w : Workspace) (l : Layout) :
    w.modelDirectives l = placedOf [(w.subject, w.headerLine)] [modelBlock l w.model] := by
  rw [modelDirectives, ← eventsOf_modelBlock, placedFrom_eventsOf]

theorem viewsDirectives_eq_placedOf (w : Workspace) (l : Layout) :
    w.viewsDirectives l = placedOf [(w.subject, w.headerLine)] [viewsBlock l w.model w.views] := by
  rw [viewsDirectives, ← eventsOf_viewsBlock, ← placedFrom_eventsOf]
  rfl

/-- What a finished document makes of the model. -/
structure LaysOut (w : Workspace) (l : Layout) : Prop where
  /-- The text is that of the directives, one after the other. -/
  text : (w.render l).result = .ok (String.join
    ((w.placed l).flatMap fun p => p.directive.pieces l.indentUnit p.around.length))
  /-- Nothing of the model is introduced outside the model block. -/
  block : ∃ before after, w.placed l = before ++ w.modelDirectives l ++ after ∧
    before.filterMap Placed.entity? = [] ∧ after.filterMap Placed.entity? = []
  /-- First come the elements that have a place, each once, then the relationships in order. -/
  order : ∃ elements : List ElementId,
    (w.modelDirectives l).filterMap Placed.entity? =
      elements.map .element ++ w.model.relationshipIds.map .relationship ∧
    elements.Nodup ∧ ∀ id, id ∈ elements ↔ w.model.Listed id
  /-- An element is introduced by its own line, in the block where it belongs. -/
  element : ∀ p ∈ w.modelDirectives l, ∀ id, p.entity? = some (.element id) →
    (.model, "model") ∈ p.around ∧ ∃ outer name text, p.around.owner? = some outer ∧
      w.model.outer? id = some outer ∧ p.directive.text? = some text ∧
      w.model.Headed id name text
  /-- A relationship is introduced by an arrow, directly in the model block. -/
  relationship : ∀ p ∈ w.modelDirectives l, ∀ id, p.entity? = some (.relationship id) →
    p.around.owner? = some .model ∧ ∃ r source target, w.model.relationship? id = some r ∧
      w.model.token r.source = .ok source ∧ w.model.token r.target = .ok target ∧
      p.directive.text? = some (source ++ " -> " ++ target ++ arguments
        [r.description, r.technology, r.interactionStyle.map InteractionStyle.name])

variable {w : Workspace} {l : Layout}

theorem placed_of_outcome_ok (hok : (w.render l).outcome = .ok ()) :
    w.placed l = [⟨[], w.subject, .opening w.headerLine⟩] ++ w.modelDirectives l ++
      (w.viewsDirectives l ++
        [⟨[(w.subject, w.headerLine)], w.subject, .closing⟩]) := by
  have hstop : firstStop (eventsOf (w.outline l)) = none := outcome_ok_iff_fault.1 hok
  have hnotes : placedOf [] ((collisions w.model).map .note) = [] := by
    refine List.flatMap_eq_nil_iff.2 fun item hitem => ?_
    obtain ⟨record, -, rfl⟩ := List.mem_map.1 hitem
    exact placed_note [] record
  have hphase (around : Surround) (p : Phase) : p.note.placed around = [] := placed_note around _
  rw [placed, ← eventsOf_outline, beforeStop_of_none hstop, placedFrom_eventsOf]
  simp [Workspace.outline, hnotes, hphase, braced, modelDirectives_eq_placedOf, viewsDirectives_eq_placedOf]

theorem mem_around_of_entity? {p : Placed} (hp : p ∈ w.modelDirectives l) {r : Reference}
    (hr : p.entity? = some r) : (.model, "model") ∈ p.around := by
  rw [modelDirectives_eq_placedOf, modelBlock, placedOf_cons, placedOf_nil, List.append_nil,
    placed_block] at hp
  obtain ⟨-, -, -, hsubject⟩ := Placed.entity?_eq_some hr
  rcases List.mem_cons.1 hp with rfl | hp
  · cases hsubject
  · rcases List.mem_append.1 hp with hp | hp
    · exact (suffix_of_mem_placedOf hp).subset List.mem_cons_self
    · obtain rfl := List.mem_singleton.1 hp
      cases hsubject

theorem contents_modelDirectives (hm : w.model.skeleton.Sound)
    (hresolved : ∀ r ∈ w.references, w.model.exists? r = true) :
    Dsl.contents (w.modelDirectives l) = ⟨some w.subject, .model⟩ ::
      (w.model.elementContents ++
        w.model.relationshipIds.flatMap w.model.relationshipContents) := by
  rw [modelDirectives_eq_placedOf]
  refine (fits_modelBlock w l).complete ((fault_modelBlock hm l).trans ?_)
  exact w.model.missing_eq_none_iff.2 fun r hr => hresolved r (List.mem_append_left _ hr)

theorem contents_viewsDirectives (hm : w.model.skeleton.Sound)
    (hv : ∀ v ∈ w.views.dynamic, v.Advances)
    (hresolved : ∀ r ∈ w.references, w.model.exists? r = true) :
    Dsl.contents (w.viewsDirectives l) = ⟨some w.subject, .views⟩ ::
      (w.views.ids.flatMap w.views.viewContents ++ Views.stylesContents w.views.styles) := by
  rw [viewsDirectives_eq_placedOf]
  refine (fits_viewsBlock w l).complete ((fault_viewsBlock hm hv l).trans ?_)
  exact w.model.missing_eq_none_iff.2 fun r hr => hresolved r (List.mem_append_right _ hr)

theorem referencesIn_views (w : Workspace) : referencesIn
    (w.views.ids.flatMap w.views.viewContents ++ Views.stylesContents w.views.styles) = [] := by
  have hview (id : ViewId) : referencesIn (w.views.viewContents id) = [] := by
    unfold Views.viewContents
    split <;> rfl
  have hstyles : referencesIn (Views.stylesContents w.views.styles) = [] := by
    unfold Views.stylesContents
    split
    · rfl
    · have hheader (rest : List Entry) :
          referencesIn (⟨some .views, .styles⟩ :: rest) = referencesIn rest := rfl
      rw [hheader, referencesIn_append, referencesIn_flatMap, referencesIn_flatMap,
        List.append_eq_nil_iff]
      exact ⟨List.flatMap_eq_nil_iff.2 fun _ _ => rfl, List.flatMap_eq_nil_iff.2 fun _ _ => rfl⟩
  rw [referencesIn_append, hstyles, List.append_nil, referencesIn_flatMap]
  exact List.flatMap_eq_nil_iff.2 fun id _ => hview id

theorem referencesIn_relationships (hm : w.model.skeleton.Sound)
    (hresolved : ∀ r ∈ w.references, w.model.exists? r = true) :
    referencesIn (w.model.relationshipIds.flatMap w.model.relationshipContents) =
      w.model.relationshipIds.map .relationship := by
  refine referencesIn_flatMap_eq_map fun id hid => ?_
  obtain ⟨r, hr⟩ := Option.isSome_iff_exists.1 (Model.mem_relationshipIds.1 hid)
  have hends : tokenFault (arrow w.model r.source r.target) = none := by
    rw [Model.tokenFault_arrow hm]
    refine w.model.missing_eq_none_iff.2 fun q hq => hresolved q ?_
    refine List.mem_append_left _ (List.mem_append_right _ (List.mem_flatMap.2 ⟨id, hid, ?_⟩))
    simpa only [Model.relationshipReferences, hr] using hq
  simp only [Model.relationshipContents, hr]
  cases harrow : arrow w.model r.source r.target with
  | error e =>
    rw [harrow] at hends
    cases hends
  | ok ends => rfl

theorem LaysOut.of_resolved (hm : w.model.skeleton.Sound)
    (hv : ∀ v ∈ w.views.dynamic, v.Advances)
    (hresolved : ∀ r ∈ w.references, w.model.exists? r = true) : w.LaysOut l := by
  have hok : (w.render l).outcome = .ok () := (outcome_ok_iff hm hv).2 hresolved
  have hplaced := placed_of_outcome_ok hok
  have hmodel {p : Placed} (hp : p ∈ w.modelDirectives l) : p ∈ w.placed l := by
    rw [hplaced]
    exact List.mem_append_left _ (List.mem_append_right _ hp)
  refine ⟨?text, ⟨_, _, hplaced, ?before, ?after⟩, ?order, ?element, ?relationship⟩
  case text =>
    rw [Delivery.result, hok, Delivery.text, written_render, chunks, List.map_flatMap]
    simp [Placed.chunks, Function.comp_def, Except.map]
  case before => rfl
  case after =>
    rw [List.filterMap_append, filterMap_entity?, contents_viewsDirectives hm hv hresolved]
    exact (List.append_nil _).trans (referencesIn_views w)
  case order =>
    have hmembers : ∀ r ∈ w.model.memberReferences, w.model.exists? r = true := fun r hr =>
      hresolved r (List.mem_append_left _ (List.mem_append_left _ (List.mem_append_left _ hr)))
    obtain ⟨elements, helements, hperm⟩ :=
      (congrFun₂ (List.eq_map_comp_perm Reference.element) _ w.model.elements).mpr
        (Model.referencesIn_elementContents_perm hm hmembers)
    refine ⟨elements, ?_, hperm.nodup_iff.2 (Model.elements_nodup hm), fun id =>
      hperm.mem_iff.trans (Model.mem_elements hm)⟩
    rw [filterMap_entity?, contents_modelDirectives hm hresolved, ← helements,
      ← referencesIn_relationships hm hresolved, ← referencesIn_append]
    rfl
  case element =>
    intro p hp id hid
    obtain ⟨text, htext, hintroduces, hsubject⟩ :=
      (attributed_of_mem_placed (hmodel hp)).introduces_of_entity? hid
    obtain ⟨outer, name, houter, hholds, hheaded⟩ := hintroduces.of_element hsubject
    exact ⟨mem_around_of_entity? hp hid, outer, name, text, houter,
      Model.outer?_of_holds hm hholds, htext, hheaded⟩
  case relationship =>
    intro p hp id hid
    obtain ⟨text, htext, hintroduces, hsubject⟩ :=
      (attributed_of_mem_placed (hmodel hp)).introduces_of_entity? hid
    obtain ⟨hblock, r, source, target, hr, hsource, htarget, rfl⟩ :=
      hintroduces.of_relationship hsubject
    exact ⟨hblock, r, source, target, hr, hsource, htarget, htext⟩

end Workspace

/-- A finished document has every element and relationship of its model in its place. -/
theorem model_laid_out (w : Workspace) (l : Layout) (hm : w.model.Reachable)
    (hv : w.views.Reachable) (hok : ∃ text, (w.render l).result = .ok text) : w.LaysOut l :=
  Workspace.LaysOut.of_resolved hm.sound hv.advances
    ((Workspace.outcome_ok_iff hm.sound hv.advances).1 (Workspace.exists_result_iff.1 hok))

/-- The enterprise is replaced, the new one gets a member twice, and one of two nodes on which
the same container runs is never attached. -/
theorem model_laid_out_with_spare_node :
    ∃ w : Workspace, w.model.Reachable ∧ w.model.outer? (.person ⟨0⟩) = some .model ∧
      w.model.outer? (.person ⟨1⟩) = some (.enterprise "Group") ∧
      w.model.members = [.person ⟨1⟩] ∧ w.model.topLevel = [⟨0⟩] ∧
      w.model.instanceHost? ⟨1⟩ = some ⟨1⟩ ∧
      (∃ text, (w.render .standard).result = .ok text) ∧ w.LaysOut .standard := by
  let history : List Edit := [.addPerson "User" "", .addPerson "Clerk" "",
    .addSoftwareSystem "Bank" "", .addContainer ⟨0⟩ "Ledger", .setEnterprise "Holding",
    .addToEnterprise (.person ⟨0⟩), .setEnterprise "Group", .addToEnterprise (.person ⟨1⟩),
    .addToEnterprise (.person ⟨1⟩), .addDeploymentNode "Rack" "" "" .production,
    .createDeploymentNode "Spare" "" "" .production, .addContainerInstance ⟨0⟩ ⟨0⟩,
    .addContainerInstance ⟨1⟩ ⟨0⟩, .addRelationship (.person ⟨0⟩) (.containerInstance ⟨1⟩)]
  obtain ⟨w, hviews, hm, hresolved, hfacts⟩ : ∃ w : Workspace, w.views = .empty ∧
      Model.empty.performAll history = some w.model ∧
      (∀ r ∈ w.references, w.model.exists? r = true) ∧
      w.model.outer? (.person ⟨0⟩) = some .model ∧
      w.model.outer? (.person ⟨1⟩) = some (.enterprise "Group") ∧
      w.model.members = [.person ⟨1⟩] ∧ w.model.topLevel = [⟨0⟩] ∧
      w.model.instanceHost? ⟨1⟩ = some ⟨1⟩ :=
    ⟨{ Workspace.empty with model := (Model.empty.performAll history).getD .empty }, rfl,
      by decide +kernel⟩
  have hreachable : w.model.Reachable := ⟨history, hm⟩
  have hv : w.views.Reachable := hviews ▸ .empty
  have hok : ∃ text, (w.render .standard).result = .ok text := Workspace.exists_result_iff.2
    ((Workspace.outcome_ok_iff hreachable.sound hv.advances).2 hresolved)
  obtain ⟨huser, hclerk, hmembers, hroots, hhost⟩ := hfacts
  exact ⟨w, hreachable, huser, hclerk, hmembers, hroots, hhost, hok,
    model_laid_out w .standard hreachable hv hok⟩

end C4
