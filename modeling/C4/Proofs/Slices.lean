import C4.Proofs.Fragments
import C4.Proofs.Placement

/-!
# Slices

Where a document introduces an element or a relationship, a slice begins that is the entity as it
is rendered by itself, so many levels deeper. Deployment nodes are drawn to a bounded depth below
the roots as well as by themselves, but no way down is as long as the bound.
-/
namespace C4

open Dsl Forest

namespace Workspace

inductive Sliced (w : Workspace) : List Placed → Prop
  | nil : Sliced w []
  | cons {p : Placed} {rest : List Placed}
    (hp : ∀ r, p.entity? = some r → fault (r.fragment.outline w) = none ∧
      ∃ own, w.slice p.around r.fragment = p :: own ∧ own <+: rest)
    (hrest : Sliced w rest) : Sliced w (p :: rest)

variable {w : Workspace} {p : Placed} {rest placed : List Placed}

theorem Sliced.append (h : w.Sliced placed) (hrest : w.Sliced rest) :
    w.Sliced (placed ++ rest) := by
  induction h with
  | nil => exact hrest
  | @cons p placed hp _ ih =>
    refine .cons (fun r hr => ?_) ih
    obtain ⟨hfault, own, hslice, hown⟩ := hp r hr
    exact ⟨hfault, own, hslice, hown.trans (List.prefix_append placed rest)⟩

theorem Sliced.cons_of_silent (hp : p.entity? = none) (hrest : w.Sliced rest) :
    w.Sliced (p :: rest) := by
  refine .cons (fun r hr => ?_) hrest
  rw [hp] at hr
  cases hr

theorem sliced_of_silent (h : ∀ p ∈ placed, p.entity? = none) : w.Sliced placed := by
  induction placed with
  | nil => exact .nil
  | cons p placed ih =>
    exact .cons_of_silent (h p List.mem_cons_self) (ih fun q hq => h q (List.mem_cons_of_mem _ hq))

theorem Sliced.starts {before after : List Placed} (h : w.Sliced (before ++ p :: after))
    {r : Reference} (hr : p.entity? = some r) :
    fault (r.fragment.outline w) = none ∧
      ∃ own, w.slice p.around r.fragment = p :: own ∧ own <+: after := by
  induction before with
  | nil =>
    cases h with
    | cons hp _ => exact hp r hr
  | cons q before ih =>
    cases h with
    | cons _ hrest => exact ih hrest

theorem sliced_own {r : Reference} (hr : p.subject.reference? = some r)
    (hfault : fault (r.fragment.outline w) = none)
    (hslice : w.slice p.around r.fragment = p :: rest) (hrest : w.Sliced rest) :
    w.Sliced (p :: rest) := by
  refine .cons (fun q hq => ?_) hrest
  obtain ⟨-, -, -, hsubject⟩ := Placed.entity?_eq_some hq
  obtain rfl : r = q := Option.some.inj (hr.symm.trans hsubject)
  exact ⟨hfault, rest, hslice, List.prefix_rfl⟩

end Workspace

namespace Dsl

structure Composed (w : Workspace) (around : Surround) (items : List Item) : Prop where
  sliced : fault items = none → w.Sliced (placedOf around items)

variable {w : Workspace} {around : Surround} {items rest : List Item}

theorem composed_nil : Composed w around [] := ⟨fun _ => .nil⟩

theorem composed_append (h : Composed w around items) (hrest : Composed w around rest) :
    Composed w around (items ++ rest) := by
  constructor
  intro hfault
  rw [fault_append, Option.or_eq_none_iff] at hfault
  rw [placedOf_append]
  exact (h.sliced hfault.1).append (hrest.sliced hfault.2)

theorem compositional_composed : Compositional (Composed w around) :=
  ⟨composed_nil, composed_append⟩

theorem composed_flatMap {α : Type*} {f : α → List Item} {l : List α}
    (h : ∀ a ∈ l, Composed w around (f a)) : Composed w around (l.flatMap f) :=
  compositional_composed.flatMap h

theorem composed_dangling (error : RenderError) : Composed w around [.dangling error] := by
  constructor
  intro hfault
  rw [fault_dangling] at hfault
  cases hfault

theorem composed_withToken {token : Except RenderError String} {draw : String → List Item}
    (h : ∀ t, token = .ok t → Composed w around (draw t)) :
    Composed w around (withToken token draw) :=
  withToken_of_draw composed_dangling h

theorem composed_of_fits {entries : List Entry} (h : Fits w around items entries)
    (hentries : referencesIn entries = []) : Composed w around items := by
  constructor
  intro hfault
  have hnone : (placedOf around items).filterMap Placed.entity? = [] := by
    rw [filterMap_entity?, h.complete hfault, hentries]
  exact Workspace.sliced_of_silent (List.filterMap_eq_nil_iff.1 hnone)

theorem entity?_of_subject {p : Placed} (h : p.subject.reference? = none) : p.entity? = none := by
  cases hr : p.entity? with
  | none => rfl
  | some r =>
    obtain ⟨-, -, -, hsubject⟩ := Placed.entity?_eq_some hr
    rw [h] at hsubject
    cases hsubject

theorem sliced_closing (around : Surround) (subject : Subject) :
    w.Sliced [⟨around, subject, .closing⟩] :=
  Workspace.sliced_of_silent fun p hp => by
    obtain rfl := List.mem_singleton.1 hp
    rfl

theorem composed_note_cons {record : Record} (h : Composed w around items) :
    Composed w around (.note record :: items) := by
  constructor
  intro hfault
  rw [fault_note_cons] at hfault
  rw [placedOf_cons, placed_note]
  exact h.sliced hfault

theorem composed_block {subject : Subject} {header : String} (hsubject : subject.reference? = none)
    (h : Composed w ((subject, header) :: around) items) :
    Composed w around [.block subject header items] := by
  constructor
  intro hfault
  rw [fault_block] at hfault
  rw [placedOf_cons, placedOf_nil, List.append_nil, placed_block]
  exact .cons_of_silent (entity?_of_subject hsubject) ((h.sliced hfault).append (sliced_closing ..))

theorem composed_element {id : ElementId} {name header : String} {body : List Item}
    (hitems : placedOf around (elementItems w.model id) =
        placedOf around [.entity (.element id name) header body] ∧
      fault (elementItems w.model id) = fault body)
    (hbody : Composed w ((.element id name, header) :: around) body) :
    Composed w around [.entity (.element id name) header body] := by
  constructor
  intro hfault
  rw [fault_entity] at hfault
  have hown : fault ((Reference.element id).fragment.outline w) = none := hitems.2.trans hfault
  have hslice : w.slice around (Reference.element id).fragment =
      placedOf around [.entity (.element id name) header body] :=
    (Workspace.placedOf_eq_slice hown around).symm.trans hitems.1
  rw [placedOf_cons, placedOf_nil, List.append_nil, placed_entity] at hslice ⊢
  -- A body without items has no braces, and the header is all there is.
  split at hslice
  · next hnil =>
    rw [if_pos hnil]
    exact Workspace.sliced_own rfl hown hslice .nil
  · next hbraces =>
    rw [if_neg hbraces]
    exact Workspace.sliced_own rfl hown hslice ((hbody.sliced hfault).append (sliced_closing ..))

theorem composed_personItems (id : PersonId) : Composed w around (personItems w.model id) := by
  unfold personItems
  cases hp : w.model.person? id with
  | none => exact composed_dangling _
  | some p =>
    refine composed_withToken fun token ht => composed_note_cons ?_
    exact composed_element (by simp [elementItems, personItems, hp, ht, withToken])
      (composed_of_fits (fits_tagLines ..) rfl)

theorem composed_componentItems (id : ComponentId) :
    Composed w around (componentItems w.model id) := by
  unfold componentItems
  cases hc : w.model.component? id with
  | none => exact composed_dangling _
  | some c =>
    refine composed_withToken fun token ht => ?_
    exact composed_element (by simp [elementItems, componentItems, hc, ht, withToken])
      (composed_of_fits (fits_tagLines ..) rfl)

theorem composed_containerItems (id : ContainerId) :
    Composed w around (containerItems w.model id) := by
  unfold containerItems
  cases hc : w.model.container? id with
  | none => exact composed_dangling _
  | some c =>
    refine composed_withToken fun token ht => ?_
    exact composed_element (by simp [elementItems, containerItems, hc, ht, withToken])
      (composed_append (composed_of_fits (fits_tagLines ..) rfl)
        (composed_flatMap fun x _ => composed_componentItems x))

theorem composed_softwareSystemItems (id : SoftwareSystemId) :
    Composed w around (softwareSystemItems w.model id) := by
  unfold softwareSystemItems
  cases hs : w.model.softwareSystem? id with
  | none => exact composed_dangling _
  | some s =>
    refine composed_withToken fun token ht => composed_note_cons ?_
    exact composed_element (by simp [elementItems, softwareSystemItems, hs, ht, withToken])
      (composed_append (composed_of_fits (fits_tagLines ..) rfl)
        (composed_flatMap fun c _ => composed_containerItems c))

theorem composed_enterpriseItems (e : Enterprise) :
    Composed w around (enterpriseItems w.model e) := by
  refine composed_block rfl (composed_append (composed_append
    (composed_of_fits (fits_propertyBlock ..) rfl) ?people) ?systems)
  case people =>
    refine composed_flatMap fun id _ => ?_
    cases id with
    | person id => exact composed_personItems id
    | _ => exact composed_nil
  case systems =>
    refine composed_flatMap fun id _ => ?_
    cases id with
    | softwareSystem id => exact composed_softwareSystemItems id
    | _ => exact composed_nil

theorem composed_relationshipItems (id : RelationshipId) :
    Composed w around (relationshipItems w.model id) := by
  unfold relationshipItems
  cases hr : w.model.relationship? id with
  | none => exact composed_dangling _
  | some r =>
    refine composed_withToken fun ends hends => ⟨fun _ => ?_⟩
    have hitems : (Reference.relationship id).fragment.outline w = withToken (.ok ends)
        fun ends => [.line (.relationship id (ends ++ arguments [r.description, r.technology,
          r.interactionStyle.map InteractionStyle.name])) (ends ++ arguments [r.description,
          r.technology, r.interactionStyle.map InteractionStyle.name])] := by
      simp only [Reference.fragment, Fragment.outline, relationshipItems, hr, hends]
    have hown : fault ((Reference.relationship id).fragment.outline w) = none := by
      rw [hitems]
      exact fault_line ..
    have hslice := Workspace.placedOf_eq_slice hown around
    rw [hitems] at hslice
    rw [withToken, placedOf_cons, placed_line] at hslice
    exact Workspace.sliced_own rfl hown hslice.symm .nil

theorem composed_infrastructureNodeItems (id : InfrastructureNodeId) :
    Composed w around (infrastructureNodeItems w.model id) := by
  unfold infrastructureNodeItems
  cases hn : w.model.infrastructureNode? id with
  | none => exact composed_dangling _
  | some n =>
    refine composed_withToken fun token ht => ?_
    exact composed_element (by simp [elementItems, infrastructureNodeItems, hn, ht, withToken])
      (composed_append (composed_of_fits (fits_tagLines ..) rfl)
        (composed_of_fits (fits_propertyBlock ..) rfl))

theorem composed_containerInstanceItems (id : ContainerInstanceId) :
    Composed w around (containerInstanceItems w.model id) := by
  unfold containerInstanceItems
  cases hi : w.model.containerInstance? id with
  | none => exact composed_dangling _
  | some i =>
    refine composed_withToken fun token ht => composed_withToken fun container hcontainer => ?_
    obtain ⟨c, hc, hname⟩ := Model.exists_container_of_token hi hcontainer
    have hheaded : w.model.Headed id c.name _ := .containerInstance hi hc ht hcontainer
    have hheader := definesToken_ne_properties (definesToken_of_headed hheaded)
    refine composed_element
      (by simp [elementItems, containerInstanceItems, hi, ht, hcontainer, withToken])
      (composed_append (composed_append (composed_append (composed_of_fits (fits_tagLines ..) rfl)
        (composed_of_fits (fits_propertyBlock ..) rfl))
        (composed_of_fits (fits_instanceNumber ..) rfl)) ?_)
    rw [List.map_eq_flatMap, hname]
    exact composed_flatMap fun check hcheck =>
      composed_of_fits (fits_healthCheckItem hi hname hcheck hheader) rfl

def nodeItemsWith (m : Model) (children : List Item) (id : DeploymentNodeId) : List Item :=
  match m.deploymentNode? id with
  | none => [.dangling (.unknownElement id)]
  | some n => nodeItems m id n children

theorem nestedNodeItems_zero (m : Model) (id : DeploymentNodeId) :
    nestedNodeItems m 0 id = nodeItemsWith m [] id := by
  unfold nestedNodeItems nodeItemsWith
  rfl

theorem nestedNodeItems_succ (m : Model) (depth : ℕ) (id : DeploymentNodeId) :
    nestedNodeItems m (depth + 1) id =
      nodeItemsWith m ((m.childrenOf id).flatMap (nestedNodeItems m depth)) id := by
  unfold nestedNodeItems nodeItemsWith Model.childrenOf
  cases m.deploymentNode? id <;> rfl

section Ways

variable {m : Model} {r id : DeploymentNodeId} {path : List DeploymentNodeId}

/-- Where no way down is longer than the depth to which a node is drawn, one level more changes
nothing. -/
theorem nestedNodeItems_of_way (h : m.skeleton.Sound)
    (hlength : ∀ path id, Way m.parentOf? r path id → path.length ≤ m.deploymentNodes.size)
    (hway : Way m.parentOf? r path id) {depth : ℕ}
    (hdepth : m.deploymentNodes.size ≤ path.length + depth) :
    nestedNodeItems m (depth + 1) id = nestedNodeItems m depth id := by
  -- One step down makes the way longer and the depth that is left smaller.
  induction depth generalizing path id with
  | zero =>
    have hleaf : m.childrenOf id = [] := by
      refine List.eq_nil_iff_forall_not_mem.2 fun c hc => ?_
      have hlonger := hlength _ _ (.up (h.children.mem_iff.1 hc) hway)
      rw [List.length_cons] at hlonger
      omega
    rw [nestedNodeItems_succ, nestedNodeItems_zero, hleaf, List.flatMap_nil]
  | succ depth ih =>
    rw [nestedNodeItems_succ, nestedNodeItems_succ]
    refine congrArg (nodeItemsWith m · id) (List.flatMap_congr fun c hc => ?_)
    refine ih (.up (h.children.mem_iff.1 hc) hway) ?_
    rw [List.length_cons]
    omega

/-- The children of a node are drawn as they are by themselves. -/
theorem deploymentNodeItems_of_way (h : m.skeleton.Sound)
    (hlength : ∀ path id, Way m.parentOf? r path id → path.length ≤ m.deploymentNodes.size)
    (hway : Way m.parentOf? r path id) : deploymentNodeItems m id =
      nodeItemsWith m ((m.childrenOf id).flatMap (deploymentNodeItems m)) id :=
  (nestedNodeItems_of_way h hlength hway (Nat.le_add_left ..)).symm.trans
    (nestedNodeItems_succ ..)

theorem deploymentNodeScript_of_way (h : m.skeleton.Sound)
    (hlength : ∀ path id, Way m.parentOf? r path id → path.length ≤ m.deploymentNodes.size)
    (hway : Way m.parentOf? r path id) {n : DeploymentNode} (hn : m.deploymentNode? id = some n) :
    deploymentNodeScript m id =
      nodeScript m id n n.children (n.children.flatMap (deploymentNodeScript m)) := by
  have hchildren : m.childrenOf id = n.children := by simp [Model.childrenOf, hn]
  have hempty := isEmpty_flatMap (nestedNodeItems_ne_nil m m.deploymentNodes.size) n.children
  have hscripts := eventsOf_flatMap (eventsOf_deploymentNodeItems m) n.children
  rw [← eventsOf_deploymentNodeItems, deploymentNodeItems_of_way h hlength hway, nodeItemsWith, hn,
    hchildren]
  exact (eventsOf_nodeItems m id n hempty).trans (congrArg _ hscripts)

end Ways

theorem composed_nodeItemsWith {children : List Item} {id : DeploymentNodeId}
    (hitems : elementItems w.model id = nodeItemsWith w.model children id)
    (hchildren : ∀ around, Composed w around children) :
    Composed w around (nodeItemsWith w.model children id) := by
  unfold nodeItemsWith
  cases hn : w.model.deploymentNode? id with
  | none => exact composed_dangling _
  | some n =>
    refine composed_withToken fun token ht => composed_note_cons ?_
    refine composed_element (by simp [hitems, nodeItemsWith, nodeItems, hn, ht, withToken]) ?_
    exact composed_append (composed_append (composed_append (composed_append
      (composed_of_fits (fits_tagLines ..) rfl) (composed_of_fits (fits_propertyBlock ..) rfl))
      (hchildren _)) (composed_flatMap fun i _ => composed_infrastructureNodeItems i))
      (composed_flatMap fun i _ => composed_containerInstanceItems i)

theorem composed_deploymentNodeItems (h : w.model.skeleton.Sound) {r id : DeploymentNodeId}
    (hr : r ∈ w.model.topLevel) {path : List DeploymentNodeId}
    (hway : Way w.model.parentOf? r path id) :
    ∀ around, Composed w around (deploymentNodeItems w.model id) := by
  refine Way.induction_below (P := fun id => ∀ around,
    Composed w around (deploymentNodeItems w.model id))
    (fun _ _ => Model.length_le_of_way h hr) ?_ hway
  intro path id hway hbelow around
  have hitems := deploymentNodeItems_of_way h (fun _ _ => Model.length_le_of_way h hr) hway
  rw [hitems]
  exact composed_nodeItemsWith hitems fun around =>
    composed_flatMap fun c hc => hbelow c (h.children.mem_iff.1 hc) around

theorem composed_environmentsItems (h : w.model.skeleton.Sound) :
    Composed w around (environmentsItems w.model) := by
  rw [environmentsItems_of_isSome fun id => Model.root_isSome h]
  refine composed_flatMap fun g hg => composed_note_cons (composed_block rfl ?_)
  refine composed_flatMap fun id hid => ?_
  exact composed_deploymentNodeItems h ((gathers_of_mem hg).2 id hid).1 .here _

theorem composed_modelBlock (h : w.model.skeleton.Sound) (l : Layout) :
    Composed w around [modelBlock l w.model] := by
  refine composed_block rfl (compositional_composed.spaced
    (composed_of_fits (fits_separator ..) rfl) ?_)
  rw [modelSections]
  simp only [List.forall_mem_cons]
  refine ⟨composed_of_fits (fits_propertyBlock ..) rfl, ?people, ?systems, ?enterprise,
    composed_environmentsItems h, ?relationships, List.forall_mem_nil _⟩
  case people => exact composed_flatMap fun id _ => composed_personItems id
  case systems => exact composed_flatMap fun id _ => composed_softwareSystemItems id
  case enterprise =>
    cases w.model.enterprise with
    | none => exact composed_nil
    | some e => exact composed_enterpriseItems e
  case relationships => exact composed_flatMap fun id _ => composed_relationshipItems id

theorem composed_viewsBlock (l : Layout) :
    Composed w [(w.subject, w.headerLine)] [viewsBlock l w.model w.views] :=
  composed_of_fits (fits_viewsBlock w l) (Workspace.referencesIn_views w)

theorem composed_outline (h : w.model.skeleton.Sound) (l : Layout) :
    Composed w [] (w.outline l) := by
  refine composed_append (composed_of_fits (fits_map_own fun record _ => fits_note record) rfl) ?_
  refine composed_note_cons (composed_block rfl (composed_note_cons ?_))
  refine composed_append (composed_modelBlock h l) (composed_note_cons (composed_note_cons ?_))
  exact composed_append (composed_viewsBlock l) (composed_note_cons composed_nil)

end Dsl

/-- A finished document is put together from slices. -/
theorem Workspace.sliced_placed {w : Workspace} {l : Layout} (h : w.model.skeleton.Sound)
    (hfault : fault (w.outline l) = none) : w.Sliced (w.placed l) := by
  rw [placed_of_fault hfault]
  exact (composed_outline h l).sliced hfault

end C4
