import C4.Proofs.Ownership
import C4.Proofs.Slices
import C4.Proofs.Subtrees

/-!
# Nodes that are visited

Three walks go over the forest of deployment nodes: the one up that looks for a node, the one that
gives a node and all below it an environment, and the recursion that draws a node with what is
nested in it. None of them remembers where it has been. Still the two walks down visit a node and
everything below it once, and the walk up meets a node exactly if the others would come from there.

A drawn node leaves a note when it is entered, so the notes of a rendering tell which nodes the
recursion has come to. It is cut short by the first reference that leads nowhere.
-/
namespace C4

open Dsl Forest

namespace Dsl

def Event.record? : Event → Option Record
  | .note record => some record
  | _ => none

def recordsOf (items : List Item) : List Record := (eventsOf items).filterMap Event.record?

theorem notes_deliver_pieces (subject : Subject) (texts : List String) (rest : List Signal) :
    (deliver .unlimited () (texts.map (.piece subject) ++ rest)).1.notes =
      (deliver .unlimited () rest).1.notes := by
  induction texts with
  | nil => rfl
  | cons text texts ih => exact ih

theorem notes_deliver (unit : String) (depth : ℕ) (events : List Event) :
    (deliver .unlimited () (signals unit depth events)).1.notes =
      (beforeStop events).filterMap Event.record? := by
  induction events generalizing depth with
  | nil => rfl
  | cons event rest ih =>
    cases event with
    | write subject directive =>
      rw [signals, notes_deliver_pieces, ih]
      rfl
    | note record => exact congrArg (record :: ·) (ih depth)
    | stop error => rfl

theorem notes_prefix (l : Layout) (script : Script) :
    (perform l .unlimited 0 script).1.notes <+: script.filterMap Event.record? := by
  have hnotes := notes_deliver l.indentUnit 0 script
  exact hnotes ▸ (List.takeWhile_prefix _).filterMap _

theorem notes_of_firstStop {script : Script} (h : firstStop script = none) (l : Layout) :
    (perform l .unlimited 0 script).1.notes = script.filterMap Event.record? := by
  refine (notes_deliver l.indentUnit 0 script).trans ?_
  rw [beforeStop_of_none h]

@[simp] theorem recordsOf_nil : recordsOf [] = [] := by
  rw [recordsOf, eventsOf]
  rfl

@[simp] theorem recordsOf_append (items more : List Item) :
    recordsOf (items ++ more) = recordsOf items ++ recordsOf more := by
  rw [recordsOf, eventsOf_append, List.filterMap_append]
  rfl

theorem recordsOf_flatMap {α : Type*} (f : α → List Item) (l : List α) :
    recordsOf (l.flatMap f) = l.flatMap fun a => recordsOf (f a) := by
  induction l with
  | nil => exact recordsOf_nil
  | cons a rest ih => rw [List.flatMap_cons, List.flatMap_cons, recordsOf_append, ih]

@[simp] theorem recordsOf_note_cons (record : Record) (rest : List Item) :
    recordsOf (.note record :: rest) = record :: recordsOf rest := by
  rw [recordsOf, eventsOf_cons, Item.events]
  rfl

@[simp] theorem recordsOf_line (subject : Subject) (text : String) :
    recordsOf [.line subject text] = [] := by
  rw [recordsOf, eventsOf_eq_flatMap, List.flatMap_singleton, Item.events]
  rfl

@[simp] theorem recordsOf_dangling (error : RenderError) : recordsOf [.dangling error] = [] := by
  rw [recordsOf, eventsOf_eq_flatMap, List.flatMap_singleton, Item.events]
  rfl

theorem filterMap_record?_braces (subject : Subject) (header : String) (events : List Event) :
    (Event.write subject (.opening header) :: (events ++ [.write subject .closing])).filterMap
      Event.record? = events.filterMap Event.record? := by
  rw [List.filterMap_cons_none rfl, List.filterMap_append, List.filterMap_cons_none rfl,
    List.filterMap_nil, List.append_nil]

@[simp] theorem recordsOf_block (subject : Subject) (header : String) (body : List Item) :
    recordsOf [.block subject header body] = recordsOf body := by
  rw [recordsOf, eventsOf_eq_flatMap, List.flatMap_singleton, Item.events,
    filterMap_record?_braces]
  rfl

@[simp] theorem recordsOf_entity (subject : Subject) (header : String) (body : List Item) :
    recordsOf [.entity subject header body] = recordsOf body := by
  rw [recordsOf, eventsOf_eq_flatMap, List.flatMap_singleton]
  by_cases hbody : body = []
  · subst hbody
    rw [Item.events, recordsOf_nil]
    rfl
  · rw [events_entity_of_ne_nil _ _ hbody, filterMap_record?_braces]
    rfl

theorem recordsOf_map_eq_nil {α : Type*} {f : α → Item} {l : List α}
    (h : ∀ a ∈ l, recordsOf [f a] = []) : recordsOf (l.map f) = [] := by
  rw [List.map_eq_flatMap, recordsOf_flatMap]
  exact List.flatMap_eq_nil_iff.2 h

theorem recordsOf_withToken_eq_nil {token : Except RenderError String} {draw : String → List Item}
    (h : ∀ t, recordsOf (draw t) = []) : recordsOf (withToken token draw) = [] :=
  withToken_of_draw (P := fun items => recordsOf items = []) recordsOf_dangling fun t _ => h t

@[simp] theorem recordsOf_tagLines (subject : Subject) (tags : Tags) :
    recordsOf (tagLines subject tags) = [] := by
  unfold tagLines
  split <;> simp

@[simp] theorem recordsOf_propertyBlock (subject : Subject) (properties : Properties) :
    recordsOf (propertyBlock subject properties) = [] := by
  unfold propertyBlock
  split
  · exact recordsOf_nil
  · rw [recordsOf_block]
    exact recordsOf_map_eq_nil fun entry _ => recordsOf_line ..

@[simp] theorem recordsOf_numberLine (subject : Subject) (keyword : String)
    (number : Option UInt32) : recordsOf (numberLine subject keyword number) = [] := by
  unfold numberLine
  split <;> simp

@[simp] theorem recordsOf_infrastructureNodeItems (m : Model) (id : InfrastructureNodeId) :
    recordsOf (infrastructureNodeItems m id) = [] := by
  unfold infrastructureNodeItems
  split
  · exact recordsOf_dangling _
  · exact recordsOf_withToken_eq_nil fun t => by simp

@[simp] theorem recordsOf_containerInstanceItems (m : Model) (id : ContainerInstanceId) :
    recordsOf (containerInstanceItems m id) = [] := by
  unfold containerInstanceItems
  split
  · exact recordsOf_dangling _
  · refine recordsOf_withToken_eq_nil fun t => recordsOf_withToken_eq_nil fun container => ?_
    have hchecks (checks : List HealthCheck) : recordsOf (checks.map healthCheckItem) = [] :=
      recordsOf_map_eq_nil fun check _ => by simp [healthCheckItem]
    simp [hchecks]

end Dsl

namespace Model

variable {m : Model}

def entering (m : Model) (id : DeploymentNodeId) : Record :=
  ⟨.trace, "Emitting deployment node",
    [("token", (m.token id).toOption.getD ""), ("children", toString (m.childrenOf id).length)]⟩

theorem recordsOf_nodeItemsWith (h : m.skeleton.Sound) {id : DeploymentNodeId}
    (hid : (m.deploymentNode? id).isSome) (children : List Item) :
    recordsOf (nodeItemsWith m children id) = m.entering id :: recordsOf children := by
  obtain ⟨n, hn⟩ := Option.isSome_iff_exists.1 hid
  have hlisted : m.childrenOf id = n.children := by simp [childrenOf, hn]
  have hresolved := tokenFault_node h hid
  unfold nodeItemsWith entering
  cases ht : m.token id with
  | error e =>
    rw [ht] at hresolved
    cases hresolved
  | ok t =>
    simp [hn, nodeItems, ht, withToken, hlisted, recordsOf_flatMap, Except.toOption]

theorem recordsOf_nestedNodeItems (h : m.skeleton.Sound) (depth : ℕ) {id : DeploymentNodeId}
    (hid : (m.deploymentNode? id).isSome) :
    recordsOf (nestedNodeItems m depth id) = (descend m.childrenOf depth id).map m.entering := by
  induction depth generalizing id with
  | zero =>
    rw [nestedNodeItems_zero, recordsOf_nodeItemsWith h hid, recordsOf_nil]
    rfl
  | succ depth ih =>
    rw [nestedNodeItems_succ, recordsOf_nodeItemsWith h hid, recordsOf_flatMap, descend, List.map_cons,
      List.map_flatMap]
    exact congrArg (_ :: ·) (List.flatMap_congr fun c hc => ih (child_isSome h hc))

theorem descend_perm (h : m.skeleton.Sound) {root : DeploymentNodeId}
    (hroot : root.index < m.deploymentNodes.size) (hself : m.parentOf? root ≠ some root) {depth : ℕ}
    (hdepth : (m.treeOf root).length ≤ depth + 1) :
    (descend m.childrenOf depth root).Perm (m.treeOf root) := by
  have htree := treeOf_perm h hroot hself
  have hlength := htree.length_eq
  rw [List.length_cons] at hlength
  induction depth generalizing root with
  | zero =>
    have hnone : (m.childrenOf root).flatMap m.treeOf = [] :=
      List.eq_nil_of_length_eq_zero (by omega)
    rw [hnone] at htree
    exact htree.symm
  | succ depth ih =>
    refine .trans (.cons root (.flatMap_left _ fun c hc => ?_)) htree.symm
    have hparent : m.parentOf? c = some root := h.children.mem_iff.1 hc
    have hchild : c.index < m.deploymentNodes.size := (h.known c root hparent).1
    have hown : m.parentOf? c ≠ some c := by
      intro hown
      obtain rfl : root = c := Option.some.inj (hparent.symm.trans hown)
      exact hself hparent
    have hinside : (m.treeOf c).length ≤ ((m.childrenOf root).flatMap m.treeOf).length :=
      (infix_flatMap m.treeOf hc).length_le
    exact ih hchild hown (by omega) (treeOf_perm h hchild hown)
      (by simpa using (treeOf_perm h hchild hown).length_eq)

theorem mem_nodeReferences (h : m.skeleton.Sound) {root : DeploymentNodeId}
    (hroot : root.index < m.deploymentNodes.size) (hself : m.parentOf? root ≠ some root)
    {r : Reference} : r ∈ m.nodeReferences m.deploymentNodes.size root ↔
      ∃ id i, m.containerInstance? id = some i ∧ Climbs m.parentOf? i.parent root ∧
        r = .element i.container := by
  have hperm : (m.nodeReferences m.deploymentNodes.size root).Perm
      ((descend m.childrenOf m.deploymentNodes.size root).flatMap fun id =>
        (m.instancesOf id).flatMap m.instanceReferences) := by
    refine flatMap_perm_of_succ (P := fun _ => True) (fun _ _ _ _ => trivial) (fun id _ => ?_)
      (fun depth id _ => ?_) _ trivial
    · rw [nodeReferences, List.nil_append]
    · rw [nodeReferences_succ]
      exact List.perm_append_comm
  have htree := descend_perm h hroot hself (Nat.le_succ_of_le (m.length_treeOf_le root))
  rw [hperm.mem_iff, (htree.flatMap_right _).mem_iff, mem_flatMap_instanceReferences h]
  simp only [mem_treeOf h hroot]

end Model

/-- Some nodes are a node and everything below it, each of them once. -/
structure Model.Visits (m : Model) (root : DeploymentNodeId) (ids : List DeploymentNodeId) :
    Prop where
  once : ids.Nodup
  tree : ∀ n, n ∈ ids ↔ Climbs m.parentOf? n root

namespace Workspace

variable {w : Workspace} {root : DeploymentNodeId}

/-- The recursion that draws a node, as the notes of its rendering show it. -/
structure Recurses (w : Workspace) (root : DeploymentNodeId) (l : Layout)
    (ids : List DeploymentNodeId) : Prop where
  step : ∀ id ∈ ids, ∃ n, w.model.deploymentNode? id = some n ∧
    deploymentNodeScript w.model id =
      nodeScript w.model id n n.children (n.children.flatMap (deploymentNodeScript w.model))
  entered : (w.renderFragment (.element (.deploymentNode root)) l).notes <+:
    ids.map w.model.entering
  ok_iff : (∃ text, (w.renderFragment (.element (.deploymentNode root)) l).result = .ok text) ↔
    ∀ id i, w.model.containerInstance? id = some i → Climbs w.model.parentOf? i.parent root →
      (w.model.container? i.container).isSome
  complete : (∃ text, (w.renderFragment (.element (.deploymentNode root)) l).result = .ok text) →
    (w.renderFragment (.element (.deploymentNode root)) l).notes = ids.map w.model.entering

theorem exists_visits_recurses (h : w.model.skeleton.Sound)
    (hroot : root.index < w.model.deploymentNodes.size)
    (hself : w.model.parentOf? root ≠ some root) (l : Layout) :
    ∃ ids, w.model.Visits root ids ∧ w.Recurses root l ids := by
  have hid : (w.model.deploymentNode? root).isSome := by simpa [Model.deploymentNode?] using hroot
  have htree := Model.descend_perm h hroot hself
    (Nat.le_succ_of_le (w.model.length_treeOf_le root))
  have hmem (n : DeploymentNodeId) :
      n ∈ descend w.model.childrenOf w.model.deploymentNodes.size root ↔
        Climbs w.model.parentOf? n root :=
    htree.mem_iff.trans (Model.mem_treeOf h hroot)
  have hrecords : (deploymentNodeScript w.model root).filterMap Event.record? =
      (descend w.model.childrenOf w.model.deploymentNodes.size root).map w.model.entering := by
    rw [← eventsOf_deploymentNodeItems]
    exact Model.recordsOf_nestedNodeItems h _ hid
  have hok : (∃ text, (w.renderFragment (.element (.deploymentNode root)) l).result = .ok text) ↔
      fault (deploymentNodeItems w.model root) = none := by
    constructor
    · rintro ⟨text, htext⟩
      exact fault_of_renderFragment htext
    · exact fun hfault => ⟨_, renders_of_fault (f := .element (.deploymentNode root)) hfault l⟩
  refine ⟨_, ⟨htree.nodup_iff.2 (w.model.treeOf_nodup root), hmem⟩, ?step, ?entered, ?ok_iff,
    ?complete⟩
  case step =>
    intro id hid
    obtain ⟨path, hway, -⟩ := exists_way_of_climbs ((hmem id).1 hid)
    have hexists : (w.model.deploymentNode? id).isSome := by
      simpa [Model.deploymentNode?] using Model.index_lt_of_climbs h hroot ((hmem id).1 hid)
    obtain ⟨n, hn⟩ := Option.isSome_iff_exists.1 hexists
    exact ⟨n, hn, deploymentNodeScript_of_way h
      (fun _ _ => Model.length_le_of_way_of_ne h hroot hself) hway hn⟩
  case entered => exact hrecords ▸ notes_prefix l (deploymentNodeScript w.model root)
  case ok_iff =>
    rw [hok, deploymentNodeItems, fault_nestedNodeItems h _ hid, Model.missing_eq_none_iff]
    simp only [Model.mem_nodeReferences h hroot hself]
    constructor
    · intro hall id i hi hbelow
      exact hall _ ⟨id, i, hi, hbelow, rfl⟩
    · rintro hall r ⟨id, i, hi, hbelow, rfl⟩
      exact hall id i hi hbelow
  case complete =>
    rintro ⟨text, htext⟩
    exact (notes_of_firstStop (firstStop_of_result htext) l).trans hrecords

/-- The walk up from a node meets what is above it, and comes to an end without when the parents
of the node do. The walks down take a node and everything below it once; the recursion does so
until a reference leads nowhere. -/
theorem walks_of_reachable (w : Workspace) (l : Layout) (hm : w.model.Reachable)
    (hroot : root.index < w.model.deploymentNodes.size) :
    (∀ c, (w.model.isSelfOrAncestor? c root = some true ↔ Climbs w.model.parentOf? root c) ∧
      (w.model.isSelfOrAncestor? c root = some false ↔
        ¬ Climbs w.model.parentOf? root c ∧ w.model.Rooted root)) ∧
    ((∀ n, w.model.parentOf? n ≠ some n) → w.model.Rooted root) ∧
    (w.model.parentOf? root ≠ some root →
      (∃ ids, w.model.subtree? root = some ids ∧ w.model.Visits root ids) ∧
      ∃ ids, w.model.Visits root ids ∧ w.Recurses root l ids) := by
  have h : w.model.skeleton.Sound := hm.sound
  refine ⟨fun c => ⟨⟨fun hmet => ?_, fun habove => ?_⟩, ?_⟩, fun hown => ?_, fun hself => ⟨?_, ?_⟩⟩
  · exact (Model.meets?_eq_some hmet).1 rfl
  · have hc : c.index < w.model.deploymentNodes.size := by
      rcases Relation.ReflTransGen.cases_tail habove with hcr | ⟨b, -, hbc⟩
      · exact hcr ▸ hroot
      · exact (h.known b c hbc).2
    exact Model.isSelfOrAncestor?_of_climbs h hc habove
  · exact Model.isSelfOrAncestor?_eq_false_iff h hroot
  · exact (Model.forall_rooted_iff h).2 hown root
  · obtain ⟨ids, hids, hperm⟩ := Model.subtree?_perm h hroot hself
    exact ⟨ids, hids, hperm.nodup_iff.2 (w.model.treeOf_nodup root),
      fun n => Model.mem_subtree? h hids⟩
  · exact exists_visits_recurses h hroot hself l

/-- A site with two nodes, one of which has another inside with an instance of a container. -/
theorem walks_of_reachable_over_site :
    ∃ w : Workspace, w.model.Reachable ∧
      w.model.isSelfOrAncestor? ⟨0⟩ ⟨2⟩ = some true ∧
      w.model.isSelfOrAncestor? ⟨3⟩ ⟨2⟩ = some false ∧
      w.model.subtree? ⟨0⟩ = some [⟨0⟩, ⟨3⟩, ⟨1⟩, ⟨2⟩] ∧
      w.model.Visits ⟨0⟩ [⟨0⟩, ⟨3⟩, ⟨1⟩, ⟨2⟩] ∧
      ∃ ids, w.model.Visits ⟨0⟩ ids ∧ w.Recurses ⟨0⟩ ⟨4, false⟩ ids ∧
        ids.map w.model.entering = [⟨0⟩, ⟨1⟩, ⟨2⟩, ⟨3⟩].map w.model.entering := by
  obtain ⟨m, hm, hsize, htop, habove, hbeside, hstack, hstop, hnotes⟩ :
      ∃ m ∈ Model.empty.performAll [.addDeploymentNode "Site" "" "" .production,
        .addChildNode ⟨0⟩ "Left" "" "", .addChildNode ⟨1⟩ "Inner" "" "",
        .addChildNode ⟨0⟩ "Right" "" "", .addSoftwareSystem "Shop" "", .addContainer ⟨0⟩ "App",
        .addContainerInstance ⟨2⟩ ⟨0⟩],
      m.deploymentNodes.size = 4 ∧ m.parentOf? ⟨0⟩ = none ∧
      Climbs m.parentOf? ⟨2⟩ ⟨0⟩ ∧ ¬ Climbs m.parentOf? ⟨2⟩ ⟨3⟩ ∧
      m.subtree? ⟨0⟩ = some [⟨0⟩, ⟨3⟩, ⟨1⟩, ⟨2⟩] ∧ firstStop (deploymentNodeScript m ⟨0⟩) = none ∧
      ({ Workspace.empty with model := m }.renderFragment (.element (.deploymentNode ⟨0⟩))
        ⟨4, false⟩).notes = [⟨0⟩, ⟨1⟩, ⟨2⟩, ⟨3⟩].map m.entering := by
    decide +kernel
  let w : Workspace := { Workspace.empty with model := m }
  have hreachable : w.model.Reachable := ⟨_, hm⟩
  have hin {n : DeploymentNodeId} (hn : n.index < 4) : n.index < w.model.deploymentNodes.size :=
    hsize ▸ hn
  obtain ⟨hmet, -, -⟩ := walks_of_reachable w ⟨4, false⟩ hreachable (hin (n := ⟨2⟩) (by decide))
  obtain ⟨-, -, hdown⟩ := walks_of_reachable w ⟨4, false⟩ hreachable (hin (n := ⟨0⟩) (by decide))
  obtain ⟨⟨stacked, hstacked, hvisits⟩, ids, hvisited, hrecurses⟩ := hdown (by simp [w, htop])
  obtain rfl := Option.some.inj (hstack.symm.trans hstacked)
  refine ⟨w, hreachable, (hmet _).1.2 habove, (hmet _).2.2 ⟨hbeside, _, habove, htop⟩, hstack,
    hvisits, ids, hvisited, hrecurses, ?_⟩
  exact (hrecurses.complete ⟨_, result_perform _ hstop⟩).symm.trans hnotes

/-- The recursion does not come to the second node of the site when the instance on the first one is
of no container. No walk from a node that is its own parent ends. -/
theorem second_node_not_entered :
    (∃ m ∈ Model.empty.performAll [.addDeploymentNode "Site" "" "" .production,
        .addChildNode ⟨0⟩ "Left" "" "", .addChildNode ⟨0⟩ "Right" "" "",
        .addContainerInstance ⟨1⟩ ⟨7⟩],
      let drawn := { Workspace.empty with model := m }.renderFragment
        (.element (.deploymentNode ⟨0⟩)) ⟨4, false⟩
      Climbs m.parentOf? ⟨2⟩ ⟨0⟩ ∧ drawn.result = .error (.unknownElement (.container ⟨7⟩)) ∧
      drawn.notes = [m.entering ⟨0⟩, m.entering ⟨1⟩] ∧ m.entering ⟨2⟩ ∉ drawn.notes) ∧
    ∃ m ∈ Model.empty.performAll [.addChildDeploymentNode ⟨0⟩ "Host" "" "" .production],
      m.isSelfOrAncestor? ⟨1⟩ ⟨0⟩ = none ∧ m.subtree? ⟨0⟩ = none := by
  decide +kernel

end Workspace

end C4
