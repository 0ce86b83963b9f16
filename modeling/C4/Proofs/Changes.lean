import C4.Model.Edit
import C4.Proofs.Skeleton

/-!
# What operations do to the skeleton

Every operation on a model changes its skeleton in one of the ways that `Skeleton.Change` lists,
unless it creates a node as its own child. Either way the skeleton of any model that a history
leads to is sound.
-/
namespace C4

namespace Model

open Forest Skeleton

def containersOf (m : Model) (id : SoftwareSystemId) : List ContainerId :=
  ((m.softwareSystem? id).map (·.containers)).getD []

def systemOf? (m : Model) (id : ContainerId) : Option SoftwareSystemId :=
  (m.container? id).map (·.softwareSystem)

def componentsOf (m : Model) (id : ContainerId) : List ComponentId :=
  ((m.container? id).map (·.components)).getD []

def containerOf? (m : Model) (id : ComponentId) : Option ContainerId :=
  (m.component? id).map (·.container)

def infrastructureOf (m : Model) (id : DeploymentNodeId) : List InfrastructureNodeId :=
  ((m.deploymentNode? id).map (·.infrastructureNodes)).getD []

def infrastructureHost? (m : Model) (id : InfrastructureNodeId) : Option DeploymentNodeId :=
  (m.infrastructureNode? id).map (·.parent)

def instancesOf (m : Model) (id : DeploymentNodeId) : List ContainerInstanceId :=
  ((m.deploymentNode? id).map (·.containerInstances)).getD []

def instanceHost? (m : Model) (id : ContainerInstanceId) : Option DeploymentNodeId :=
  (m.containerInstance? id).map (·.parent)

def members (m : Model) : List ElementId := (m.enterprise.map (·.members)).getD []

def skeleton (m : Model) : Skeleton where
  containers := m.containersOf
  system := m.systemOf?
  components := m.componentsOf
  container := m.containerOf?
  infrastructure := m.infrastructureOf
  infrastructureHost := m.infrastructureHost?
  instances := m.instancesOf
  instanceHost := m.instanceHost?
  children := m.childrenOf
  parent := m.parentOf?
  nodes := m.deploymentNodes.size
  roots := m.topLevel
  members := m.members

theorem childrenOf_eq (m : Model) (id : DeploymentNodeId) :
    m.childrenOf id = ((m.deploymentNode? id).map (·.children)).getD [] := by
  unfold childrenOf
  cases m.deploymentNode? id <;> rfl

theorem parentOf?_of_le {m : Model} {id : DeploymentNodeId}
    (h : m.deploymentNodes.size ≤ id.index) : m.parentOf? id = none := by
  simp [parentOf?, deploymentNode?, h]

theorem map_getElem?_modify {α β : Type*} {f : α → α} {g : α → β} (h : ∀ a, g (f a) = g a)
    (entities : Array α) (i j : ℕ) :
    ((entities.modify i f)[j]?).map g = (entities[j]?).map g := by
  rw [Array.getElem?_modify]
  split
  · rw [Option.map_map]
    exact congrArg (fun k => (entities[j]?).map k) (funext h)
  · rfl

theorem listed_modify {α κ : Type*} {f : α → α} {g : α → List κ} (h : ∀ a, g (f a) = g a)
    (entities : Array α) (i j : ℕ) :
    (((entities.modify i f)[j]?).map g).getD [] = ((entities[j]?).map g).getD [] := by
  rw [map_getElem?_modify h]

theorem bind_getElem?_modify {α β : Type*} {f : α → α} {g : α → Option β}
    (h : ∀ a, g (f a) = g a) (entities : Array α) (i j : ℕ) :
    ((entities.modify i f)[j]?).bind g = (entities[j]?).bind g := by
  rw [Array.getElem?_modify]
  split
  · rw [Option.bind_map]
    exact congrArg (fun k => (entities[j]?).bind k) (funext h)
  · rfl

theorem skeleton_modify (m : Model) (i : ℕ) {f : DeploymentNode → DeploymentNode}
    (hinfrastructure : ∀ n, (f n).infrastructureNodes = n.infrastructureNodes)
    (hinstances : ∀ n, (f n).containerInstances = n.containerInstances)
    (hchildren : ∀ n, (f n).children = n.children) (hparent : ∀ n, (f n).parent = n.parent) :
    ({ m with deploymentNodes := m.deploymentNodes.modify i f } : Model).skeleton =
      m.skeleton := by
  refine Skeleton.ext rfl rfl rfl rfl ?infrastructure rfl ?instances rfl ?children ?parent
    ?nodes rfl rfl
  case infrastructure =>
    exact funext fun id => listed_modify hinfrastructure ..
  case instances =>
    exact funext fun id => listed_modify hinstances ..
  case children =>
    funext id
    simp only [skeleton, childrenOf_eq]
    exact listed_modify hchildren ..
  case parent => exact funext fun id => bind_getElem?_modify hparent ..
  case nodes => simp [skeleton]

theorem change_addSoftwareSystem (m : Model) (name description : String) :
    Change m.skeleton (m.addSoftwareSystem name description).2.skeleton := by
  have h : (m.addSoftwareSystem name description).2.skeleton = m.skeleton := by
    refine Skeleton.ext ?containers rfl rfl rfl rfl rfl rfl rfl rfl rfl rfl rfl rfl
    funext id
    simp only [skeleton, containersOf, softwareSystem?, addSoftwareSystem]
    grind
  exact h ▸ .unchanged

theorem change_addContainer {m m' : Model} {s : SoftwareSystemId} {name : String}
    {c : ContainerId} (h : m.addContainer s name = .ok (c, m')) :
    Change m.skeleton m'.skeleton := by
  simp only [addContainer] at h
  split at h
  · cases h
    have h : m.skeleton.system ⟨m.containers.size⟩ = none := by
      simp [skeleton, systemOf?, container?]
    convert Change.addContainer s h using 1
    refine Skeleton.ext ?containers ?system ?components rfl rfl rfl rfl rfl rfl rfl rfl rfl rfl
    case containers =>
      funext id
      simp only [skeleton, Skeleton.addContainer, containersOf, softwareSystem?,
        Function.update_apply]
      cases id; cases s; grind
    case system =>
      funext id
      simp only [skeleton, Skeleton.addContainer, systemOf?, container?, Function.update_apply]
      cases id; grind
    case components =>
      funext id
      simp only [skeleton, Skeleton.addContainer, componentsOf, container?]
      grind
  · cases h

theorem change_addComponent {m m' : Model} {c : ContainerId} {name : String}
    {x : ComponentId} (h : m.addComponent c name = .ok (x, m')) :
    Change m.skeleton m'.skeleton := by
  simp only [addComponent] at h
  split at h
  · cases h
    have h : m.skeleton.container ⟨m.components.size⟩ = none := by
      simp [skeleton, containerOf?, component?]
    convert Change.addComponent c h using 1
    refine Skeleton.ext rfl ?system ?components ?container rfl rfl rfl rfl rfl rfl rfl rfl rfl
    case system =>
      funext id
      simp only [skeleton, Skeleton.addComponent, systemOf?, container?]
      grind
    case components =>
      funext id
      simp only [skeleton, Skeleton.addComponent, componentsOf, container?, Function.update_apply]
      cases id; cases c; grind
    case container =>
      funext id
      simp only [skeleton, Skeleton.addComponent, containerOf?, component?, Function.update_apply]
      cases id; grind
  · cases h

theorem skeleton_createDeploymentNode (m : Model) (name description technology : String)
    (environment : Environment) :
    (m.createDeploymentNode name description technology environment).2.skeleton =
      m.skeleton.create := by
  refine Skeleton.ext rfl rfl rfl rfl ?infrastructure rfl ?instances rfl ?children ?parent
    ?nodes rfl rfl
  case infrastructure =>
    funext id
    simp only [skeleton, create, infrastructureOf, deploymentNode?, createDeploymentNode,
      DeploymentNode.create]
    grind
  case instances =>
    funext id
    simp only [skeleton, create, instancesOf, deploymentNode?, createDeploymentNode,
      DeploymentNode.create]
    grind
  case children =>
    funext id
    simp only [skeleton, create, childrenOf_eq, deploymentNode?, createDeploymentNode,
      DeploymentNode.create]
    grind
  case parent =>
    funext id
    simp only [skeleton, create, parentOf?, deploymentNode?, createDeploymentNode,
      DeploymentNode.create]
    grind
  case nodes => simp [skeleton, create, createDeploymentNode]

theorem skeleton_attach {m m' : Model} {p n : DeploymentNodeId} (h : m.attach p n = .ok m')
    (hn : n.index < m.deploymentNodes.size) :
    p.index < m.deploymentNodes.size ∧ m'.skeleton = m.skeleton.attach p n := by
  simp only [attach] at h
  split at h
  · next hp =>
    cases h
    refine ⟨hp, Skeleton.ext rfl rfl rfl rfl ?infrastructure rfl ?instances rfl ?children ?parent
      ?nodes rfl rfl⟩
    case infrastructure =>
      funext id
      simp only [skeleton, Skeleton.attach, infrastructureOf, deploymentNode?]
      grind
    case instances =>
      funext id
      simp only [skeleton, Skeleton.attach, instancesOf, deploymentNode?]
      grind
    case children =>
      funext id
      simp only [skeleton, Skeleton.attach, childrenOf_eq, deploymentNode?, Function.update_apply]
      cases id; cases p; grind
    case parent =>
      funext id
      simp only [skeleton, Skeleton.attach, parentOf?, deploymentNode?, Function.update_apply]
      cases id; cases n; grind
    case nodes => simp [skeleton, Skeleton.attach]
  · cases h

theorem skeleton_detach (m : Model) (n : DeploymentNodeId) :
    (m.detach n).skeleton = m.skeleton.detach n := by
  have hparent : m.skeleton.parent n = m.parentOf? n := rfl
  unfold detach Skeleton.detach
  rw [hparent]
  cases hn : m.parentOf? n with
  | none => rfl
  | some p =>
    have hlt : n.index < m.deploymentNodes.size := by
      by_contra hle
      rw [parentOf?_of_le (Nat.le_of_not_lt hle)] at hn
      cases hn
    refine Skeleton.ext rfl rfl rfl rfl ?infrastructure rfl ?instances rfl ?children ?parent
      ?nodes rfl rfl
    case infrastructure =>
      funext id
      simp only [skeleton, infrastructureOf, deploymentNode?]
      grind
    case instances =>
      funext id
      simp only [skeleton, instancesOf, deploymentNode?]
      grind
    case children =>
      funext id
      simp only [skeleton, childrenOf_eq, deploymentNode?, Function.update_apply]
      cases id; cases p; grind
    case parent =>
      funext id
      simp only [skeleton, parentOf?, deploymentNode?, Function.update_apply]
      cases id; cases n; grind
    case nodes => simp [skeleton]

theorem change_addDeploymentNode (m : Model) (name description technology : String)
    (environment : Environment) :
    Change m.skeleton (m.addDeploymentNode name description technology environment).2.skeleton := by
  have h : (m.addDeploymentNode name description technology environment).2.skeleton =
      (m.createDeploymentNode name description technology environment).2.skeleton.plant
        m.skeleton.fresh := rfl
  rw [h, skeleton_createDeploymentNode]
  exact .root

theorem skeleton_addChildDeploymentNode {m m' : Model} {p n : DeploymentNodeId}
    {name description technology : String} {environment : Environment}
    (h : m.addChildDeploymentNode p name description technology environment = .ok (n, m')) :
    p.index < m.skeleton.nodes + 1 ∧
      m'.skeleton = m.skeleton.create.attach p m.skeleton.fresh := by
  simp only [addChildDeploymentNode] at h
  set created := m.createDeploymentNode name description technology environment with hc
  have hcreated : created.2.skeleton = m.skeleton.create :=
    skeleton_createDeploymentNode ..
  have hid : created.1 = m.skeleton.fresh := rfl
  have hsize : created.2.deploymentNodes.size = m.deploymentNodes.size + 1 :=
    congrArg Skeleton.nodes hcreated
  cases ha : created.2.attach p created.1 with
  | error e =>
    rw [ha] at h
    cases h
  | ok attached =>
    rw [ha] at h
    cases h
    obtain ⟨hp, hs⟩ := skeleton_attach ha (hsize ▸ Nat.lt_succ_self _)
    rw [hs, hid, hcreated]
    exact ⟨hsize ▸ hp, rfl⟩

theorem addChildNode_eq_ok {m m' : Model} {p n : DeploymentNodeId}
    {name description technology : String}
    (h : m.addChildNode p name description technology = .ok (n, m')) :
    ∃ parent, m.deploymentNode? p = some parent ∧
      m.addChildDeploymentNode p name description technology parent.environment = .ok (n, m') := by
  unfold addChildNode at h
  split at h
  · cases h
  · next parent hp => exact ⟨parent, hp, h⟩

theorem index_lt_of_deploymentNode? {m : Model} {id : DeploymentNodeId} {n : DeploymentNode}
    (h : m.deploymentNode? id = some n) : id.index < m.deploymentNodes.size := by
  by_contra hle
  rw [deploymentNode?, Array.getElem?_eq_none (Nat.le_of_not_lt hle)] at h
  cases h

theorem change_addChildNode {m m' : Model} {p n : DeploymentNodeId}
    {name description technology : String}
    (h : m.addChildNode p name description technology = .ok (n, m')) :
    Change m.skeleton m'.skeleton := by
  obtain ⟨parent, hparent, h⟩ := addChildNode_eq_ok h
  rw [(skeleton_addChildDeploymentNode h).2]
  exact .child (index_lt_of_deploymentNode? hparent)

theorem change_addInfrastructureNode {m m' : Model} {n : DeploymentNodeId} {name : String}
    {i : InfrastructureNodeId} (h : m.addInfrastructureNode n name = .ok (i, m')) :
    Change m.skeleton m'.skeleton := by
  simp only [addInfrastructureNode] at h
  split at h
  · cases h
    have h : m.skeleton.infrastructureHost ⟨m.infrastructureNodes.size⟩ = none := by
      simp [skeleton, infrastructureHost?, infrastructureNode?]
    -- Apart from the list of `n` and the host of the new node everything is as before.
    convert Change.addInfrastructure n h using 1
    refine Skeleton.ext rfl rfl rfl rfl ?infrastructure ?infrastructureHost ?instances rfl
      ?children ?parent ?nodes rfl rfl
    case infrastructure =>
      funext id
      simp only [skeleton, addInfrastructure, infrastructureOf, deploymentNode?,
        Function.update_apply]
      cases id; cases n; grind
    case infrastructureHost =>
      funext id
      simp only [skeleton, addInfrastructure, infrastructureHost?, infrastructureNode?,
        InfrastructureNode.create, Function.update_apply]
      cases id; grind
    case instances =>
      refine funext fun id => listed_modify ?_ ..
      exact fun _ => rfl
    case children =>
      funext id
      simp only [skeleton, addInfrastructure, childrenOf_eq]
      refine listed_modify ?_ ..
      exact fun _ => rfl
    case parent =>
      refine funext fun id => bind_getElem?_modify ?_ ..
      exact fun _ => rfl
    case nodes => simp [skeleton, addInfrastructure]
  · cases h

theorem change_addContainerInstance {m m' : Model} {n : DeploymentNodeId} {c : ContainerId}
    {i : ContainerInstanceId} (h : m.addContainerInstance n c = .ok (i, m')) :
    Change m.skeleton m'.skeleton := by
  simp only [addContainerInstance] at h
  split at h
  · cases h
    have h : m.skeleton.instanceHost ⟨m.containerInstances.size⟩ = none := by
      simp [skeleton, instanceHost?, containerInstance?]
    convert Change.addInstance n h using 1
    refine Skeleton.ext rfl rfl rfl rfl ?infrastructure rfl ?instances ?instanceHost
      ?children ?parent ?nodes rfl rfl
    case infrastructure =>
      refine funext fun id => listed_modify ?_ ..
      exact fun _ => rfl
    case instances =>
      funext id
      simp only [skeleton, addInstance, instancesOf, deploymentNode?, Function.update_apply]
      cases id; cases n; grind
    case instanceHost =>
      funext id
      simp only [skeleton, addInstance, instanceHost?, containerInstance?,
        ContainerInstance.create, Function.update_apply]
      cases id; grind
    case children =>
      funext id
      simp only [skeleton, addInstance, childrenOf_eq]
      refine listed_modify ?_ ..
      exact fun _ => rfl
    case parent =>
      refine funext fun id => bind_getElem?_modify ?_ ..
      exact fun _ => rfl
    case nodes => simp [skeleton, addInstance]
  · cases h

theorem meets?_eq_some {m : Model} {candidate : DeploymentNodeId} {steps : ℕ}
    {id : DeploymentNodeId} {met : Bool} (h : m.meets? candidate steps id = some met) :
    met = true ↔ Climbs m.parentOf? id candidate := by
  induction steps generalizing id with
  | zero => cases h
  | succ steps ih =>
    unfold meets? at h
    split at h
    · next hid =>
      cases h
      exact iff_of_true rfl (hid ▸ .refl)
    · next hid =>
      have hup : Climbs m.parentOf? id candidate ↔
          ∃ p, m.parentOf? id = some p ∧ Climbs m.parentOf? p candidate := by
        rw [Climbs, Relation.ReflTransGen.cases_head_iff, or_iff_right hid]
      rw [hup]
      split at h
      · next hnone =>
        cases h
        simp [hnone]
      · next p hp =>
        rw [ih h]
        simp [hp]

theorem skeleton_pinAll (m : Model) (ids : List DeploymentNodeId) (environment : Environment) :
    (m.pinAll ids environment).skeleton = m.skeleton := by
  induction ids generalizing m with
  | nil => rfl
  | cons id ids ih =>
    refine (ih { m with
      deploymentNodes := m.deploymentNodes.modify id.index (·.pin environment) }).trans ?_
    exact skeleton_modify m id.index (fun _ => rfl) (fun _ => rfl) (fun _ => rfl) fun _ => rfl

theorem skeleton_pinSubtree {m m' : Model} {root : DeploymentNodeId} {environment : Environment}
    (h : m.pinSubtree root environment = .ok m') : m'.skeleton = m.skeleton := by
  unfold pinSubtree at h
  split at h
  · cases h
  · cases h
    exact skeleton_pinAll ..

theorem addChild_eq_ok {m m' : Model} {p n : DeploymentNodeId} (h : m.addChild p n = .ok m') :
    ∃ parent moved, m.deploymentNode? p = some parent ∧ n.index < m.deploymentNodes.size ∧
      m.isSelfOrAncestor? n p = some false ∧ (m.detach n).attach p n = .ok moved ∧
      (if parent.pinned then moved.pinSubtree n parent.environment else .ok moved) = .ok m' := by
  unfold addChild at h
  split at h
  · cases h
  · next parent hparent =>
    split at h
    · cases h
    · cases h
    · cases h
    · next child hmeets hchild =>
      cases ha : (m.detach n).attach p n with
      | error e =>
        rw [ha] at h
        cases h
      | ok moved =>
        rw [ha] at h
        exact ⟨parent, moved, hparent, index_lt_of_deploymentNode? hchild, hmeets, rfl, h⟩

/-- The walk that was made before the move is the reason why no cycle arises. -/
theorem change_move {m moved : Model} {p n : DeploymentNodeId}
    (hn : n.index < m.deploymentNodes.size) (hmeets : m.isSelfOrAncestor? n p = some false)
    (ha : (m.detach n).attach p n = .ok moved) :
    moved.skeleton = (m.skeleton.detach n).attach p n ∧ Change m.skeleton moved.skeleton := by
  have habove : ¬ Climbs m.skeleton.parent p n := by
    rw [skeleton, ← meets?_eq_some hmeets]
    exact Bool.false_ne_true
  have hsize : (m.detach n).deploymentNodes.size = m.skeleton.nodes :=
    (congrArg Skeleton.nodes (skeleton_detach m n)).trans (detach_nodes ..)
  obtain ⟨hp, hs⟩ := skeleton_attach ha (hsize ▸ hn)
  rw [skeleton_detach] at hs
  refine ⟨hs, ?_⟩
  rw [hs]
  exact .move (hsize ▸ hp) hn habove

theorem change_addChild {m m' : Model} {p n : DeploymentNodeId} (h : m.addChild p n = .ok m') :
    Change m.skeleton m'.skeleton := by
  obtain ⟨parent, moved, -, hn, hmeets, ha, h⟩ := addChild_eq_ok h
  have hm' : m'.skeleton = moved.skeleton := by
    split at h
    · exact skeleton_pinSubtree h
    · cases h
      rfl
  rw [hm']
  exact (change_move hn hmeets ha).2

theorem skeleton_setPerson {m m' : Model} {id : PersonId} {x : Person.Setting}
    (h : m.setPerson id x = .ok m') : m'.skeleton = m.skeleton := by
  unfold setPerson at h
  split at h <;> cases h
  rfl

theorem skeleton_setSoftwareSystem {m m' : Model} {id : SoftwareSystemId}
    {x : SoftwareSystem.Setting} (h : m.setSoftwareSystem id x = .ok m') :
    m'.skeleton = m.skeleton := by
  unfold setSoftwareSystem at h
  split at h <;> cases h
  refine Skeleton.ext ?containers rfl rfl rfl rfl rfl rfl rfl rfl rfl rfl rfl rfl
  exact funext fun id => listed_modify (fun (s : SoftwareSystem) => s.set_containers x) ..

theorem skeleton_setContainer {m m' : Model} {id : ContainerId} {x : Container.Setting}
    (h : m.setContainer id x = .ok m') : m'.skeleton = m.skeleton := by
  unfold setContainer at h
  split at h <;> cases h
  refine Skeleton.ext rfl ?system ?components rfl rfl rfl rfl rfl rfl rfl rfl rfl rfl
  case system =>
    exact funext fun id => map_getElem?_modify (fun (c : Container) => c.set_softwareSystem x) ..
  case components =>
    exact funext fun id => listed_modify (fun (c : Container) => c.set_components x) ..

theorem skeleton_setComponent {m m' : Model} {id : ComponentId} {x : Component.Setting}
    (h : m.setComponent id x = .ok m') : m'.skeleton = m.skeleton := by
  unfold setComponent at h
  split at h <;> cases h
  refine Skeleton.ext rfl rfl rfl ?container rfl rfl rfl rfl rfl rfl rfl rfl rfl
  exact funext fun id => map_getElem?_modify (fun (c : Component) => c.set_container x) ..

theorem skeleton_setDeploymentNode {m m' : Model} {id : DeploymentNodeId}
    {x : DeploymentNode.Setting} (h : m.setDeploymentNode id x = .ok m') :
    m'.skeleton = m.skeleton := by
  unfold setDeploymentNode at h
  split at h <;> cases h
  exact skeleton_modify m id.index (·.set_infrastructureNodes x) (·.set_containerInstances x)
    (·.set_children x) (·.set_parent x)

theorem skeleton_setInfrastructureNode {m m' : Model} {id : InfrastructureNodeId}
    {x : InfrastructureNode.Setting} (h : m.setInfrastructureNode id x = .ok m') :
    m'.skeleton = m.skeleton := by
  unfold setInfrastructureNode at h
  split at h <;> cases h
  refine Skeleton.ext rfl rfl rfl rfl rfl ?infrastructureHost rfl rfl rfl rfl rfl rfl rfl
  exact funext fun id => map_getElem?_modify (fun (n : InfrastructureNode) => n.set_parent x) ..

theorem skeleton_setContainerInstance {m m' : Model} {id : ContainerInstanceId}
    {x : ContainerInstance.Setting} (h : m.setContainerInstance id x = .ok m') :
    m'.skeleton = m.skeleton := by
  unfold setContainerInstance at h
  split at h <;> cases h
  refine Skeleton.ext rfl rfl rfl rfl rfl rfl rfl ?instanceHost rfl rfl rfl rfl rfl
  exact funext fun id => map_getElem?_modify (fun (i : ContainerInstance) => i.set_parent x) ..

theorem skeleton_setRelationship {m m' : Model} {id : RelationshipId} {x : Relationship.Setting}
    (h : m.setRelationship id x = .ok m') : m'.skeleton = m.skeleton := by
  unfold setRelationship at h
  split at h <;> cases h
  rfl

theorem skeleton_setEnvironment {m m' : Model} {id : DeploymentNodeId} {environment : Environment}
    (h : m.setEnvironment id environment = .ok m') : m'.skeleton = m.skeleton := by
  unfold setEnvironment at h
  split at h
  · exact skeleton_pinSubtree h
  · cases h

theorem skeleton_setEnterpriseProperty (m : Model) (key value : String) :
    (m.setEnterpriseProperty key value).skeleton = m.skeleton := by
  refine Skeleton.ext rfl rfl rfl rfl rfl rfl rfl rfl rfl rfl rfl rfl ?members
  simp only [skeleton, members, setEnterpriseProperty]
  cases m.enterprise <;> rfl

theorem change_addToEnterprise (m : Model) (id : ElementId) :
    Change m.skeleton (m.addToEnterprise id).skeleton := by
  refine .members fun h => ?_
  change ((m.enterprise.map (·.join id)).map (·.members) |>.getD []).Nodup
  cases he : m.enterprise with
  | none => exact .nil
  | some e =>
    simp only [skeleton, members, he, Option.map_some, Option.getD_some] at h
    exact Enterprise.join_nodup h id

end Model

theorem ok_of_map_snd {ε α β : Type*} {r : Except ε (α × β)} {b : β}
    (h : r.map (·.2) = .ok b) : ∃ a, r = .ok (a, b) := by
  cases r with
  | error e => cases h
  | ok x =>
    cases h
    exact ⟨x.1, rfl⟩

open Forest Skeleton Model

def Edit.lateParent? : Edit → Option DeploymentNodeId
  | .addChildDeploymentNode parent _ _ _ _ => some parent
  | _ => none

/-- A child is not created under the handle that it is given itself. -/
def Edit.NamesParent (m : Model) (e : Edit) : Prop :=
  ∀ p ∈ e.lateParent?, p.index < m.deploymentNodes.size

instance (m : Model) (e : Edit) : Decidable (e.NamesParent m) :=
  inferInstanceAs (Decidable (∀ p ∈ e.lateParent?, p.index < m.deploymentNodes.size))

theorem Edit.change {m m' : Model} {e : Edit} (hparent : e.NamesParent m)
    (h : e.apply m = .ok m') : Change m.skeleton m'.skeleton := by
  have same (h : m'.skeleton = m.skeleton) : Change m.skeleton m'.skeleton := h ▸ .unchanged
  cases e with
  | addPerson | addRelationship | uses | setProperty =>
    cases h
    exact .unchanged
  | addSoftwareSystem name description =>
    cases h
    exact change_addSoftwareSystem ..
  | addContainer s name =>
    obtain ⟨c, h⟩ := ok_of_map_snd h
    exact change_addContainer h
  | addComponent c name =>
    obtain ⟨x, h⟩ := ok_of_map_snd h
    exact change_addComponent h
  | setEnterprise name =>
    cases h
    exact .members fun _ => .nil
  | setEnterpriseProperty key value =>
    cases h
    exact same (skeleton_setEnterpriseProperty ..)
  | addToEnterprise id =>
    cases h
    exact change_addToEnterprise ..
  | createDeploymentNode name description technology environment =>
    cases h
    rw [skeleton_createDeploymentNode]
    exact .create
  | addDeploymentNode name description technology environment =>
    cases h
    exact change_addDeploymentNode ..
  | addChildDeploymentNode p name description technology environment =>
    obtain ⟨n, h⟩ := ok_of_map_snd h
    rw [(skeleton_addChildDeploymentNode h).2]
    exact .child (hparent p rfl)
  | addChildNode p name description technology =>
    obtain ⟨n, h⟩ := ok_of_map_snd h
    exact change_addChildNode h
  | addChild p n => exact change_addChild h
  | setEnvironment id environment => exact same (skeleton_setEnvironment h)
  | addInfrastructureNode n name =>
    obtain ⟨i, h⟩ := ok_of_map_snd h
    exact change_addInfrastructureNode h
  | addContainerInstance n c =>
    obtain ⟨i, h⟩ := ok_of_map_snd h
    exact change_addContainerInstance h
  | setPerson id x => exact same (skeleton_setPerson h)
  | setSoftwareSystem id x => exact same (skeleton_setSoftwareSystem h)
  | setContainer id x => exact same (skeleton_setContainer h)
  | setComponent id x => exact same (skeleton_setComponent h)
  | setDeploymentNode id x => exact same (skeleton_setDeploymentNode h)
  | setInfrastructureNode id x => exact same (skeleton_setInfrastructureNode h)
  | setContainerInstance id x => exact same (skeleton_setContainerInstance h)
  | setRelationship id x => exact same (skeleton_setRelationship h)

theorem Edit.perform_cases {m m' : Model} {e : Edit} (h : e.perform m = some m') :
    e.apply m = .ok m' ∨ m' = m := by
  unfold Edit.perform at h
  split at h
  · next hm =>
    cases h
    exact Or.inl hm
  · cases h
    exact Or.inr rfl
  · cases h

/-- The one operation that is not a change makes a loop. -/
theorem Edit.change_or_loop {m m' : Model} {e : Edit} (h : e.apply m = .ok m') :
    Change m.skeleton m'.skeleton ∨ m'.skeleton = m.skeleton.loop := by
  by_cases hparent : e.NamesParent m
  · exact Or.inl (Edit.change hparent h)
  · cases e with
    | addChildDeploymentNode p name description technology environment =>
      obtain ⟨n, h⟩ := ok_of_map_snd h
      obtain ⟨hp, hs⟩ := skeleton_addChildDeploymentNode h
      -- The parent does not exist yet, but does by the time it is looked up: it is the child.
      have hlate : ¬ p.index < m.skeleton.nodes := fun hlt => hparent fun q hq => by
        cases hq
        exact hlt
      have hindex : p.index = m.skeleton.nodes := by omega
      have hfresh : p = m.skeleton.fresh := congrArg DeploymentNodeId.mk hindex
      rw [hfresh] at hs
      exact Or.inr hs
    | _ => exact absurd (fun _ hp => nomatch hp) hparent

theorem Edit.sound {m m' : Model} {e : Edit} (hm : m.skeleton.Sound)
    (h : e.perform m = some m') : m'.skeleton.Sound := by
  rcases Edit.perform_cases h with h | rfl
  · rcases Edit.change_or_loop h with h | h
    · exact hm.change h
    · exact h ▸ hm.loop
  · exact hm

theorem Edit.loopless {m m' : Model} {e : Edit} (hm : m.skeleton.Loopless)
    (hparent : e.NamesParent m) (h : e.perform m = some m') : m'.skeleton.Loopless := by
  rcases Edit.perform_cases h with h | rfl
  · exact hm.change (Edit.change hparent h)
  · exact hm

theorem Model.performAll_cons {m m' : Model} {e : Edit} {history : List Edit} :
    m.performAll (e :: history) = some m' ↔
      ∃ m₁, e.perform m = some m₁ ∧ m₁.performAll history = some m' := by
  simp [performAll, List.foldlM_cons, Option.bind_eq_bind, Option.bind_eq_some_iff]

theorem Model.performAll_induction {P : Model → Prop}
    (hstep : ∀ {m m' : Model} {e : Edit}, P m → e.perform m = some m' → P m') {m m' : Model}
    {history : List Edit} (hm : P m) (h : m.performAll history = some m') : P m' := by
  induction history generalizing m with
  | nil =>
    cases h
    exact hm
  | cons e history ih =>
    obtain ⟨m₁, he, h⟩ := performAll_cons.1 h
    exact ih (hstep hm he) h

theorem Model.skeleton_empty : Model.empty.skeleton =
    { containers := fun _ => []
      system := fun _ => none
      components := fun _ => []
      container := fun _ => none
      infrastructure := fun _ => []
      infrastructureHost := fun _ => none
      instances := fun _ => []
      instanceHost := fun _ => none
      children := fun _ => []
      parent := fun _ => none
      nodes := 0
      roots := []
      members := [] } := rfl

theorem Model.sound_empty : Model.empty.skeleton.Sound := by
  rw [skeleton_empty]
  exact
    { containers := fun _ _ => rfl
      components := fun _ _ => rfl
      infrastructure := fun _ _ => rfl
      instances := fun _ _ => rfl
      children := fun _ _ => rfl
      settles := fun n => ⟨n, .refl, Or.inl rfl⟩
      known := fun _ _ h => nomatch h
      roots_nodup := .nil
      roots_free := fun _ h => nomatch h
      members_nodup := .nil }

theorem Model.loopless_empty : Model.empty.skeleton.Loopless := by
  rw [skeleton_empty]
  exact fun _ h => nomatch h

theorem Model.Reachable.sound {m : Model} (h : m.Reachable) : m.skeleton.Sound := by
  obtain ⟨history, h⟩ := h
  exact performAll_induction (P := fun m => m.skeleton.Sound)
    Edit.sound sound_empty h

end C4
