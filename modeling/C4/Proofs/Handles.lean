import C4.Proofs.Coverage
import C4.Proofs.References

/-!
# Handles

A handle that has been returned stays good. What an entity is given when it is created, its name
and its owner or its ends, is its identity. Every operation adds at most one identity behind those
of the same kind and keeps all that are there, so handles count up from zero and each of them leads
to the same identity for ever.
-/
namespace C4

inductive Kind
  | person
  | softwareSystem
  | container
  | component
  | deploymentNode
  | infrastructureNode
  | containerInstance
  | relationship
deriving DecidableEq

namespace Kind

def handle (k : Kind) (index : ℕ) : Reference :=
  match k with
  | person => .element (.person ⟨index⟩)
  | softwareSystem => .element (.softwareSystem ⟨index⟩)
  | container => .element (.container ⟨index⟩)
  | component => .element (.component ⟨index⟩)
  | deploymentNode => .element (.deploymentNode ⟨index⟩)
  | infrastructureNode => .element (.infrastructureNode ⟨index⟩)
  | containerInstance => .element (.containerInstance ⟨index⟩)
  | relationship => .relationship ⟨index⟩

theorem handle_inj {k k' : Kind} {i j : ℕ} : k.handle i = k'.handle j ↔ k = k' ∧ i = j := by
  cases k <;> cases k' <;> simp [handle]

def elements : List Kind :=
  [person, softwareSystem, container, component, deploymentNode, infrastructureNode,
    containerInstance]

end Kind

/-- What an entity is given once and for all. A deployment node may be moved, so its parent is no
part of it. -/
inductive Identity
  | person (name : String)
  | softwareSystem (name : String)
  | container (name : String) (system : SoftwareSystemId)
  | component (name : String) (container : ContainerId)
  | deploymentNode (name : String)
  | infrastructureNode (name : String) (node : DeploymentNodeId)
  | containerInstance (container : ContainerId) (node : DeploymentNodeId)
  | relationship (source target : ElementId)
deriving DecidableEq

def Identity.kind : Identity → Kind
  | person _ => .person
  | softwareSystem _ => .softwareSystem
  | container _ _ => .container
  | component _ _ => .component
  | deploymentNode _ => .deploymentNode
  | infrastructureNode _ _ => .infrastructureNode
  | containerInstance _ _ => .containerInstance
  | relationship _ _ => .relationship

def Person.identity (p : Person) : Identity := .person p.name

def SoftwareSystem.identity (s : SoftwareSystem) : Identity := .softwareSystem s.name

def Container.identity (c : Container) : Identity := .container c.name c.softwareSystem

def Component.identity (c : Component) : Identity := .component c.name c.container

def DeploymentNode.identity (n : DeploymentNode) : Identity := .deploymentNode n.name

def InfrastructureNode.identity (n : InfrastructureNode) : Identity :=
  .infrastructureNode n.name n.parent

def ContainerInstance.identity (i : ContainerInstance) : Identity :=
  .containerInstance i.container i.parent

def Relationship.identity (r : Relationship) : Identity := .relationship r.source r.target

theorem Person.set_identity (p : Person) (x : Person.Setting) :
    (p.set x).identity = p.identity := by
  cases x <;> rfl

theorem SoftwareSystem.set_identity (s : SoftwareSystem) (x : SoftwareSystem.Setting) :
    (s.set x).identity = s.identity := by
  cases x <;> rfl

theorem Container.set_identity (c : Container) (x : Container.Setting) :
    (c.set x).identity = c.identity := by
  cases x <;> rfl

theorem Component.set_identity (c : Component) (x : Component.Setting) :
    (c.set x).identity = c.identity := by
  cases x <;> rfl

theorem DeploymentNode.set_identity (n : DeploymentNode) (x : DeploymentNode.Setting) :
    (n.set x).identity = n.identity := by
  cases x <;> rfl

theorem InfrastructureNode.set_identity (n : InfrastructureNode) (x : InfrastructureNode.Setting) :
    (n.set x).identity = n.identity := by
  cases x <;> rfl

theorem ContainerInstance.set_identity (i : ContainerInstance) (x : ContainerInstance.Setting) :
    (i.set x).identity = i.identity := by
  cases x <;> rfl

theorem Relationship.set_identity (r : Relationship) (x : Relationship.Setting) :
    (r.set x).identity = r.identity := by
  cases x <;> rfl

namespace Model

def identity? (m : Model) : Reference → Option Identity
  | .element (.person id) => (m.person? id).map (·.identity)
  | .element (.softwareSystem id) => (m.softwareSystem? id).map (·.identity)
  | .element (.container id) => (m.container? id).map (·.identity)
  | .element (.component id) => (m.component? id).map (·.identity)
  | .element (.deploymentNode id) => (m.deploymentNode? id).map (·.identity)
  | .element (.infrastructureNode id) => (m.infrastructureNode? id).map (·.identity)
  | .element (.containerInstance id) => (m.containerInstance? id).map (·.identity)
  | .relationship id => (m.relationship? id).map (·.identity)

def identities (m : Model) : Kind → List Identity
  | .person => m.persons.toList.map (·.identity)
  | .softwareSystem => m.softwareSystems.toList.map (·.identity)
  | .container => m.containers.toList.map (·.identity)
  | .component => m.components.toList.map (·.identity)
  | .deploymentNode => m.deploymentNodes.toList.map (·.identity)
  | .infrastructureNode => m.infrastructureNodes.toList.map (·.identity)
  | .containerInstance => m.containerInstances.toList.map (·.identity)
  | .relationship => m.relationships.toList.map (·.identity)

end Model

/-- The handle that an operation on `m` returns, and what it gives to the entity. -/
def Edit.issue? (m : Model) : Edit → Option (Reference × Identity)
  | addPerson name description =>
    some (.element (m.addPerson name description).1, .person name)
  | addSoftwareSystem name description =>
    some (.element (m.addSoftwareSystem name description).1, .softwareSystem name)
  | addContainer system name =>
    (m.addContainer system name).toOption.map fun r => (.element r.1, .container name system)
  | addComponent container name =>
    (m.addComponent container name).toOption.map fun r => (.element r.1, .component name container)
  | addRelationship source target =>
    some (.relationship (m.addRelationship source target).1, .relationship source target)
  | uses source target description =>
    some (.relationship (m.uses source target description).1, .relationship source target)
  | createDeploymentNode name description technology environment =>
    some (.element (m.createDeploymentNode name description technology environment).1,
      .deploymentNode name)
  | addDeploymentNode name description technology environment =>
    some (.element (m.addDeploymentNode name description technology environment).1,
      .deploymentNode name)
  | addChildDeploymentNode parent name description technology environment =>
    (m.addChildDeploymentNode parent name description technology environment).toOption.map
      fun r => (.element r.1, .deploymentNode name)
  | addChildNode parent name description technology =>
    (m.addChildNode parent name description technology).toOption.map
      fun r => (.element r.1, .deploymentNode name)
  | addInfrastructureNode parent name =>
    (m.addInfrastructureNode parent name).toOption.map
      fun r => (.element r.1, .infrastructureNode name parent)
  | addContainerInstance node container =>
    (m.addContainerInstance node container).toOption.map
      fun r => (.element r.1, .containerInstance container node)
  | _ => none

/-- All handles that a history which starts from `m` returns, the latest last. -/
def Model.issued (m : Model) : List Edit → List (Reference × Identity)
  | [] => []
  | e :: history =>
    (e.issue? m).toList ++
      match e.perform m with
      | none => []
      | some m' => m'.issued history

def ofKind (k : Kind) (issued : List (Reference × Identity)) : List (Reference × Identity) :=
  issued.filter (·.2.kind = k)

theorem map_toList_modify {α β : Type*} {f : α → α} {g : α → β} (h : ∀ a, g (f a) = g a)
    (entities : Array α) (i : ℕ) :
    (entities.modify i f).toList.map g = entities.toList.map g := by
  refine List.ext_getElem? fun j => ?_
  rw [List.getElem?_map, List.getElem?_map, Array.getElem?_toList, Array.getElem?_toList]
  exact Model.map_getElem?_modify h entities i j

theorem map_toList_push {α β : Type*} (g : α → β) (entities : Array α) (a : α) :
    (entities.push a).toList.map g = entities.toList.map g ++ [g a] := by simp

namespace Model

structure Issues (m : Model) (issue? : Option (Reference × Identity)) (m' : Model) : Prop where
  kept : ∀ k, m'.identities k = m.identities k ++ (ofKind k issue?.toList).map (·.2)
  next : ∀ x ∈ issue?, x.1 = x.2.kind.handle (m.identities x.2.kind).length

variable {m m' : Model}

theorem Issues.none (h : m'.identities = m.identities) : m.Issues none m' where
  kept k := by simp [h, ofKind]
  next := by simp

theorem Issues.some {r : Reference} {i : Identity}
    (hnew : m'.identities i.kind = m.identities i.kind ++ [i])
    (hothers : ∀ k, k ≠ i.kind → m'.identities k = m.identities k)
    (hnext : r = i.kind.handle (m.identities i.kind).length) : m.Issues (some (r, i)) m' where
  kept k := by
    by_cases hk : k = i.kind
    · subst hk
      simpa [ofKind] using hnew
    · have hne : i.kind ≠ k := fun h => hk h.symm
      simpa [ofKind, hne] using hothers k hk
  next := by
    intro x hx
    cases hx
    exact hnext

theorem identity?_handle (m : Model) (k : Kind) (i : ℕ) :
    m.identity? (k.handle i) = (m.identities k)[i]? := by
  cases k <;>
    simp [identity?, identities, Kind.handle, person?, softwareSystem?, container?, component?,
      deploymentNode?, infrastructureNode?, containerInstance?, relationship?]

theorem identities_nodes (m : Model) {nodes : Array DeploymentNode}
    (h : nodes.toList.map (·.identity) = m.deploymentNodes.toList.map (·.identity)) :
    ({ m with deploymentNodes := nodes } : Model).identities = m.identities := by
  funext k
  cases k with
  | deploymentNode => exact h
  | _ => rfl

theorem identities_attach {p n : DeploymentNodeId} (h : m.attach p n = .ok m') :
    m'.identities = m.identities := by
  unfold attach at h
  split at h
  · cases h
    refine m.identities_nodes ((map_toList_modify ?_ ..).trans (map_toList_modify ?_ ..))
    · exact fun _ => rfl
    · exact fun _ => rfl
  · cases h

theorem identities_detach (m : Model) (n : DeploymentNodeId) :
    (m.detach n).identities = m.identities := by
  unfold detach
  split
  · funext k
    cases k <;> rfl
  · refine m.identities_nodes ((map_toList_modify ?_ ..).trans (map_toList_modify ?_ ..))
    · exact fun _ => rfl
    · exact fun _ => rfl

theorem identities_pinAll (m : Model) (ids : List DeploymentNodeId) (environment : Environment) :
    (m.pinAll ids environment).identities = m.identities := by
  induction ids generalizing m with
  | nil => rfl
  | cons id ids ih =>
    refine (ih { m with
      deploymentNodes := m.deploymentNodes.modify id.index (·.pin environment) }).trans ?_
    refine m.identities_nodes (map_toList_modify ?_ ..)
    exact fun _ => rfl

theorem identities_pinSubtree {root : DeploymentNodeId} {environment : Environment}
    (h : m.pinSubtree root environment = .ok m') : m'.identities = m.identities := by
  unfold pinSubtree at h
  split at h
  · cases h
  · cases h
    exact identities_pinAll ..

theorem identities_setEnvironment {id : DeploymentNodeId} {environment : Environment}
    (h : m.setEnvironment id environment = .ok m') : m'.identities = m.identities := by
  unfold setEnvironment at h
  split at h
  · exact identities_pinSubtree h
  · cases h

theorem identities_addChild {p n : DeploymentNodeId} (h : m.addChild p n = .ok m') :
    m'.identities = m.identities := by
  obtain ⟨parent, moved, -, -, -, ha, h⟩ := addChild_eq_ok h
  have hmoved : moved.identities = m.identities :=
    (identities_attach ha).trans (identities_detach m n)
  rw [← hmoved]
  split at h
  · exact identities_pinSubtree h
  · cases h
    rfl

theorem issues_addPerson (m : Model) (name description : String) :
    m.Issues (some (.element (m.addPerson name description).1, .person name))
      (m.addPerson name description).2 := by
  refine .some (map_toList_push ..) (fun k hk => ?_) (by simp [identities, addPerson,
    Identity.kind, Kind.handle])
  cases k with
  | person => exact absurd rfl hk
  | _ => rfl

theorem issues_addSoftwareSystem (m : Model) (name description : String) :
    m.Issues (some (.element (m.addSoftwareSystem name description).1, .softwareSystem name))
      (m.addSoftwareSystem name description).2 := by
  refine .some (map_toList_push ..) (fun k hk => ?_) (by simp [identities, addSoftwareSystem,
    Identity.kind, Kind.handle])
  cases k with
  | softwareSystem => exact absurd rfl hk
  | _ => rfl

theorem issues_addContainer {s : SoftwareSystemId} {name : String} {c : ContainerId}
    (h : m.addContainer s name = .ok (c, m')) :
    m.Issues (some (.element c, .container name s)) m' := by
  simp only [addContainer] at h
  split at h <;> cases h
  refine .some (map_toList_push ..) (fun k hk => ?_) (by simp [identities, Identity.kind,
    Kind.handle])
  cases k with
  | container => exact absurd rfl hk
  | softwareSystem =>
    refine map_toList_modify ?_ ..
    exact fun _ => rfl
  | _ => rfl

theorem issues_addComponent {c : ContainerId} {name : String} {x : ComponentId}
    (h : m.addComponent c name = .ok (x, m')) :
    m.Issues (some (.element x, .component name c)) m' := by
  simp only [addComponent] at h
  split at h <;> cases h
  refine .some (map_toList_push ..) (fun k hk => ?_) (by simp [identities, Identity.kind,
    Kind.handle])
  cases k with
  | component => exact absurd rfl hk
  | container =>
    refine map_toList_modify ?_ ..
    exact fun _ => rfl
  | _ => rfl

theorem issues_relationship (m : Model) (source target : ElementId)
    (description : Option String) :
    m.Issues (some (.relationship ⟨m.relationships.size⟩, .relationship source target))
      { m with relationships := m.relationships.push (.create source target description) } := by
  refine .some (map_toList_push ..) (fun k hk => ?_) (by simp [identities, Identity.kind,
    Kind.handle])
  cases k with
  | relationship => exact absurd rfl hk
  | _ => rfl

theorem issues_createDeploymentNode (m : Model) (name description technology : String)
    (environment : Environment) :
    m.Issues (some (.element (m.createDeploymentNode name description technology environment).1,
        .deploymentNode name))
      (m.createDeploymentNode name description technology environment).2 := by
  refine .some (map_toList_push ..) (fun k hk => ?_) (by simp [identities, createDeploymentNode,
    Identity.kind, Kind.handle])
  cases k with
  | deploymentNode => exact absurd rfl hk
  | _ => rfl

theorem Issues.place {issue? : Option (Reference × Identity)} {m'' : Model}
    (h : m.Issues issue? m') (hplace : m''.identities = m'.identities) : m.Issues issue? m'' where
  kept k := (congrFun hplace k).trans (h.kept k)
  next := h.next

theorem issues_addDeploymentNode (m : Model) (name description technology : String)
    (environment : Environment) :
    m.Issues (some (.element (m.addDeploymentNode name description technology environment).1,
      .deploymentNode name)) (m.addDeploymentNode name description technology environment).2 := by
  refine (m.issues_createDeploymentNode name description technology environment).place ?_
  funext k
  cases k <;> rfl

theorem issues_addChildDeploymentNode {p n : DeploymentNodeId}
    {name description technology : String} {environment : Environment}
    (h : m.addChildDeploymentNode p name description technology environment = .ok (n, m')) :
    m.Issues (some (.element n, .deploymentNode name)) m' := by
  have hcreated := m.issues_createDeploymentNode name description technology environment
  simp only [addChildDeploymentNode] at h
  cases ha : (m.createDeploymentNode name description technology environment).2.attach p
      (m.createDeploymentNode name description technology environment).1 with
  | error e =>
    rw [ha] at h
    cases h
  | ok attached =>
    rw [ha] at h
    cases h
    exact hcreated.place (identities_attach ha)

theorem issues_addChildNode {p n : DeploymentNodeId} {name description technology : String}
    (h : m.addChildNode p name description technology = .ok (n, m')) :
    m.Issues (some (.element n, .deploymentNode name)) m' := by
  obtain ⟨parent, -, h⟩ := addChildNode_eq_ok h
  exact issues_addChildDeploymentNode h

theorem issues_addInfrastructureNode {p : DeploymentNodeId} {name : String}
    {i : InfrastructureNodeId} (h : m.addInfrastructureNode p name = .ok (i, m')) :
    m.Issues (some (.element i, .infrastructureNode name p)) m' := by
  simp only [addInfrastructureNode] at h
  split at h <;> cases h
  refine .some (map_toList_push ..) (fun k hk => ?_) (by simp [identities, Identity.kind,
    Kind.handle])
  cases k with
  | infrastructureNode => exact absurd rfl hk
  | deploymentNode =>
    refine map_toList_modify ?_ ..
    exact fun _ => rfl
  | _ => rfl

theorem issues_addContainerInstance {p : DeploymentNodeId} {c : ContainerId}
    {i : ContainerInstanceId} (h : m.addContainerInstance p c = .ok (i, m')) :
    m.Issues (some (.element i, .containerInstance c p)) m' := by
  simp only [addContainerInstance] at h
  split at h <;> cases h
  refine .some (map_toList_push ..) (fun k hk => ?_) (by simp [identities, Identity.kind,
    Kind.handle])
  cases k with
  | containerInstance => exact absurd rfl hk
  | deploymentNode =>
    refine map_toList_modify ?_ ..
    exact fun _ => rfl
  | _ => rfl

end Model

section Operations

open Model

variable {m m' : Model} {e : Edit}

theorem Edit.issues_apply (h : e.apply m = .ok m') : m.Issues (e.issue? m) m' := by
  cases e with
  | addPerson name description =>
    cases h
    exact m.issues_addPerson name description
  | addSoftwareSystem name description =>
    cases h
    exact m.issues_addSoftwareSystem name description
  | addContainer s name =>
    obtain ⟨c, h⟩ := ok_of_map_snd h
    simpa [Edit.issue?, h, Except.toOption] using issues_addContainer h
  | addComponent c name =>
    obtain ⟨x, h⟩ := ok_of_map_snd h
    simpa [Edit.issue?, h, Except.toOption] using issues_addComponent h
  | addRelationship source target =>
    cases h
    exact m.issues_relationship source target none
  | uses source target description =>
    cases h
    exact m.issues_relationship source target (provided description)
  | createDeploymentNode name description technology environment =>
    cases h
    exact m.issues_createDeploymentNode name description technology environment
  | addDeploymentNode name description technology environment =>
    cases h
    exact m.issues_addDeploymentNode name description technology environment
  | addChildDeploymentNode p name description technology environment =>
    obtain ⟨n, h⟩ := ok_of_map_snd h
    simpa [Edit.issue?, h, Except.toOption] using issues_addChildDeploymentNode h
  | addChildNode p name description technology =>
    obtain ⟨n, h⟩ := ok_of_map_snd h
    simpa [Edit.issue?, h, Except.toOption] using issues_addChildNode h
  | addInfrastructureNode p name =>
    obtain ⟨i, h⟩ := ok_of_map_snd h
    simpa [Edit.issue?, h, Except.toOption] using issues_addInfrastructureNode h
  | addContainerInstance p c =>
    obtain ⟨i, h⟩ := ok_of_map_snd h
    simpa [Edit.issue?, h, Except.toOption] using issues_addContainerInstance h
  | addChild p n => exact .none (identities_addChild h)
  | setEnvironment id environment => exact .none (identities_setEnvironment h)
  | setEnterprise | setEnterpriseProperty | addToEnterprise | setProperty =>
    cases h
    refine .none (funext fun k => ?_)
    cases k <;> rfl
  | setPerson id x | setSoftwareSystem id x | setContainer id x | setComponent id x
  | setDeploymentNode id x | setInfrastructureNode id x | setContainerInstance id x
  | setRelationship id x =>
    simp only [Edit.apply, Model.setPerson, Model.setSoftwareSystem, Model.setContainer,
      Model.setComponent, Model.setDeploymentNode, Model.setInfrastructureNode,
      Model.setContainerInstance, Model.setRelationship] at h
    split at h <;> cases h
    refine .none (funext fun k => ?_)
    cases k <;> first | rfl | exact map_toList_modify (fun entity => entity.set_identity x) ..

theorem Edit.issues_perform (h : e.perform m = some m') : m.Issues (e.issue? m) m' := by
  unfold Edit.perform at h
  split at h
  · next hok =>
    cases h
    exact issues_apply hok
  · next parent child hcycle =>
    cases h
    obtain ⟨p, n, rfl⟩ := eq_addChild_of_cycle hcycle
    exact .none rfl
  · cases h

theorem Edit.parentOf?_perform {n : DeploymentNodeId} (hn : n.index < m.deploymentNodes.size)
    (h : e.perform m = some m') :
    m'.parentOf? n = m.parentOf? n ∨ ∃ p, e = .addChild p n ∧ m'.parentOf? n = some p := by
  have hfresh : n ≠ m.skeleton.fresh := by
    rintro rfl
    exact Nat.lt_irrefl _ hn
  have same (h : m'.skeleton = m.skeleton) : m'.parentOf? n = m.parentOf? n :=
    congrFun (congrArg Skeleton.parent h) n
  have child {p x : DeploymentNodeId} {name description technology : String}
      {environment : Environment}
      (h : m.addChildDeploymentNode p name description technology environment = .ok (x, m')) :
      m'.parentOf? n = m.parentOf? n := by
    have hs := congrFun (congrArg Skeleton.parent (skeleton_addChildDeploymentNode h).2) n
    exact hs.trans (Function.update_of_ne hfresh ..)
  rcases Edit.perform_cases h with h | rfl
  · cases e with
    | addChild p c =>
      obtain ⟨parent, moved, -, hc, hmeets, ha, h⟩ := addChild_eq_ok h
      have hmoved : m'.parentOf? n = moved.parentOf? n := by
        split at h
        · exact congrFun (congrArg Skeleton.parent (skeleton_pinSubtree h)) n
        · cases h
          rfl
      have hmove : moved.parentOf? n = Function.update m.parentOf? c (some p) n := by
        have hs := congrFun (congrArg Skeleton.parent (change_move hc hmeets ha).1) n
        simpa [skeleton, Skeleton.attach, Skeleton.detach_parent] using hs
      by_cases hnc : n = c
      · subst hnc
        exact Or.inr ⟨p, rfl, by rw [hmoved, hmove, Function.update_self]⟩
      · exact Or.inl (by rw [hmoved, hmove, Function.update_of_ne hnc])
    | addChildDeploymentNode p name description technology environment =>
      obtain ⟨x, h⟩ := ok_of_map_snd h
      exact Or.inl (child h)
    | addChildNode p name description technology =>
      obtain ⟨x, h⟩ := ok_of_map_snd h
      obtain ⟨parent, -, h⟩ := addChildNode_eq_ok h
      exact Or.inl (child h)
    | createDeploymentNode name description technology environment
    | addDeploymentNode name description technology environment =>
      cases h
      exact Or.inl (congrFun (congrArg Skeleton.parent
        (m.skeleton_createDeploymentNode name description technology environment)) n)
    | setEnvironment id environment => exact Or.inl (same (skeleton_setEnvironment h))
    | setDeploymentNode id x => exact Or.inl (same (skeleton_setDeploymentNode h))
    | addInfrastructureNode p name =>
      obtain ⟨i, h⟩ := ok_of_map_snd h
      simp only [Model.addInfrastructureNode] at h
      split at h <;> cases h
      refine Or.inl (bind_getElem?_modify ?_ ..)
      exact fun _ => rfl
    | addContainerInstance p c =>
      obtain ⟨i, h⟩ := ok_of_map_snd h
      simp only [Model.addContainerInstance] at h
      split at h <;> cases h
      refine Or.inl (bind_getElem?_modify ?_ ..)
      exact fun _ => rfl
    | addContainer s name =>
      obtain ⟨c, h⟩ := ok_of_map_snd h
      simp only [Model.addContainer] at h
      split at h <;> cases h
      exact Or.inl rfl
    | addComponent c name =>
      obtain ⟨x, h⟩ := ok_of_map_snd h
      simp only [Model.addComponent] at h
      split at h <;> cases h
      exact Or.inl rfl
    | setPerson | setSoftwareSystem | setContainer | setComponent | setInfrastructureNode
    | setContainerInstance | setRelationship =>
      simp only [Edit.apply, Model.setPerson, Model.setSoftwareSystem, Model.setContainer,
        Model.setComponent, Model.setInfrastructureNode, Model.setContainerInstance,
        Model.setRelationship] at h
      split at h <;> cases h
      exact Or.inl rfl
    | addPerson | addSoftwareSystem | addRelationship | uses | setEnterprise
    | setEnterpriseProperty | addToEnterprise | setProperty =>
      cases h
      exact Or.inl rfl
  · exact Or.inl rfl

end Operations

def Model.register (m : Model) (k : Kind) : List (Reference × Identity) :=
  (m.identities k).mapIdx fun index i => (k.handle index, i)

namespace Model

variable {m m' : Model}

theorem Issues.register {issue? : Option (Reference × Identity)} (h : m.Issues issue? m')
    (k : Kind) : m'.register k = m.register k ++ ofKind k issue?.toList := by
  rw [Model.register, h.kept, List.mapIdx_append, Model.register]
  congr 1
  cases issue? with
  | none => rfl
  | some x =>
    obtain ⟨r, i⟩ := x
    have hnext : r = i.kind.handle (m.identities i.kind).length := h.next _ rfl
    by_cases hk : i.kind = k
    · subst hk
      simp [ofKind, hnext]
    · simp [ofKind, hk]

theorem register_performAll {history : List Edit} (h : m.performAll history = some m')
    (k : Kind) : m'.register k = m.register k ++ ofKind k (m.issued history) := by
  induction history generalizing m with
  | nil =>
    cases h
    simp [issued, ofKind]
  | cons e history ih =>
    obtain ⟨m₁, he, h⟩ := performAll_cons.1 h
    have hstep := (Edit.issues_perform he).register k
    rw [ih h, hstep, issued, he, List.append_assoc, ofKind, ofKind, ofKind, List.filter_append]

theorem exists_handle (r : Reference) : ∃ (k : Kind) (index : ℕ), r = k.handle index := by
  rcases r with (_ | _ | _ | _ | _ | _ | _) | id
  · exact ⟨.person, _, rfl⟩
  · exact ⟨.softwareSystem, _, rfl⟩
  · exact ⟨.container, _, rfl⟩
  · exact ⟨.component, _, rfl⟩
  · exact ⟨.deploymentNode, _, rfl⟩
  · exact ⟨.infrastructureNode, _, rfl⟩
  · exact ⟨.containerInstance, _, rfl⟩
  · exact ⟨.relationship, _, rfl⟩

theorem identity?_eq_some_iff {r : Reference} {i : Identity} :
    m.identity? r = some i ↔ ∃ k, (r, i) ∈ m.register k := by
  constructor
  · intro h
    obtain ⟨k, index, rfl⟩ := exists_handle r
    rw [identity?_handle] at h
    exact ⟨k, List.mem_mapIdx.2 (by grind)⟩
  · rintro ⟨k, h⟩
    obtain ⟨index, hindex, h⟩ := List.mem_mapIdx.1 h
    cases h
    rw [identity?_handle, List.getElem?_eq_getElem hindex]

theorem identity?_kept {added : Kind → List (Reference × Identity)} {r : Reference} {i : Identity}
    (hadded : ∀ k, m'.register k = m.register k ++ added k) (h : m.identity? r = some i) :
    m'.identity? r = some i := by
  obtain ⟨k, hk⟩ := identity?_eq_some_iff.1 h
  refine identity?_eq_some_iff.2 ⟨k, ?_⟩
  rw [hadded]
  exact List.mem_append_left _ hk

theorem handles_register (m : Model) (k : Kind) :
    (m.register k).map (·.1) = (List.range (m.identities k).length).map k.handle := by
  refine List.ext_getElem? fun index => ?_
  by_cases h : index < (m.identities k).length <;> simp [register, h]

theorem elementIds_eq (m : Model) :
    m.elementIds.map Reference.element =
      Kind.elements.flatMap fun k => (m.register k).map (·.1) := by
  simp [handles_register, elementIds, Kind.elements, identities, personIds, softwareSystemIds,
    containerIds, componentIds, deploymentNodeIds, infrastructureNodeIds, containerInstanceIds,
    Function.comp_def]
  rfl

theorem elementIds_nodup (m : Model) : m.elementIds.Nodup := by
  refine List.Nodup.of_map Reference.element ?_
  rw [elementIds_eq, List.nodup_flatMap]
  constructor
  · intro k _
    rw [handles_register]
    exact List.nodup_range.map fun i j h => (Kind.handle_inj.1 h).2
  · have hkinds : Kind.elements.Nodup := by decide
    refine hkinds.imp fun {k k'} hk => ?_
    intro r hr hr'
    simp only [handles_register] at hr hr'
    obtain ⟨i, -, rfl⟩ := List.mem_map.1 hr
    obtain ⟨j, -, h⟩ := List.mem_map.1 hr'
    exact hk (Kind.handle_inj.1 h).1.symm

theorem mem_elementIds {m : Model} {id : ElementId} :
    id ∈ m.elementIds ↔ (m.identity? (.element id)).isSome := by
  cases id with
  | person id | softwareSystem id | container id | component id | deploymentNode id
  | infrastructureNode id | containerInstance id =>
    cases id
    simp [elementIds, identity?, personIds, softwareSystemIds, containerIds, componentIds,
      deploymentNodeIds, infrastructureNodeIds, containerInstanceIds, person?, softwareSystem?,
      container?, component?, deploymentNode?, infrastructureNode?, containerInstance?]

theorem nameOf?_isSome {m : Model} {id : ElementId} (h : id ∈ m.elementIds) :
    (m.nameOf? id).isSome ↔
      ∀ i inst, id = .containerInstance i → m.containerInstance? i = some inst →
        (m.container? inst.container).isSome := by
  rw [mem_elementIds] at h
  cases id with
  | containerInstance i =>
    obtain ⟨inst, hinst⟩ : ∃ inst, m.containerInstance? i = some inst := by
      simpa [identity?, Option.isSome_iff_exists] using h
    constructor
    · rintro hname j inst' hj hinst'
      cases hj
      simpa [nameOf?, hinst'] using hname
    · intro hcontainer
      simpa [nameOf?, hinst] using hcontainer i inst rfl hinst
  | _ => simpa [nameOf?, identity?] using h

theorem parentOf?_performAll {history : List Edit} {n : DeploymentNodeId}
    (hn : (m.identity? (.element (.deploymentNode n))).isSome)
    (h : m.performAll history = some m') :
    m'.parentOf? n = m.parentOf? n ∨
      ∃ p, .addChild p n ∈ history ∧ m'.parentOf? n = some p := by
  induction history generalizing m with
  | nil =>
    cases h
    exact Or.inl rfl
  | cons e history ih =>
    obtain ⟨m₁, he, h⟩ := performAll_cons.1 h
    have hknown : n.index < m.deploymentNodes.size := by
      simpa [identity?, deploymentNode?] using hn
    have hn₁ : (m₁.identity? (.element (.deploymentNode n))).isSome := by
      obtain ⟨i, hi⟩ := Option.isSome_iff_exists.1 hn
      exact Option.isSome_iff_exists.2 ⟨i, identity?_kept (Edit.issues_perform he).register hi⟩
    rcases ih hn₁ h with hsame | ⟨p, hp, hparent⟩
    · rcases Edit.parentOf?_perform hknown he with hkeep | ⟨p, rfl, hparent⟩
      · exact Or.inl (hsame.trans hkeep)
      · exact Or.inr ⟨p, List.mem_cons_self, hsame.trans hparent⟩
    · exact Or.inr ⟨p, List.mem_cons_of_mem _ hp, hparent⟩

/-- The handles of a kind count up from zero, and each of them leads for ever to what it was issued
for. Only the parent of a deployment node may become another one, by moving the node. The elements
of a model are the issued ones, and all of them have names but the instances of containers that do
not exist. -/
theorem handles_of_history {history : List Edit} (h : Model.empty.performAll history = some m) :
    (∀ k, (ofKind k (Model.empty.issued history)).map (·.1) =
      (List.range (ofKind k (Model.empty.issued history)).length).map k.handle) ∧
    (∀ r i, m.identity? r = some i ↔ (r, i) ∈ Model.empty.issued history) ∧
    (∀ later m', m.performAll later = some m' →
      (∀ r i, (r, i) ∈ Model.empty.issued history → m'.identity? r = some i) ∧
      ∀ n, .deploymentNode n ∈ m.elementIds → m'.parentOf? n = m.parentOf? n ∨
        ∃ p, .addChild p n ∈ later ∧ m'.parentOf? n = some p) ∧
    m.elementIds.map .element =
      Kind.elements.flatMap (fun k => (ofKind k (Model.empty.issued history)).map (·.1)) ∧
    m.elementIds.Nodup ∧
    ∀ id ∈ m.elementIds, (m.nameOf? id).isSome ↔
      ∀ i inst, id = .containerInstance i → m.containerInstance? i = some inst →
        (m.container? inst.container).isSome := by
  have hregister (k : Kind) : m.register k = ofKind k (Model.empty.issued history) := by
    have hempty : Model.empty.register k = [] := by cases k <;> rfl
    rw [register_performAll h k, hempty, List.nil_append]
  have hissued (r : Reference) (i : Identity) :
      m.identity? r = some i ↔ (r, i) ∈ Model.empty.issued history := by
    simp [identity?_eq_some_iff, hregister, ofKind]
  refine ⟨?counted, hissued, ?kept, ?listed, m.elementIds_nodup, fun id => nameOf?_isSome⟩
  case counted =>
    intro k
    rw [← hregister, handles_register]
    simp [register]
  case kept =>
    intro later m' hlater
    refine ⟨fun r i hri => ?_, fun n hn => parentOf?_performAll (mem_elementIds.1 hn) hlater⟩
    exact identity?_kept (register_performAll hlater) ((hissued r i).2 hri)
  case listed => simp only [elementIds_eq, hregister]

/-- An instance is deployed before its container exists, the node that carries it is moved, and the
move back is refused. -/
theorem handles_of_history_of_late_container :
    ∃ (history later : List Edit) (m m' : Model),
      Model.empty.performAll history = some m ∧ m.performAll later = some m' ∧
      ¬ (m.nameOf? (.containerInstance ⟨0⟩)).isSome ∧
      (m'.nameOf? (.containerInstance ⟨0⟩)).isSome ∧
      m'.identity? (.element (.containerInstance ⟨0⟩)) = some (.containerInstance ⟨0⟩ ⟨0⟩) ∧
      m.parentOf? ⟨0⟩ = none ∧ m'.parentOf? ⟨0⟩ = some ⟨1⟩ := by
  let history : List Edit := [.addSoftwareSystem "Shop" "", .addDeploymentNode "Host" "" "" .test,
    .addContainerInstance ⟨0⟩ ⟨0⟩, .addDeploymentNode "Rack" "" "" .test]
  let later : List Edit := [.addChild ⟨1⟩ ⟨0⟩, .addChild ⟨0⟩ ⟨1⟩, .addContainer ⟨0⟩ "Api"]
  obtain ⟨m, m', hm, hm', hfree, hmoved, hlisted, hearly, hlate⟩ : ∃ m m',
      Model.empty.performAll history = some m ∧ m.performAll later = some m' ∧
      m.parentOf? ⟨0⟩ = none ∧ m'.parentOf? ⟨0⟩ = some ⟨1⟩ ∧
      .containerInstance ⟨0⟩ ∈ m.elementIds ∧
      m.container? ⟨0⟩ = none ∧ (m'.nameOf? (.containerInstance ⟨0⟩)).isSome :=
    ⟨_, _, rfl, rfl, by decide, by decide, by decide, by decide, by decide⟩
  have hissued : (.element (.containerInstance ⟨0⟩), .containerInstance ⟨0⟩ ⟨0⟩) ∈
      Model.empty.issued history := by decide
  obtain ⟨-, hidentity, hkept, -, -, hnames⟩ := handles_of_history hm
  have hlasting := (hkept later m' hm').1 _ _ hissued
  refine ⟨history, later, m, m', hm, hm', ?unnamed, hlate, hlasting, hfree, hmoved⟩
  case unnamed =>
    intro hname
    have hi := (hidentity _ _).2 hissued
    obtain ⟨inst, hinst, hdeploys⟩ := Option.map_eq_some_iff.1 hi
    have hcontainer := (hnames _ hlisted).1 hname ⟨0⟩ inst rfl hinst
    simp only [ContainerInstance.identity, Identity.containerInstance.injEq] at hdeploys
    rw [hdeploys.1, hearly] at hcontainer
    cases hcontainer

end Model

end C4
