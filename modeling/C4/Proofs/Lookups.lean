import C4.Proofs.Changes

/-!
# Lookups that can not fail

What an owner lists exists, and so does the owner of what exists.
-/
namespace C4

theorem isSome_of_map_eq_some {α β : Type*} {o : Option α} {f : α → β} {b : β}
    (h : o.map f = some b) : o.isSome := by
  obtain ⟨a, ha, -⟩ := Option.map_eq_some_iff.1 h
  exact Option.isSome_of_eq_some ha

theorem isSome_of_mem_getD {α β : Type*} {o : Option α} {f : α → List β} {b : β}
    (h : b ∈ (o.map f).getD []) : o.isSome := by
  cases o with
  | none => cases h
  | some _ => rfl

namespace Model

variable {m : Model}

theorem mem_personIds {id : PersonId} : id ∈ m.personIds ↔ (m.person? id).isSome := by
  cases id
  simp [personIds, person?]

theorem mem_softwareSystemIds {id : SoftwareSystemId} :
    id ∈ m.softwareSystemIds ↔ (m.softwareSystem? id).isSome := by
  cases id
  simp [softwareSystemIds, softwareSystem?]

theorem mem_relationshipIds {id : RelationshipId} :
    id ∈ m.relationshipIds ↔ (m.relationship? id).isSome := by
  cases id
  simp [relationshipIds, relationship?]

theorem container_isSome (h : m.skeleton.Sound) {s : SoftwareSystemId} {c : ContainerId}
    (hc : c ∈ m.containersOf s) : (m.container? c).isSome :=
  isSome_of_map_eq_some (h.containers.mem_iff.1 hc)

theorem component_isSome (h : m.skeleton.Sound) {c : ContainerId} {x : ComponentId}
    (hx : x ∈ m.componentsOf c) : (m.component? x).isSome :=
  isSome_of_map_eq_some (h.components.mem_iff.1 hx)

theorem infrastructureNode_isSome (h : m.skeleton.Sound) {n : DeploymentNodeId}
    {i : InfrastructureNodeId} (hi : i ∈ m.infrastructureOf n) :
    (m.infrastructureNode? i).isSome :=
  isSome_of_map_eq_some (h.infrastructure.mem_iff.1 hi)

theorem containerInstance_isSome (h : m.skeleton.Sound) {n : DeploymentNodeId}
    {i : ContainerInstanceId} (hi : i ∈ m.instancesOf n) : (m.containerInstance? i).isSome :=
  isSome_of_map_eq_some (h.instances.mem_iff.1 hi)

theorem root_isSome (h : m.skeleton.Sound) {n : DeploymentNodeId} (hn : n ∈ m.topLevel) :
    (m.deploymentNode? n).isSome := by
  have hsize : n.index < m.deploymentNodes.size := (h.roots_free n hn).1
  simpa [deploymentNode?] using hsize

theorem child_isSome (h : m.skeleton.Sound) {n c : DeploymentNodeId} (hc : c ∈ m.childrenOf n) :
    (m.deploymentNode? c).isSome := by
  have hsize : c.index < m.deploymentNodes.size := (h.known c n (h.children.mem_iff.1 hc)).1
  simpa [deploymentNode?] using hsize

theorem system_isSome (h : m.skeleton.Sound) {c : ContainerId} {s : SoftwareSystemId}
    (hs : m.systemOf? c = some s) : (m.softwareSystem? s).isSome :=
  isSome_of_mem_getD (h.containers.mem_iff.2 hs)

theorem container_isSome_of_component (h : m.skeleton.Sound) {x : ComponentId} {c : ContainerId}
    (hc : m.containerOf? x = some c) : (m.container? c).isSome :=
  isSome_of_mem_getD (h.components.mem_iff.2 hc)

theorem host_isSome (h : m.skeleton.Sound) {id : ContainerInstanceId} {i : ContainerInstance}
    (hi : m.containerInstance? id = some i) : (m.deploymentNode? i.parent).isSome := by
  have hhost : m.instanceHost? id = some i.parent := by simp [instanceHost?, hi]
  exact isSome_of_mem_getD (h.instances.mem_iff.2 hhost)

end Model

end C4
