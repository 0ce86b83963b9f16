import C4.Proofs.Deployed

/-!
# Inventory

The elements of a model, owner by owner. An element has one owner of each rank, so it is in the
inventory once: with its software system, with its deployment node, or on its own. What runs on a
node is in the inventory only if the node is deployed.
-/
namespace C4

open Forest

namespace Model

variable {m : Model}

def containerElements (m : Model) (id : ContainerId) : List ElementId :=
  .container id :: (m.componentsOf id).map .component

def softwareSystemElements (m : Model) (id : SoftwareSystemId) : List ElementId :=
  .softwareSystem id :: (m.containersOf id).flatMap m.containerElements

def nodeElements (m : Model) (id : DeploymentNodeId) : List ElementId :=
  .deploymentNode id ::
    ((m.infrastructureOf id).map .infrastructureNode ++ (m.instancesOf id).map .containerInstance)

def containerAround? (m : Model) : ElementId → Option ContainerId
  | .container id => some id
  | .component id => m.containerOf? id
  | _ => none

def systemAround? (m : Model) : ElementId → Option SoftwareSystemId
  | .softwareSystem id => some id
  | id => (m.containerAround? id).bind m.systemOf?

def nodeAround? (m : Model) : ElementId → Option DeploymentNodeId
  | .deploymentNode id => some id
  | .infrastructureNode id => m.infrastructureHost? id
  | .containerInstance id => m.instanceHost? id
  | _ => none

theorem count_owner {ι : Type} [DecidableEq ι] {make : ι → ElementId}
    (hmake : Function.Injective make) {p q : ι} {rest : List ElementId}
    (hrest : rest.count (make q) = 0) :
    (make p :: rest).count (make q) = if some q = some p then 1 else 0 := by
  rw [List.count_cons, hrest, Nat.zero_add]
  by_cases hqp : q = p
  · simp [hqp]
  · have hne : make p ≠ make q := fun heq => hqp (hmake heq).symm
    simp [hqp, hne]

theorem mirrors_containerElements (h : m.skeleton.Sound) :
    Mirrors m.containerElements m.containerAround? := by
  intro c id
  have hcount := h.components c
  cases id with
  | container id =>
    exact count_owner (fun _ _ hab => ElementId.container.inj hab)
      (by simp [List.count_eq_zero])
  | component id =>
    rw [containerElements, List.count_cons_of_ne (by simp), List.count_map_of_injective _ _
      fun _ _ hab => ElementId.component.inj hab]
    exact hcount id
  | _ => simp [containerElements, containerAround?, List.count_eq_zero]

theorem mirrors_softwareSystemElements (h : m.skeleton.Sound) :
    Mirrors m.softwareSystemElements m.systemAround? := by
  intro s id
  have hcontainers : ((m.containersOf s).flatMap m.containerElements).count id =
      if (m.containerAround? id).bind m.systemOf? = some s then 1 else 0 := by
    rw [(mirrors_containerElements h).count_flatMap]
    cases m.containerAround? id with
    | none => rfl
    | some c => exact h.containers s c
  cases id with
  | softwareSystem id =>
    have hnone : m.containerAround? (.softwareSystem id) = none := rfl
    rw [hnone, Option.bind_none, if_neg (by simp)] at hcontainers
    exact count_owner (fun _ _ hab => ElementId.softwareSystem.inj hab) hcontainers
  | _ =>
    rw [softwareSystemElements, List.count_cons_of_ne (by simp)]
    exact hcontainers

theorem mirrors_nodeElements (h : m.skeleton.Sound) :
    Mirrors m.nodeElements m.nodeAround? := by
  intro n id
  cases id with
  | deploymentNode id =>
    exact count_owner (fun _ _ hab => ElementId.deploymentNode.inj hab)
      (by simp [List.count_eq_zero])
  | infrastructureNode id =>
    have hinj : Function.Injective ElementId.infrastructureNode :=
      fun _ _ hab => ElementId.infrastructureNode.inj hab
    have hrest : ((m.instancesOf n).map ElementId.containerInstance).count
        (.infrastructureNode id) = 0 := by simp [List.count_eq_zero]
    rw [nodeElements, List.count_cons_of_ne (by simp), List.count_append,
      List.count_map_of_injective _ _ hinj, hrest, Nat.add_zero]
    exact h.infrastructure n id
  | containerInstance id =>
    have hinj : Function.Injective ElementId.containerInstance :=
      fun _ _ hab => ElementId.containerInstance.inj hab
    have hrest : ((m.infrastructureOf n).map ElementId.infrastructureNode).count
        (.containerInstance id) = 0 := by simp [List.count_eq_zero]
    rw [nodeElements, List.count_cons_of_ne (by simp), List.count_append,
      List.count_map_of_injective _ _ hinj, hrest, Nat.zero_add]
    exact h.instances n id
  | _ => simp [nodeElements, nodeAround?, List.count_eq_zero]

def elements (m : Model) : List ElementId :=
  m.personIds.map .person ++ m.softwareSystemIds.flatMap m.softwareSystemElements ++
    m.deployedNodes.flatMap m.nodeElements

/-- Whether an element has its place in a document: what runs somewhere only when the node that
it runs on is deployed. -/
def Listed (m : Model) : ElementId → Prop
  | .person id => (m.person? id).isSome
  | .softwareSystem id => (m.softwareSystem? id).isSome
  | .container id => (m.container? id).isSome
  | .component id => (m.component? id).isSome
  | .deploymentNode id => m.Deployed id
  | .infrastructureNode id => ∃ n, m.infrastructureHost? id = some n ∧ m.Deployed n
  | .containerInstance id => ∃ n, m.instanceHost? id = some n ∧ m.Deployed n

theorem personIds_nodup (m : Model) : m.personIds.Nodup :=
  List.nodup_range.map fun a b hab => by cases hab; rfl

theorem softwareSystemIds_nodup (m : Model) : m.softwareSystemIds.Nodup :=
  List.nodup_range.map fun a b hab => by cases hab; rfl

theorem mem_elements_iff_around (h : m.skeleton.Sound) {id : ElementId} :
    id ∈ m.elements ↔ (∃ p ∈ m.personIds, ElementId.person p = id) ∨
      (∃ s ∈ m.softwareSystemIds, m.systemAround? id = some s) ∨
      ∃ n, m.Deployed n ∧ m.nodeAround? id = some n := by
  rw [elements, List.append_assoc, List.mem_append, List.mem_append, List.mem_map,
    List.mem_flatMap, List.mem_flatMap]
  simp only [(mirrors_softwareSystemElements h).mem_iff, (mirrors_nodeElements h).mem_iff,
    mem_deployedNodes h]

theorem mem_elements (h : m.skeleton.Sound) {id : ElementId} : id ∈ m.elements ↔ m.Listed id := by
  rw [mem_elements_iff_around h]
  cases id with
  | person id => simp [Listed, mem_personIds, systemAround?, containerAround?, nodeAround?]
  | softwareSystem id => simp [Listed, mem_softwareSystemIds, systemAround?, nodeAround?]
  | container id =>
    have haround : m.systemAround? (.container id) = m.systemOf? id := rfl
    have hlisted : m.Listed (.container id) ↔ (m.systemOf? id).isSome := by
      rw [systemOf?, Option.isSome_map]
      rfl
    rw [hlisted, haround, Option.isSome_iff_exists]
    constructor
    · rintro (⟨p, -, hp⟩ | ⟨s, -, hs⟩ | ⟨n, -, hn⟩)
      · cases hp
      · exact ⟨s, hs⟩
      · cases hn
    · rintro ⟨s, hs⟩
      exact Or.inr (Or.inl ⟨s, mem_softwareSystemIds.2 (system_isSome h hs), hs⟩)
  | component id =>
    have haround : m.systemAround? (.component id) = (m.containerOf? id).bind m.systemOf? := rfl
    have hlisted : m.Listed (.component id) ↔ (m.containerOf? id).isSome := by
      rw [containerOf?, Option.isSome_map]
      rfl
    rw [hlisted, haround, Option.isSome_iff_exists]
    constructor
    · rintro (⟨p, -, hp⟩ | ⟨s, -, hs⟩ | ⟨n, -, hn⟩)
      · cases hp
      · obtain ⟨c, hc, -⟩ := Option.bind_eq_some_iff.1 hs
        exact ⟨c, hc⟩
      · cases hn
    · rintro ⟨c, hc⟩
      obtain ⟨s, hs⟩ : ∃ s, m.systemOf? c = some s := by
        rw [← Option.isSome_iff_exists, systemOf?, Option.isSome_map]
        exact container_isSome_of_component h hc
      exact Or.inr (Or.inl ⟨s, mem_softwareSystemIds.2 (system_isSome h hs), by rw [hc]; exact hs⟩)
  | deploymentNode id =>
    simp [Listed, systemAround?, containerAround?, nodeAround?]
  | infrastructureNode id =>
    simp [Listed, systemAround?, containerAround?, nodeAround?, and_comm]
  | containerInstance id =>
    simp [Listed, systemAround?, containerAround?, nodeAround?, and_comm]

theorem not_around_both {id : ElementId} {s : SoftwareSystemId} {n : DeploymentNodeId}
    (hs : m.systemAround? id = some s) : m.nodeAround? id ≠ some n := by
  intro hn
  cases id with
  | person | softwareSystem | container | component => cases hn
  | deploymentNode | infrastructureNode | containerInstance => cases hs

theorem elements_nodup (h : m.skeleton.Sound) : m.elements.Nodup := by
  have hinj : Function.Injective ElementId.person := fun _ _ hab => ElementId.person.inj hab
  have hsystems := mirrors_softwareSystemElements h
  have hnodes := mirrors_nodeElements h
  -- Lists of different owners share nothing, and no element has owners of two kinds.
  refine List.nodup_append.2 ⟨List.nodup_append.2 ⟨m.personIds_nodup.map hinj,
    hsystems.nodup_flatMap m.softwareSystemIds_nodup, ?_⟩,
    hnodes.nodup_flatMap (deployedNodes_nodup h), ?_⟩
  · rintro _ hp id hid rfl
    obtain ⟨p, -, rfl⟩ := List.mem_map.1 hp
    obtain ⟨s, -, hs⟩ := List.mem_flatMap.1 hid
    cases hsystems.mem_iff.1 hs
  · rintro _ hleft id hid rfl
    obtain ⟨n, -, hn⟩ := List.mem_flatMap.1 hid
    rcases List.mem_append.1 hleft with hp | hs
    · obtain ⟨p, -, rfl⟩ := List.mem_map.1 hp
      cases hnodes.mem_iff.1 hn
    · obtain ⟨s, -, hs⟩ := List.mem_flatMap.1 hs
      exact not_around_both (hsystems.mem_iff.1 hs) (hnodes.mem_iff.1 hn)

end Model

end C4
