import C4.Proofs.Descent
import C4.Proofs.Environments
import C4.Proofs.Lookups

/-!
# Deployed nodes

A deployment node is deployed when the way up from it ends at a root. Going down from the roots,
as deep as there are nodes, comes across every deployed node once.
-/
namespace C4

open Dsl Forest

namespace Model

variable {m : Model}

def Deployed (m : Model) (id : DeploymentNodeId) : Prop :=
  ∃ r ∈ m.topLevel, Topmost m.parentOf? id r

def deployedNodes (m : Model) : List DeploymentNodeId :=
  m.topLevel.flatMap (descend m.childrenOf m.deploymentNodes.size)

theorem deployedNodes_perm (m : Model) : m.deployedNodes.Perm
    (generations m.childrenOf m.topLevel m.deploymentNodes.size) :=
  flatMap_descend_perm ..

theorem length_le_of_way_to (h : m.skeleton.Sound) {r n : DeploymentNodeId}
    (hr : r.index < m.deploymentNodes.size) {path : List DeploymentNodeId}
    (hway : Way m.parentOf? r path n) (hnodup : path.Nodup) :
    path.length ≤ m.deploymentNodes.size := by
  have hknown : ∀ a ∈ path, a.index < m.deploymentNodes.size := by
    refine hway.forall_mem ?_ fun a p ha => ?_
    · exact hr
    · exact (h.known a p ha).1
  exact length_le_of_nodup hnodup DeploymentNodeId.index_injective hknown

/-- No way up to a root is longer than there are nodes. -/
theorem length_le_of_way (h : m.skeleton.Sound) {r id : DeploymentNodeId} (hr : r ∈ m.topLevel)
    {path : List DeploymentNodeId} (hway : Way m.parentOf? r path id) :
    path.length ≤ m.deploymentNodes.size := by
  obtain ⟨hknown, hfree⟩ := h.roots_free r hr
  exact length_le_of_way_to h hknown hway (hway.nodup hfree)

theorem count_deployedNodes (h : m.skeleton.Sound) {id : DeploymentNodeId}
    (hid : m.Deployed id) : m.deployedNodes.count id = 1 := by
  obtain ⟨r, hr, htop⟩ := hid
  obtain ⟨path, hway, -⟩ := exists_way_of_climbs htop.1
  rw [m.deployedNodes_perm.count_eq]
  exact count_generations_of_way h.children h.roots_nodup (fun r hr => (h.roots_free r hr).2) hr
    hway (Nat.le_succ_of_le (length_le_of_way h hr hway))

theorem mem_deployedNodes (h : m.skeleton.Sound) {id : DeploymentNodeId} :
    id ∈ m.deployedNodes ↔ m.Deployed id := by
  constructor
  · intro hid
    exact topmost_of_mem_generations h.children (fun r hr => (h.roots_free r hr).2)
      (m.deployedNodes_perm.mem_iff.1 hid)
  · intro hid
    rw [← List.count_pos_iff, count_deployedNodes h hid]
    exact Nat.one_pos

theorem deployedNodes_nodup (h : m.skeleton.Sound) : m.deployedNodes.Nodup :=
  List.nodup_iff_count_eq_one.2 fun _ hid => count_deployedNodes h ((mem_deployedNodes h).1 hid)

theorem environments_perm_deployedNodes (h : m.skeleton.Sound) {β : Type*}
    (collect : ℕ → DeploymentNodeId → List β) {own : DeploymentNodeId → List β}
    (hzero : ∀ id, (m.deploymentNode? id).isSome → (collect 0 id).Perm (own id))
    (hsucc : ∀ depth id, (m.deploymentNode? id).isSome →
      (collect (depth + 1) id).Perm (own id ++ (m.childrenOf id).flatMap (collect depth))) :
    ((environmentGroups m).flatMap fun g => g.2.flatMap (collect m.deploymentNodes.size)).Perm
      (m.deployedNodes.flatMap own) := by
  have hroots := environmentGroups_perm fun id hid => root_isSome h hid
  have hperm := hroots.flatMap fun id hid =>
    flatMap_perm_of_succ (fun _ _ _ hc => child_isSome h hc) hzero hsucc m.deploymentNodes.size
      (root_isSome h (hroots.mem_iff.1 hid))
  rw [List.flatMap_assoc] at hperm
  rwa [deployedNodes, List.flatMap_assoc]

end Model

end C4
