import C4.Proofs.Changes

/-!
# Ownership

What a history leaves behind: every entity that has an owner stands in the owner's list and
nowhere else, every deployment node has one place in the forest, and the way up from a node ends.
The last of these has an exception. A node can be created as its own child, and then it is the
only reason why a way up does not end.
-/
namespace C4

open Forest Skeleton

/-- Of some lists together a child occurs once, namely in the list that is its owner's. -/
structure Once {κ : Type*} [DecidableEq κ] (c : κ) (lists : List (List κ))
    (own : Option (List κ)) : Prop where
  count : lists.flatten.count c = 1
  mem : ∃ list, own = some list ∧ c ∈ list

section Once

variable {ι κ α : Type*} [DecidableEq ι] [DecidableEq κ]

omit [DecidableEq κ] in
theorem flatten_map_eq_flatMap (entities : Array α) (list : α → List κ) :
    (entities.toList.map list).flatten =
      (List.range entities.size).flatMap fun i => ((entities[i]?).map list).getD [] := by
  have h : entities.toList.map list =
      (List.range entities.size).map fun i => ((entities[i]?).map list).getD [] := by
    refine List.ext_getElem (by simp) fun i hi _ => ?_
    have hsize : i < entities.size := by simpa using hi
    simp [hsize]
  rw [h, List.flatMap]

theorem Once.of_mirrors {entities : Array α} {list : α → List κ} (make : ℕ → ι) {place : ι → ℕ}
    {owner : κ → Option ι} (hmake : ∀ p, make (place p) = p) (hplace : ∀ i, place (make i) = i)
    (h : Mirrors (fun p => ((entities[place p]?).map list).getD []) owner) {p : ι} {c : κ}
    (hc : owner c = some p) :
    Once c (entities.toList.map list) ((entities[place p]?).map list) := by
  have hmem : c ∈ ((entities[place p]?).map list).getD [] := h.mem_iff.2 hc
  have hp : place p < entities.size := by
    by_contra hle
    rw [Array.getElem?_eq_none (Nat.le_of_not_lt hle)] at hmem
    cases hmem
  constructor
  · have hids : ((List.range entities.size).map make).count p = 1 := by
      refine List.count_eq_one_of_mem (List.nodup_range.map fun i j hij => ?_) ?_
      · simpa [hplace] using congrArg place hij
      · exact List.mem_map.2 ⟨place p, List.mem_range.2 hp, hmake p⟩
    have hcount := h.count_flatMap ((List.range entities.size).map make) c
    rw [hc, Option.map_some, Option.getD_some, hids] at hcount
    rw [flatten_map_eq_flatMap, ← hcount, List.flatMap_map]
    simp only [hplace]
  · rw [Array.getElem?_eq_getElem hp] at hmem ⊢
    exact ⟨_, rfl, hmem⟩

end Once

inductive Place
  | under (parent : DeploymentNodeId)
  | root
  | nowhere

namespace Model

def everyChild (m : Model) : List DeploymentNodeId :=
  (m.deploymentNodes.toList.map (·.children)).flatten

def StandsAt (m : Model) (id : DeploymentNodeId) : Place → Prop
  | .under p => m.parentOf? id = some p ∧ m.everyChild.count id = 1 ∧
      (m.childrenOf p).count id = 1 ∧ id ∉ m.topLevel
  | .root => m.parentOf? id = none ∧ id ∉ m.everyChild ∧ m.topLevel.count id = 1
  | .nowhere => m.parentOf? id = none ∧ id ∉ m.everyChild ∧ id ∉ m.topLevel

def Rooted (m : Model) (id : DeploymentNodeId) : Prop := ∃ root, Topmost m.parentOf? id root

structure Ownership (m : Model) : Prop where
  containers : ∀ id c, m.container? id = some c →
    Once id (m.softwareSystems.toList.map (·.containers))
      ((m.softwareSystem? c.softwareSystem).map (·.containers))
  components : ∀ id c, m.component? id = some c →
    Once id (m.containers.toList.map (·.components))
      ((m.container? c.container).map (·.components))
  infrastructure : ∀ id i, m.infrastructureNode? id = some i →
    Once id (m.deploymentNodes.toList.map (·.infrastructureNodes))
      ((m.deploymentNode? i.parent).map (·.infrastructureNodes))
  instances : ∀ id i, m.containerInstance? id = some i →
    Once id (m.deploymentNodes.toList.map (·.containerInstances))
      ((m.deploymentNode? i.parent).map (·.containerInstances))
  places : ∀ id n, m.deploymentNode? id = some n → ∃! place, m.StandsAt id place
  containers_known : ∀ s ∈ m.softwareSystems, ∀ id ∈ s.containers, id.index < m.containers.size
  components_known : ∀ c ∈ m.containers, ∀ id ∈ c.components, id.index < m.components.size
  children_known : ∀ n ∈ m.deploymentNodes, ∀ id ∈ n.children,
    id.index < m.deploymentNodes.size
  infrastructure_known : ∀ n ∈ m.deploymentNodes, ∀ id ∈ n.infrastructureNodes,
    id.index < m.infrastructureNodes.size
  instances_known : ∀ n ∈ m.deploymentNodes, ∀ id ∈ n.containerInstances,
    id.index < m.containerInstances.size
  roots_known : ∀ id ∈ m.topLevel, id.index < m.deploymentNodes.size

variable {m : Model}

theorem containers_once (h : m.skeleton.Sound) {id : ContainerId} {c : Container}
    (hc : m.container? id = some c) :
    Once id (m.softwareSystems.toList.map (·.containers))
      ((m.softwareSystem? c.softwareSystem).map (·.containers)) := by
  have howner : m.systemOf? id = some c.softwareSystem := by simp [systemOf?, hc]
  exact Once.of_mirrors SoftwareSystemId.mk (fun _ => rfl) (fun _ => rfl) h.containers howner

theorem components_once (h : m.skeleton.Sound) {id : ComponentId} {c : Component}
    (hc : m.component? id = some c) :
    Once id (m.containers.toList.map (·.components))
      ((m.container? c.container).map (·.components)) := by
  have howner : m.containerOf? id = some c.container := by simp [containerOf?, hc]
  exact Once.of_mirrors ContainerId.mk (fun _ => rfl) (fun _ => rfl) h.components howner

theorem infrastructure_once (h : m.skeleton.Sound) {id : InfrastructureNodeId}
    {i : InfrastructureNode} (hi : m.infrastructureNode? id = some i) :
    Once id (m.deploymentNodes.toList.map (·.infrastructureNodes))
      ((m.deploymentNode? i.parent).map (·.infrastructureNodes)) := by
  have howner : m.infrastructureHost? id = some i.parent := by simp [infrastructureHost?, hi]
  exact Once.of_mirrors DeploymentNodeId.mk (fun _ => rfl) (fun _ => rfl) h.infrastructure howner

theorem instances_once (h : m.skeleton.Sound) {id : ContainerInstanceId} {i : ContainerInstance}
    (hi : m.containerInstance? id = some i) :
    Once id (m.deploymentNodes.toList.map (·.containerInstances))
      ((m.deploymentNode? i.parent).map (·.containerInstances)) := by
  have howner : m.instanceHost? id = some i.parent := by simp [instanceHost?, hi]
  exact Once.of_mirrors DeploymentNodeId.mk (fun _ => rfl) (fun _ => rfl) h.instances howner

theorem children_mirror (h : m.skeleton.Sound) :
    Mirrors (fun p => ((m.deploymentNodes[p.index]?).map (·.children)).getD []) m.parentOf? := by
  have hchildren : m.childrenOf =
      fun p => ((m.deploymentNodes[p.index]?).map (·.children)).getD [] :=
    funext m.childrenOf_eq
  exact hchildren ▸ h.children

theorem childrenOf_count (h : m.skeleton.Sound) (p id : DeploymentNodeId) :
    (m.childrenOf p).count id = if m.parentOf? id = some p then 1 else 0 := h.children p id

theorem not_mem_everyChild (h : m.skeleton.Sound) {id : DeploymentNodeId}
    (hid : m.parentOf? id = none) : id ∉ m.everyChild := by
  intro hmem
  obtain ⟨list, hlist, hmem⟩ := List.mem_flatten.1 hmem
  obtain ⟨n, hn, rfl⟩ := List.mem_map.1 hlist
  obtain ⟨i, hi, rfl⟩ := List.getElem_of_mem hn
  have hp : m.parentOf? id = some ⟨i⟩ := by
    refine (children_mirror h).mem_iff.1 ?_
    have hsize : i < m.deploymentNodes.size := by simpa using hi
    simpa [hsize] using hmem
  rw [hid] at hp
  cases hp

/-- A node stands where its parent and the list of roots put it. -/
theorem existsUnique_place (h : m.skeleton.Sound) (id : DeploymentNodeId) :
    ∃! place, m.StandsAt id place := by
  cases hid : m.parentOf? id with
  | some p =>
    -- Roots are free, so a node with a parent is no root; the rest is that the records agree.
    have hroot : id ∉ m.topLevel := by
      intro hr
      have hfree : m.parentOf? id = none := (h.roots_free id hr).2
      rw [hid] at hfree
      cases hfree
    have honce : (m.everyChild).count id = 1 :=
      (Once.of_mirrors DeploymentNodeId.mk (fun _ => rfl) (fun _ => rfl) (children_mirror h)
        hid).count
    have hcount : (m.childrenOf p).count id = 1 := by rw [childrenOf_count h, if_pos hid]
    refine ⟨.under p, ⟨hid, honce, hcount, hroot⟩, fun place hplace => ?_⟩
    cases place with
    | under q => exact congrArg _ (Option.some.inj (hplace.1.symm.trans hid))
    | root => exact absurd (hplace.1.symm.trans hid) (by simp)
    | nowhere => exact absurd (hplace.1.symm.trans hid) (by simp)
  | none =>
    have hfree : id ∉ m.everyChild := not_mem_everyChild h hid
    by_cases hr : id ∈ m.topLevel
    · refine ⟨.root, ⟨hid, hfree, List.count_eq_one_of_mem h.roots_nodup hr⟩,
        fun place hplace => ?_⟩
      cases place with
      | under q => exact absurd (hplace.1.symm.trans hid) (by simp)
      | root => rfl
      | nowhere => exact absurd hr hplace.2.2
    · refine ⟨.nowhere, ⟨hid, hfree, hr⟩, fun place hplace => ?_⟩
      cases place with
      | under q => exact absurd (hplace.1.symm.trans hid) (by simp)
      | root =>
        have hcount : m.topLevel.count id = 1 := hplace.2.2
        rw [List.count_eq_zero_of_not_mem hr] at hcount
        cases hcount
      | nowhere => rfl

theorem index_lt_of_mem {ι κ α β : Type*} [DecidableEq ι] [DecidableEq κ] {entities : Array α}
    {list : α → List κ} (make : ℕ → ι) {place : ι → ℕ} {children : Array β} {index : κ → ℕ}
    {parent : β → ι} (hplace : ∀ i, place (make i) = i)
    (h : Mirrors (fun p => ((entities[place p]?).map list).getD [])
      fun c => (children[index c]?).map parent)
    {a : α} (ha : a ∈ entities) {c : κ} (hc : c ∈ list a) : index c < children.size := by
  obtain ⟨i, hi, rfl⟩ := Array.getElem_of_mem ha
  have howner : (children[index c]?).map parent = some (make i) := by
    refine h.mem_iff.1 ?_
    simpa [hplace, hi] using hc
  by_contra hle
  rw [Array.getElem?_eq_none (Nat.le_of_not_lt hle)] at howner
  cases howner

theorem ownership_of_sound (h : m.skeleton.Sound) : m.Ownership where
  containers _ _ := containers_once h
  components _ _ := components_once h
  infrastructure _ _ := infrastructure_once h
  instances _ _ := instances_once h
  places id _ _ := existsUnique_place h id
  containers_known _ hs _ := index_lt_of_mem SoftwareSystemId.mk (fun _ => rfl) h.containers hs
  components_known _ hc _ := index_lt_of_mem ContainerId.mk (fun _ => rfl) h.components hc
  children_known n hn id hid := by
    obtain ⟨i, hi, rfl⟩ := Array.getElem_of_mem hn
    have howner : m.parentOf? id = some ⟨i⟩ := by
      refine (children_mirror h).mem_iff.1 ?_
      simpa [hi] using hid
    exact (h.known _ _ howner).1
  infrastructure_known _ hn _ :=
    index_lt_of_mem DeploymentNodeId.mk (fun _ => rfl) h.infrastructure hn
  instances_known _ hn _ := index_lt_of_mem DeploymentNodeId.mk (fun _ => rfl) h.instances hn
  roots_known id hid := (h.roots_free id hid).1

theorem forall_rooted_iff (h : m.skeleton.Sound) :
    (∀ id, m.Rooted id) ↔ ∀ id, m.parentOf? id ≠ some id :=
  forall_topmost_iff h.settles

end Model

def Model.NamesParents (m : Model) : List Edit → Prop
  | [] => True
  | e :: history => e.NamesParent m ∧ ∀ m' ∈ e.perform m, m'.NamesParents history

instance Model.decidableNamesParents :
    (m : Model) → (history : List Edit) → Decidable (m.NamesParents history)
  | _, [] => inferInstanceAs (Decidable True)
  | m, e :: history =>
    have (m' : Model) : Decidable (m'.NamesParents history) := m'.decidableNamesParents history
    inferInstanceAs (Decidable (e.NamesParent m ∧ ∀ m' ∈ e.perform m, m'.NamesParents history))

theorem Model.loopless_of_namesParents {m m' : Model} {history : List Edit}
    (hloop : m.skeleton.Loopless) (hparents : m.NamesParents history)
    (hm : m.performAll history = some m') : m'.skeleton.Loopless := by
  induction history generalizing m with
  | nil =>
    cases hm
    exact hloop
  | cons e history ih =>
    obtain ⟨m₁, he, hm⟩ := performAll_cons.1 hm
    exact ih (Edit.loopless hloop hparents.1 he) (hparents.2 m₁ he) hm

theorem ownership_of_history {history : List Edit} {m : Model}
    (h : Model.empty.performAll history = some m) :
    m.Ownership ∧ ((∀ id, m.Rooted id) ↔ ∀ id, m.parentOf? id ≠ some id) ∧
      (Model.empty.NamesParents history → ∀ id, m.Rooted id) := by
  have hsound : m.skeleton.Sound := Model.Reachable.sound ⟨history, h⟩
  have hrooted := Model.forall_rooted_iff hsound
  refine ⟨Model.ownership_of_sound hsound, hrooted, fun hparents => hrooted.2 ?_⟩
  exact Model.loopless_of_namesParents Model.loopless_empty hparents h

/-- A node is created inside a root, and the root is then moved into another one. -/
theorem ownership_of_history_of_move :
    ∃ history m, .addChild ⟨1⟩ ⟨0⟩ ∈ history ∧ Model.empty.performAll history = some m ∧
      m.Ownership ∧ ∀ id, m.Rooted id := by
  let history : List Edit := [.addSoftwareSystem "Bank" "", .addContainer ⟨0⟩ "Ledger",
    .addDeploymentNode "Rack" "" "" .production, .addDeploymentNode "Hall" "" "" .production,
    .addChildDeploymentNode ⟨0⟩ "Host" "" "" .production, .addContainerInstance ⟨2⟩ ⟨0⟩,
    .addChild ⟨1⟩ ⟨0⟩]
  obtain ⟨m, hm⟩ := Option.isSome_iff_exists.1
    (by decide : (Model.empty.performAll history).isSome)
  obtain ⟨hownership, -, hrooted⟩ := ownership_of_history hm
  exact ⟨history, m, by decide, hm, hownership, hrooted (by decide)⟩

/-- The first node of a model can be created under the handle that it is given itself. Following
the parents from it never ends. -/
theorem not_rooted_of_own_child :
    ∃ m, Model.empty.performAll [.addChildDeploymentNode ⟨0⟩ "Host" "" "" .production] = some m ∧
      ¬ m.Rooted ⟨0⟩ := by
  obtain ⟨m, hm, hloop⟩ := Option.bind_eq_some_iff.1 (by decide : (Model.empty.performAll
    [.addChildDeploymentNode ⟨0⟩ "Host" "" "" .production]).bind (·.parentOf? ⟨0⟩) = some ⟨0⟩)
  refine ⟨m, hm, ?_⟩
  rintro ⟨root, hup, htop⟩
  rw [climbs_of_self_parent hloop hup, hloop] at htop
  cases htop

end C4
