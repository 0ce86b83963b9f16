import C4.Proofs.Contents
import C4.Proofs.Inventory
import C4.Proofs.References

/-!
# Listing

The table of contents of a model names the elements of its inventory, each of them once. Members
of the enterprise are set apart from the other people and software systems, and deployed nodes
are gathered by environment; neither loses an element or names one twice.
-/
namespace C4

open Dsl Forest

namespace Dsl

def Subject.reference? : Subject → Option Reference
  | .element id _ => some (.element id)
  | .relationship id _ => some (.relationship id)
  | _ => none

def referencesIn (entries : List Entry) : List Reference :=
  entries.filterMap (·.subject.reference?)

@[simp] theorem referencesIn_nil : referencesIn [] = [] := rfl

@[simp] theorem referencesIn_append (entries more : List Entry) :
    referencesIn (entries ++ more) = referencesIn entries ++ referencesIn more :=
  List.filterMap_append

@[simp] theorem referencesIn_flatMap {α : Type*} (f : α → List Entry) (l : List α) :
    referencesIn (l.flatMap f) = l.flatMap fun a => referencesIn (f a) := List.filterMap_flatMap

@[simp] theorem referencesIn_element (outer : Option Subject) (id : ElementId) (name : String)
    (rest : List Entry) : referencesIn (⟨outer, .element id name⟩ :: rest) =
      .element id :: referencesIn rest := rfl

theorem referencesIn_flatMap_eq_map {α : Type*} {f : α → List Entry} {g : α → Reference}
    {l : List α} (h : ∀ a ∈ l, referencesIn (f a) = [g a]) :
    referencesIn (l.flatMap f) = l.map g := by
  rw [referencesIn_flatMap, List.map_eq_flatMap, List.flatMap_congr h]

end Dsl

namespace Model

variable {m : Model}

theorem referencesIn_personContents (outer : Subject) {id : PersonId}
    (hid : (m.person? id).isSome) :
    referencesIn (m.personContents outer id) = [.element id] := by
  obtain ⟨p, hp⟩ := Option.isSome_iff_exists.1 hid
  simp [personContents, hp]

theorem referencesIn_componentContents (outer : Subject) {id : ComponentId}
    (hid : (m.component? id).isSome) :
    referencesIn (m.componentContents outer id) = [.element id] := by
  obtain ⟨c, hc⟩ := Option.isSome_iff_exists.1 hid
  simp [componentContents, hc]

theorem referencesIn_containerContents (h : m.skeleton.Sound) (outer : Subject)
    {id : ContainerId} (hid : (m.container? id).isSome) :
    referencesIn (m.containerContents outer id) = (m.containerElements id).map .element := by
  obtain ⟨c, hc⟩ := Option.isSome_iff_exists.1 hid
  have hlisted : m.componentsOf id = c.components := by rw [componentsOf, hc]; rfl
  simp only [containerContents, hc, referencesIn_element, containerElements, List.map_cons,
    List.map_map, hlisted]
  congr 1
  refine referencesIn_flatMap_eq_map fun x hx => referencesIn_componentContents _ ?_
  exact isSome_of_map_eq_some (h.components.mem_iff.1 (hlisted ▸ hx))

theorem referencesIn_softwareSystemContents (h : m.skeleton.Sound) (outer : Subject)
    {id : SoftwareSystemId} (hid : (m.softwareSystem? id).isSome) :
    referencesIn (m.softwareSystemContents outer id) =
      (m.softwareSystemElements id).map .element := by
  obtain ⟨s, hs⟩ := Option.isSome_iff_exists.1 hid
  have hlisted : m.containersOf id = s.containers := by rw [containersOf, hs]; rfl
  simp only [softwareSystemContents, hs, referencesIn_element, softwareSystemElements,
    List.map_cons, List.map_flatMap, hlisted, referencesIn_flatMap]
  congr 1
  refine List.flatMap_congr fun c hc => referencesIn_containerContents h _ ?_
  exact isSome_of_map_eq_some (h.containers.mem_iff.1 (hlisted ▸ hc))

theorem referencesIn_infrastructureNodeContents (outer : Subject) {id : InfrastructureNodeId}
    (hid : (m.infrastructureNode? id).isSome) :
    referencesIn (m.infrastructureNodeContents outer id) = [.element id] := by
  obtain ⟨n, hn⟩ := Option.isSome_iff_exists.1 hid
  simp [infrastructureNodeContents, hn]

theorem referencesIn_containerInstanceContents (outer : Subject) {id : ContainerInstanceId}
    (hid : (m.containerInstance? id).isSome) :
    referencesIn (m.containerInstanceContents outer id) = [.element id] := by
  obtain ⟨i, hi⟩ := Option.isSome_iff_exists.1 hid
  have hchecks (subject : Subject) : referencesIn (i.healthChecks.flatMap fun check =>
      [⟨some subject, .healthCheck check.name⟩]) = [] := by
    rw [referencesIn_flatMap]
    exact List.flatMap_eq_nil_iff.2 fun _ _ => rfl
  simp only [containerInstanceContents, hi, referencesIn_element, hchecks]

theorem referencesIn_nodeEntries (h : m.skeleton.Sound) (outer subject : Subject)
    {id : DeploymentNodeId} {n : DeploymentNode} (hn : m.deploymentNode? id = some n)
    (children : List Entry) :
    referencesIn (⟨some outer, .element id n.name⟩ ::
      (children ++ n.infrastructureNodes.flatMap (m.infrastructureNodeContents subject) ++
        n.containerInstances.flatMap (m.containerInstanceContents subject))) =
      .element id :: (referencesIn children ++
        ((m.infrastructureOf id).map .infrastructureNode ++
          (m.instancesOf id).map .containerInstance : List ElementId).map .element) := by
  have hinfrastructure : m.infrastructureOf id = n.infrastructureNodes := by
    rw [infrastructureOf, hn]; rfl
  have hinstances : m.instancesOf id = n.containerInstances := by rw [instancesOf, hn]; rfl
  rw [referencesIn_element, referencesIn_append, referencesIn_append, List.append_assoc,
    List.map_append, List.map_map, List.map_map, hinfrastructure, hinstances]
  congr 3
  · refine referencesIn_flatMap_eq_map fun i hi => referencesIn_infrastructureNodeContents _ ?_
    exact infrastructureNode_isSome h (hinfrastructure ▸ hi)
  · refine referencesIn_flatMap_eq_map fun i hi => referencesIn_containerInstanceContents _ ?_
    exact containerInstance_isSome h (hinstances ▸ hi)

theorem referencesIn_nodeContents_zero (h : m.skeleton.Sound) (outer : Subject)
    {id : DeploymentNodeId} (hid : (m.deploymentNode? id).isSome) :
    referencesIn (m.nodeContents 0 outer id) = (m.nodeElements id).map .element := by
  obtain ⟨n, hn⟩ := Option.isSome_iff_exists.1 hid
  unfold nodeContents
  simp only [hn]
  exact referencesIn_nodeEntries h outer _ hn []

theorem referencesIn_nodeContents_congr (depth : ℕ) (outer outer' : Subject)
    (id : DeploymentNodeId) : referencesIn (m.nodeContents depth outer id) =
      referencesIn (m.nodeContents depth outer' id) := by
  cases depth with
  | zero =>
    unfold nodeContents
    cases m.deploymentNode? id <;> rfl
  | succ depth =>
    unfold nodeContents
    cases m.deploymentNode? id <;> rfl

theorem referencesIn_nodeContents_succ (h : m.skeleton.Sound) (depth : ℕ) (outer : Subject)
    {id : DeploymentNodeId} (hid : (m.deploymentNode? id).isSome) :
    (referencesIn (m.nodeContents (depth + 1) outer id)).Perm ((m.nodeElements id).map .element ++
      (m.childrenOf id).flatMap fun c => referencesIn (m.nodeContents depth outer c)) := by
  obtain ⟨n, hn⟩ := Option.isSome_iff_exists.1 hid
  have hchildren : m.childrenOf id = n.children := by simp [childrenOf, hn]
  have hbelow : ((m.childrenOf id).flatMap fun c => referencesIn (m.nodeContents depth outer c)) =
      referencesIn (n.children.flatMap (m.nodeContents depth (.element id n.name))) := by
    rw [hchildren, referencesIn_flatMap]
    exact List.flatMap_congr fun c _ => referencesIn_nodeContents_congr ..
  rw [hbelow]
  unfold nodeContents
  simp only [hn]
  rw [referencesIn_nodeEntries h outer _ hn, nodeElements, List.map_cons]
  exact List.perm_append_comm.cons _

theorem referencesIn_environmentContents_perm (h : m.skeleton.Sound) :
    (referencesIn ((environmentGroups m).flatMap m.environmentContents)).Perm
      (m.deployedNodes.flatMap fun id => (m.nodeElements id).map .element) := by
  have hgroups : referencesIn ((environmentGroups m).flatMap m.environmentContents) =
      (environmentGroups m).flatMap fun g => g.2.flatMap fun id =>
        referencesIn (m.nodeContents m.deploymentNodes.size .model id) := by
    rw [referencesIn_flatMap]
    refine List.flatMap_congr fun g _ => ?_
    have hown : referencesIn (m.environmentContents g) = referencesIn (g.2.flatMap
        (m.nodeContents m.deploymentNodes.size (.environment g.1.name))) := rfl
    rw [hown, referencesIn_flatMap]
    exact List.flatMap_congr fun id _ => referencesIn_nodeContents_congr ..
  rw [hgroups]
  refine environments_perm_deployedNodes h
    (fun depth id => referencesIn (m.nodeContents depth .model id)) (fun id hid => ?_)
    fun depth id hid => ?_
  · exact .of_eq (referencesIn_nodeContents_zero h _ hid)
  · exact referencesIn_nodeContents_succ h depth _ hid

theorem isOutside_eq (m : Model) (id : ElementId) : m.isOutside id = decide (id ∉ m.members) := by
  unfold isOutside members
  cases m.enterprise with
  | none => simp
  | some e => simp [Enterprise.isMember]

/-- Whatever comes from those outside and from the members of some kind comes from all of that
kind, provided that the members of the kind exist and that other members contribute nothing. -/
theorem outside_append_members_perm {κ β : Type*} {make : κ → ElementId}
    (hmake : Function.Injective make) {ids : List κ} (hids : ids.Nodup)
    (hmembers : m.members.Nodup) (own : κ → List β) (part : ElementId → List β)
    (hpart : ∀ k ∈ ids, part (make k) = own k)
    (hother : ∀ id ∈ m.members, (∃ k ∈ ids, make k = id) ∨ part id = []) :
    ((ids.filter fun k => m.isOutside (make k)).flatMap own ++ m.members.flatMap part).Perm
      (ids.flatMap own) := by
  let inside := ids.filter fun k => !m.isOutside (make k)
  have hinside {k : κ} : k ∈ inside ↔ k ∈ ids ∧ make k ∈ m.members := by
    simp [inside, isOutside_eq]
  -- Of the members, those of this kind are the insiders in another order.
  have hsame : (m.members.filter fun id => id ∈ inside.map make).Perm (inside.map make) := by
    refine (List.perm_ext_iff_of_nodup (hmembers.filter _) ((hids.filter _).map hmake)).2
      fun id => ?_
    rw [List.mem_filter, decide_eq_true_iff, and_iff_right_iff_imp]
    intro hid
    obtain ⟨k, hk, rfl⟩ := List.mem_map.1 hid
    exact (hinside.1 hk).2
  have hrest : (m.members.filter fun id => !decide (id ∈ inside.map make)).flatMap part = [] := by
    refine List.flatMap_eq_nil_iff.2 fun id hid => ?_
    obtain ⟨hid, hout⟩ := List.mem_filter.1 hid
    rcases hother id hid with ⟨k, hk, rfl⟩ | hnone
    · have hmem : make k ∈ inside.map make := List.mem_map_of_mem (hinside.2 ⟨hk, hid⟩)
      simp [hmem] at hout
    · exact hnone
  have hinsiders : (m.members.flatMap part).Perm (inside.flatMap own) := by
    have hsplit := (List.filter_append_perm (fun id => decide (id ∈ inside.map make))
      m.members).symm.flatMap_right part
    rw [List.flatMap_append, hrest, List.append_nil] at hsplit
    refine hsplit.trans ((hsame.flatMap_right part).trans (.of_eq ?_))
    rw [List.flatMap_map]
    exact List.flatMap_congr fun k hk => hpart k (hinside.1 hk).1
  refine (hinsiders.append_left _).trans ?_
  rw [← List.flatMap_append]
  exact (List.filter_append_perm _ ids).flatMap_right own

def personPart : ElementId → List Reference
  | .person id => [.element id]
  | _ => []

def systemPart (m : Model) : ElementId → List Reference
  | .softwareSystem id => (m.softwareSystemElements id).map .element
  | _ => []

theorem person_isSome_of_member (hmembers : ∀ r ∈ m.memberReferences, m.exists? r = true)
    {id : PersonId} (hid : .person id ∈ m.members) : (m.person? id).isSome :=
  hmembers (.element id) (List.mem_append_left _
    (List.mem_flatMap.2 ⟨.person id, hid, List.mem_singleton_self _⟩))

theorem system_isSome_of_member (hmembers : ∀ r ∈ m.memberReferences, m.exists? r = true)
    {id : SoftwareSystemId} (hid : .softwareSystem id ∈ m.members) :
    (m.softwareSystem? id).isSome :=
  hmembers (.element id) (List.mem_append_right _
    (List.mem_flatMap.2 ⟨.softwareSystem id, hid, List.mem_singleton_self _⟩))

theorem referencesIn_enterprise (h : m.skeleton.Sound)
    (hmembers : ∀ r ∈ m.memberReferences, m.exists? r = true) :
    referencesIn (m.enterprise.elim [] m.enterpriseContents) =
      m.members.flatMap personPart ++ m.members.flatMap m.systemPart := by
  cases he : m.enterprise with
  | none =>
    have hnone : m.members = [] := by rw [members, he]; rfl
    rw [hnone]
    rfl
  | some e =>
    have hsame : m.members = e.members := by rw [members, he]; rfl
    have hheader (rest : List Entry) :
        referencesIn (⟨some .model, .enterprise e.name⟩ :: rest) = referencesIn rest := rfl
    change referencesIn (m.enterpriseContents e) = _
    rw [enterpriseContents, hheader, referencesIn_append, referencesIn_flatMap,
      referencesIn_flatMap, hsame]
    congr 1
    · refine List.flatMap_congr fun id hid => ?_
      cases id with
      | person id =>
        exact referencesIn_personContents _ (person_isSome_of_member hmembers (hsame ▸ hid))
      | _ => rfl
    · refine List.flatMap_congr fun id hid => ?_
      cases id with
      | softwareSystem id =>
        exact referencesIn_softwareSystemContents h _
          (system_isSome_of_member hmembers (hsame ▸ hid))
      | _ => rfl

theorem referencesIn_elementContents_perm (h : m.skeleton.Sound)
    (hmembers : ∀ r ∈ m.memberReferences, m.exists? r = true) :
    (referencesIn m.elementContents).Perm (m.elements.map .element) := by
  have hpeople := outside_append_members_perm (fun a b hab => ElementId.person.inj hab)
    m.personIds_nodup h.members_nodup (fun (id : PersonId) => [Reference.element id])
    personPart (fun _ _ => rfl) fun id hid => by
      cases id with
      | person id =>
        exact Or.inl ⟨id, mem_personIds.2 (person_isSome_of_member hmembers hid), rfl⟩
      | _ => exact Or.inr rfl
  have hsystems := outside_append_members_perm (fun a b hab => ElementId.softwareSystem.inj hab)
    m.softwareSystemIds_nodup h.members_nodup
    (fun id => (m.softwareSystemElements id).map Reference.element) m.systemPart
    (fun _ _ => rfl) fun id hid => by
      cases id with
      | softwareSystem id =>
        exact Or.inl ⟨id, mem_softwareSystemIds.2 (system_isSome_of_member hmembers hid), rfl⟩
      | _ => exact Or.inr rfl
  have houtsidePeople : referencesIn ((m.personIds.filter fun id =>
      m.isOutside (.person id)).flatMap (m.personContents .model)) =
        (m.personIds.filter fun id => m.isOutside (.person id)).flatMap
          fun (id : PersonId) => [Reference.element id] := by
    rw [referencesIn_flatMap]
    exact List.flatMap_congr fun id hid =>
      referencesIn_personContents _ (mem_personIds.1 (List.mem_of_mem_filter hid))
  have houtsideSystems : referencesIn ((m.softwareSystemIds.filter fun id =>
      m.isOutside (.softwareSystem id)).flatMap (m.softwareSystemContents .model)) =
        (m.softwareSystemIds.filter fun id => m.isOutside (.softwareSystem id)).flatMap
          fun id => (m.softwareSystemElements id).map Reference.element := by
    rw [referencesIn_flatMap]
    exact List.flatMap_congr fun id hid => referencesIn_softwareSystemContents h _
      (mem_softwareSystemIds.1 (List.mem_of_mem_filter hid))
  rw [elementContents, referencesIn_append, referencesIn_append, referencesIn_append,
    houtsidePeople, houtsideSystems, referencesIn_enterprise h hmembers, elements,
    List.map_append, List.map_append, List.map_map, List.map_flatMap, List.map_flatMap,
    List.map_eq_flatMap]
  refine List.Perm.append ?_ (referencesIn_environmentContents_perm h)
  refine .trans ?_ (hpeople.append hsystems)
  rw [List.append_assoc, List.append_assoc]
  exact (List.perm_append_comm_assoc ..).append_left _

end Model

end C4
