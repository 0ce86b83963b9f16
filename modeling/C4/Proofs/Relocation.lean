import C4.Proofs.Ownership
import C4.Proofs.Subtrees

/-!
# Moving a subtree

What a move under a new parent does. It is refused when the new parent is the node itself or below
it, and then nothing has changed. Otherwise the node leaves the place that it had and becomes the
last child of its new parent, with all that is below it. Nothing else changes but the environments
in the subtree, and these only if the new parent is pinned. A move can also fail to end, namely
under a parent the way up from which does not end.
-/
namespace C4

open Forest Skeleton

namespace Skeleton

variable {k : Skeleton} {n : DeploymentNodeId}

theorem Sound.detach_children (h : k.Sound) (n q : DeploymentNodeId) :
    (k.detach n).children q = (k.children q).filter (· ≠ n) := by
  have hkeep (hq : k.parent n ≠ some q) : (k.children q).filter (· ≠ n) = k.children q := by
    refine List.filter_eq_self.2 fun c hc => ?_
    have hcn : c ≠ n := by
      rintro rfl
      exact hq (h.children.mem_iff.1 hc)
    simpa using hcn
  unfold Skeleton.detach
  split
  · next hn => exact (hkeep (by simp [hn])).symm
  · next p hp =>
    by_cases hqp : q = p
    · subst hqp
      exact Function.update_self ..
    · have hother : k.parent n ≠ some q := by
        rw [hp]
        exact fun he => hqp (Option.some.inj he).symm
      rw [hkeep hother]
      exact Function.update_of_ne hqp ..

theorem Sound.detach_roots (h : k.Sound) (n : DeploymentNodeId) :
    (k.detach n).roots = k.roots.filter (· ≠ n) := by
  unfold Skeleton.detach
  split
  · rfl
  · next p hp =>
    refine (List.filter_eq_self.2 fun r hr => ?_).symm
    have hrn : r ≠ n := by
      rintro rfl
      rw [(h.roots_free r hr).2] at hp
      cases hp
    simpa using hrn

end Skeleton

/-- What a move leaves as it is in every node. -/
def DeploymentNode.settled (n : DeploymentNode) : DeploymentNode :=
  { n with parent := none, children := [], environment := .production, pinned := false }

namespace Model

variable {m m' moved : Model} {p c : DeploymentNodeId}

/-- The model after `c` has been moved under `p`. -/
structure Relocated (m : Model) (p c : DeploymentNodeId) (host : DeploymentNode) (m' : Model) :
    Prop where
  parent : m'.parentOf? c = some p
  last : m'.childrenOf p = (m.childrenOf p).filter (· ≠ c) ++ [c]
  lists : ∀ n, n ≠ p → m'.childrenOf n = (m.childrenOf n).filter (· ≠ c)
  roots : m'.topLevel = m.topLevel.filter (· ≠ c)
  parents : ∀ n, n ≠ c → m'.parentOf? n = m.parentOf? n
  below : ∀ n, Climbs m'.parentOf? n c ↔ Climbs m.parentOf? n c
  subtree : m.parentOf? c ≠ some c →
    ∀ n, Climbs m.parentOf? n c → m'.childrenOf n = m.childrenOf n
  /-- Of each node the environment, and whether it is pinned. -/
  environments : ∀ n, m'.environmentOf? n =
    if host.pinned = true ∧ Climbs m.parentOf? n c then some (host.environment, true)
    else m.environmentOf? n
  attributes : ∀ n,
    (m'.deploymentNode? n).map DeploymentNode.settled =
      (m.deploymentNode? n).map DeploymentNode.settled
  outside : { m' with deploymentNodes := m.deploymentNodes, topLevel := m.topLevel } = m

structure Rearranged (m m' : Model) : Prop where
  attributes : ∀ n,
    (m'.deploymentNode? n).map DeploymentNode.settled =
      (m.deploymentNode? n).map DeploymentNode.settled
  outside : { m' with deploymentNodes := m.deploymentNodes, topLevel := m.topLevel } = m

theorem Rearranged.trans {m₁ : Model} (h : Rearranged m m₁) (h' : Rearranged m₁ m') :
    Rearranged m m' where
  attributes n := (h'.attributes n).trans (h.attributes n)
  outside := by
    have hout := congrArg (fun k : Model =>
      { k with deploymentNodes := m.deploymentNodes, topLevel := m.topLevel }) h'.outside
    exact hout.trans h.outside

theorem Rearranged.refl (m : Model) : Rearranged m m := ⟨fun _ => rfl, rfl⟩

theorem Rearranged.modify {nodes : Array DeploymentNode}
    (h : Rearranged m { m with deploymentNodes := nodes }) (i : ℕ)
    {f : DeploymentNode → DeploymentNode} (hf : ∀ n, (f n).settled = n.settled) :
    Rearranged m { m with deploymentNodes := nodes.modify i f } where
  attributes n := (map_getElem?_modify hf ..).trans (h.attributes n)
  outside := h.outside

theorem rearranged_detach (m : Model) (c : DeploymentNodeId) : Rearranged m (m.detach c) := by
  unfold detach
  split
  · exact ⟨fun _ => rfl, rfl⟩
  · refine ((Rearranged.refl m).modify _ ?parent).modify _ ?children
    case parent => exact fun _ => rfl
    case children => exact fun _ => rfl

theorem rearranged_attach (h : m.attach p c = .ok m') : Rearranged m m' := by
  unfold attach at h
  split at h
  · cases h
    refine ((Rearranged.refl m).modify _ ?parent).modify _ ?children
    case parent => exact fun _ => rfl
    case children => exact fun _ => rfl
  · cases h

theorem rearranged_pinAll (m : Model) (ids : List DeploymentNodeId) (environment : Environment) :
    Rearranged m (m.pinAll ids environment) := by
  induction ids generalizing m with
  | nil => exact .refl m
  | cons id ids ih =>
    have hpin : Rearranged m { m with
        deploymentNodes := m.deploymentNodes.modify id.index (·.pin environment) } :=
      (Rearranged.refl m).modify id.index fun _ => rfl
    exact hpin.trans (ih _)

theorem rearranged_pinSubtree {root : DeploymentNodeId} {environment : Environment}
    (h : m.pinSubtree root environment = .ok m') : Rearranged m m' := by
  unfold pinSubtree at h
  split at h
  · cases h
  · cases h
    exact rearranged_pinAll ..

theorem rearranged_addChild (h : m.addChild p c = .ok m') : Rearranged m m' := by
  obtain ⟨host, moved, -, -, -, ha, h⟩ := addChild_eq_ok h
  have hmoved : Rearranged m moved := (rearranged_detach m c).trans (rearranged_attach ha)
  split at h
  · exact hmoved.trans (rearranged_pinSubtree h)
  · cases h
    exact hmoved

theorem skeleton_addChild (h : m.addChild p c = .ok m') :
    m'.skeleton = (m.skeleton.detach c).attach p c := by
  obtain ⟨host, moved, -, hc, hmeets, ha, h⟩ := addChild_eq_ok h
  rw [← (change_move hc hmeets ha).1]
  split at h
  · exact skeleton_pinSubtree h
  · cases h
    rfl

theorem relocated_of_addChild (hm : m.skeleton.Sound) {host : DeploymentNode}
    (hp : m.deploymentNode? p = some host) (h : m.addChild p c = .ok m') :
    Relocated m p c host m' := by
  have hskeleton := skeleton_addChild h
  have hchildren (n : DeploymentNodeId) : m'.childrenOf n =
      Function.update (m.skeleton.detach c).children p ((m.skeleton.detach c).children p ++ [c])
        n :=
    congrFun (congrArg Skeleton.children hskeleton) n
  have hparent : m'.parentOf? = Function.update m.parentOf? c (some p) := by
    have hup : m'.parentOf? = Function.update (m.skeleton.detach c).parent c (some p) :=
      congrArg Skeleton.parent hskeleton
    rw [hup, detach_parent, Function.update_idem]
    rfl
  have hlists {n : DeploymentNodeId} (hn : n ≠ p) :
      m'.childrenOf n = (m.childrenOf n).filter (· ≠ c) := by
    rw [hchildren, Function.update_of_ne hn, hm.detach_children]
    rfl
  constructor
  case parent => rw [hparent, Function.update_self]
  case last =>
    rw [hchildren, Function.update_self, hm.detach_children]
    rfl
  case lists => exact fun n hn => hlists hn
  case roots => exact (congrArg Skeleton.roots hskeleton).trans (hm.detach_roots c)
  case parents =>
    intro n hn
    rw [hparent, Function.update_of_ne hn]
  case below =>
    intro n
    rw [hparent]
    exact climbs_update_iff (some p)
  case subtree =>
    intro hself n hn
    -- The new parent is not in the subtree, and neither is the place that the node had.
    have hnp : n ≠ p := by
      rintro rfl
      obtain ⟨_, _, _, _, hmeets, _⟩ := addChild_eq_ok h
      have hfalse := (meets?_eq_some hmeets).2 hn
      cases hfalse
    rw [hlists hnp]
    refine List.filter_eq_self.2 fun d hd => ?_
    have hdc : d ≠ c := by
      rintro rfl
      have hown : m.parentOf? n ≠ some n := by
        intro hown
        have hdn : d = n := climbs_of_self_parent hown hn
        exact hself (hdn ▸ hown)
      exact not_climbs_child (hm.settles n) hown (hm.children.mem_iff.1 hd) hn
    simpa using hdc
  case environments => exact fun n => environmentOf?_addChild hm hp h n
  case attributes => exact (rearranged_addChild h).attributes
  case outside => exact (rearranged_addChild h).outside

theorem addChild_of_met {host child : DeploymentNode} (hp : m.deploymentNode? p = some host)
    (hc : m.deploymentNode? c = some child) (hmeets : m.isSelfOrAncestor? c p = some false)
    (ha : (m.detach c).attach p c = .ok moved) : m.addChild p c =
      if host.pinned then moved.pinSubtree c host.environment else .ok moved := by
  simp only [addChild, hp, hmeets, hc, ha]
  rfl

theorem exists_addChild (hm : m.skeleton.Sound) {host child : DeploymentNode}
    (hp : m.deploymentNode? p = some host) (hc : m.deploymentNode? c = some child)
    (habove : ¬ Climbs m.parentOf? p c) (hrooted : m.Rooted p) :
    ∃ m', m.addChild p c = .ok m' := by
  have hpsize : p.index < m.deploymentNodes.size := index_lt_of_deploymentNode? hp
  have hcsize : c.index < m.deploymentNodes.size := index_lt_of_deploymentNode? hc
  have hmeets : m.isSelfOrAncestor? c p = some false :=
    (isSelfOrAncestor?_eq_false_iff hm hpsize).2 ⟨habove, hrooted⟩
  have hdetached : (m.detach c).deploymentNodes.size = m.deploymentNodes.size :=
    (congrArg Skeleton.nodes (skeleton_detach m c)).trans (detach_nodes ..)
  obtain ⟨moved, ha⟩ : ∃ moved, (m.detach c).attach p c = .ok moved :=
    ⟨_, by rw [attach, if_pos (hdetached ▸ hpsize)]⟩
  rw [addChild_of_met hp hc hmeets ha]
  by_cases hpinned : host.pinned = true
  · -- The subtree of a node that has just got another parent than itself can be walked.
    obtain ⟨hskeleton, hchange⟩ := change_move hcsize hmeets ha
    have hsize : moved.deploymentNodes.size = m.deploymentNodes.size := by
      have hnodes : moved.deploymentNodes.size = (m.skeleton.detach c).nodes :=
        congrArg Skeleton.nodes hskeleton
      rw [hnodes, detach_nodes]
      rfl
    have hparent : moved.parentOf? c = some p := by
      have hup : moved.parentOf? = Function.update (m.skeleton.detach c).parent c (some p) :=
        congrArg Skeleton.parent hskeleton
      rw [hup, Function.update_self]
    have hself : moved.parentOf? c ≠ some c := by
      rw [hparent]
      rintro he
      cases he
      exact habove .refl
    obtain ⟨ids, hids, -⟩ := subtree?_perm (hm.change hchange) (hsize ▸ hcsize) hself
    rw [if_pos hpinned, pinSubtree, hids]
    exact ⟨_, rfl⟩
  · rw [if_neg hpinned]
    exact ⟨moved, rfl⟩

theorem addChild_of_climbs (hm : m.skeleton.Sound) {host child : DeploymentNode}
    (hp : m.deploymentNode? p = some host) (hc : m.deploymentNode? c = some child)
    (habove : Climbs m.parentOf? p c) :
    m.addChild p c = .error (.cycle host.name child.name) := by
  have hmeets : m.isSelfOrAncestor? c p = some true :=
    isSelfOrAncestor?_of_climbs hm (index_lt_of_deploymentNode? hc) habove
  simp only [addChild, hp, hmeets, hc]

theorem addChild_of_not_rooted (hm : m.skeleton.Sound) {host : DeploymentNode}
    (hp : m.deploymentNode? p = some host) (habove : ¬ Climbs m.parentOf? p c)
    (hrooted : ¬ m.Rooted p) : m.addChild p c = .error (.endless p) := by
  have hmeets : m.isSelfOrAncestor? c p = none := by
    cases hmet : m.isSelfOrAncestor? c p with
    | none => rfl
    | some met =>
      cases met with
      | true => exact absurd ((meets?_eq_some hmet).1 rfl) habove
      | false =>
        have hpsize : p.index < m.deploymentNodes.size := index_lt_of_deploymentNode? hp
        exact absurd ((isSelfOrAncestor?_eq_false_iff hm hpsize).1 hmet).2 hrooted
  simp only [addChild, hp, hmeets]

/-- A move in a model that a history leads to is refused, made or endless. The last of these is
only for a parent the way up from which does not end, and then some node is its own parent. -/
theorem relocation_of_reachable (h : m.Reachable) {host child : DeploymentNode}
    (hp : m.deploymentNode? p = some host) (hc : m.deploymentNode? c = some child) :
    (Climbs m.parentOf? p c → m.addChild p c = .error (.cycle host.name child.name) ∧
      (Edit.addChild p c).perform m = some m) ∧
    (¬ Climbs m.parentOf? p c → m.Rooted p →
      ∃ m', m.addChild p c = .ok m' ∧ Relocated m p c host m') ∧
    (¬ Climbs m.parentOf? p c → ¬ m.Rooted p → m.addChild p c = .error (.endless p)) ∧
    ((∀ n, m.parentOf? n ≠ some n) → m.Rooted p) := by
  have hm : m.skeleton.Sound := h.sound
  refine ⟨fun habove => ?refused, fun habove hrooted => ?made, fun habove hrooted => ?endless,
    fun hown => ?rooted⟩
  case refused =>
    have hcycle := addChild_of_climbs hm hp hc habove
    refine ⟨hcycle, ?_⟩
    simp only [Edit.perform, Edit.apply, hcycle]
  case made =>
    obtain ⟨m', hm'⟩ := exists_addChild hm hp hc habove hrooted
    exact ⟨m', hm', relocated_of_addChild hm hp hm'⟩
  case endless => exact addChild_of_not_rooted hm hp habove hrooted
  case rooted => exact (forall_rooted_iff hm).2 hown p

/-- A root with a child is moved under a root whose environment is pinned. -/
theorem relocation_of_reachable_under_pinned_root :
    ∃ m m' : Model, m.Reachable ∧ m.addChild ⟨2⟩ ⟨0⟩ = .ok m' ∧ m.topLevel = [⟨0⟩, ⟨2⟩] ∧
      m'.topLevel = [⟨2⟩] ∧ m'.childrenOf ⟨2⟩ = [⟨0⟩] ∧ m'.childrenOf ⟨0⟩ = [⟨1⟩] ∧
      m'.environmentOf? ⟨1⟩ = some (.custom "Lab", true) := by
  obtain ⟨m, hm, hhost, hchild, hroots, hfree, hhall, hrack, habove, hbelow⟩ :
      ∃ m ∈ Model.empty.performAll [.addDeploymentNode "Rack" "" "" .production,
        .addChildNode ⟨0⟩ "Slot" "" "", .addDeploymentNode "Hall" "" "" .production,
        .setEnvironment ⟨2⟩ (.custom "Lab")],
      m.environmentOf? ⟨2⟩ = some (.custom "Lab", true) ∧ (m.deploymentNode? ⟨0⟩).isSome ∧
      m.topLevel = [⟨0⟩, ⟨2⟩] ∧ (m.parentOf? ⟨0⟩ = none ∧ m.parentOf? ⟨2⟩ = none) ∧
      m.childrenOf ⟨2⟩ = [] ∧ m.childrenOf ⟨0⟩ = [⟨1⟩] ∧ ¬ Climbs m.parentOf? ⟨2⟩ ⟨0⟩ ∧
      Climbs m.parentOf? ⟨1⟩ ⟨0⟩ := by
    decide
  obtain ⟨host, hp, hlab⟩ := Option.map_eq_some_iff.1 hhost
  obtain ⟨child, hc⟩ := Option.isSome_iff_exists.1 hchild
  obtain ⟨henvironment, hpinned⟩ := Prod.mk.inj hlab
  have hreachable : m.Reachable := ⟨_, hm⟩
  obtain ⟨m', hm', hmoved⟩ :=
    (relocation_of_reachable hreachable hp hc).2.1 habove ⟨⟨2⟩, .refl, hfree.2⟩
  refine ⟨m, m', hreachable, hm', hroots, ?_, ?_, ?_, ?_⟩
  · rw [hmoved.roots, hroots]
    rfl
  · rw [hmoved.last, hhall]
    rfl
  · rw [hmoved.subtree (by simp [hfree.1]) ⟨0⟩ .refl, hrack]
  · rw [hmoved.environments, if_pos ⟨hpinned, hbelow⟩, henvironment]

/-- Nothing can be moved under a node that is its own parent, and it loses itself as a child when
it is moved. -/
theorem endless_move_under_own_child :
    ∃ m ∈ Model.empty.performAll [.addChildDeploymentNode ⟨0⟩ "Host" "" "" .production,
        .addDeploymentNode "Rack" "" "" .production],
      ¬ Climbs m.parentOf? ⟨0⟩ ⟨1⟩ ∧ m.addChild ⟨0⟩ ⟨1⟩ = .error (.endless ⟨0⟩) ∧
      m.childrenOf ⟨0⟩ = [⟨0⟩] ∧
      (m.addChild ⟨1⟩ ⟨0⟩).toOption.map (·.childrenOf ⟨0⟩) = some [] := by
  decide

end Model

end C4
