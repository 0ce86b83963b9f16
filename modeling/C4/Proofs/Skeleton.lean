import C4.Model.Id
import C4.Proofs.Forest

/-!
# The skeleton of a model

Who owns what is kept twice in a model, in the lists of the owners and in the references back
to them. The skeleton of a model is this part of it. `Change` says what a single operation may
do to it, but for creating a node as its own child, which is `loop`. Either keeps a skeleton
sound: the two records agree, roots stand in no list of children, and the way up from any
deployment node settles.
-/
namespace C4

open Forest

theorem DeploymentNodeId.index_injective : Function.Injective DeploymentNodeId.index := by
  intro a b hab
  cases a
  exact congrArg DeploymentNodeId.mk hab

/-- The part of a model that says what belongs to what. -/
@[ext]
structure Skeleton where
  containers : SoftwareSystemId → List ContainerId
  system : ContainerId → Option SoftwareSystemId
  components : ContainerId → List ComponentId
  container : ComponentId → Option ContainerId
  infrastructure : DeploymentNodeId → List InfrastructureNodeId
  infrastructureHost : InfrastructureNodeId → Option DeploymentNodeId
  instances : DeploymentNodeId → List ContainerInstanceId
  instanceHost : ContainerInstanceId → Option DeploymentNodeId
  children : DeploymentNodeId → List DeploymentNodeId
  parent : DeploymentNodeId → Option DeploymentNodeId
  nodes : ℕ
  roots : List DeploymentNodeId
  members : List ElementId

namespace Skeleton

def addContainer (k : Skeleton) (s : SoftwareSystemId) (c : ContainerId) : Skeleton :=
  { k with
    containers := Function.update k.containers s (k.containers s ++ [c])
    system := Function.update k.system c (some s) }

def addComponent (k : Skeleton) (c : ContainerId) (x : ComponentId) : Skeleton :=
  { k with
    components := Function.update k.components c (k.components c ++ [x])
    container := Function.update k.container x (some c) }

def addInfrastructure (k : Skeleton) (n : DeploymentNodeId) (i : InfrastructureNodeId) :
    Skeleton :=
  { k with
    infrastructure := Function.update k.infrastructure n (k.infrastructure n ++ [i])
    infrastructureHost := Function.update k.infrastructureHost i (some n) }

def addInstance (k : Skeleton) (n : DeploymentNodeId) (i : ContainerInstanceId) : Skeleton :=
  { k with
    instances := Function.update k.instances n (k.instances n ++ [i])
    instanceHost := Function.update k.instanceHost i (some n) }

def fresh (k : Skeleton) : DeploymentNodeId := ⟨k.nodes⟩

def create (k : Skeleton) : Skeleton := { k with nodes := k.nodes + 1 }

def plant (k : Skeleton) (n : DeploymentNodeId) : Skeleton := { k with roots := k.roots ++ [n] }

def attach (k : Skeleton) (p n : DeploymentNodeId) : Skeleton :=
  { k with
    children := Function.update k.children p (k.children p ++ [n])
    parent := Function.update k.parent n (some p) }

def detach (k : Skeleton) (n : DeploymentNodeId) : Skeleton :=
  match k.parent n with
  | none => { k with roots := k.roots.filter (· ≠ n) }
  | some p =>
    { k with
      children := Function.update k.children p ((k.children p).filter (· ≠ n))
      parent := Function.update k.parent n none }

def loop (k : Skeleton) : Skeleton := k.create.attach k.fresh k.fresh

inductive Change (k : Skeleton) : Skeleton → Prop
  | unchanged : Change k k
  | addContainer (s : SoftwareSystemId) {c : ContainerId} (hc : k.system c = none) :
    Change k (k.addContainer s c)
  | addComponent (c : ContainerId) {x : ComponentId} (hx : k.container x = none) :
    Change k (k.addComponent c x)
  | addInfrastructure (n : DeploymentNodeId) {i : InfrastructureNodeId}
    (hi : k.infrastructureHost i = none) : Change k (k.addInfrastructure n i)
  | addInstance (n : DeploymentNodeId) {i : ContainerInstanceId} (hi : k.instanceHost i = none) :
    Change k (k.addInstance n i)
  | create : Change k k.create
  | root : Change k (k.create.plant k.fresh)
  | child {p : DeploymentNodeId} (hp : p.index < k.nodes) :
    Change k (k.create.attach p k.fresh)
  | move {p n : DeploymentNodeId} (hp : p.index < k.nodes) (hn : n.index < k.nodes)
    (h : ¬ Climbs k.parent p n) : Change k ((k.detach n).attach p n)
  | members {ids : List ElementId} (h : k.members.Nodup → ids.Nodup) :
    Change k { k with members := ids }

structure Sound (k : Skeleton) : Prop where
  containers : Mirrors k.containers k.system
  components : Mirrors k.components k.container
  infrastructure : Mirrors k.infrastructure k.infrastructureHost
  instances : Mirrors k.instances k.instanceHost
  children : Mirrors k.children k.parent
  settles : ∀ n, Settles k.parent n
  known : ∀ n p, k.parent n = some p → n.index < k.nodes ∧ p.index < k.nodes
  roots_nodup : k.roots.Nodup
  roots_free : ∀ n ∈ k.roots, n.index < k.nodes ∧ k.parent n = none
  members_nodup : k.members.Nodup

theorem Sound.fresh_free {k : Skeleton} (h : k.Sound) : k.parent k.fresh = none := by
  cases hp : k.parent k.fresh with
  | none => rfl
  | some p => exact absurd (h.known _ p hp).1 (Nat.lt_irrefl _)

theorem Sound.fresh_not_root {k : Skeleton} (h : k.Sound) : k.fresh ∉ k.roots :=
  fun hr => Nat.lt_irrefl _ (h.roots_free _ hr).1

theorem Sound.fresh_not_above {k : Skeleton} (h : k.Sound) {a : DeploymentNodeId}
    (ha : Climbs k.parent a k.fresh) : a = k.fresh := by
  rcases Relation.ReflTransGen.cases_tail ha with he | ⟨b, _, hb⟩
  · exact he.symm
  · exact absurd (h.known b k.fresh hb).2 (Nat.lt_irrefl _)

theorem Sound.create {k : Skeleton} (h : k.Sound) : k.create.Sound :=
  { h with
    known := fun n p hp =>
      ⟨Nat.lt_succ_of_lt (h.known n p hp).1, Nat.lt_succ_of_lt (h.known n p hp).2⟩
    roots_free := fun n hn => ⟨Nat.lt_succ_of_lt (h.roots_free n hn).1, (h.roots_free n hn).2⟩ }

theorem Sound.plant {k : Skeleton} (h : k.Sound) {n : DeploymentNodeId} (hn : n ∉ k.roots)
    (hknown : n.index < k.nodes) (hfree : k.parent n = none) : (k.plant n).Sound :=
  { h with
    roots_nodup := by
      simpa [Skeleton.plant, List.nodup_append] using
        ⟨h.roots_nodup, fun a ha he => hn (he ▸ ha)⟩
    roots_free := by
      intro r hr
      rcases List.mem_append.1 hr with hr | hr
      · exact h.roots_free r hr
      · obtain rfl := List.mem_singleton.1 hr
        exact ⟨hknown, hfree⟩ }

theorem Sound.attach {k : Skeleton} (h : k.Sound) {p n : DeploymentNodeId}
    (hp : p.index < k.nodes) (hn : n.index < k.nodes) (hfree : k.parent n = none)
    (hroot : n ∉ k.roots) (habove : p = n ∨ ¬ Climbs k.parent p n) : (k.attach p n).Sound :=
  { h with
    children := h.children.enter hfree p
    settles := settles_attach h.settles hfree habove
    known := by
      intro a q ha
      change Function.update k.parent n (some p) a = some q at ha
      by_cases han : a = n
      · subst a
        rw [Function.update_self] at ha
        cases ha
        exact ⟨hn, hp⟩
      · rw [Function.update_of_ne han] at ha
        exact h.known a q ha
    roots_free := by
      intro r hr
      have hrn : r ≠ n := fun he => hroot (he ▸ hr)
      exact ⟨(h.roots_free r hr).1,
        (Function.update_of_ne hrn ..).trans (h.roots_free r hr).2⟩ }

theorem Sound.detach {k : Skeleton} (h : k.Sound) (n : DeploymentNodeId) : (k.detach n).Sound := by
  unfold Skeleton.detach
  split
  · exact
      { h with
        roots_nodup := h.roots_nodup.filter _
        roots_free := fun r hr => h.roots_free r (List.mem_of_mem_filter hr) }
  · next p hp =>
    exact
      { h with
        children := h.children.leave hp
        settles := fun a => settles_detach (h.settles a) n
        known := by
          intro a q ha
          change Function.update k.parent n none a = some q at ha
          by_cases han : a = n
          · subst a
            rw [Function.update_self] at ha
            cases ha
          · rw [Function.update_of_ne han] at ha
            exact h.known a q ha
        roots_free := by
          intro r hr
          refine ⟨(h.roots_free r hr).1, ?_⟩
          by_cases hrn : r = n
          · exact hrn ▸ Function.update_self ..
          · exact (Function.update_of_ne hrn ..).trans (h.roots_free r hr).2 }

theorem detach_nodes (k : Skeleton) (n : DeploymentNodeId) : (k.detach n).nodes = k.nodes := by
  unfold Skeleton.detach
  split <;> rfl

theorem detach_parent (k : Skeleton) (n : DeploymentNodeId) :
    (k.detach n).parent = Function.update k.parent n none := by
  unfold Skeleton.detach
  split
  · next hn => exact (Function.update_eq_self_iff.2 hn.symm).symm
  · rfl

theorem Sound.detach_not_root {k : Skeleton} (h : k.Sound) (n : DeploymentNodeId) :
    n ∉ (k.detach n).roots := by
  unfold Skeleton.detach
  split
  · intro hn
    simpa using (List.mem_filter.1 hn).2
  · next p hp =>
    intro hn
    have hfree := (h.roots_free n hn).2
    rw [hp] at hfree
    cases hfree

theorem Sound.change {k k' : Skeleton} (h : k.Sound) (hk : Change k k') : k'.Sound := by
  cases hk with
  | unchanged => exact h
  | addContainer s hc => exact { h with containers := h.containers.enter hc s }
  | addComponent c hx => exact { h with components := h.components.enter hx c }
  | addInfrastructure n hi => exact { h with infrastructure := h.infrastructure.enter hi n }
  | addInstance n hi => exact { h with instances := h.instances.enter hi n }
  | create => exact h.create
  | root => exact h.create.plant h.fresh_not_root (Nat.lt_succ_self _) h.fresh_free
  | @child p hp =>
    -- The parent existed before, so the new node can not be above it.
    refine h.create.attach (Nat.lt_succ_of_lt hp) (Nat.lt_succ_self _) h.fresh_free
      h.fresh_not_root (Or.inr fun ha => ?_)
    rw [h.fresh_not_above ha] at hp
    exact Nat.lt_irrefl _ hp
  | @move p n hp hn habove =>
    -- Taking `n` out only shortens ways up, so it is still not above `p`.
    refine (h.detach n).attach ?_ ?_ ?_ (h.detach_not_root n) (Or.inr fun ha => habove ?_)
    · rwa [detach_nodes]
    · rwa [detach_nodes]
    · rw [detach_parent, Function.update_self]
    · rw [detach_parent] at ha
      exact climbs_of_update_none ha
  | members hids => exact { h with members_nodup := hids h.members_nodup }

theorem Sound.loop {k : Skeleton} (h : k.Sound) : k.loop.Sound :=
  h.create.attach (Nat.lt_succ_self _) (Nat.lt_succ_self _) h.fresh_free h.fresh_not_root
    (Or.inl rfl)

def Loopless (k : Skeleton) : Prop := ∀ n, k.parent n ≠ some n

theorem Loopless.change {k k' : Skeleton} (h : k.Loopless) (hk : Change k k') : k'.Loopless := by
  intro a
  cases hk with
  | unchanged | addContainer | addComponent | addInfrastructure | addInstance | create | root
  | members => exact h a
  | @child p hp =>
    change Function.update k.parent k.fresh (some p) a ≠ some a
    by_cases ha : a = k.fresh
    · subst a
      rw [Function.update_self]
      rintro hpn
      cases hpn
      exact Nat.lt_irrefl _ hp
    · rw [Function.update_of_ne ha]
      exact h a
  | @move p n hp hn habove =>
    change Function.update (k.detach n).parent n (some p) a ≠ some a
    rw [detach_parent, Function.update_idem]
    by_cases ha : a = n
    · subst a
      rw [Function.update_self]
      rintro hpn
      cases hpn
      exact habove .refl
    · rw [Function.update_of_ne ha]
      exact h a

end Skeleton

end C4
