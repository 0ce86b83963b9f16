import C4.Proofs.Coverage
import C4.Proofs.Deployed

/-!
# Walks that end

A walk down from a node passes the node and everything below it, each of them once, and then it
is over, unless the node is its own parent. A walk up is over when there is a node without parent
at the end of it, or else when it meets the node that it looks for.
-/
namespace C4

open Forest

namespace Forest

section Cycles

variable {ι : Type*} {parent : ι → Option ι} {r : ι}

theorem climbs_back {a b : ι} (hcycle : Relation.TransGen (fun x y => parent x = some y) a a)
    (hab : Climbs parent a b) : Climbs parent b a := by
  induction hab with
  | refl => exact .refl
  | @tail x y hax hxy ih =>
    obtain ⟨z, hxz, hzx⟩ := Relation.TransGen.head'_iff.1 (transGen_self_of_climbs hcycle hax)
    obtain rfl : z = y := Option.some.inj (hxz.symm.trans hxy)
    exact hzx.trans ih

theorem not_climbs_child (hr : Settles parent r) (hself : parent r ≠ some r) {c : ι}
    (hc : parent c = some r) : ¬ Climbs parent r c := by
  intro hrc
  have hcycle : Relation.TransGen (fun x y => parent x = some y) r r := .tail' hrc hc
  obtain ⟨s, hrs, hs | hs⟩ := hr
  · exact not_transGen_self ⟨hrs, hs⟩ hcycle
  · have hback : r = s := climbs_of_self_parent hs (climbs_back hcycle hrs)
    subst hback
    exact hself hs

theorem eq_of_climbs_children (hr : Settles parent r) (hself : parent r ≠ some r) {a b c : ι}
    (hb : parent b = some r) (hc : parent c = some r) (hab : Climbs parent a b)
    (hac : Climbs parent a c) : b = c := by
  have apart {x y : ι} (hx : parent x = some r) (hy : parent y = some r)
      (hxy : Climbs parent x y) : x = y := by
    rcases Relation.ReflTransGen.cases_head hxy with h | ⟨z, hxz, hzy⟩
    · exact h
    · obtain rfl : r = z := Option.some.inj (hx.symm.trans hxz)
      exact absurd hzy (not_climbs_child hr hself hy)
  have hunique : Relator.RightUnique fun x y => parent x = some y := by
    intro x y z hy hz
    exact Option.some.inj (hy.symm.trans hz)
  rcases Relation.ReflTransGen.total_of_right_unique hunique hab hac with h | h
  · exact apart hb hc h
  · exact (apart hc hb h).symm

end Cycles

end Forest

namespace Model

variable {m : Model}

def treeOf (m : Model) (root : DeploymentNodeId) : List DeploymentNodeId :=
  m.deploymentNodeIds.filter fun n => Climbs m.parentOf? n root

theorem mem_deploymentNodeIds {id : DeploymentNodeId} :
    id ∈ m.deploymentNodeIds ↔ id.index < m.deploymentNodes.size := by
  cases id
  simp [deploymentNodeIds]

theorem deploymentNodeIds_nodup (m : Model) : m.deploymentNodeIds.Nodup := by
  refine List.nodup_range.map fun i j hij => ?_
  exact congrArg DeploymentNodeId.index hij

theorem treeOf_nodup (m : Model) (root : DeploymentNodeId) : (m.treeOf root).Nodup :=
  m.deploymentNodeIds_nodup.filter _

theorem mem_treeOf (h : m.skeleton.Sound) {root n : DeploymentNodeId}
    (hroot : root.index < m.deploymentNodes.size) :
    n ∈ m.treeOf root ↔ Climbs m.parentOf? n root := by
  rw [treeOf, List.mem_filter, mem_deploymentNodeIds, decide_eq_true_eq]
  constructor
  · exact fun hn => hn.2
  · exact fun hn => ⟨index_lt_of_climbs h hroot hn, hn⟩

theorem length_treeOf_le (m : Model) (root : DeploymentNodeId) :
    (m.treeOf root).length ≤ m.deploymentNodes.size := by
  have hle := m.deploymentNodeIds.length_filter_le
    fun n => decide (Climbs m.parentOf? n root)
  simpa [treeOf, deploymentNodeIds] using hle

theorem childrenOf_nodup (h : m.skeleton.Sound) (n : DeploymentNodeId) :
    (m.childrenOf n).Nodup := by
  have hnodup := h.children.nodup_flatMap (List.nodup_singleton n)
  rwa [List.flatMap_singleton] at hnodup

theorem treeOf_perm (h : m.skeleton.Sound) {root : DeploymentNodeId}
    (hroot : root.index < m.deploymentNodes.size) (hself : m.parentOf? root ≠ some root) :
    (m.treeOf root).Perm (root :: (m.childrenOf root).flatMap m.treeOf) := by
  have hchild {c : DeploymentNodeId} (hc : c ∈ m.childrenOf root) : m.parentOf? c = some root :=
    h.children.mem_iff.1 hc
  have hsize {c : DeploymentNodeId} (hc : c ∈ m.childrenOf root) :
      c.index < m.deploymentNodes.size :=
    (h.known c root (hchild hc)).1
  have hbelow {n : DeploymentNodeId} : n ∈ (m.childrenOf root).flatMap m.treeOf ↔
      ∃ c ∈ m.childrenOf root, Climbs m.parentOf? n c := by
    rw [List.mem_flatMap]
    exact exists_congr fun c => and_congr_right fun hc => mem_treeOf h (hsize hc)
  refine (List.perm_ext_iff_of_nodup (m.treeOf_nodup root) ?nodup).2 fun n => ?mem
  case nodup =>
    refine List.nodup_cons.2 ⟨?_, List.nodup_flatMap.2 ⟨fun c _ => m.treeOf_nodup c, ?_⟩⟩
    · intro hmem
      obtain ⟨c, hc, hrc⟩ := hbelow.1 hmem
      exact not_climbs_child (h.settles root) hself (hchild hc) hrc
    · refine (childrenOf_nodup h root).imp_of_mem fun {b c} hb hc hne n hnb hnc => hne ?_
      exact eq_of_climbs_children (h.settles root) hself (hchild hb) (hchild hc)
        ((mem_treeOf h (hsize hb)).1 hnb) ((mem_treeOf h (hsize hc)).1 hnc)
  case mem =>
    rw [mem_treeOf h hroot, List.mem_cons, hbelow]
    exact climbs_iff_eq_or_child h

/-- The walk down ends when it has as many steps as there are nodes below its stack, and has then
passed each of these nodes once. -/
theorem unstack?_perm (h : m.skeleton.Sound) {steps : ℕ} {stack : List DeploymentNodeId}
    (hstack : ∀ r ∈ stack, r.index < m.deploymentNodes.size ∧ m.parentOf? r ≠ some r)
    (hsteps : (stack.flatMap m.treeOf).length ≤ steps) :
    ∃ ids, m.unstack? steps stack = some ids ∧ ids.Perm (stack.flatMap m.treeOf) := by
  induction steps generalizing stack with
  | zero =>
    cases stack with
    | nil => exact ⟨[], rfl, .nil⟩
    | cons r stack =>
      -- There is at least one node below the stack, the one on top.
      obtain ⟨hr, -⟩ := hstack r List.mem_cons_self
      have hmem : r ∈ (r :: stack).flatMap m.treeOf :=
        List.mem_flatMap.2 ⟨r, List.mem_cons_self, (mem_treeOf h hr).2 .refl⟩
      have hpos := List.length_pos_of_mem hmem
      omega
  | succ steps ih =>
    cases stack with
    | nil => exact ⟨[], by simp [unstack?], .nil⟩
    | cons r stack =>
      obtain ⟨hr, hself⟩ := hstack r List.mem_cons_self
      set next := (m.childrenOf r).reverse ++ stack with hnext
      have hperm : ((r :: stack).flatMap m.treeOf).Perm (r :: next.flatMap m.treeOf) := by
        rw [hnext, List.flatMap_cons, List.flatMap_append, ← List.cons_append]
        refine ((treeOf_perm h hr hself).trans ?_).append_right _
        exact ((List.reverse_perm _).symm.flatMap_right m.treeOf).cons r
      have hlength := hperm.length_eq
      rw [List.length_cons] at hlength
      have hok : ∀ c ∈ next, c.index < m.deploymentNodes.size ∧ m.parentOf? c ≠ some c := by
        intro c hc
        rcases List.mem_append.1 hc with hc | hc
        · have hparent : m.parentOf? c = some r := h.children.mem_iff.1 (List.mem_reverse.1 hc)
          refine ⟨(h.known c r hparent).1, fun hown => hself ?_⟩
          obtain rfl : r = c := Option.some.inj (hparent.symm.trans hown)
          exact hparent
        · exact hstack c (List.mem_cons_of_mem r hc)
      obtain ⟨ids, hids, hpassed⟩ := ih hok (by omega)
      refine ⟨r :: ids, ?_, (hpassed.cons r).trans hperm.symm⟩
      rw [unstack?, hids]
      rfl

theorem subtree?_perm (h : m.skeleton.Sound) {root : DeploymentNodeId}
    (hroot : root.index < m.deploymentNodes.size) (hself : m.parentOf? root ≠ some root) :
    ∃ ids, m.subtree? root = some ids ∧ ids.Perm (m.treeOf root) := by
  have hsteps : ([root].flatMap m.treeOf).length ≤ m.deploymentNodes.size := by
    simpa using m.length_treeOf_le root
  have hperm := unstack?_perm h (List.forall_mem_singleton.2 ⟨hroot, hself⟩) hsteps
  rwa [List.flatMap_singleton] at hperm

theorem length_le_of_way_of_ne (h : m.skeleton.Sound) {r n : DeploymentNodeId}
    (hr : r.index < m.deploymentNodes.size) (hself : m.parentOf? r ≠ some r)
    {path : List DeploymentNodeId} (hway : Way m.parentOf? r path n) :
    path.length ≤ m.deploymentNodes.size := by
  have hacyclic : ¬ Relation.TransGen (fun x y => m.parentOf? x = some y) r r := by
    intro hcycle
    obtain ⟨c, hdown, hc⟩ := Relation.TransGen.tail'_iff.1 hcycle
    exact not_climbs_child (h.settles r) hself hc hdown
  exact length_le_of_way_to h hr hway (hway.nodup_of_acyclic hacyclic)

theorem isSelfOrAncestor?_of_climbs (h : m.skeleton.Sound) {r n : DeploymentNodeId}
    (hr : r.index < m.deploymentNodes.size) (hnr : Climbs m.parentOf? n r) :
    m.isSelfOrAncestor? r n = some true := by
  obtain ⟨path, hway, hnodup⟩ := exists_way_of_climbs hnr
  exact meets?_of_way hway (length_le_of_way_to h hr hway hnodup)

theorem meets?_isSome_of_way {c r n : DeploymentNodeId} (hr : m.parentOf? r = none)
    {path : List DeploymentNodeId} (hway : Way m.parentOf? r path n) {steps : ℕ}
    (hsteps : path.length ≤ steps) : (m.meets? c steps n).isSome := by
  induction hway generalizing steps with
  | here =>
    cases steps with
    | zero => simp at hsteps
    | succ steps =>
      by_cases hrc : r = c
      · simp [meets?, hrc]
      · simp [meets?, hrc, hr]
  | @up a b path hab _ ih =>
    cases steps with
    | zero => simp at hsteps
    | succ steps =>
      rw [List.length_cons] at hsteps
      by_cases hac : a = c
      · simp [meets?, hac]
      · simpa [meets?, hac, hab] using ih (by omega)

theorem exists_topmost_of_meets?_eq_false {c n : DeploymentNodeId} {steps : ℕ}
    (h : m.meets? c steps n = some false) : ∃ r, Topmost m.parentOf? n r := by
  induction steps generalizing n with
  | zero => cases h
  | succ steps ih =>
    unfold meets? at h
    split at h
    · cases h
    · split at h
      · next hnone => exact ⟨n, .refl, hnone⟩
      · next p hp =>
        obtain ⟨r, hpr, hr⟩ := ih h
        exact ⟨r, .head hp hpr, hr⟩

theorem isSelfOrAncestor?_eq_false_iff (h : m.skeleton.Sound) {c n : DeploymentNodeId}
    (hn : n.index < m.deploymentNodes.size) :
    m.isSelfOrAncestor? c n = some false ↔
      ¬ Climbs m.parentOf? n c ∧ ∃ r, Topmost m.parentOf? n r := by
  constructor
  · intro hfalse
    refine ⟨fun hnc => ?_, exists_topmost_of_meets?_eq_false hfalse⟩
    have htrue := (meets?_eq_some hfalse).2 hnc
    cases htrue
  · rintro ⟨hnc, r, hnr, htop⟩
    obtain ⟨path, hway, hnodup⟩ := exists_way_of_climbs hnr
    have hr : r.index < m.deploymentNodes.size := by
      rcases Relation.ReflTransGen.cases_tail hnr with hrn | ⟨b, -, hbr⟩
      · exact hrn ▸ hn
      · exact (h.known b r hbr).2
    have hsome : (m.isSelfOrAncestor? c n).isSome :=
      meets?_isSome_of_way htop hway (length_le_of_way_to h hr hway hnodup)
    obtain ⟨met, hmet⟩ := Option.isSome_iff_exists.1 hsome
    cases met with
    | false => exact hmet
    | true => exact absurd ((meets?_eq_some hmet).1 rfl) hnc

end Model

end C4
