import C4.Proofs.Changes
import C4.Proofs.Descent

/-!
# Walks over the nodes

The two walks that operations make. The one down from some nodes passes exactly the nodes whose
way up leads to one of them. The one up from a node meets another one, given a step for every node
of the model and one more, exactly when that lies on the way up; so this can be decided.
-/
namespace C4

open Forest

namespace Forest

section Ways

variable {ι : Type*} {parent : ι → Option ι} {r : ι}

theorem Way.parent_isSome {path : List ι} {a : ι} (h : Way parent r path a) :
    ∀ b ∈ path.dropLast, (parent b).isSome := by
  induction h with
  | here =>
    intro b hb
    cases hb
  | @up a c path hac hrest ih =>
    intro b hb
    rw [List.dropLast_cons_of_ne_nil hrest.ne_nil] at hb
    rcases List.mem_cons.1 hb with rfl | hb
    · exact Option.isSome_of_eq_some hac
    · exact ih b hb

theorem climbs_of_agree {other : ι → Option ι} (hother : ∀ x, x ≠ r → other x = parent x) {a : ι}
    (h : Climbs parent a r) : Climbs other a r := by
  induction h using Relation.ReflTransGen.head_induction_on with
  | refl => exact .refl
  | @head a b hab _ ih =>
    by_cases har : a = r
    · subst har
      exact .refl
    · exact .head ((hother a har).trans hab) ih

theorem climbs_update_iff [DecidableEq ι] (v : Option ι) {a : ι} :
    Climbs (Function.update parent r v) a r ↔ Climbs parent a r := by
  have hother (x : ι) (hx : x ≠ r) : Function.update parent r v x = parent x :=
    Function.update_of_ne hx ..
  constructor
  · intro h
    exact climbs_of_agree (fun x hx => (hother x hx).symm) h
  · intro h
    exact climbs_of_agree hother h

end Ways

end Forest

namespace Model

variable {m : Model}

theorem meets?_of_way {r a : DeploymentNodeId} {path : List DeploymentNodeId}
    (h : Way m.parentOf? r path a) {steps : ℕ} (hsteps : path.length ≤ steps) :
    m.meets? r steps a = some true := by
  induction h generalizing steps with
  | here =>
    cases steps with
    | zero => simp at hsteps
    | succ steps => simp [meets?]
  | @up a b path hab _ ih =>
    cases steps with
    | zero => simp at hsteps
    | succ steps =>
      have hrest : m.meets? r steps b = some true := by
        apply ih
        simp only [List.length_cons] at hsteps
        omega
      by_cases har : a = r
      · simp [meets?, har]
      · simp [meets?, har, hab, hrest]

theorem length_way_le {r a : DeploymentNodeId} {path : List DeploymentNodeId}
    (h : Way m.parentOf? r path a) (hnodup : path.Nodup) :
    path.length ≤ m.deploymentNodes.size + 1 := by
  have hknown : ∀ b ∈ path.dropLast, b.index < m.deploymentNodes.size := by
    intro b hb
    have hparent : (m.parentOf? b).isSome := h.parent_isSome b hb
    by_contra hle
    rw [parentOf?_of_le (Nat.le_of_not_lt hle)] at hparent
    cases hparent
  have hlength := length_le_of_nodup (hnodup.sublist path.dropLast_sublist)
    DeploymentNodeId.index_injective hknown
  rw [List.length_dropLast] at hlength
  omega

theorem meets?_iff_climbs {a r : DeploymentNodeId} :
    m.meets? r (m.deploymentNodes.size + 1) a = some true ↔ Climbs m.parentOf? a r := by
  constructor
  · intro h
    exact (meets?_eq_some h).1 rfl
  · intro h
    obtain ⟨path, hway, hnodup⟩ := exists_way_of_climbs h
    exact meets?_of_way hway (length_way_le hway hnodup)

instance decidableClimbs (m : Model) (a r : DeploymentNodeId) :
    Decidable (Climbs m.parentOf? a r) :=
  decidable_of_iff (m.meets? r (m.deploymentNodes.size + 1) a = some true) meets?_iff_climbs

theorem climbs_iff_eq_or_child (h : m.skeleton.Sound) {a r : DeploymentNodeId} :
    Climbs m.parentOf? a r ↔ a = r ∨ ∃ c ∈ m.childrenOf r, Climbs m.parentOf? a c := by
  have hchild (c : DeploymentNodeId) : c ∈ m.childrenOf r ↔ m.parentOf? c = some r :=
    h.children.mem_iff
  rw [Climbs, Relation.ReflTransGen.cases_tail_iff]
  constructor
  · rintro (hra | ⟨c, hac, hcr⟩)
    · exact Or.inl hra.symm
    · exact Or.inr ⟨c, (hchild c).2 hcr, hac⟩
  · rintro (har | ⟨c, hc, hac⟩)
    · exact Or.inl har.symm
    · exact Or.inr ⟨c, hac, (hchild c).1 hc⟩

theorem mem_unstack? (h : m.skeleton.Sound) {steps : ℕ} {stack ids : List DeploymentNodeId}
    (hids : m.unstack? steps stack = some ids) {a : DeploymentNodeId} :
    a ∈ ids ↔ ∃ r ∈ stack, Climbs m.parentOf? a r := by
  -- Each step takes one node from the stack and puts its children there, which changes nothing
  -- in what leads up to the stack but for the node itself.
  induction steps generalizing stack ids with
  | zero =>
    cases stack with
    | nil =>
      cases hids
      simp
    | cons r stack => cases hids
  | succ steps ih =>
    cases stack with
    | nil =>
      cases hids
      simp
    | cons r stack =>
      obtain ⟨rest, hrest, hcons⟩ := Option.map_eq_some_iff.1 hids
      subst hcons
      have hr := climbs_iff_eq_or_child h (a := a) (r := r)
      rw [List.mem_cons, ih hrest]
      simp only [List.mem_append, List.mem_reverse, List.mem_cons, or_and_right, exists_or,
        exists_eq_left, hr]
      rw [or_assoc]

theorem mem_subtree? (h : m.skeleton.Sound) {root : DeploymentNodeId}
    {ids : List DeploymentNodeId} (hids : m.subtree? root = some ids) {a : DeploymentNodeId} :
    a ∈ ids ↔ Climbs m.parentOf? a root := by
  rw [mem_unstack? h hids]
  simp

end Model

end C4
