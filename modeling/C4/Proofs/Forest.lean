import Mathlib.Data.List.Count
import Mathlib.Data.List.Nodup
import Mathlib.Logic.Function.Basic
import Mathlib.Logic.Relation

/-!
# Forests kept twice

A forest can be kept in the children, each of which names its owner, and in the owners, each of
which lists what is below it. `Mirrors` says that the two agree. The way up from a node is
followed in the parent function alone; it changes at one node when that node is taken out of
the forest or put into it.
-/
namespace C4.Forest

variable {ι κ : Type*} [DecidableEq ι] [DecidableEq κ]

/-- A child is listed once by its owner and by nobody else. -/
def Mirrors (below : ι → List κ) (owner : κ → Option ι) : Prop :=
  ∀ p c, (below p).count c = if owner c = some p then 1 else 0

theorem Mirrors.mem_iff {below : ι → List κ} {owner : κ → Option ι} (h : Mirrors below owner)
    {p : ι} {c : κ} : c ∈ below p ↔ owner c = some p := by
  rw [← List.count_pos_iff, h p c]
  split <;> simp_all

theorem Mirrors.enter {below : ι → List κ} {owner : κ → Option ι} (h : Mirrors below owner)
    {c : κ} (hc : owner c = none) (p : ι) :
    Mirrors (Function.update below p (below p ++ [c])) (Function.update owner c (some p)) := by
  intro q d
  have hq := h q d
  by_cases hd : d = c
  · subst d
    rw [hc] at hq
    by_cases hqp : q = p
    · subst q
      simpa [List.count_append] using hq
    · simpa [Function.update_of_ne hqp, Ne.symm hqp] using hq
  · rw [Function.update_of_ne hd]
    by_cases hqp : q = p
    · subst q
      simpa [List.count_append, List.count_singleton, Ne.symm hd] using hq
    · simpa [Function.update_of_ne hqp] using hq

theorem Mirrors.leave {below : ι → List κ} {owner : κ → Option ι} (h : Mirrors below owner)
    {c : κ} {p : ι} (hc : owner c = some p) :
    Mirrors (Function.update below p ((below p).filter (· ≠ c)))
      (Function.update owner c none) := by
  intro q d
  have hq := h q d
  by_cases hd : d = c
  · subst d
    rw [Function.update_self, if_neg (by simp)]
    by_cases hqp : q = p
    · subst q
      simp [List.count_eq_zero]
    · simpa [Function.update_of_ne hqp, hc, Ne.symm hqp] using hq
  · rw [Function.update_of_ne hd]
    by_cases hqp : q = p
    · subst q
      simpa [List.count_filter, hd] using hq
    · simpa [Function.update_of_ne hqp] using hq

theorem Mirrors.count_flatMap {below : ι → List κ} {owner : κ → Option ι}
    (h : Mirrors below owner) (ps : List ι) (c : κ) :
    (ps.flatMap below).count c = ((owner c).map (ps.count ·)).getD 0 := by
  induction ps with
  | nil => cases owner c <;> rfl
  | cons p ps ih =>
    rw [List.flatMap_cons, List.count_append, ih, h p c]
    cases hc : owner c with
    | none => simp
    | some q =>
      simp only [Option.some.injEq, Option.map_some, Option.getD_some, List.count_cons, beq_iff_eq]
      rw [Nat.add_comm]
      simp only [eq_comm]

theorem Mirrors.nodup_flatMap {below : ι → List κ} {owner : κ → Option ι}
    (h : Mirrors below owner) {ps : List ι} (hps : ps.Nodup) : (ps.flatMap below).Nodup := by
  rw [List.nodup_iff_count_le_one]
  intro c
  rw [h.count_flatMap]
  cases owner c with
  | none => exact Nat.zero_le 1
  | some p => exact List.nodup_iff_count_le_one.1 hps p

/-- The node `b` lies on the way up from `a`, which begins with `a` itself. -/
def Climbs (parent : ι → Option ι) : ι → ι → Prop :=
  Relation.ReflTransGen fun a b => parent a = some b

/-- The node without parent at which the way up from `a` ends. -/
def Topmost (parent : ι → Option ι) (a r : ι) : Prop := Climbs parent a r ∧ parent r = none

def Settles (parent : ι → Option ι) (a : ι) : Prop :=
  ∃ r, Climbs parent a r ∧ (parent r = none ∨ parent r = some r)

theorem climbs_update_of_free {parent : ι → Option ι} {c : ι} (hc : parent c = none)
    (v : Option ι) {a b : ι} (h : Climbs parent a b) : Climbs (Function.update parent c v) a b := by
  refine Relation.ReflTransGen.mono (fun x y hxy => ?_) a b h
  have hx : x ≠ c := by
    rintro rfl
    rw [hc] at hxy
    cases hxy
  rwa [Function.update_of_ne hx]

theorem climbs_of_update_none {parent : ι → Option ι} {c a b : ι}
    (h : Climbs (Function.update parent c none) a b) : Climbs parent a b := by
  refine Relation.ReflTransGen.mono (fun x y hxy => ?_) a b h
  by_cases hx : x = c
  · subst x
    rw [Function.update_self] at hxy
    cases hxy
  · rwa [Function.update_of_ne hx] at hxy

theorem settles_detach {parent : ι → Option ι} {a : ι} (h : Settles parent a) (c : ι) :
    Settles (Function.update parent c none) a := by
  obtain ⟨r, har, hr⟩ := h
  -- The way up may have been cut off at `c`, so the induction is on what is left of it.
  induction har using Relation.ReflTransGen.head_induction_on with
  | refl =>
    refine ⟨r, .refl, ?_⟩
    by_cases hrc : r = c
    · subst r
      exact Or.inl (Function.update_self ..)
    · rwa [Function.update_of_ne hrc]
  | @head x y hxy _ ih =>
    by_cases hxc : x = c
    · subst x
      exact ⟨c, .refl, Or.inl (Function.update_self ..)⟩
    · obtain ⟨s, hys, hs⟩ := ih
      exact ⟨s, .head (by rwa [Function.update_of_ne hxc]) hys, hs⟩

theorem settles_attach {parent : ι → Option ι} (h : ∀ a, Settles parent a) {c p : ι}
    (hc : parent c = none) (hp : p = c ∨ ¬ Climbs parent p c) (a : ι) :
    Settles (Function.update parent c (some p)) a := by
  have hkeep {x : ι} (hx : x ≠ c) : Function.update parent c (some p) x = parent x :=
    Function.update_of_ne hx ..
  have hself : Function.update parent c (some p) c = some p := Function.update_self ..
  -- Only a way up that used to end at `c` becomes longer: it goes on along the way up from `p`.
  obtain ⟨r, har, hr⟩ := h a
  have har' := climbs_update_of_free hc (some p) har
  by_cases hrc : r = c
  · subst r
    rcases hp with rfl | hp
    · exact ⟨p, har', Or.inr hself⟩
    · obtain ⟨s, hps, hs⟩ := h p
      have hsc : s ≠ c := by
        rintro rfl
        exact hp hps
      refine ⟨s, har'.trans (.head hself (climbs_update_of_free hc _ hps)), ?_⟩
      rwa [hkeep hsc]
  · exact ⟨r, har', by rwa [hkeep hrc]⟩

omit [DecidableEq ι] in
theorem climbs_of_self_parent {parent : ι → Option ι} {a b : ι} (ha : parent a = some a)
    (h : Climbs parent a b) : b = a := by
  induction h with
  | refl => rfl
  | tail _ hbc ih =>
    subst ih
    rw [ha] at hbc
    exact (Option.some.inj hbc).symm

omit [DecidableEq ι] in
/-- When all ways up settle, they end at a node without parent unless a node is its own parent. -/
theorem forall_topmost_iff {parent : ι → Option ι} (h : ∀ a, Settles parent a) :
    (∀ a, ∃ r, Topmost parent a r) ↔ ∀ a, parent a ≠ some a := by
  constructor
  · intro ht a ha
    obtain ⟨r, har, hr⟩ := ht a
    rw [climbs_of_self_parent ha har, ha] at hr
    cases hr
  · intro hs a
    obtain ⟨r, har, hr | hr⟩ := h a
    · exact ⟨r, har, hr⟩
    · exact absurd hr (hs r)

end C4.Forest
