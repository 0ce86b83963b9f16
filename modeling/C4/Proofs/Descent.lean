import C4.Proofs.Forest
import Mathlib.Data.List.Perm.Subperm

/-!
# The way down

The nodes below some roots can be collected tree by tree or generation by generation. Both lists
have the same nodes the same number of times. A node whose way up ends at one of the roots is
collected once, provided that the collecting goes deep enough, and no other node is.
-/
namespace C4.Forest

variable {ι : Type*}

def descend (below : ι → List ι) : ℕ → ι → List ι
  | 0, a => [a]
  | depth + 1, a => a :: (below a).flatMap (descend below depth)

def generations (below : ι → List ι) (roots : List ι) : ℕ → List ι
  | 0 => roots
  | depth + 1 => roots ++ (generations below roots depth).flatMap below

theorem generations_flatMap (below : ι → List ι) (roots : List ι) (depth : ℕ) :
    generations below (roots.flatMap below) depth =
      (generations below roots depth).flatMap below := by
  induction depth with
  | zero => rfl
  | succ depth ih => rw [generations, generations, ih, List.flatMap_append]

theorem flatMap_descend_perm (below : ι → List ι) (roots : List ι) (depth : ℕ) :
    (roots.flatMap (descend below depth)).Perm (generations below roots depth) := by
  induction depth generalizing roots with
  | zero => simp [descend, generations]
  | succ depth ih =>
    have htrees := ih (roots.flatMap below)
    rw [generations_flatMap, List.flatMap_assoc] at htrees
    refine (List.map_append_flatMap_perm roots id _).symm.trans ?_
    rw [List.map_id]
    exact htrees.append_left roots

theorem flatMap_perm_of_succ {β : Type*} {below : ι → List ι} {P : ι → Prop}
    (hbelow : ∀ a, P a → ∀ b ∈ below a, P b) {collect : ℕ → ι → List β} {own : ι → List β}
    (hzero : ∀ a, P a → (collect 0 a).Perm (own a))
    (hsucc : ∀ depth a, P a →
      (collect (depth + 1) a).Perm (own a ++ (below a).flatMap (collect depth)))
    (depth : ℕ) {a : ι} (ha : P a) :
    (collect depth a).Perm ((descend below depth a).flatMap own) := by
  induction depth generalizing a with
  | zero =>
    rw [descend, List.flatMap_singleton]
    exact hzero a ha
  | succ depth ih =>
    refine (hsucc depth a ha).trans ?_
    rw [descend, List.flatMap_cons, List.flatMap_assoc]
    exact .append_left _ (.flatMap_left _ fun b hb => ih (hbelow a ha b hb))

section Ways

variable {parent : ι → Option ι} {r : ι}

/-- The nodes on the way up to `r`, beginning with the node itself. -/
inductive Way (parent : ι → Option ι) (r : ι) : List ι → ι → Prop
  | here : Way parent r [r] r
  | up {a b : ι} {path : List ι} (h : parent a = some b) (hrest : Way parent r path b) :
    Way parent r (a :: path) a

theorem Way.climbs {path : List ι} {a : ι} (h : Way parent r path a) :
    ∀ b ∈ path, Climbs parent a b := by
  induction h with
  | here =>
    intro b hb
    obtain rfl := List.mem_singleton.1 hb
    exact .refl
  | up h _ ih =>
    intro b hb
    rcases List.mem_cons.1 hb with rfl | hb
    · exact .refl
    · exact .head h (ih b hb)

theorem Way.forall_mem {P : ι → Prop} (hr : P r) (hparent : ∀ a b, parent a = some b → P a)
    {path : List ι} {a : ι} (h : Way parent r path a) : ∀ b ∈ path, P b := by
  induction h with
  | here => exact List.forall_mem_singleton.2 hr
  | up h _ ih => exact List.forall_mem_cons.2 ⟨hparent _ _ h, ih⟩

theorem Way.ne_nil {path : List ι} {a : ι} (h : Way parent r path a) : path ≠ [] := by
  cases h <;> exact List.cons_ne_nil _ _

theorem transGen_self_of_climbs {a b : ι}
    (h : Relation.TransGen (fun x y => parent x = some y) a a) (hab : Climbs parent a b) :
    Relation.TransGen (fun x y => parent x = some y) b b := by
  induction hab with
  | refl => exact h
  | @tail x y _ hxy ih =>
    obtain ⟨z, hxz, hzx⟩ := Relation.TransGen.head'_iff.1 ih
    obtain rfl : z = y := Option.some.inj (hxz.symm.trans hxy)
    exact Relation.TransGen.tail' hzx hxy

theorem not_transGen_self {a : ι} (h : Topmost parent a r) :
    ¬ Relation.TransGen (fun x y => parent x = some y) a a := by
  intro hcycle
  obtain ⟨b, hb, -⟩ := Relation.TransGen.head'_iff.1 (transGen_self_of_climbs hcycle h.1)
  rw [h.2] at hb
  cases hb

theorem Way.climbs_end {path : List ι} {a : ι} (h : Way parent r path a) : Climbs parent a r := by
  induction h with
  | here => exact .refl
  | up h _ ih => exact .head h ih

theorem Way.nodup_of_acyclic (hr : ¬ Relation.TransGen (fun x y => parent x = some y) r r)
    {path : List ι} {a : ι} (h : Way parent r path a) : path.Nodup := by
  -- A node that occurred again further up would be on a cycle, and so would be the end.
  induction h with
  | here => exact List.nodup_singleton r
  | @up a b path hab hrest ih =>
    refine List.nodup_cons.2 ⟨fun ha => hr ?_, ih⟩
    exact transGen_self_of_climbs (.head' hab (hrest.climbs a ha)) (.head hab hrest.climbs_end)

theorem Way.nodup (hr : parent r = none) {path : List ι} {a : ι} (h : Way parent r path a) :
    path.Nodup :=
  h.nodup_of_acyclic (not_transGen_self ⟨.refl, hr⟩)

theorem Way.exists_suffix {path : List ι} {a b : ι} (h : Way parent r path a) (hb : b ∈ path) :
    ∃ rest, Way parent r rest b ∧ rest <:+ path := by
  induction h with
  | here =>
    have hbr : b = r := List.mem_singleton.1 hb
    subst hbr
    exact ⟨[b], .here, List.suffix_rfl⟩
  | @up a c path hac hrest ih =>
    by_cases hba : b = a
    · subst hba
      exact ⟨b :: path, .up hac hrest, List.suffix_rfl⟩
    · obtain ⟨rest, hway, hsuffix⟩ := ih ((List.mem_cons.1 hb).resolve_left hba)
      exact ⟨rest, hway, hsuffix.trans (List.suffix_cons a path)⟩

theorem exists_way_of_climbs {a : ι} (h : Climbs parent a r) :
    ∃ path, Way parent r path a ∧ path.Nodup := by
  -- A way that comes back to where it began is cut short there.
  induction h using Relation.ReflTransGen.head_induction_on with
  | refl => exact ⟨[r], .here, List.nodup_singleton r⟩
  | @head a b hab _ ih =>
    obtain ⟨path, hpath, hnodup⟩ := ih
    by_cases ha : a ∈ path
    · obtain ⟨rest, hrest, hsuffix⟩ := hpath.exists_suffix ha
      exact ⟨rest, hrest, hnodup.sublist hsuffix.sublist⟩
    · exact ⟨a :: path, .up hab hpath, List.nodup_cons.2 ⟨ha, hnodup⟩⟩

theorem length_le_of_nodup {path : List ι} (hnodup : path.Nodup) {index : ι → ℕ}
    (hindex : Function.Injective index) {size : ℕ} (hsize : ∀ a ∈ path, index a < size) :
    path.length ≤ size := by
  have hsub : path.map index ⊆ List.range size := by
    intro i hi
    obtain ⟨a, ha, rfl⟩ := List.mem_map.1 hi
    exact List.mem_range.2 (hsize a ha)
  have hle := ((hnodup.map hindex).subperm hsub).length_le
  rwa [List.length_map, List.length_range] at hle

/-- What holds of a node when it holds of all nodes right below it holds of every node that leads
up to `r`, provided that there is a bound to the ways. -/
theorem Way.induction_below {size : ℕ}
    (hsize : ∀ path a, Way parent r path a → path.length ≤ size) {P : ι → Prop}
    (step : ∀ path a, Way parent r path a → (∀ b, parent b = some a → P b) → P a)
    {path : List ι} {a : ι} (h : Way parent r path a) : P a := by
  -- Each step down makes the way longer and leaves less to the bound.
  induction hleft : size - path.length generalizing path a with
  | zero =>
    refine step path a h fun b hb => ?_
    have hlength := hsize (b :: path) b (.up hb h)
    rw [List.length_cons] at hlength
    omega
  | succ left ih =>
    refine step path a h fun b hb => ih (.up hb h) ?_
    rw [List.length_cons]
    omega

end Ways

section Collecting

variable [DecidableEq ι] {below : ι → List ι} {parent : ι → Option ι}
  {roots : List ι}

theorem count_generations_succ (h : Mirrors below parent) (depth : ℕ) (a : ι) :
    (generations below roots (depth + 1)).count a = roots.count a +
      ((parent a).map ((generations below roots depth).count ·)).getD 0 := by
  rw [generations, List.count_append, h.count_flatMap]

/-- A node is found once, as deep below the roots as its way up to one of them is long. -/
theorem count_generations_of_way (h : Mirrors below parent) (hnodup : roots.Nodup)
    (hfree : ∀ r ∈ roots, parent r = none) {r a : ι} {path : List ι} (hr : r ∈ roots)
    (hway : Way parent r path a) {depth : ℕ} (hdepth : path.length ≤ depth + 1) :
    (generations below roots depth).count a = 1 := by
  have hone : roots.count r = 1 := List.count_eq_one_of_mem hnodup hr
  -- One step up the way is one generation less; only its end is among the roots.
  induction hway generalizing depth with
  | here =>
    cases depth with
    | zero => exact hone
    | succ depth => rw [count_generations_succ h, hone, hfree r hr]; rfl
  | @up a b path hab hrest ih =>
    have hout : a ∉ roots := by
      intro ha
      rw [hfree a ha] at hab
      cases hab
    cases depth with
    | zero =>
      rw [List.length_cons] at hdepth
      exact absurd (List.eq_nil_of_length_eq_zero (by omega)) hrest.ne_nil
    | succ depth =>
      rw [count_generations_succ h, List.count_eq_zero_of_not_mem hout, hab, Option.map_some,
        Option.getD_some, Nat.zero_add]
      exact ih (by rw [List.length_cons] at hdepth; omega)

theorem topmost_of_mem_generations (h : Mirrors below parent)
    (hfree : ∀ r ∈ roots, parent r = none) {depth : ℕ} {a : ι}
    (ha : a ∈ generations below roots depth) : ∃ r ∈ roots, Topmost parent a r := by
  have own {a : ι} (ha : a ∈ roots) : ∃ r ∈ roots, Topmost parent a r :=
    ⟨a, ha, .refl, hfree a ha⟩
  induction depth generalizing a with
  | zero => exact own ha
  | succ depth ih =>
    rcases List.mem_append.1 ha with ha | ha
    · exact own ha
    · obtain ⟨b, hb, hab⟩ := List.mem_flatMap.1 ha
      obtain ⟨r, hr, hbr, htop⟩ := ih hb
      exact ⟨r, hr, .head (h.mem_iff.1 hab) hbr, htop⟩

end Collecting

end C4.Forest
