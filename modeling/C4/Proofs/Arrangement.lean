import C4.Proofs.Parallel

/-!
# Arrangement of the steps of a dynamic view

A dynamic view keeps its steps in one list and remembers ranges of it. What the ranges stand
for is a list of segments that grows from the left: single steps, full sequences, and at its
end the sequence that is still open. The ranges can be computed from the segments, and walking
along the ranges gives the segments back. So the text holds every step once, in the order of
the calls, and in a block with its neighbours of the same sequence only.
-/
namespace C4

open Dsl

namespace Segment

def stretches : Nat → List Segment → List Stretch
  | _, [] => []
  | start, single _ :: rest => stretches (start + 1) rest
  | start, together steps :: rest =>
    ⟨start, start + steps.length⟩ :: stretches (start + steps.length) rest

def Filled (segments : List Segment) : Prop := ∀ s ∈ segments, s.steps ≠ []

theorem filled_cons {s : Segment} {segments : List Segment} :
    Filled (s :: segments) ↔ s.steps ≠ [] ∧ Filled segments :=
  List.forall_mem_cons

theorem Filled.concat {segments : List Segment} (h : Filled segments) {s : Segment}
    (hs : s.steps ≠ []) : Filled (segments ++ [s]) := by
  intro t ht
  rcases List.mem_append.1 ht with ht | ht
  · exact h t ht
  · obtain rfl := List.mem_singleton.1 ht
    exact hs

theorem stretches_append (start : Nat) (segments more : List Segment) :
    stretches start (segments ++ more) =
      stretches start segments ++ stretches (start + (segments.flatMap steps).length) more := by
  induction segments generalizing start with
  | nil => simp [stretches]
  | cons s rest ih =>
    cases s with
    | single step =>
      rw [List.cons_append, stretches, ih, stretches]
      simp [steps, Nat.add_assoc, Nat.add_comm 1]
    | together inside =>
      rw [List.cons_append, stretches, ih, stretches]
      simp [steps, Nat.add_assoc]

theorem mem_stretches {start : Nat} {segments : List Segment} (h : Filled segments)
    {r : Stretch} (hr : r ∈ stretches start segments) :
    start ≤ r.start ∧ r.start < r.stop ∧
      r.stop ≤ start + (segments.flatMap steps).length := by
  induction segments generalizing start with
  | nil => cases hr
  | cons s rest ih =>
    obtain ⟨hs, hrest⟩ := filled_cons.1 h
    cases s with
    | single step =>
      have hbounds := ih hrest hr
      simp only [List.flatMap_cons, List.length_append, steps, List.length_singleton]
      omega
    | together inside =>
      have hinside : 0 < inside.length := List.length_pos_iff.2 hs
      simp only [List.flatMap_cons, List.length_append, steps]
      rcases List.mem_cons.1 hr with rfl | hr
      · simp only
        omega
      · have hbounds := ih hrest hr
        omega

theorem pairwise_stretches {segments : List Segment} (h : Filled segments) (start : Nat) :
    (stretches start segments).Pairwise fun earlier later => earlier.stop ≤ later.start := by
  induction segments generalizing start with
  | nil => exact List.Pairwise.nil
  | cons s rest ih =>
    have hrest := (filled_cons.1 h).2
    cases s with
    | single step => exact ih hrest _
    | together inside =>
      apply List.Pairwise.cons
      · intro r hr
        exact (mem_stretches hrest hr).1
      · exact ih hrest _

end Segment

namespace DynamicView

open Segment

theorem find?_eq_none_of_start_lt {earlier : List Stretch} {start : Nat}
    (h : ∀ r ∈ earlier, r.start < start) : earlier.find? (·.start = start) = none := by
  apply List.find?_eq_none.2
  intro r hr
  have hlt := h r hr
  simp only [decide_eq_true_eq]
  omega

theorem find?_stretches_succ {start : Nat} {segments : List Segment} (h : Filled segments) :
    (stretches (start + 1) segments).find? (·.start = start) = none := by
  apply List.find?_eq_none.2
  intro r hr
  have hle := (mem_stretches h hr).1
  simp only [decide_eq_true_eq]
  omega

theorem segmentsFrom_single {ranges : List Stretch} {before after : List DynamicStep}
    {step : DynamicStep} (h : ranges.find? (·.start = before.length) = none) (limit : Nat) :
    segmentsFrom (before ++ step :: after) ranges (limit + 1) before.length =
      .single step :: segmentsFrom (before ++ step :: after) ranges limit (before.length + 1) := by
  rw [segmentsFrom, List.getElem?_append_right (Nat.le_refl _), Nat.sub_self,
    List.getElem?_cons_zero]
  simp only [h]

theorem segmentsFrom_together {ranges : List Stretch} {before inside after : List DynamicStep}
    (hinside : inside ≠ [])
    (h : ranges.find? (·.start = before.length) =
      some ⟨before.length, before.length + inside.length⟩) (limit : Nat) :
    segmentsFrom (before ++ (inside ++ after)) ranges (limit + 1) before.length =
      .together inside :: segmentsFrom (before ++ (inside ++ after)) ranges limit
        (before.length + inside.length) := by
  obtain ⟨step, rest, rfl⟩ := List.exists_cons_of_ne_nil hinside
  rw [segmentsFrom, List.getElem?_append_right (Nat.le_refl _), Nat.sub_self, List.cons_append,
    List.getElem?_cons_zero]
  simp only [h, List.drop_left, Nat.add_sub_cancel_left]
  rw [← List.cons_append, List.take_left]

theorem segmentsFrom_stretches {segments : List Segment} (h : Filled segments)
    (before : List DynamicStep) {earlier : List Stretch}
    (hearlier : ∀ r ∈ earlier, r.start < before.length) {limit : Nat}
    (hlimit : (segments.flatMap Segment.steps).length ≤ limit) :
    segmentsFrom (before ++ segments.flatMap Segment.steps)
      (earlier ++ stretches before.length segments) limit before.length = segments := by
  -- What the walk has passed moves from the segments into `before` and `earlier`.
  induction segments generalizing before earlier limit with
  | nil =>
    cases limit with
    | zero => rfl
    | succ limit => simp [segmentsFrom]
  | cons s rest ih =>
    obtain ⟨hs, hrest⟩ := filled_cons.1 h
    have hskip := find?_eq_none_of_start_lt hearlier
    have hpos : 0 < s.steps.length := List.length_pos_iff.2 hs
    rw [List.flatMap_cons, List.length_append] at hlimit
    obtain ⟨limit, rfl⟩ : ∃ l, limit = l + 1 := ⟨limit - 1, by omega⟩
    have hrestLimit : (rest.flatMap Segment.steps).length ≤ limit := by omega
    cases s with
    | single step =>
      have hfind : (earlier ++ stretches (before.length + 1) rest).find?
          (·.start = before.length) = none := by
        rw [List.find?_append, hskip, Option.none_or, find?_stretches_succ hrest]
      have hpassed : ∀ r ∈ earlier, r.start < (before ++ [step]).length := by
        intro r hr
        have hlt := hearlier r hr
        rw [List.length_append]
        omega
      have hnext := ih hrest (before ++ [step]) hpassed hrestLimit
      rw [List.length_append, List.length_singleton, List.append_assoc] at hnext
      rw [List.flatMap_cons, stretches]
      change segmentsFrom (before ++ step :: _) _ _ _ = _
      rw [segmentsFrom_single hfind]
      exact congrArg _ hnext
    | together inside =>
      change inside ≠ [] at hs
      have hfind : (earlier ++ ⟨before.length, before.length + inside.length⟩ ::
          stretches (before.length + inside.length) rest).find? (·.start = before.length) =
            some ⟨before.length, before.length + inside.length⟩ := by
        rw [List.find?_append, hskip, Option.none_or, List.find?_cons_of_pos (by simp)]
      have hpassed : ∀ r ∈ earlier ++ [⟨before.length, before.length + inside.length⟩],
          r.start < (before ++ inside).length := by
        intro r hr
        change 0 < inside.length at hpos
        rw [List.length_append]
        rcases List.mem_append.1 hr with hr | hr
        · have hlt := hearlier r hr
          omega
        · obtain rfl := List.mem_singleton.1 hr
          exact Nat.lt_add_of_pos_right hpos
      have hnext := ih hrest (before ++ inside) hpassed hrestLimit
      rw [List.length_append, List.append_assoc, List.append_assoc, List.singleton_append]
        at hnext
      rw [List.flatMap_cons, stretches]
      change segmentsFrom (before ++ (inside ++ _)) _ _ _ = _
      rw [segmentsFrom_together hs hfind]
      exact congrArg _ hnext

def Setting.added? : Setting → Option DynamicStep
  | step source target description technology =>
    some ⟨source, target, provided description, technology⟩
  | header _ | startParallel | endParallel => none

def Setting.opens? : Setting → Option Bool
  | startParallel => some true
  | endParallel => some false
  | header _ | step .. => none

def Opened (calls : List Setting) : Prop := (calls.filterMap Setting.opens?).getLast? = some true

end DynamicView

/-- The segments that are complete, and the steps of the sequence that is open. -/
structure Arrangement where
  finished : List Segment
  collecting : Option (List DynamicStep)

namespace Arrangement

open Segment

def empty : Arrangement := ⟨[], none⟩

/-- An open sequence that collected nothing leaves no trace. -/
def segments (a : Arrangement) : List Segment :=
  match a.collecting with
  | none | some [] => a.finished
  | some (first :: rest) => a.finished ++ [.together (first :: rest)]

def add (a : Arrangement) (step : DynamicStep) : Arrangement :=
  match a.collecting with
  | none => { a with finished := a.finished ++ [.single step] }
  | some inside => { a with collecting := some (inside ++ [step]) }

def set (a : Arrangement) : DynamicView.Setting → Arrangement
  | .header _ => a
  | .step source target description technology =>
    a.add ⟨source, target, provided description, technology⟩
  | .startParallel => ⟨a.segments, some []⟩
  | .endParallel => ⟨a.segments, none⟩

theorem set_of_added {a : Arrangement} {call : DynamicView.Setting} {step : DynamicStep}
    (h : call.added? = some step) : a.set call = a.add step := by
  cases call <;> cases h
  rfl

theorem segments_set_of_not_added {a : Arrangement} {call : DynamicView.Setting}
    (h : call.added? = none) : (a.set call).segments = a.segments := by
  cases call with
  | header setting | startParallel | endParallel => rfl
  | step source target description technology => cases h

theorem segments_add (a : Arrangement) (step : DynamicStep) :
    (a.add step).segments.flatMap steps = a.segments.flatMap steps ++ [step] := by
  obtain ⟨finished, collecting⟩ := a
  cases collecting with
  | none => simp [add, segments, steps]
  | some inside => cases inside <;> simp [add, segments, steps]

structure Stored (a : Arrangement) (v : DynamicView) : Prop where
  filled : Filled a.finished
  steps : v.steps = a.segments.flatMap steps
  closed : v.closed = stretches 0 a.finished
  opened : v.opened = a.collecting.map fun _ => (a.finished.flatMap Segment.steps).length

theorem Stored.filled_segments {a : Arrangement} {v : DynamicView} (h : a.Stored v) :
    Filled a.segments := by
  unfold segments
  split
  · exact h.filled
  · exact h.filled
  · exact h.filled.concat (List.cons_ne_nil _ _)

theorem Stored.parallel {a : Arrangement} {v : DynamicView} (h : a.Stored v) :
    v.parallel = stretches 0 a.segments := by
  have hsteps := h.steps
  obtain ⟨finished, collecting⟩ := a
  unfold DynamicView.parallel
  rw [h.opened, h.closed]
  cases collecting with
  | none => rfl
  | some inside =>
    cases inside with
    | nil => simp [hsteps, segments]
    | cons first rest =>
      simp [hsteps, segments, Segment.steps, stretches_append, stretches]

theorem stored_empty (scope : Option ElementId) (header : ViewHeader) :
    empty.Stored (.create scope header) :=
  ⟨List.forall_mem_nil _, rfl, rfl, rfl⟩

theorem Stored.add {a : Arrangement} {v : DynamicView} (h : a.Stored v) (step : DynamicStep) :
    (a.add step).Stored (v.addStep step) := by
  have hsteps : v.steps ++ [step] = (a.add step).segments.flatMap Segment.steps := by
    rw [segments_add, h.steps]
  obtain ⟨finished, collecting⟩ := a
  cases collecting with
  | some inside => exact ⟨h.filled, hsteps, h.closed, h.opened⟩
  | none =>
    have hfilled : Filled (finished ++ [.single step]) :=
      h.filled.concat (List.cons_ne_nil _ _)
    have hclosed : v.closed = stretches 0 (finished ++ [.single step]) := by
      rw [h.closed, stretches_append]
      exact (List.append_nil _).symm
    exact ⟨hfilled, hsteps, hclosed, h.opened⟩

theorem Stored.set {a : Arrangement} {v : DynamicView} (h : a.Stored v)
    (call : DynamicView.Setting) : (a.set call).Stored (v.set call) := by
  cases call with
  | header setting => exact ⟨h.filled, h.steps, h.closed, h.opened⟩
  | step source target description technology => exact h.add _
  | startParallel =>
    have hopened : some v.steps.length = some (a.segments.flatMap Segment.steps).length := by
      rw [h.steps]
    exact ⟨h.filled_segments, h.steps, h.parallel, hopened⟩
  | endParallel => exact ⟨h.filled_segments, h.steps, h.parallel, rfl⟩

theorem Stored.run {a : Arrangement} {v : DynamicView} (h : a.Stored v)
    (calls : List DynamicView.Setting) :
    (calls.foldl Arrangement.set a).Stored (calls.foldl DynamicView.set v) := by
  induction calls generalizing a v with
  | nil => exact h
  | cons call rest ih => exact ih (h.set call)

theorem Stored.segmentsFrom {a : Arrangement} {v : DynamicView} (h : a.Stored v) {limit : Nat}
    (hlimit : v.steps.length ≤ limit) :
    DynamicView.segmentsFrom v.steps v.parallel limit 0 = a.segments := by
  rw [h.steps] at hlimit
  rw [h.parallel, h.steps]
  exact DynamicView.segmentsFrom_stretches h.filled_segments []
    (fun _ (hr : _ ∈ []) => nomatch hr) hlimit

end Arrangement

namespace Segment

/-- The steps, each with the number of its sequence if it belongs to one; the sequences are
numbered from `first` on. -/
def placed : Nat → List Segment → List (DynamicStep × Option Nat)
  | _, [] => []
  | first, single step :: rest => (step, none) :: placed first rest
  | first, together inside :: rest => inside.map (·, some first) ++ placed (first + 1) rest

def sequences : List Segment → Nat
  | [] => 0
  | single _ :: rest => sequences rest
  | together _ :: rest => sequences rest + 1

theorem sequences_append (segments more : List Segment) :
    sequences (segments ++ more) = sequences segments + sequences more := by
  induction segments with
  | nil => simp [sequences]
  | cons s rest ih =>
    cases s with
    | single step => exact ih
    | together inside =>
      simp only [List.cons_append, sequences, ih]
      omega

theorem placed_append (first : Nat) (segments more : List Segment) :
    placed first (segments ++ more) =
      placed first segments ++ placed (first + sequences segments) more := by
  induction segments generalizing first with
  | nil => simp [placed, sequences]
  | cons s rest ih =>
    cases s with
    | single step => simp [placed, sequences, ih]
    | together inside => simp [placed, sequences, ih, Nat.add_comm 1, Nat.add_assoc]

theorem map_fst_placed (first : Nat) (segments : List Segment) :
    (placed first segments).map Prod.fst = segments.flatMap steps := by
  induction segments generalizing first with
  | nil => rfl
  | cons s rest ih =>
    cases s with
    | single step => simp [placed, steps, ih]
    | together inside =>
      have hinside : (inside.map (·, some first)).map Prod.fst = inside := by
        rw [List.map_map]
        exact List.map_id inside
      rw [placed, List.map_append, hinside, ih, List.flatMap_cons, steps]

end Segment

namespace Arrangement

open Segment

def place (a : Arrangement) : Option Nat := a.collecting.map fun _ => sequences a.finished

theorem placed_add (a : Arrangement) (step : DynamicStep) :
    placed 0 (a.add step).segments = placed 0 a.segments ++ [(step, a.place)] := by
  obtain ⟨finished, collecting⟩ := a
  cases collecting with
  | none => simp [add, segments, place, placed_append, placed]
  | some inside => cases inside <;> simp [add, segments, place, placed_append, placed]

theorem placed_prefix_set (a : Arrangement) (call : DynamicView.Setting) :
    placed 0 a.segments <+: placed 0 (a.set call).segments := by
  cases h : call.added? with
  | none =>
    simp only [segments_set_of_not_added h, List.prefix_rfl]
  | some step =>
    rw [set_of_added h, placed_add]
    exact List.prefix_append _ _

theorem placed_prefix_run (a : Arrangement) (calls : List DynamicView.Setting) :
    placed 0 a.segments <+: placed 0 (calls.foldl set a).segments := by
  induction calls generalizing a with
  | nil => exact List.prefix_rfl
  | cons call rest ih => exact (placed_prefix_set a call).trans (ih _)

theorem steps_run (a : Arrangement) (calls : List DynamicView.Setting) :
    (calls.foldl set a).segments.flatMap steps =
      a.segments.flatMap steps ++ calls.filterMap DynamicView.Setting.added? := by
  induction calls generalizing a with
  | nil => simp
  | cons call rest ih =>
    rw [List.foldl_cons, ih]
    cases h : call.added? with
    | none => rw [segments_set_of_not_added h, List.filterMap_cons_none h]
    | some step => simp [set_of_added h, segments_add, List.filterMap_cons_some h]

theorem getElem?_placed {before after : List DynamicView.Setting} {call : DynamicView.Setting}
    {step : DynamicStep} (h : call.added? = some step) :
    (placed 0 ((before ++ call :: after).foldl set empty).segments)[
      (before.filterMap DynamicView.Setting.added?).length]? =
      some (step, (before.foldl set empty).place) := by
  have hlength : (placed 0 (before.foldl set empty).segments).length =
      (before.filterMap DynamicView.Setting.added?).length := by
    rw [← List.length_map Prod.fst, map_fst_placed, steps_run]
    rfl
  have hprefix := placed_prefix_run ((before.foldl set empty).set call) after
  rw [set_of_added h, placed_add] at hprefix
  obtain ⟨more, hmore⟩ := hprefix
  rw [List.foldl_append, List.foldl_cons, set_of_added h, ← hmore, ← hlength,
    List.append_assoc, List.getElem?_append_right (Nat.le_refl _), Nat.sub_self]
  rfl

theorem isSome_collecting_set (a : Arrangement) (call : DynamicView.Setting) :
    (a.set call).collecting.isSome = call.opens?.getD a.collecting.isSome := by
  cases call with
  | header setting | startParallel | endParallel => rfl
  | step source target description technology =>
    obtain ⟨finished, collecting⟩ := a
    cases collecting <;> rfl

theorem isSome_collecting_run (a : Arrangement) (calls : List DynamicView.Setting) :
    (calls.foldl set a).collecting.isSome =
      (calls.filterMap DynamicView.Setting.opens?).getLast?.getD a.collecting.isSome := by
  induction calls generalizing a with
  | nil => rfl
  | cons call rest ih =>
    rw [List.foldl_cons, ih, isSome_collecting_set]
    cases h : call.opens? with
    | none => rw [List.filterMap_cons_none h, Option.getD_none]
    | some b => rw [List.filterMap_cons_some h, List.getLast?_cons, Option.getD_some,
        Option.getD_some]

theorem isSome_collecting_iff (calls : List DynamicView.Setting) :
    (calls.foldl set empty).collecting.isSome ↔ DynamicView.Opened calls := by
  rw [isSome_collecting_run, DynamicView.Opened]
  cases (calls.filterMap DynamicView.Setting.opens?).getLast? <;> simp [empty]

theorem isSome_place (a : Arrangement) : a.place.isSome = a.collecting.isSome :=
  Option.isSome_map

theorem place_of_isSome {a : Arrangement} (h : a.collecting.isSome) :
    a.place = some (sequences a.finished) := by
  obtain ⟨inside, hinside⟩ := Option.isSome_iff_exists.1 h
  rw [place, hinside, Option.map_some]

theorem place_run_of_not_opens {a : Arrangement} {calls : List DynamicView.Setting}
    (h : ∀ call ∈ calls, call.opens? = none) : (calls.foldl set a).place = a.place := by
  induction calls generalizing a with
  | nil => rfl
  | cons call rest ih =>
    obtain ⟨hcall, hrest⟩ := List.forall_mem_cons.1 h
    rw [List.foldl_cons, ih hrest]
    cases call with
    | header setting => rfl
    | startParallel | endParallel => cases hcall
    | step source target description technology =>
      obtain ⟨finished, collecting⟩ := a
      cases collecting <;> rfl

theorem sequences_le_segments (a : Arrangement) :
    sequences a.finished ≤ sequences a.segments := by
  unfold segments
  split
  · exact Nat.le_refl _
  · exact Nat.le_refl _
  · rw [sequences_append]
    exact Nat.le_add_right _ _

theorem sequences_add {a : Arrangement} (h : a.collecting.isSome) (step : DynamicStep) :
    sequences (a.add step).segments = sequences a.finished + 1 := by
  obtain ⟨finished, collecting⟩ := a
  cases collecting with
  | none => cases h
  | some inside => cases inside <;> simp [add, segments, sequences_append, sequences]

theorem sequences_finished_le_set (a : Arrangement) (call : DynamicView.Setting) :
    sequences a.finished ≤ sequences (a.set call).finished := by
  cases call with
  | header setting => exact Nat.le_refl _
  | startParallel | endParallel => exact sequences_le_segments a
  | step source target description technology =>
    obtain ⟨finished, collecting⟩ := a
    cases collecting with
    | none => simp [set, add, sequences_append]
    | some inside => exact Nat.le_refl _

theorem sequences_finished_le_run (a : Arrangement) (calls : List DynamicView.Setting) :
    sequences a.finished ≤ sequences (calls.foldl set a).finished := by
  induction calls generalizing a with
  | nil => exact Nat.le_refl _
  | cons call rest ih => exact Nat.le_trans (sequences_finished_le_set a call) (ih _)

theorem sequences_segments_le_set (a : Arrangement) (call : DynamicView.Setting) :
    sequences a.segments ≤ sequences (a.set call).segments := by
  cases call with
  | header setting | startParallel | endParallel => exact Nat.le_refl _
  | step source target description technology =>
    obtain ⟨finished, collecting⟩ := a
    cases collecting with
    | none => simp [set, add, segments, sequences_append]
    | some inside => cases inside <;> simp [set, add, segments, sequences_append, sequences]

theorem sequences_le_run_of_opens {a : Arrangement} {calls : List DynamicView.Setting}
    (h : ¬∀ call ∈ calls, call.opens? = none) :
    sequences a.segments ≤ sequences (calls.foldl set a).finished := by
  induction calls generalizing a with
  | nil => exact absurd (List.forall_mem_nil _) h
  | cons call rest ih =>
    by_cases hcall : call.opens? = none
    · have hrest : ¬∀ c ∈ rest, c.opens? = none := by
        intro hrest
        exact h (List.forall_mem_cons.2 ⟨hcall, hrest⟩)
      exact Nat.le_trans (sequences_segments_le_set a call) (ih hrest)
    · have hfinished : (a.set call).finished = a.segments := by
        cases call with
        | header setting | step source target description technology => exact absurd rfl hcall
        | startParallel | endParallel => rfl
      rw [← hfinished]
      exact sequences_finished_le_run _ rest

theorem place_run_eq_iff {a : Arrangement} (h : a.collecting.isSome) (step : DynamicStep)
    {calls : List DynamicView.Setting}
    (hcalls : (calls.foldl set (a.add step)).collecting.isSome) :
    (calls.foldl set (a.add step)).place = a.place ↔ ∀ call ∈ calls, call.opens? = none := by
  constructor
  · intro hplace
    by_cases hopens : ∀ call ∈ calls, call.opens? = none
    · exact hopens
    · have hle := sequences_le_run_of_opens (a := a.add step) hopens
      rw [sequences_add h] at hle
      rw [place_of_isSome h, place_of_isSome hcalls, Option.some.injEq] at hplace
      omega
  · intro hopens
    rw [place_run_of_not_opens hopens]
    obtain ⟨finished, collecting⟩ := a
    cases collecting <;> rfl

end Arrangement

end C4
