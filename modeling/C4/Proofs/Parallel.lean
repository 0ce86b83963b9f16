import C4.Outline.View

/-!
# Parallel stretches

However the stretches of a dynamic view were opened and closed, its segments hold all of its
steps, each of them once and in their order. This rests on every stretch being longer than
nothing, which the views that are built by the operations are.
-/
namespace C4

namespace Segment

def steps : Segment → List DynamicStep
  | single step => [step]
  | together steps => steps

end Segment

namespace DynamicView

def Advances (v : DynamicView) : Prop := ∀ s ∈ v.closed, s.start < s.stop

theorem Advances.parallel {v : DynamicView} (h : v.Advances) :
    ∀ s ∈ v.parallel, s.start < s.stop := by
  unfold DynamicView.parallel
  split
  · exact h
  · split
    · next hstart =>
      intro s hs
      rcases List.mem_append.1 hs with hs | hs
      · exact h s hs
      · obtain rfl := List.mem_singleton.1 hs
        exact hstart
    · exact h

theorem advances_create (scope : Option ElementId) (header : ViewHeader) :
    (create scope header).Advances := fun _ h => nomatch h

theorem Advances.set {v : DynamicView} (h : v.Advances) (s : DynamicView.Setting) :
    (v.set s).Advances := by
  cases s with
  | header setting => exact h
  | step source target description technology => exact h
  | startParallel => exact h.parallel
  | endParallel => exact h.parallel

theorem segmentsFrom_steps {steps : List DynamicStep} {stretches : List Stretch}
    (h : ∀ s ∈ stretches, s.start < s.stop) {limit index : Nat}
    (hlimit : steps.length ≤ limit + index) :
    (segmentsFrom steps stretches limit index).flatMap Segment.steps = steps.drop index := by
  -- Each segment moves the index on, by its length if it is a stretch, so the limit suffices.
  induction limit generalizing index with
  | zero =>
    rw [segmentsFrom, List.flatMap_nil, List.drop_eq_nil_of_le (by omega)]
  | succ limit ih =>
    unfold segmentsFrom
    cases hstep : steps[index]? with
    | none =>
      rw [List.drop_eq_nil_of_le (List.getElem?_eq_none_iff.1 hstep)]
      rfl
    | some step =>
      obtain ⟨hindex, rfl⟩ := List.getElem?_eq_some_iff.1 hstep
      cases hfind : stretches.find? (·.start = index) with
      | none =>
        change [steps[index]] ++ (segmentsFrom steps stretches limit (index + 1)).flatMap _ = _
        rw [ih (by omega), List.singleton_append, ← List.drop_eq_getElem_cons]
      | some s =>
        have hstart : s.start = index := by simpa using List.find?_some hfind
        have hadvance := h s (List.mem_of_find?_eq_some hfind)
        change (steps.drop s.start).take (s.stop - s.start) ++
          (segmentsFrom steps stretches limit s.stop).flatMap _ = _
        have hrest : steps.drop s.stop = (steps.drop s.start).drop (s.stop - s.start) := by
          rw [List.drop_drop]
          congr 1
          omega
        rw [ih (by omega), hrest, List.take_append_drop, hstart]

theorem segments_steps {v : DynamicView} (h : v.Advances) :
    v.segments.flatMap Segment.steps = v.steps :=
  segmentsFrom_steps h.parallel (Nat.le_refl _)

end DynamicView

namespace Views

inductive Reachable : Views → Prop
  | empty : Reachable .empty
  | addSystemContextView {v : Views} (h : Reachable v) (system : SoftwareSystemId)
    (key description : String) : Reachable (v.addSystemContextView system key description).2
  | addContainerView {v : Views} (h : Reachable v) (system : SoftwareSystemId)
    (key description : String) : Reachable (v.addContainerView system key description).2
  | addComponentView {v : Views} (h : Reachable v) (container : ContainerId)
    (key description : String) : Reachable (v.addComponentView container key description).2
  | addDynamicView {v : Views} (h : Reachable v) (scope : Option ElementId)
    (key description : String) : Reachable (v.addDynamicView scope key description).2
  | addDeploymentView {v : Views} (h : Reachable v) (system : Option SoftwareSystemId)
    (environment : Environment) (key description : String) :
    Reachable (v.addDeploymentView system environment key description).2
  | addFilteredView {v : Views} (h : Reachable v) (base : ViewId) (key description : String) :
    Reachable (v.addFilteredView base key description).2
  | setStatic {v v' : Views} (h : Reachable v) {id : ViewId} {s : StaticView.Setting}
    (hv : v.setStatic? id s = some v') : Reachable v'
  | setDynamic {v v' : Views} (h : Reachable v) {index : Nat} {s : DynamicView.Setting}
    (hv : v.setDynamic? index s = some v') : Reachable v'
  | setDeployment {v v' : Views} (h : Reachable v) {index : Nat} {s : DeploymentView.Setting}
    (hv : v.setDeployment? index s = some v') : Reachable v'
  | setFiltered {v v' : Views} (h : Reachable v) {index : Nat} {s : FilteredView.Setting}
    (hv : v.setFiltered? index s = some v') : Reachable v'
  | styles {v : Views} (h : Reachable v) (styles : Styles) : Reachable { v with styles := styles }

theorem setStatic?_dynamic {v v' : Views} {id : ViewId} {s : StaticView.Setting}
    (h : v.setStatic? id s = some v') : v'.dynamic = v.dynamic := by
  cases id with
  | systemContext | container | component =>
    obtain ⟨views, -, rfl⟩ := Option.map_eq_some_iff.1 h
    rfl
  | dynamic | deployment | filtered => cases h

theorem advances_of_setDynamic? {v v' : Views} {index : Nat} {s : DynamicView.Setting}
    (h : v.setDynamic? index s = some v') (hv : ∀ d ∈ v.dynamic, d.Advances) :
    ∀ d ∈ v'.dynamic, d.Advances := by
  obtain ⟨views, hviews, rfl⟩ := Option.map_eq_some_iff.1 h
  unfold modifyAt? at hviews
  split at hviews
  · cases hviews
    intro d hd
    obtain ⟨i, hi, rfl⟩ := Array.getElem_of_mem hd
    rw [Array.getElem_modify]
    split
    · exact (hv _ (Array.getElem_mem _)).set s
    · exact hv _ (Array.getElem_mem _)
  · cases hviews

theorem Reachable.advances {v : Views} (h : v.Reachable) : ∀ d ∈ v.dynamic, d.Advances := by
  induction h with
  | empty => simp [Views.empty]
  | addSystemContextView _ _ _ _ ih | addContainerView _ _ _ _ ih | addComponentView _ _ _ _ ih
  | addDeploymentView _ _ _ _ _ ih | addFilteredView _ _ _ _ ih | styles _ _ ih => exact ih
  | addDynamicView _ scope key description ih =>
    intro d hd
    rcases Array.mem_push.1 hd with hd | rfl
    · exact ih d hd
    · exact DynamicView.advances_create scope (.create key description)
  | setStatic _ hv ih => exact setStatic?_dynamic hv ▸ ih
  | setDynamic _ hv ih => exact advances_of_setDynamic? hv ih
  | setDeployment _ hv ih | setFiltered _ hv ih =>
    obtain ⟨views, -, rfl⟩ := Option.map_eq_some_iff.1 hv
    exact ih

end Views

end C4
