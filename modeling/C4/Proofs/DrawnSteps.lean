import C4.Proofs.Arrangement
import C4.Proofs.Assembly
import C4.Proofs.Calls

/-!
# Drawn steps

The steps of a dynamic view are read back by counting braces: each line stands at the top of the
view or in one of the outermost blocks. Whatever calls made the view, the lines are its steps
in the order of the calls. A step stands in a block exactly when a sequence was open as it was
added, and in the same block as another one exactly when nothing was opened or closed between.
The view is drawn if its scope and the ends of its steps can be found, and holds nothing else.
-/
namespace C4

namespace Dsl

/-- The lines below so many open blocks, each with the number of the outermost block that it
stands in, if it stands in one. -/
def linesByBlock : Nat → Nat → Script → List (String × Option Nat)
  | _, _, [] => []
  | depth, block, .write _ (.line text) :: rest =>
    (text, if depth = 0 then none else some block) :: linesByBlock depth block rest
  | depth, block, .write _ (.opening _) :: rest => linesByBlock (depth + 1) block rest
  | depth, block, .write _ .closing :: rest =>
    linesByBlock (depth - 1) (if depth = 1 then block + 1 else block) rest
  | depth, block, .write _ .gap :: rest => linesByBlock depth block rest
  | depth, block, .note _ :: rest => linesByBlock depth block rest
  | depth, block, .stop _ :: rest => linesByBlock depth block rest

def stepLine (ends : DynamicStep → String) (step : DynamicStep) : String :=
  ends step ++ arguments [step.description, step.technology]

section Steps

variable {m : Model} {ends : DynamicStep → String}

theorem stepItems_of_arrow {step : DynamicStep}
    (h : arrow m step.source step.target = .ok (ends step)) (subject : Subject) :
    stepItems m subject step = [.line subject (stepLine ends step)] := by
  rw [stepItems, h]
  rfl

theorem linesByBlock_inside {inside : List DynamicStep} (subject : Subject)
    (h : ∀ step ∈ inside, arrow m step.source step.target = .ok (ends step)) (block : Nat)
    (rest : List Event) :
    linesByBlock 1 block (eventsOf (inside.map fun step =>
        .block subject "" (stepItems m subject step)) ++ rest) =
      inside.map (fun step => (stepLine ends step, some block)) ++ linesByBlock 1 block rest := by
  induction inside with
  | nil => rfl
  | cons step inside ih =>
    obtain ⟨hstep, hinside⟩ := List.forall_mem_cons.1 h
    rw [List.map_cons, eventsOf_cons, stepItems_of_arrow hstep, List.append_assoc,
      List.map_cons, List.cons_append, ← ih hinside]
    rfl

theorem linesByBlock_segments {segments : List Segment} (subject : Subject)
    (h : ∀ step ∈ segments.flatMap Segment.steps,
      arrow m step.source step.target = .ok (ends step)) (block : Nat) :
    linesByBlock 0 block (eventsOf (segments.flatMap (segmentItems m subject))) =
      (Segment.placed block segments).map fun p => (stepLine ends p.1, p.2) := by
  induction segments generalizing block with
  | nil => rfl
  | cons s rest ih =>
    rw [List.flatMap_cons, eventsOf_append]
    have hs : ∀ step ∈ s.steps, arrow m step.source step.target = .ok (ends step) := by
      intro step hstep
      exact h step (List.mem_flatMap.2 ⟨s, List.mem_cons_self, hstep⟩)
    have hrest := ih fun step hstep =>
      h step (by rw [List.flatMap_cons]; exact List.mem_append_right _ hstep)
    cases s with
    | single step =>
      rw [segmentItems, stepItems_of_arrow (hs step List.mem_cons_self), Segment.placed,
        List.map_cons, ← hrest]
      rfl
    | together inside =>
      change ∀ step ∈ inside, arrow m step.source step.target = .ok (ends step) at hs
      have hinside := linesByBlock_inside subject hs block
        (.write subject .closing :: eventsOf (rest.flatMap (segmentItems m subject)))
      have hplaced : inside.map (fun step => (stepLine ends step, some block)) =
          (inside.map (·, some block)).map fun p => (stepLine ends p.1, p.2) := by
        rw [List.map_map]
        rfl
      rw [Segment.placed, List.map_append, ← hrest, ← hplaced]
      simpa [segmentItems, eventsOf_cons, Item.events, eventsOf, linesByBlock] using hinside

theorem fault_stepItems_iff {subject : Subject} {step : DynamicStep} :
    fault (stepItems m subject step) = none ↔
      ∃ ends, arrow m step.source step.target = .ok ends := by
  constructor
  · intro h
    obtain ⟨ends, hends, -⟩ := exists_token_of_fault h
    exact ⟨ends, hends⟩
  · rintro ⟨ends, hends⟩
    have hitems : stepItems m subject step = [.line subject (stepLine (fun _ => ends) step)] :=
      stepItems_of_arrow hends subject
    rw [hitems, fault_line]

theorem fault_inside_iff {subject : Subject} {inside : List DynamicStep} :
    fault (inside.map fun step => .block subject "" (stepItems m subject step)) = none ↔
      ∀ step ∈ inside, ∃ ends, arrow m step.source step.target = .ok ends := by
  induction inside with
  | nil => exact iff_of_true fault_nil (List.forall_mem_nil _)
  | cons step inside ih =>
    rw [List.map_cons, fault_cons, Option.or_eq_none_iff, fault_block, fault_stepItems_iff, ih,
      List.forall_mem_cons]

theorem fault_segments_iff {subject : Subject} {segments : List Segment} :
    fault (segments.flatMap (segmentItems m subject)) = none ↔
      ∀ step ∈ segments.flatMap Segment.steps,
        ∃ ends, arrow m step.source step.target = .ok ends := by
  induction segments with
  | nil => exact iff_of_true fault_nil (List.forall_mem_nil _)
  | cons s rest ih =>
    rw [List.flatMap_cons, fault_append, Option.or_eq_none_iff, ih, List.flatMap_cons,
      List.forall_mem_append]
    refine and_congr_left' ?_
    cases s with
    | single step => exact fault_stepItems_iff.trans (by simp [Segment.steps])
    | together inside =>
      rw [segmentItems, fault_block]
      exact fault_inside_iff

end Steps

end Dsl

namespace DynamicView

open Dsl Arrangement

def drawnLines (m : Model) (subject : Subject) (v : DynamicView) : List (String × Option Nat) :=
  linesByBlock 0 0 (stepsScript m subject v)

def stepCount (calls : List Setting) : Nat := (calls.filterMap Setting.added?).length

section Calls

variable {scope : Option ElementId} {header : ViewHeader}

theorem stored_calls (scope : Option ElementId) (header : ViewHeader) (calls : List Setting) :
    (calls.foldl Arrangement.set empty).Stored (calls.foldl set (create scope header)) :=
  (stored_empty scope header).run calls

theorem advances_calls (calls : List Setting) :
    (calls.foldl set (create scope header)).Advances :=
  List.foldlRecOn calls set (advances_create scope header) fun _ h call _ => h.set call

theorem segments_calls (calls : List Setting) :
    (calls.foldl set (create scope header)).segments =
      (calls.foldl Arrangement.set empty).segments :=
  (stored_calls scope header calls).segmentsFrom (Nat.le_refl _)

theorem drawnLines_calls {m : Model} {ends : DynamicStep → String} {calls : List Setting}
    (subject : Subject) (h : ∀ step ∈ (calls.foldl set (create scope header)).steps,
      arrow m step.source step.target = .ok (ends step)) :
    drawnLines m subject (calls.foldl set (create scope header)) =
      (Segment.placed 0 (calls.foldl Arrangement.set empty).segments).map
        fun p => (stepLine ends p.1, p.2) := by
  rw [(stored_calls scope header calls).steps] at h
  rw [drawnLines, ← eventsOf_segments, segments_calls, linesByBlock_segments subject h]

theorem getElem?_drawnLines {m : Model} {ends : DynamicStep → String} {calls before after :
    List Setting} {call : Setting} {step : DynamicStep} (subject : Subject)
    (h : ∀ step ∈ (calls.foldl set (create scope header)).steps,
      arrow m step.source step.target = .ok (ends step))
    (hcalls : calls = before ++ call :: after) (hadded : call.added? = some step) :
    (drawnLines m subject (calls.foldl set (create scope header)))[stepCount before]? =
      some (stepLine ends step, (before.foldl Arrangement.set empty).place) := by
  rw [drawnLines_calls subject h, List.getElem?_map, hcalls, stepCount, getElem?_placed hadded]
  rfl

theorem isSome_place_iff (calls : List Setting) :
    (calls.foldl Arrangement.set empty).place.isSome ↔ Opened calls := by
  rw [isSome_place]
  exact isSome_collecting_iff calls

theorem place_eq_place_iff {before between : List Setting} {call : Setting} {step : DynamicStep}
    (hadded : call.added? = some step) (hbefore : Opened before)
    (hbetween : Opened (before ++ call :: between)) :
    (before.foldl Arrangement.set empty).place =
        ((before ++ call :: between).foldl Arrangement.set empty).place ↔
      ∀ c ∈ between, c.opens? = none := by
  rw [← isSome_collecting_iff] at hbefore hbetween
  rw [List.foldl_append, List.foldl_cons, set_of_added hadded] at hbetween ⊢
  rw [eq_comm]
  exact place_run_eq_iff hbefore step hbetween

end Calls

/-- Some lines, each with the block around it, tell the steps as some calls added them. -/
structure TellsCalled (ends : DynamicStep → String) (calls : List Setting)
    (lines : List (String × Option Nat)) : Prop where
  steps : lines.map Prod.fst = (calls.filterMap Setting.added?).map (stepLine ends)
  inside : ∀ before call after step, calls = before ++ call :: after → call.added? = some step →
    ∃ block, lines[stepCount before]? = some (stepLine ends step, block) ∧
      (block.isSome ↔ Opened before)
  shared : ∀ before call between call' after step step',
    calls = before ++ call :: (between ++ call' :: after) →
    call.added? = some step → call'.added? = some step' →
    Opened before → Opened (before ++ call :: between) →
    ∃ block block', lines[stepCount before]? = some (stepLine ends step, some block) ∧
      lines[stepCount (before ++ call :: between)]? = some (stepLine ends step', some block') ∧
      (block = block' ↔ ∀ c ∈ between, c.opens? = none)

theorem tellsCalled_drawnLines {scope : Option ElementId} {header : ViewHeader}
    {calls : List Setting} {m : Model} {ends : DynamicStep → String} (subject : Subject)
    (h : ∀ step ∈ (calls.foldl set (create scope header)).steps,
      arrow m step.source step.target = .ok (ends step)) :
    TellsCalled ends calls (drawnLines m subject (calls.foldl set (create scope header))) := by
  have hadded : (calls.foldl Arrangement.set empty).segments.flatMap Segment.steps =
    calls.filterMap Setting.added? := steps_run empty calls
  have hline {before call after step} (hcalls : calls = before ++ call :: after)
      (hadded : call.added? = some step) := getElem?_drawnLines subject h hcalls hadded
  refine ⟨?steps, ?inside, ?shared⟩
  case steps =>
    rw [drawnLines_calls subject h, ← hadded, ← Segment.map_fst_placed 0, List.map_map,
      List.map_map]
    rfl
  case inside =>
    intro before call after step hcalls hadded
    exact ⟨_, hline hcalls hadded, isSome_place_iff before⟩
  case shared =>
    intro before call between call' after step step' hcalls hadded hadded' hbefore hbetween
    have hcalls' : calls = (before ++ call :: between) ++ call' :: after := by
      rw [hcalls, List.append_assoc, List.cons_append]
    obtain ⟨block, hblock⟩ := Option.isSome_iff_exists.1 ((isSome_place_iff before).2 hbefore)
    obtain ⟨block', hblock'⟩ :=
      Option.isSome_iff_exists.1 ((isSome_place_iff (before ++ call :: between)).2 hbetween)
    have hshared := place_eq_place_iff hadded hbefore hbetween
    rw [hblock, hblock', Option.some.injEq] at hshared
    have hfirst := hline hcalls hadded
    have hsecond := hline hcalls' hadded'
    rw [hblock] at hfirst
    rw [hblock'] at hsecond
    exact ⟨block, block', hfirst, hsecond, hshared⟩

def scopeToken (m : Model) (v : DynamicView) : Except RenderError String :=
  match v.scope with
  | none => .ok "*"
  | some scope => m.token scope

/-- A view that is drawn: its header, what the loop over the steps calls, and at most one line
more. -/
structure Drawn (w : Workspace) (l : Layout) (index : ℕ) (v : DynamicView)
    (calls : List Setting) : Prop where
  text : w.Renders l (.view (.dynamic index))
  directives : ∃ scope, v.scopeToken w.model = .ok scope ∧
    (w.fragmentPlaced (.view (.dynamic index))).map (·.directive) =
      .opening (viewHeaderLine (.dynamic index) scope v.header) ::
        (callsOf (stepsScript w.model (viewSubject (.dynamic index) v.header) v) ++
          (if v.header.autoLayout then [.line "autoLayout"] else []) ++ [.closing])
  steps : ∃ ends : DynamicStep → String,
    (∀ step ∈ v.steps, arrow w.model step.source step.target = .ok (ends step)) ∧
    TellsCalled ends calls (v.drawnLines w.model (viewSubject (.dynamic index) v.header))
  document : (∃ text, (w.render l).result = .ok text) →
    w.slice w.inViews (.view (.dynamic index)) <:+: w.placed l

section View

variable {w : Workspace} {l : Layout} {index : ℕ} {v : DynamicView}

theorem mem_ids_of_dynamic (hv : w.views.dynamic[index]? = some v) :
    .dynamic index ∈ w.views.ids := by
  obtain ⟨hindex, -⟩ := Array.getElem?_eq_some_iff.1 hv
  simp [Views.ids, hindex]

theorem script_dynamic (hv : w.views.dynamic[index]? = some v) :
    Fragment.script w (.view (.dynamic index)) =
      Script.withToken (v.scopeToken w.model) fun scope =>
        Script.opening (viewSubject (.dynamic index) v.header)
            (viewHeaderLine (.dynamic index) scope v.header) ++
          (stepsScript w.model (viewSubject (.dynamic index) v.header) v ++
            autoLayoutScript (viewSubject (.dynamic index) v.header) v.header) ++
          Script.closing (viewSubject (.dynamic index) v.header) := by
  simp only [Fragment.script, viewScript, hv]
  rfl

theorem firstStop_autoLayoutScript (subject : Subject) (header : ViewHeader) :
    firstStop (autoLayoutScript subject header) = none := by
  unfold autoLayoutScript
  split <;> rfl

theorem callsOf_autoLayoutScript (subject : Subject) (header : ViewHeader) :
    callsOf (autoLayoutScript subject header) =
      if header.autoLayout then [.line "autoLayout"] else [] := by
  unfold autoLayoutScript
  split <;> rfl

theorem firstStop_stepsScript_iff (h : v.Advances) {m : Model} {subject : Subject} :
    firstStop (stepsScript m subject v) = none ↔
      ∀ step ∈ v.steps, ∃ ends, arrow m step.source step.target = .ok ends := by
  rw [← eventsOf_segments, ← segments_steps h]
  exact fault_segments_iff

theorem firstStop_script_iff (hv : w.views.dynamic[index]? = some v) (h : v.Advances) :
    firstStop (Fragment.script w (.view (.dynamic index))) = none ↔
      (∃ scope, v.scopeToken w.model = .ok scope) ∧
      ∀ step ∈ v.steps, ∃ ends, arrow w.model step.source step.target = .ok ends := by
  rw [script_dynamic hv]
  cases hscope : v.scopeToken w.model with
  | error e => exact iff_of_false nofun fun ⟨⟨_, h⟩, _⟩ => nomatch h
  | ok scope =>
    rw [Script.withToken, firstStop_between, firstStop_append, firstStop_autoLayoutScript,
      Option.or_none, firstStop_stepsScript_iff h]
    exact (and_iff_right ⟨scope, rfl⟩).symm

theorem calls_fragmentPlaced (hv : w.views.dynamic[index]? = some v)
    (hstop : firstStop (Fragment.script w (.view (.dynamic index))) = none) :
    ∃ scope, v.scopeToken w.model = .ok scope ∧
      (w.fragmentPlaced (.view (.dynamic index))).map (·.directive) =
        .opening (viewHeaderLine (.dynamic index) scope v.header) ::
          (callsOf (stepsScript w.model (viewSubject (.dynamic index) v.header) v) ++
            (if v.header.autoLayout then [.line "autoLayout"] else []) ++ [.closing]) := by
  rw [Workspace.fragmentPlaced, beforeStop_of_none hstop, ← callsOf_eq_map_placedFrom hstop]
  rw [script_dynamic hv] at hstop ⊢
  obtain ⟨scope, hscope⟩ := exists_token_of_firstStop hstop
  rw [hscope, Script.withToken, firstStop_between] at hstop
  have hsteps := hstop
  rw [firstStop_append, firstStop_autoLayoutScript, Option.or_none] at hsteps
  refine ⟨scope, hscope, ?_⟩
  rw [hscope, Script.withToken, callsOf_between hstop, callsOf_append hsteps,
    callsOf_autoLayoutScript]

theorem drawn_of_firstStop {scope : Option ElementId} {header : ViewHeader} {calls : List Setting}
    (hv : w.views.dynamic[index]? = some (calls.foldl set (create scope header)))
    (hstop : firstStop (Fragment.script w (.view (.dynamic index))) = none) :
    Drawn w l index (calls.foldl set (create scope header)) calls := by
  have hshown : ∃ text, (w.renderFragment (.view (.dynamic index)) l).result = .ok text :=
    ⟨_, result_perform l hstop⟩
  have hfault := Workspace.fault_of_shown (mem_ids_of_dynamic hv) (Or.inl hshown)
  obtain ⟨-, hresolved⟩ := (firstStop_script_iff hv (advances_calls calls)).1 hstop
  choose! ends harrow using hresolved
  refine ⟨Workspace.renders_of_fault hfault l, calls_fragmentPlaced hv hstop,
    ⟨ends, harrow, tellsCalled_drawnLines _ harrow⟩, fun hdocument => ?_⟩
  refine Workspace.infix_of_mem_viewParts
    (Workspace.outcome_ok_iff_fault.1 (Workspace.exists_result_iff.1 hdocument)) ?_
  exact List.mem_append_left _ (List.mem_map_of_mem (mem_ids_of_dynamic hv))

end View

/-- Whatever is called in whatever order, the ranges are not empty, do not overlap and lie one
after the other, and the loop along them ends. If the ends of all steps can be found, it draws every
step once and in the order of the calls, and the blocks tell which sequence was open. Then the view
is drawn as well, by itself and in its document, if its scope can be found. -/
theorem drawn_as_called (scope : Option ElementId) (header : ViewHeader) (calls : List Setting) :
    let v := calls.foldl set (create scope header)
    (∀ r ∈ v.parallel, r.start < r.stop ∧ r.stop ≤ v.steps.length) ∧
    v.parallel.Pairwise (fun earlier later => earlier.stop ≤ later.start) ∧
    v.steps = calls.filterMap Setting.added? ∧
    (∀ (m : Model) (subject : Subject) (limit : ℕ), v.steps.length ≤ limit →
      stepLoop m subject v.steps v.parallel limit 0 = stepsScript m subject v) ∧
    (∀ (m : Model) (subject : Subject) (ends : DynamicStep → String),
      (∀ step ∈ v.steps, arrow m step.source step.target = .ok (ends step)) →
      firstStop (stepsScript m subject v) = none ∧
      TellsCalled ends calls (v.drawnLines m subject)) ∧
    ∀ (w : Workspace) (l : Layout) (index : ℕ), w.views.dynamic[index]? = some v →
      ((∃ text, (w.renderFragment (.view (.dynamic index)) l).result = .ok text) ↔
        (∃ scope, v.scopeToken w.model = .ok scope) ∧
        ∀ step ∈ v.steps, ∃ ends, arrow w.model step.source step.target = .ok ends) ∧
      ((∃ text, (w.render l).result = .ok text) →
        ∃ text, (w.renderFragment (.view (.dynamic index)) l).result = .ok text) ∧
      ((∃ text, (w.renderFragment (.view (.dynamic index)) l).result = .ok text) →
        Drawn w l index v calls) := by
  intro v
  have hstored := stored_calls scope header calls
  have hsteps : v.steps = calls.filterMap Setting.added? :=
    hstored.steps.trans (steps_run empty calls)
  have hranges : ∀ r ∈ v.parallel, r.start < r.stop ∧ r.stop ≤ v.steps.length := by
    intro r hr
    rw [hstored.parallel] at hr
    obtain ⟨-, hlt, hle⟩ := Segment.mem_stretches hstored.filled_segments hr
    rw [Nat.zero_add, ← hstored.steps] at hle
    exact ⟨hlt, hle⟩
  have hpairwise : v.parallel.Pairwise fun earlier later => earlier.stop ≤ later.start := by
    rw [hstored.parallel]
    exact Segment.pairwise_stretches hstored.filled_segments 0
  have hadvances : v.Advances := advances_calls calls
  refine ⟨hranges, hpairwise, hsteps, ?loop, ?lines, ?view⟩
  case loop =>
    intro m subject limit hlimit
    have hsegments : segmentsFrom v.steps v.parallel limit 0 = v.segments := by
      rw [hstored.segmentsFrom hlimit, segments_calls]
    rw [← eventsOf_segmentsFrom, hsegments, eventsOf_segments]
  case lines =>
    intro m subject ends harrow
    refine ⟨(firstStop_stepsScript_iff hadvances).2 fun step hstep => ⟨_, harrow step hstep⟩, ?_⟩
    exact tellsCalled_drawnLines subject harrow
  case view =>
    intro w l index hv
    have hiff : (∃ text, (w.renderFragment (.view (.dynamic index)) l).result = .ok text) ↔
        firstStop (Fragment.script w (.view (.dynamic index))) = none :=
      ⟨fun ⟨text, htext⟩ => firstStop_of_result htext, fun hstop => ⟨_, result_perform l hstop⟩⟩
    refine ⟨hiff.trans (firstStop_script_iff hv hadvances), fun hok => ?_, fun hok => ?_⟩
    · have hfault := Workspace.fault_of_shown (mem_ids_of_dynamic hv) (Or.inr hok)
      exact ⟨_, Workspace.renders_of_fault hfault l⟩
    · exact drawn_of_firstStop hv (hiff.1 hok)

/-- Sequences that are closed twice, opened twice, empty, and left open, and the view that they
make. -/
theorem drawn_as_called_of_unmatched_calls :
    ∃ (w : Workspace) (step : String → Setting) (calls : List Setting) (v : DynamicView)
      (text : String),
      calls = [.endParallel, .startParallel, .startParallel, step "a", step "b", .startParallel,
        step "c", .endParallel, .endParallel, step "d", .startParallel, step "e",
        .startParallel] ∧
      v = calls.foldl set (create none (.create "" "")) ∧
      v.parallel = [⟨0, 2⟩, ⟨2, 3⟩, ⟨4, 5⟩] ∧
      (∃ block block',
        (v.drawnLines w.model .views)[1]? = some ("user -> user \"b\"", some block) ∧
        (v.drawnLines w.model .views)[2]? = some ("user -> user \"c\"", some block') ∧
        block ≠ block') ∧
      (∃ block, (v.drawnLines w.model .views)[3]? = some ("user -> user \"d\"", block) ∧
        block = none) ∧
      w.views.dynamic[0]? = some v ∧
      (w.renderFragment (.view (.dynamic 0)) ⟨1, false⟩).result = .ok text ∧
      text = "dynamic * \x7b\n" ++ " \x7b\n" ++ "  \x7b\n" ++ "   user -> user \"a\"\n" ++
        "  \x7d\n" ++ "  \x7b\n" ++ "   user -> user \"b\"\n" ++ "  \x7d\n" ++ " \x7d\n" ++
        " \x7b\n" ++ "  \x7b\n" ++ "   user -> user \"c\"\n" ++ "  \x7d\n" ++ " \x7d\n" ++
        " user -> user \"d\"\n" ++ " \x7b\n" ++ "  \x7b\n" ++ "   user -> user \"e\"\n" ++
        "  \x7d\n" ++ " \x7d\n" ++ "\x7d\n" ∧
      Drawn w ⟨1, false⟩ 0 v calls := by
  let step (d : String) : Setting := .step (.person ⟨0⟩) (.person ⟨0⟩) d none
  let calls : List Setting := [.endParallel, .startParallel, .startParallel, step "a", step "b",
    .startParallel, step "c", .endParallel, .endParallel, step "d", .startParallel, step "e",
    .startParallel]
  let v : DynamicView := calls.foldl set (create none (.create "" ""))
  let w : Workspace := { Workspace.empty with
    model := (Model.empty.addPerson "User" "").2
    views := { Views.empty with dynamic := #[v] } }
  let stored (d : String) : DynamicStep := ⟨.person ⟨0⟩, .person ⟨0⟩, provided d, none⟩
  have hends : ∀ d ∈ [stored "a", stored "b", stored "c", stored "d", stored "e"],
      arrow w.model d.source d.target = .ok "user -> user" := by decide
  obtain ⟨-, -, -, -, hlines, hview⟩ := drawn_as_called none (.create "" "") calls
  obtain ⟨-, htold⟩ := hlines w.model .views (fun _ => "user -> user") hends
  obtain ⟨block, block', hb, hc, hblocks⟩ := htold.shared
    [.endParallel, .startParallel, .startParallel, step "a"] (step "b") [.startParallel]
    (step "c") [.endParallel, .endParallel, step "d", .startParallel, step "e", .startParallel]
    (stored "b") (stored "c") rfl rfl rfl rfl rfl
  obtain ⟨blockD, hd, hopened⟩ := htold.inside
    [.endParallel, .startParallel, .startParallel, step "a", step "b", .startParallel,
      step "c", .endParallel, .endParallel] (step "d") [.startParallel, step "e", .startParallel]
    (stored "d") rfl rfl
  have htext : (w.renderFragment (.view (.dynamic 0)) ⟨1, false⟩).result =
      .ok ("dynamic * \x7b\n" ++ " \x7b\n" ++ "  \x7b\n" ++ "   user -> user \"a\"\n" ++
        "  \x7d\n" ++ "  \x7b\n" ++ "   user -> user \"b\"\n" ++ "  \x7d\n" ++ " \x7d\n" ++
        " \x7b\n" ++ "  \x7b\n" ++ "   user -> user \"c\"\n" ++ "  \x7d\n" ++ " \x7d\n" ++
        " user -> user \"d\"\n" ++ " \x7b\n" ++ "  \x7b\n" ++ "   user -> user \"e\"\n" ++
        "  \x7d\n" ++ " \x7d\n" ++ "\x7d\n") := by decide +kernel
  obtain ⟨-, -, hdrawn⟩ := hview w ⟨1, false⟩ 0 rfl
  have hlines : stepLine (fun _ => "user -> user") (stored "b") = "user -> user \"b\"" ∧
      stepLine (fun _ => "user -> user") (stored "c") = "user -> user \"c\"" ∧
      stepLine (fun _ => "user -> user") (stored "d") = "user -> user \"d\"" := by decide
  rw [hlines.1] at hb
  rw [hlines.2.1] at hc
  rw [hlines.2.2] at hd
  refine ⟨w, step, calls, v, _, rfl, rfl, rfl, ⟨block, block', hb, hc, ?_⟩, ⟨blockD, hd, ?_⟩, rfl,
    htext, rfl, hdrawn ⟨_, htext⟩⟩
  · intro heq
    have hnone := hblocks.1 heq .startParallel (List.mem_singleton.2 rfl)
    cases hnone
  · have hclosed : ¬Opened [.endParallel, .startParallel, .startParallel, step "a", step "b",
        .startParallel, step "c", .endParallel, .endParallel] := by
      intro h
      cases h
    exact Option.not_isSome_iff_eq_none.1 fun h => hclosed (hopened.1 h)

end DynamicView

end C4
