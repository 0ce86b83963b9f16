import C4.Proofs.EnvironmentBlocks

/-!
# Include lines

What a deployment view includes is settled when it is rendered. The calls that made the view leave
what they listed, the last environment and two flags; the model as it is then says what the flags
stand for. The view's include lines are read back from its directives.
-/
namespace C4

open Dsl

namespace DeploymentView

namespace Setting

def element? : Setting → Option ElementId
  | element id => some id
  | _ => none

def relationship? : Setting → Option RelationshipId
  | relationship id => some id
  | _ => none

def environment? : Setting → Option Environment
  | environment e => some e
  | _ => none

end Setting

def environmentAfter (environment : Environment) (calls : List Setting) : Environment :=
  (calls.filterMap Setting.environment?).getLast?.getD environment

structure Keeps (v : DeploymentView) (calls : List Setting) (after : DeploymentView) : Prop where
  elements : after.elements = v.elements ++ calls.filterMap Setting.element?
  relationships : after.relationships = v.relationships ++ calls.filterMap Setting.relationship?
  environment : after.environment = environmentAfter v.environment calls
  allDeploymentNodes : after.allDeploymentNodes = true ↔
    v.allDeploymentNodes = true ∨ .allDeploymentNodes ∈ calls
  allRelationships : after.allRelationships = true ↔
    v.allRelationships = true ∨ .allRelationships ∈ calls

theorem environmentAfter_cons (environment : Environment) (call : Setting) (calls : List Setting) :
    environmentAfter environment (call :: calls) =
      environmentAfter (call.environment?.getD environment) calls := by
  unfold environmentAfter
  cases h : call.environment? with
  | none => simp [h]
  | some e => simp [h, List.getLast?_cons]

theorem Keeps.cons {v after : DeploymentView} {call : Setting} {calls : List Setting}
    (h : Keeps (v.set call) calls after) : Keeps v (call :: calls) after := by
  obtain ⟨helements, hrelationships, henvironment, hnodes, hall⟩ := h
  constructor
  · rw [helements]
    cases call <;> simp [set, List.filterMap_cons, Setting.element?]
  · rw [hrelationships]
    cases call <;> simp [set, List.filterMap_cons, Setting.relationship?]
  · rw [henvironment, environmentAfter_cons]
    cases call <;> rfl
  · rw [hnodes]
    cases call <;> simp [set]
  · rw [hall]
    cases call <;> simp [set]

theorem keeps_run (v : DeploymentView) (calls : List Setting) :
    Keeps v calls (calls.foldl set v) := by
  induction calls generalizing v with
  | nil => constructor <;> simp [environmentAfter]
  | cons call calls ih => exact (ih (v.set call)).cons

end DeploymentView

namespace Model

theorem deploymentNodesIn_nodup {m : Model} (h : m.skeleton.Sound) (environment : Environment) :
    (m.deploymentNodesIn environment).Nodup :=
  h.roots_nodup.filter _

theorem relationshipIds_nodup (m : Model) : m.relationshipIds.Nodup :=
  List.nodup_range.map fun _ _ h => by cases h; rfl

end Model

namespace Dsl

theorem completed_eq {α : Type} [DecidableEq α] {listed available : List α}
    (h : available.Nodup) :
    completed listed available = listed ++ available.filter (· ∉ listed) := by
  unfold completed
  induction available generalizing listed with
  | nil => simp
  | cons a rest ih =>
    obtain ⟨ha, hrest⟩ := List.nodup_cons.1 h
    rw [List.foldl_cons, ih hrest]
    by_cases hmem : a ∈ listed
    · simp [hmem]
    · -- What has just been added does not occur again.
      have hfilter : rest.filter (· ∉ listed ++ [a]) = rest.filter (· ∉ listed) := by
        refine List.filter_congr fun b hb => ?_
        have hne : b ≠ a := fun heq => ha (heq ▸ hb)
        simp [hne]
      rw [if_neg (by simpa using hmem), hfilter]
      simp [hmem]

end Dsl

namespace Dsl

def Directive.included? : Directive → Option String
  | line text => (text.toList.dropPrefix? "include ".toList).map String.ofList
  | _ => none

def includedIn (placed : List Placed) : List String :=
  placed.filterMap (·.directive.included?)

theorem included?_include (text : String) :
    (Directive.line ("include " ++ text)).included? = some text := by
  rw [Directive.included?, String.toList_append, List.dropPrefix?_append_of_beq _ BEq.rfl]
  simp

theorem included?_of_head {text : String} {c : Char} (h : text.toList.head? = some c)
    (hc : c ≠ 'i') : (Directive.line text).included? = none := by
  obtain ⟨rest, hrest⟩ := List.head?_eq_some_iff.1 h
  have hprefix : "include ".toList = 'i' :: "nclude ".toList := by decide
  rw [Directive.included?, hrest, hprefix, List.dropPrefix?, if_neg (by simpa using hc)]
  rfl

section Reading

variable {around : Surround}

theorem includedIn_append (placed more : List Placed) :
    includedIn (placed ++ more) = includedIn placed ++ includedIn more :=
  List.filterMap_append

theorem includedIn_within (placed : List Placed) :
    includedIn (placed.map (Placed.within around)) = includedIn placed :=
  List.filterMap_map

theorem includedIn_enclosed (subject : Subject) (header : String)
    (body : Surround → List Placed) : includedIn (enclosed around subject header body) =
      includedIn (body ((subject, header) :: around)) := by
  have hopen (placed : List Placed) :
      includedIn (⟨around, subject, .opening header⟩ :: placed) = includedIn placed := rfl
  rw [enclosed, hopen, includedIn_append]
  exact List.append_nil _

theorem includedIn_line_cons {subject : Subject} {text : String} {items : List Item}
    (h : (Directive.line text).included? = none) :
    includedIn (placedOf around (.line subject text :: items)) =
      includedIn (placedOf around items) := by
  rw [placedOf_cons, placed_line, includedIn_append]
  simp [includedIn, h]

theorem includedIn_line {subject : Subject} {text : String}
    (h : (Directive.line text).included? = none) :
    includedIn (placedOf around [.line subject text]) = [] :=
  includedIn_line_cons h

theorem includedIn_quotedLine {subject : Subject} {keyword : String} {text : Option String}
    {c : Char} (h : keyword.toList.head? = some c) (hc : c ≠ 'i') :
    includedIn (placedOf around (quotedLine subject keyword text)) = [] := by
  cases text with
  | none => rfl
  | some t =>
    refine includedIn_line (included?_of_head (c := c) ?_ hc)
    rw [String.toList_append, String.toList_append, List.head?_append, List.head?_append, h]
    rfl

theorem exists_included {α : Type*} {name : α → Except RenderError String} {l : List α}
    (subject : Subject) (h : fault (l.flatMap fun a => includeItems subject (name a)) = none)
    (around : Surround) : ∃ names, List.Forall₂ (fun a text => name a = .ok text) l names ∧
      includedIn (placedOf around (l.flatMap fun a => includeItems subject (name a))) = names := by
  induction l with
  | nil => exact ⟨[], .nil, rfl⟩
  | cons a rest ih =>
    rw [List.flatMap_cons, fault_append, Option.or_eq_none_iff] at h
    obtain ⟨names, hnames, hincluded⟩ := ih h.2
    cases htext : name a with
    | error error =>
      have hnone := h.1
      rw [htext, includeItems, withToken, fault_dangling] at hnone
      cases hnone
    | ok text =>
      refine ⟨text :: names, .cons htext hnames, ?_⟩
      rw [List.flatMap_cons, placedOf_append, includedIn_append, hincluded, htext, includeItems,
        withToken, placedOf_cons, placed_line]
      simp [includedIn, included?_include]

end Reading

end Dsl

def Model.ShowsEnds (m : Model) (id : RelationshipId) (text : String) : Prop :=
  ∃ r source target, m.relationship? id = some r ∧ m.token r.source = .ok source ∧
    m.token r.target = .ok target ∧ text = source ++ " -> " ++ target

namespace Dsl

variable {m : Model}

theorem showsEnds_of_included {id : RelationshipId} {text : String}
    (h : includedRelationship m id = .ok text) : m.ShowsEnds id text := by
  unfold includedRelationship at h
  split at h
  · cases h
  · next r hr =>
    obtain ⟨source, target, hsource, htarget, htext⟩ := arrow_eq_ok h
    exact ⟨r, source, target, hr, hsource, htarget, htext⟩

theorem includedIn_deploymentViewItems {id : ViewId} {v : DeploymentView}
    (hfault : fault (deploymentViewItems m id v) = none) (around : Surround) :
    ∃ tokens ends, List.Forall₂ (fun e token => m.token e = .ok token) (shownElements m v) tokens ∧
      List.Forall₂ m.ShowsEnds (shownRelationships m v) ends ∧
      includedIn (placedOf around (deploymentViewItems m id v)) = tokens ++ ends := by
  obtain ⟨scope, hscope, hitems⟩ : ∃ scope : List Item,
      (fault scope = none → ∀ around, includedIn (placedOf around scope) = []) ∧
      deploymentViewItems m id v = [.block (viewSubject id v.header) id.keyword
        (scope ++ .line (viewSubject id v.header) ("environment " ++ quote v.environment.name) ::
          (keyAndDescription (viewSubject id v.header) v.header ++
            autoLayoutLine (viewSubject id v.header) v.header ++
            (shownElements m v).flatMap
              (fun e => includeItems (viewSubject id v.header) (m.token e)) ++
            (shownRelationships m v).flatMap
              fun r => includeItems (viewSubject id v.header) (includedRelationship m r)))] := by
    refine ⟨_, fun hnone around => ?_, rfl⟩
    cases hsystem : v.scope with
    | none => rfl
    | some system =>
      simp only [hsystem] at hnone ⊢
      cases htoken : m.token system with
      | error error => simp [htoken, withToken] at hnone
      | ok token => exact includedIn_line (included?_of_head (c := 's') (by simp) (by decide))
  rw [hitems, fault_block, fault_append, Option.or_eq_none_iff, fault_cons, Option.or_eq_none_iff,
    fault_append, fault_append, Option.or_eq_none_iff, Option.or_eq_none_iff] at hfault
  obtain ⟨hnone, -, ⟨-, helements⟩, hrelationships⟩ := hfault
  obtain ⟨tokens, htokens, hfirst⟩ := exists_included _ helements _
  obtain ⟨ends, hends, hsecond⟩ := exists_included _ hrelationships _
  refine ⟨tokens, ends, htokens, hends.imp fun _ _ => showsEnds_of_included, ?_⟩
  have hkey {subject : Subject} {around : Surround} :
      includedIn (placedOf around (keyAndDescription subject v.header)) = [] := by
    rw [keyAndDescription, placedOf_append, includedIn_append,
      includedIn_quotedLine (c := 'k') (by decide) (by decide),
      includedIn_quotedLine (c := 'd') (by decide) (by decide), List.nil_append]
  have hlayout {subject : Subject} {around : Surround} :
      includedIn (placedOf around (autoLayoutLine subject v.header)) = [] := by
    unfold autoLayoutLine
    split
    · exact includedIn_line (by decide)
    · rfl
  rw [hitems, placedOf_block, includedIn_enclosed, placedOf_append, includedIn_append,
    hscope hnone, includedIn_line_cons (included?_of_head (c := 'e') (by simp) (by decide)),
    placedOf_append, placedOf_append, placedOf_append, includedIn_append, includedIn_append,
    includedIn_append, hkey, hlayout, hfirst, hsecond]
  rfl

end Dsl

namespace DeploymentView

section Called

variable (m : Model) (environment : Environment) (calls : List Setting)

/-- The roots that a view shows although they were not listed. -/
def addedNodes : List DeploymentNodeId :=
  if .allDeploymentNodes ∈ calls then
    (m.deploymentNodesIn (environmentAfter environment calls)).filter fun id =>
      .deploymentNode id ∉ calls.filterMap Setting.element?
  else []

def addedRelationships : List RelationshipId :=
  if .allRelationships ∈ calls then
    m.relationshipIds.filter (· ∉ calls.filterMap Setting.relationship?)
  else []

/-- What is listed comes first, in the order of the calls and as often as it was listed. -/
def calledElements : List ElementId :=
  calls.filterMap Setting.element? ++ (addedNodes m environment calls).map .deploymentNode

def calledRelationships : List RelationshipId :=
  calls.filterMap Setting.relationship? ++ addedRelationships m calls

end Called

variable {m : Model} {scope : Option SoftwareSystemId} {environment : Environment}
  {header : ViewHeader} {calls : List Setting}

theorem nodup_addedNodes (h : m.skeleton.Sound) : (addedNodes m environment calls).Nodup := by
  unfold addedNodes
  split
  · exact (Model.deploymentNodesIn_nodup h _).filter _
  · exact List.nodup_nil

theorem nodup_addedRelationships : (addedRelationships m calls).Nodup := by
  unfold addedRelationships
  split
  · exact m.relationshipIds_nodup.filter _
  · exact List.nodup_nil

theorem shownElements_run (h : m.skeleton.Sound) :
    shownElements m (calls.foldl set (create scope environment header)) =
      calledElements m environment calls := by
  obtain ⟨helements, -, henvironment, hnodes, -⟩ :=
    keeps_run (create scope environment header) calls
  unfold shownElements calledElements addedNodes
  rw [helements, henvironment]
  by_cases hmem : .allDeploymentNodes ∈ calls
  · have hinjective : Function.Injective ElementId.deploymentNode := fun _ _ hsame => by
      cases hsame
      rfl
    have hnodup := (Model.deploymentNodesIn_nodup h (environmentAfter environment calls)).map
      hinjective
    rw [if_pos (hnodes.2 (Or.inr hmem)), if_pos hmem]
    refine (completed_eq hnodup).trans ?_
    rw [List.filter_map]
    rfl
  · rw [if_neg fun hflag => (hnodes.1 hflag).elim Bool.noConfusion hmem, if_neg hmem]
    exact (List.append_nil _).symm

theorem shownRelationships_run :
    shownRelationships m (calls.foldl set (create scope environment header)) =
      calledRelationships m calls := by
  obtain ⟨-, hrelationships, -, -, hall⟩ := keeps_run (create scope environment header) calls
  unfold shownRelationships calledRelationships addedRelationships
  rw [hrelationships]
  by_cases hmem : .allRelationships ∈ calls
  · rw [if_pos (hall.2 (Or.inr hmem)), if_pos hmem]
    exact completed_eq m.relationshipIds_nodup
  · rw [if_neg fun hflag => (hall.1 hflag).elim Bool.noConfusion hmem, if_neg hmem]
    exact (List.append_nil _).symm

end DeploymentView

namespace DeploymentView

/-- The include lines of a view that was made by some calls, rendered by itself and within its
document. -/
structure IncludesCalled (w : Workspace) (l : Layout) (index : ℕ) (environment : Environment)
    (calls : List Setting) : Prop where
  text : w.Renders l (.view (.deployment index))
  lines : ∃ tokens ends,
    List.Forall₂ (fun e token => w.model.token e = .ok token)
      (calledElements w.model environment calls) tokens ∧
    List.Forall₂ w.model.ShowsEnds (calledRelationships w.model calls) ends ∧
    includedIn (w.fragmentPlaced (.view (.deployment index))) = tokens ++ ends
  nodes_once : (addedNodes w.model environment calls).Nodup
  relationships_once : (addedRelationships w.model calls).Nodup
  document : (∃ text, (w.render l).result = .ok text) →
    w.slice w.inViews (.view (.deployment index)) <:+: w.placed l ∧
    includedIn (w.slice w.inViews (.view (.deployment index))) =
      includedIn (w.fragmentPlaced (.view (.deployment index)))

/-- Whatever was called in whatever order, a view includes what was listed, then the roots of its
last environment that were not, and of relationships the same. -/
theorem included_as_called (w : Workspace) (l : Layout) (hm : w.model.Reachable) {index : ℕ}
    {scope : Option SoftwareSystemId} {environment : Environment} {header : ViewHeader}
    {calls : List Setting}
    (hv : w.views.deployment[index]? = some (calls.foldl set (create scope environment header)))
    (hok : (∃ text, (w.renderFragment (.view (.deployment index)) l).result = .ok text) ∨
      ∃ text, (w.render l).result = .ok text) :
    IncludesCalled w l index environment calls := by
  have hfault := Workspace.fault_of_shown (Workspace.mem_ids_of_deployment hv) hok
  refine ⟨Workspace.renders_of_fault hfault l, ?lines, nodup_addedNodes hm.sound,
    nodup_addedRelationships, fun hdocument => ⟨?slice, includedIn_within _⟩⟩
  case lines =>
    rw [Workspace.fragmentPlaced_of_fault hfault]
    rw [Fragment.outline, Workspace.viewItems_deployment hv] at hfault ⊢
    rw [← shownElements_run hm.sound, ← shownRelationships_run]
    exact includedIn_deploymentViewItems hfault []
  case slice =>
    exact ((document_assembled w l hm hdocument).view _ (Workspace.mem_ids_of_deployment hv)).2.1

/-- The flags come before what they do not repeat, an element is listed twice, and the environment
is settled in between. -/
theorem included_as_called_of_mixed_calls :
    ∃ (w : Workspace) (calls : List Setting), w.model.Reachable ∧
      w.views.deployment[0]? =
        some (calls.foldl set (create none .development (.create "" ""))) ∧
      (∃ text, (w.render .standard).result = .ok text) ∧
      IncludesCalled w .standard 0 .development calls ∧
      includedIn (w.slice w.inViews (.view (.deployment 0))) =
        ["spare", "spare", "rack", "shelf", "rack -> spare", "bench -> rack"] := by
  let history : List Edit := [.addDeploymentNode "Rack" "" "" .production,
    .addDeploymentNode "Bench" "" "" .development, .addDeploymentNode "Spare" "" "" .production,
    .addDeploymentNode "Shelf" "" "" .production,
    .addRelationship (.deploymentNode ⟨1⟩) (.deploymentNode ⟨0⟩),
    .addRelationship (.deploymentNode ⟨0⟩) (.deploymentNode ⟨2⟩)]
  let calls : List Setting := [.allDeploymentNodes, .allRelationships,
    .element (.deploymentNode ⟨2⟩), .environment .test, .relationship ⟨1⟩,
    .environment .production, .element (.deploymentNode ⟨2⟩)]
  obtain ⟨w, hm, hview, hfault, hincluded⟩ : ∃ w : Workspace,
      Model.empty.performAll history = some w.model ∧
      w.views.deployment[0]? =
        some (calls.foldl set (create none .development (.create "" ""))) ∧
      fault (w.outline .standard) = none ∧
      includedIn (w.slice w.inViews (.view (.deployment 0))) =
        ["spare", "spare", "rack", "shelf", "rack -> spare", "bench -> rack"] :=
    ⟨{ Workspace.empty with
      model := (Model.empty.performAll history).getD .empty
      views := { Views.empty with
        deployment := #[calls.foldl set (create none .development (.create "" ""))] } },
      by decide +kernel⟩
  have hreachable : w.model.Reachable := ⟨history, hm⟩
  have hok : ∃ text, (w.render .standard).result = .ok text :=
    Workspace.exists_result_iff.2 (Workspace.outcome_ok_iff_fault.2 hfault)
  exact ⟨w, calls, hreachable, hview, hok,
    included_as_called w .standard hreachable hview (Or.inr hok), hincluded⟩

end DeploymentView

end C4
