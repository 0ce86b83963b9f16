import C4.Proofs.IncludeLines

/-!
# Grouping

However nodes were moved and environments changed, the groups of roots are a stable partition of
the roots by their environments. The block of an environment shows its group, and a view that shows
all nodes of the environment filters the roots anew, so both list the same nodes in the same order.
-/
namespace C4

open Dsl

namespace Dsl

theorem filter_groupsOf {roots : Environment → List DeploymentNodeId} {keys : List Environment}
    (hkeys : keys.Nodup) (environment : Environment) :
    (groupsOf roots keys).filter (·.1 = environment) =
      if environment ∈ keys then [(environment, roots environment)] else [] := by
  have hfilter :
      keys.filter ((fun g : Group => decide (g.1 = environment)) ∘ fun e => (e, roots e)) =
        List.replicate (keys.count environment) environment := List.filter_eq _
  rw [groupsOf, List.filter_map, hfilter]
  split
  · next hmem => rw [List.count_eq_one_of_mem hkeys hmem, List.replicate_one, List.map_singleton]
  · next hmem => rw [List.count_eq_zero_of_not_mem hmem, List.replicate_zero, List.map_nil]

theorem deploymentNodesIn_eq_nil {m : Model} {environment : Environment}
    (h : environment ∉ (environmentGroups m).map (·.1)) : m.deploymentNodesIn environment = [] := by
  rw [map_fst_environmentGroups, List.mem_eraseDups, Model.rootEnvironments, List.mem_filterMap]
    at h
  refine List.eq_nil_iff_forall_not_mem.2 fun id hid => h ?_
  obtain ⟨hroot, n, hn, henvironment⟩ := Model.mem_deploymentNodesIn.1 hid
  exact ⟨id, hroot, by rw [Model.nodeEnvironment?, hn, ← henvironment]; rfl⟩

theorem flatMap_filter_environmentGroups (m : Model) (environment : Environment) :
    ((environmentGroups m).filter (·.1 = environment)).flatMap (·.2) =
      m.deploymentNodesIn environment := by
  have hkeys := map_fst_environmentGroups m
  rw [environmentGroups_eq, filter_groupsOf (nodup_eraseDups _)]
  split
  · exact List.append_nil _
  · next hnot => exact (deploymentNodesIn_eq_nil (hkeys ▸ hnot)).symm

def Entry.root? (e : Entry) : Option DeploymentNodeId :=
  match e.outer, e.subject with
  | some (.environment _), .element (.deploymentNode id) _ => some id
  | _, _ => none

/-- The roots that stand in the blocks of environments among some directives, in order. -/
def rootsIn (placed : List Placed) : List DeploymentNodeId :=
  (contents placed).filterMap Entry.root?

@[simp] theorem rootsIn_append (placed more : List Placed) :
    rootsIn (placed ++ more) = rootsIn placed ++ rootsIn more := by
  rw [rootsIn, contents, List.flatMap_append, List.filterMap_append]
  rfl

theorem rootsIn_flatMap {α : Type*} (f : α → List Placed) (l : List α) :
    rootsIn (l.flatMap f) = l.flatMap fun a => rootsIn (f a) := by
  rw [rootsIn, contents, List.flatMap_assoc, List.filterMap_flatMap]
  rfl

theorem Entry.InElement.root?_eq_none {e : Entry} (h : e.InElement) : e.root? = none := by
  obtain ⟨-, i, name, houter⟩ := h
  rw [Entry.root?, houter]

theorem filterMap_root?_nodeContents {m : Model} (depth : ℕ) (name : String)
    {id : DeploymentNodeId} {n : DeploymentNode} (hn : m.deploymentNode? id = some n) :
    (m.nodeContents depth (.environment name) id).filterMap Entry.root? = [id] := by
  obtain ⟨below, hcontents, hbelow⟩ := nodeContents_eq_cons depth (.environment name) hn
  have hnone : below.filterMap Entry.root? = [] :=
    List.filterMap_eq_nil_iff.2 fun e he => (hbelow e he).root?_eq_none
  rw [hcontents, List.filterMap_cons, hnone]
  rfl

theorem rootsIn_of_environment {p : Placed} {name : String} (h : p.subject = .environment name) :
    rootsIn [p] = [] := by
  have hentries : rootsIn [p] = p.entries.filterMap Entry.root? := by
    rw [rootsIn, contents, List.flatMap_cons, List.flatMap_nil, List.append_nil]
  rcases p.entries_eq_or with he | he
  · rw [hentries, he, List.filterMap_nil]
  · rw [hentries, he, h]
    cases p.around.owner? with
    | none => rfl
    | some outer => cases outer <;> rfl

theorem rootsIn_environmentPart {w : Workspace} {g : Group} (hg : g ∈ environmentGroups w.model)
    (hfault : fault (environmentItems w.model g) = none) (around : Surround) :
    rootsIn (w.environmentPart around g) = g.2 := by
  have hbody := hfault
  rw [environmentItems, fault_note_cons, fault_block] at hbody
  have hinside : rootsIn (placedOf ((.environment g.1.name, environmentHeader g.1.name) :: around)
      (g.2.flatMap (deploymentNodeItems w.model))) = g.2 := by
    rw [rootsIn, (fits_environmentBody hg).complete hbody, List.filterMap_flatMap]
    have hroot (id : DeploymentNodeId) (hid : id ∈ g.2) :
        (w.model.nodeContents w.model.deploymentNodes.size (.environment g.1.name) id).filterMap
          Entry.root? = [id] := by
      obtain ⟨-, n, hn, -⟩ := (gathers_of_mem hg).2 id hid
      exact filterMap_root?_nodeContents _ _ hn
    rw [List.flatMap_congr hroot]
    exact List.flatMap_singleton' g.2
  rw [← Workspace.placedOf_environmentItems hfault, environmentItems, placedOf_cons, placed_note,
    List.nil_append, placedOf_block, enclosed, ← List.singleton_append, rootsIn_append,
    rootsIn_append, rootsIn_of_environment rfl, rootsIn_of_environment rfl, List.nil_append,
    List.append_nil]
  exact hinside

end Dsl

namespace Workspace

def environmentBlock (w : Workspace) (environment : Environment) : List Placed :=
  ((environmentGroups w.model).filter (·.1 = environment)).flatMap (w.environmentPart w.inModel)

/-- The groups of roots are a stable partition, and views and blocks agree on them. -/
structure GroupsRoots (w : Workspace) (l : Layout) : Prop where
  /-- Every environment that roots are in, where it first appears. -/
  keys : (environmentGroups w.model).map (·.1) = w.model.rootEnvironments.eraseDups
  keys_nodup : ((environmentGroups w.model).map (·.1)).Nodup
  /-- Every root is in one group and once. -/
  partition : ((environmentGroups w.model).flatMap (·.2)).Perm w.model.topLevel
  once : ((environmentGroups w.model).flatMap (·.2)).Nodup
  group : ∀ g ∈ environmentGroups w.model, g.2 = w.model.deploymentNodesIn g.1
  absent : ∀ environment ∉ (environmentGroups w.model).map (·.1),
    w.model.deploymentNodesIn environment = []
  blocks : (∃ text, (w.render l).result = .ok text) →
    (environmentGroups w.model).flatMap (w.environmentPart w.inModel) <:+: w.placed l ∧
    ∀ environment, w.environmentBlock environment <:+: w.placed l ∧
      rootsIn (w.environmentBlock environment) = w.model.deploymentNodesIn environment
  /-- A view of all nodes of an environment that lists none of them lists what stands in the
  block. -/
  view : (∃ text, (w.render l).result = .ok text) →
    ∀ index v, w.views.deployment[index]? = some v → v.allDeploymentNodes = true →
      v.elements = [] →
      ∃ tokens ends,
        List.Forall₂ (fun id token => w.model.token (.deploymentNode id) = .ok token)
          (rootsIn (w.environmentBlock v.environment)) tokens ∧
        List.Forall₂ w.model.ShowsEnds (shownRelationships w.model v) ends ∧
        includedIn (w.slice w.inViews (.view (.deployment index))) = tokens ++ ends ∧
        w.slice w.inViews (.view (.deployment index)) <:+: w.placed l

variable {w : Workspace} {l : Layout}

theorem fault_of_environments (hfault : fault (w.outline l) = none) :
    fault (environmentsItems w.model) = none := by
  have hsection : environmentsItems w.model ∈ modelSections w.model := by simp [modelSections]
  exact fault_of_isInfix (List.infix_of_mem_flatten hsection) (fault_sections hfault).1

theorem infix_environmentBlock (w : Workspace) (environment : Environment) :
    w.environmentBlock environment <:+:
      (environmentGroups w.model).flatMap (w.environmentPart w.inModel) := by
  rw [environmentBlock, environmentGroups_eq, filter_groupsOf (nodup_eraseDups _)]
  split
  · next hkey =>
    rw [List.flatMap_singleton]
    exact infix_flatMap (w.environmentPart w.inModel) (List.mem_map_of_mem hkey)
  · exact List.nil_infix

theorem rootsIn_environmentBlock (hfault : fault (environmentsItems w.model) = none)
    (environment : Environment) :
    rootsIn (w.environmentBlock environment) = w.model.deploymentNodesIn environment := by
  rw [environmentsItems_of_fault hfault] at hfault
  have hgroup : ∀ g ∈ (environmentGroups w.model).filter (·.1 = environment),
      rootsIn (w.environmentPart w.inModel g) = g.2 := fun g hg => by
    have hmem := (List.mem_filter.1 hg).1
    exact rootsIn_environmentPart hmem (fault_of_isInfix (infix_flatMap _ hmem) hfault) _
  rw [environmentBlock, rootsIn_flatMap, List.flatMap_congr hgroup]
  exact flatMap_filter_environmentGroups w.model environment

theorem shownElements_of_all {m : Model} (h : m.skeleton.Sound) {v : DeploymentView}
    (hall : v.allDeploymentNodes = true) (hnone : v.elements = []) :
    shownElements m v = (m.deploymentNodesIn v.environment).map .deploymentNode := by
  rw [shownElements, if_pos hall, hnone, completed_eq]
  · simp
  · exact (Model.deploymentNodesIn_nodup h _).map fun _ _ hsame => by cases hsame; rfl

end Workspace

/-- However nodes were moved and environments changed, the groups of roots are what filtering
gives. -/
theorem roots_grouped (w : Workspace) (l : Layout) (hm : w.model.Reachable) : w.GroupsRoots l := by
  have hroots : ((environmentGroups w.model).flatMap (·.2)).Perm w.model.topLevel :=
    environmentGroups_perm fun id hid => Model.root_isSome hm.sound hid
  refine ⟨map_fst_environmentGroups w.model, nodup_environmentGroups w.model, hroots,
    hroots.nodup_iff.2 hm.sound.roots_nodup, fun _ => group_eq, fun _ => deploymentNodesIn_eq_nil,
    ?blocks, ?view⟩
  case blocks =>
    intro hok
    have hfault := Workspace.outcome_ok_iff_fault.1 (Workspace.exists_result_iff.1 hok)
    have hsection : (environmentGroups w.model).flatMap (w.environmentPart w.inModel) <:+:
        w.placed l := Workspace.infix_of_mem_modelParts hfault (by simp [Workspace.modelParts])
    refine ⟨hsection, fun environment => ⟨?_, ?_⟩⟩
    · exact (w.infix_environmentBlock environment).trans hsection
    · exact Workspace.rootsIn_environmentBlock (Workspace.fault_of_environments hfault) environment
  case view =>
    intro hok index v hv hall hnone
    have hfault := Workspace.outcome_ok_iff_fault.1 (Workspace.exists_result_iff.1 hok)
    have hview := Workspace.fault_of_shown (Workspace.mem_ids_of_deployment hv) (Or.inr hok)
    have hslice := Workspace.placedOf_eq_slice hview w.inViews
    rw [Fragment.outline, Workspace.viewItems_deployment hv] at hview hslice
    obtain ⟨tokens, ends, htokens, hends, hincluded⟩ :=
      includedIn_deploymentViewItems hview w.inViews
    rw [Workspace.shownElements_of_all hm.sound hall hnone, List.forall₂_map_left_iff] at htokens
    rw [hslice] at hincluded
    refine ⟨tokens, ends, ?_, hends, hincluded,
      ((document_assembled w l hm hok).view _ (Workspace.mem_ids_of_deployment hv)).2.1⟩
    rwa [Workspace.rootsIn_environmentBlock (Workspace.fault_of_environments hfault)]

/-- One root has been moved below another, and one has changed its environment. -/
theorem roots_grouped_of_moved_root :
    ∃ w : Workspace, w.model.Reachable ∧ (∃ text, (w.render .standard).result = .ok text) ∧
      w.GroupsRoots .standard ∧
      environmentGroups w.model =
        [(.production, [⟨1⟩, ⟨4⟩]), (.test, [⟨2⟩]), (.development, [⟨3⟩])] ∧
      w.environmentBlock .production <:+: w.placed .standard ∧
      rootsIn (w.environmentBlock .production) = [⟨1⟩, ⟨4⟩] ∧
      includedIn (w.slice w.inViews (.view (.deployment 0))) = ["bench", "edge"] := by
  let history : List Edit := [.addDeploymentNode "Rack" "" "" .production,
    .addDeploymentNode "Bench" "" "" .development, .addDeploymentNode "Lab" "" "" .test,
    .addDeploymentNode "Spare" "" "" .development, .addDeploymentNode "Edge" "" "" .production,
    .addChild ⟨3⟩ ⟨0⟩, .addChildNode ⟨1⟩ "Slot" "" "", .setEnvironment ⟨1⟩ .production]
  let view : DeploymentView :=
    { DeploymentView.create none .production (.create "" "") with allDeploymentNodes := true }
  obtain ⟨w, hm, hfault, hgroups, hincluded⟩ : ∃ w : Workspace,
      Model.empty.performAll history = some w.model ∧ fault (w.outline .standard) = none ∧
      environmentGroups w.model =
        [(.production, [⟨1⟩, ⟨4⟩]), (.test, [⟨2⟩]), (.development, [⟨3⟩])] ∧
      includedIn (w.slice w.inViews (.view (.deployment 0))) = ["bench", "edge"] :=
    ⟨{ Workspace.empty with
      model := (Model.empty.performAll history).getD .empty
      views := { Views.empty with deployment := #[view] } }, by decide +kernel⟩
  have hreachable : w.model.Reachable := ⟨history, hm⟩
  have hok : ∃ text, (w.render .standard).result = .ok text :=
    Workspace.exists_result_iff.2 (Workspace.outcome_ok_iff_fault.2 hfault)
  have hgrouped := roots_grouped w .standard hreachable
  obtain ⟨hblock, hroots⟩ := (hgrouped.blocks hok).2 .production
  have hproduction := hgrouped.group (.production, [⟨1⟩, ⟨4⟩]) (hgroups ▸ List.mem_cons_self)
  exact ⟨w, hreachable, hok, hgrouped, hgroups, hblock, hroots.trans hproduction.symm, hincluded⟩

end C4
