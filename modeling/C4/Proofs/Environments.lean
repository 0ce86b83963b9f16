import C4.Dsl.Deployment
import C4.Model.Topology
import Mathlib.Data.List.Induction
import Mathlib.Data.List.Nodup
import Mathlib.Data.List.Perm.Basic

/-!
# Environments

The roots are gathered by environment, one after the other. What comes of it is what filtering the
roots gives: a group for each environment that roots are in, in the order in which these first
appear, and in it the roots of this environment in their order.
-/
namespace C4

namespace Model

variable {m : Model}

theorem mem_deploymentNodesIn {environment : Environment} {id : DeploymentNodeId} :
    id ∈ m.deploymentNodesIn environment ↔
      id ∈ m.topLevel ∧ ∃ n, m.deploymentNode? id = some n ∧ n.environment = environment := by
  unfold deploymentNodesIn
  rw [List.mem_filter]
  cases m.deploymentNode? id <;> simp

def nodeEnvironment? (m : Model) (id : DeploymentNodeId) : Option Environment :=
  (m.deploymentNode? id).map (·.environment)

def rootEnvironments (m : Model) : List Environment := m.topLevel.filterMap m.nodeEnvironment?

end Model

namespace Dsl

abbrev Group := Environment × List DeploymentNodeId

def gather (m : Model) (groups : List Group) (id : DeploymentNodeId) : List Group :=
  match m.deploymentNode? id with
  | none => groups
  | some n => enrol n.environment id groups

def groupsOf (roots : Environment → List DeploymentNodeId) (keys : List Environment) :
    List Group :=
  keys.map fun e => (e, roots e)

theorem enrol_groupsOf {roots : Environment → List DeploymentNodeId} {keys : List Environment}
    (hkeys : keys.Nodup) {environment : Environment}
    (hnew : environment ∉ keys → roots environment = []) (id : DeploymentNodeId) :
    enrol environment id (groupsOf roots keys) =
      groupsOf (Function.update roots environment (roots environment ++ [id]))
        (if environment ∈ keys then keys else keys ++ [environment]) := by
  induction keys with
  | nil => simp [groupsOf, enrol, hnew]
  | cons key keys ih =>
    obtain ⟨hkey, hkeys⟩ := List.nodup_cons.1 hkeys
    have hcons (f : Environment → List DeploymentNodeId) (rest : List Environment) :
        groupsOf f (key :: rest) = (key, f key) :: groupsOf f rest := rfl
    rw [hcons, enrol]
    by_cases hsame : key = environment
    · subst hsame
      -- The group is the first one, and no later group is of the same environment.
      have hrest : groupsOf (Function.update roots key (roots key ++ [id])) keys =
          groupsOf roots keys := by
        refine List.map_congr_left fun e he => ?_
        rw [Function.update_of_ne (ne_of_mem_of_not_mem he hkey)]
      rw [if_pos rfl, if_pos List.mem_cons_self, hcons, hrest, Function.update_self]
    · have hmem : environment ∈ key :: keys ↔ environment ∈ keys := by simp [Ne.symm hsame]
      rw [if_neg hsame, ih hkeys fun hnot => hnew (mt hmem.1 hnot)]
      simp only [hmem]
      split
      · rw [hcons, Function.update_of_ne hsame]
      · rw [List.cons_append, hcons, Function.update_of_ne hsame]

theorem eraseDups_concat (l : List Environment) (environment : Environment) :
    (l ++ [environment]).eraseDups =
      if environment ∈ l.eraseDups then l.eraseDups else l.eraseDups ++ [environment] := by
  rw [List.eraseDups_append]
  by_cases hmem : environment ∈ l
  · simp [List.removeAll, hmem]
  · have hown : [environment].eraseDups = [environment] := rfl
    simp [List.removeAll, hmem, hown]

theorem nodup_eraseDups (l : List Environment) : l.eraseDups.Nodup := by
  induction l using List.reverseRecOn with
  | nil => simp
  | append_singleton l environment ih =>
    rw [eraseDups_concat]
    split
    · exact ih
    · next hnew =>
      rw [← List.concat_eq_append]
      exact List.Nodup.concat hnew ih

theorem foldl_gather_eq (m : Model) (ids : List DeploymentNodeId) :
    ids.foldl (gather m) [] =
      groupsOf (fun e => ids.filter fun id => m.nodeEnvironment? id = some e)
        (ids.filterMap m.nodeEnvironment?).eraseDups := by
  induction ids using List.reverseRecOn with
  | nil => rfl
  | append_singleton ids id ih =>
    rw [List.foldl_append, List.foldl_cons, List.foldl_nil, ih, gather, List.filterMap_append]
    cases hn : m.deploymentNode? id with
    | none =>
      have hnone : m.nodeEnvironment? id = none := by rw [Model.nodeEnvironment?, hn]; rfl
      simp [hnone]
    | some n =>
      have hsome : m.nodeEnvironment? id = some n.environment := by
        rw [Model.nodeEnvironment?, hn]
        rfl
      have hown : [id].filterMap m.nodeEnvironment? = [n.environment] := by simp [hsome]
      rw [hown, eraseDups_concat]
      dsimp only
      rw [enrol_groupsOf (nodup_eraseDups _)]
      · refine congrArg (groupsOf · _) (funext fun e => ?_)
        by_cases hsame : e = n.environment
        · subst hsame
          simp [hsome]
        · simp [hsome, Function.update_of_ne hsame, Ne.symm hsame]
      · intro hnew
        refine List.filter_eq_nil_iff.2 fun root hroot henvironment => hnew ?_
        rw [List.mem_eraseDups, List.mem_filterMap]
        exact ⟨root, hroot, of_decide_eq_true henvironment⟩

/-- The groups are what the roots come to when they are filtered by their environments. -/
theorem environmentGroups_eq (m : Model) :
    environmentGroups m = groupsOf m.deploymentNodesIn m.rootEnvironments.eraseDups := by
  have hfilter (environment : Environment) :
      m.topLevel.filter (fun id => m.nodeEnvironment? id = some environment) =
        m.deploymentNodesIn environment := by
    refine List.filter_congr fun id _ => ?_
    cases hn : m.deploymentNode? id <;> simp [Model.nodeEnvironment?, hn]
  have hgroups := foldl_gather_eq m m.topLevel
  simp only [hfilter] at hgroups
  exact hgroups

theorem map_fst_environmentGroups (m : Model) :
    (environmentGroups m).map (·.1) = m.rootEnvironments.eraseDups := by
  rw [environmentGroups_eq, groupsOf, List.map_map]
  exact List.map_id _

theorem group_eq {m : Model} {g : Group} (hg : g ∈ environmentGroups m) :
    g.2 = m.deploymentNodesIn g.1 := by
  rw [environmentGroups_eq] at hg
  obtain ⟨environment, -, rfl⟩ := List.mem_map.1 hg
  rfl

theorem nodup_environmentGroups (m : Model) : ((environmentGroups m).map (·.1)).Nodup := by
  rw [map_fst_environmentGroups]
  exact nodup_eraseDups _

def Gathers (m : Model) (roots : List DeploymentNodeId) (g : Group) : Prop :=
  g.2 ≠ [] ∧ ∀ id ∈ g.2, id ∈ roots ∧ ∃ n, m.deploymentNode? id = some n ∧ n.environment = g.1

theorem gathers_of_mem {m : Model} {g : Group} (hg : g ∈ environmentGroups m) :
    Gathers m m.topLevel g := by
  have hkey := List.mem_map_of_mem (f := Prod.fst) hg
  rw [map_fst_environmentGroups, List.mem_eraseDups] at hkey
  obtain ⟨root, hroot, henvironment⟩ := List.mem_filterMap.1 hkey
  obtain ⟨n, hn, hsame⟩ := Option.map_eq_some_iff.1 henvironment
  have hmem := Model.mem_deploymentNodesIn.2 ⟨hroot, n, hn, hsame⟩
  rw [Gathers, group_eq hg]
  exact ⟨List.ne_nil_of_mem hmem, fun id hid => Model.mem_deploymentNodesIn.1 hid⟩

theorem enrol_perm (environment : Environment) (id : DeploymentNodeId) (groups : List Group) :
    ((enrol environment id groups).flatMap (·.2)).Perm (groups.flatMap (·.2) ++ [id]) := by
  induction groups with
  | nil => exact .refl _
  | cons head rest ih =>
    obtain ⟨e, ids⟩ := head
    unfold enrol
    split
    · simp only [List.flatMap_cons, List.append_assoc]
      exact .append_left ids List.perm_append_comm
    · simp only [List.flatMap_cons, List.append_assoc]
      exact .append_left ids ih

theorem foldl_gather_perm {m : Model} {ids : List DeploymentNodeId}
    (h : ∀ id ∈ ids, (m.deploymentNode? id).isSome) (groups : List Group) :
    ((ids.foldl (gather m) groups).flatMap (·.2)).Perm (groups.flatMap (·.2) ++ ids) := by
  induction ids generalizing groups with
  | nil => rw [List.foldl_nil, List.append_nil]
  | cons id ids ih =>
    obtain ⟨n, hn⟩ := Option.isSome_iff_exists.1 (h id List.mem_cons_self)
    have hgather : gather m groups id = enrol n.environment id groups := by rw [gather, hn]
    have hrest := ih (fun i hi => h i (List.mem_cons_of_mem _ hi)) (gather m groups id)
    rw [hgather] at hrest
    rw [List.foldl_cons, hgather]
    refine hrest.trans ?_
    have happend := (enrol_perm n.environment id groups).append_right ids
    rwa [List.append_assoc] at happend

theorem environmentGroups_perm {m : Model} (h : ∀ id ∈ m.topLevel, (m.deploymentNode? id).isSome) :
    ((environmentGroups m).flatMap (·.2)).Perm m.topLevel :=
  foldl_gather_perm h []

end Dsl

end C4
