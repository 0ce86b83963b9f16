import C4.Proofs.Decoding
import C4.Proofs.Deployed

/-!
# Names of environments

Roots are gathered by environment, and no environment has two groups. Groups are told apart by
their names only where no two of the environments that roots are in bear the same one: a custom
environment can be called like a well-known one.
-/
namespace C4

open Dsl

namespace Model

variable {m : Model}

def NamesEnvironments (m : Model) : Prop :=
  ∀ environment other, m.deploymentNodesIn environment ≠ [] → m.deploymentNodesIn other ≠ [] →
    environment.name = other.name → environment = other

end Model

namespace Dsl

def environmentHeader (name : String) : String := "deploymentEnvironment " ++ quote name

theorem environmentHeader_injective : Function.Injective environmentHeader := by
  intro name other h
  have hchars := congrArg String.toList h
  unfold environmentHeader at hchars
  rw [String.toList_append, String.toList_append] at hchars
  exact quote_injective (String.toList_injective (List.append_cancel_left hchars))

section Groups

variable {m : Model} (h : m.skeleton.Sound)
include h

theorem exists_group {environment : Environment} {id : DeploymentNodeId}
    (hid : id ∈ m.deploymentNodesIn environment) :
    ∃ g ∈ environmentGroups m, g.1 = environment ∧ id ∈ g.2 := by
  obtain ⟨hroot, n, hn, henvironment⟩ := Model.mem_deploymentNodesIn.1 hid
  have hroots := environmentGroups_perm fun id hid => Model.root_isSome h hid
  obtain ⟨g, hg, hmem⟩ := List.mem_flatMap.1 (hroots.mem_iff.2 hroot)
  obtain ⟨-, n', hn', hgroup⟩ := (gathers_of_mem hg).2 id hmem
  obtain rfl : n = n' := Option.some.inj (hn.symm.trans hn')
  exact ⟨g, hg, hgroup.symm.trans henvironment, hmem⟩

theorem mem_group_iff {g : Group} (hg : g ∈ environmentGroups m) {id : DeploymentNodeId} :
    id ∈ g.2 ↔ id ∈ m.deploymentNodesIn g.1 := by
  constructor
  · intro hid
    exact Model.mem_deploymentNodesIn.2 ((gathers_of_mem hg).2 id hid)
  · intro hid
    obtain ⟨g', hg', henvironment, hmem⟩ := exists_group h hid
    have hsame : g' = g :=
      List.inj_on_of_nodup_map (nodup_environmentGroups m) hg' hg henvironment
    rwa [hsame] at hmem

theorem nodup_names_iff :
    ((environmentGroups m).map fun g => g.1.name).Nodup ↔ m.NamesEnvironments := by
  have hnames : (environmentGroups m).map (fun g => g.1.name) =
      ((environmentGroups m).map (·.1)).map Environment.name := by
    rw [List.map_map]
    rfl
  have hpopulated (environment : Environment) :
      environment ∈ (environmentGroups m).map (·.1) ↔ m.deploymentNodesIn environment ≠ [] := by
    rw [List.mem_map]
    constructor
    · rintro ⟨g, hg, rfl⟩
      obtain ⟨id, hid⟩ := List.exists_mem_of_ne_nil _ (gathers_of_mem hg).1
      exact List.ne_nil_of_mem ((mem_group_iff h hg).1 hid)
    · intro hne
      obtain ⟨id, hid⟩ := List.exists_mem_of_ne_nil _ hne
      obtain ⟨g, hg, henvironment, -⟩ := exists_group h hid
      exact ⟨g, hg, henvironment⟩
  rw [hnames, List.nodup_map_iff_inj_on (nodup_environmentGroups m)]
  simp only [hpopulated]
  exact ⟨fun hinj e o he ho => hinj e he o ho, fun hinj e he o ho => hinj e o he ho⟩

end Groups

end Dsl

end C4
