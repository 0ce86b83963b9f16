import C4.Dsl.Output
import C4.Proofs.FailFast
import C4.Proofs.Resolution

/-!
# Verdict

Whether a rendering succeeds, and with which error it fails. Of the references that decide this
the ones of the deployment are told apart from the rest, since the document comes across them
only below the roots.
-/
namespace C4

open Dsl Forest

namespace Model

variable {m : Model}

theorem nodeReferences_succ (depth : ℕ) (id : DeploymentNodeId) :
    m.nodeReferences (depth + 1) id = (m.childrenOf id).flatMap (m.nodeReferences depth) ++
      (m.instancesOf id).flatMap m.instanceReferences := by
  rw [nodeReferences]

theorem mem_flatMap_instanceReferences (h : m.skeleton.Sound) {nodes : List DeploymentNodeId}
    {r : Reference} :
    r ∈ (nodes.flatMap fun id => (m.instancesOf id).flatMap m.instanceReferences) ↔
      ∃ id i, m.containerInstance? id = some i ∧ i.parent ∈ nodes ∧ r = .element i.container := by
  rw [List.mem_flatMap]
  constructor
  · rintro ⟨n, hn, hr⟩
    obtain ⟨id, hid, hr⟩ := List.mem_flatMap.1 hr
    have hhost : m.instanceHost? id = some n := h.instances.mem_iff.1 hid
    obtain ⟨i, hi, hparent⟩ := Option.map_eq_some_iff.1 hhost
    rw [instanceReferences, hi] at hr
    exact ⟨id, i, hi, hparent ▸ hn, List.mem_singleton.1 hr⟩
  · rintro ⟨id, i, hi, hparent, rfl⟩
    have hhost : m.instanceHost? id = some i.parent := by simp [instanceHost?, hi]
    refine ⟨i.parent, hparent, List.mem_flatMap.2 ⟨id, h.instances.mem_iff.2 hhost, ?_⟩⟩
    rw [instanceReferences, hi]
    exact List.mem_singleton_self _

end Model

namespace Workspace

variable {w : Workspace}

theorem outcome_eq_fault (w : Workspace) (l : Layout) :
    (w.render l).outcome = outcomeOf (fault (w.outline l)) := by
  rw [outcome_render, fault, eventsOf_outline]

theorem outcome_eq_missing (hm : w.model.skeleton.Sound) (hv : ∀ v ∈ w.views.dynamic, v.Advances)
    (l : Layout) : (w.render l).outcome = outcomeOf (w.model.missing w.references) := by
  rw [outcome_eq_fault, fault_outline hm hv l]

theorem exists_result_iff {l : Layout} :
    (∃ text, (w.render l).result = .ok text) ↔ (w.render l).outcome = .ok () := by
  rw [Delivery.result]
  cases (w.render l).outcome with
  | ok _ => exact ⟨fun _ => rfl, fun _ => ⟨_, rfl⟩⟩
  | error e => exact ⟨fun ⟨_, h⟩ => (nomatch h), fun h => nomatch h⟩

theorem outcome_ok_iff_fault {l : Layout} :
    (w.render l).outcome = .ok () ↔ fault (w.outline l) = none := by
  rw [outcome_eq_fault, outcomeOf_eq_ok]

theorem outcome_ok_iff (hm : w.model.skeleton.Sound) (hv : ∀ v ∈ w.views.dynamic, v.Advances)
    {l : Layout} :
    (w.render l).outcome = .ok () ↔ ∀ r ∈ w.references, w.model.exists? r = true := by
  rw [outcome_eq_missing hm hv, outcomeOf_eq_ok, w.model.missing_eq_none_iff]

end Workspace

end C4
