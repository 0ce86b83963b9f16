import C4.Model.Edit
import C4.Proofs.Discipline
import Mathlib.Data.Finset.Card
import Mathlib.Data.Finset.Dedup

/-!
# Collisions

Before anything else a full rendering reports the tokens that several elements share. The scan
remembers who had a token first, so every later owner of it is reported together with the
earliest one. The report says nothing of elements without a token and changes nothing of what is
written.
-/
namespace C4

open Dsl

namespace Model

def token? (m : Model) (id : ElementId) : Option String := (m.token id).toOption

def tokens (m : Model) : List String := m.elementIds.filterMap m.token?

theorem token?_of_error {m : Model} {id : ElementId} {error : RenderError}
    (h : m.token id = .error error) : m.token? id = none := by
  rw [token?, h]
  rfl

theorem token?_of_ok {m : Model} {id : ElementId} {token : String} (h : m.token id = .ok token) :
    m.token? id = some token := by
  rw [token?, h]
  rfl

end Model

namespace Dsl

def collisionAfter (m : Model) (before : List ElementId) (second : ElementId) : Option Record :=
  (m.token? second).bind fun token =>
    (before.find? fun first => m.token? first = some token).map fun first =>
      collisionRecord token first second

/-- For every token, the earliest of some elements that has it is remembered. -/
def Remembers (m : Model) (seen : List (String × ElementId)) (before : List ElementId) : Prop :=
  ∀ token, seen.lookup token = before.find? fun first => m.token? first = some token

variable {m : Model} {seen : List (String × ElementId)} {before : List ElementId}

theorem remembers_nil (m : Model) : Remembers m [] [] := fun _ => rfl

theorem collisionsFrom_cons (h : Remembers m seen before) (id : ElementId)
    (rest : List ElementId) : ∃ seen', Remembers m seen' (before ++ [id]) ∧
      collisionsFrom m seen (id :: rest) =
        (collisionAfter m before id).toList ++ collisionsFrom m seen' rest := by
  rw [collisionsFrom]
  cases ht : m.token id with
  | error error =>
    have hnone := m.token?_of_error ht
    refine ⟨seen, fun token => ?_, by simp [collisionAfter, hnone]⟩
    simp [h token, List.find?_append, hnone]
  | ok own =>
    have hown := m.token?_of_ok ht
    dsimp only
    cases hseen : seen.lookup own with
    | some first =>
      have hfirst := hseen
      rw [h own] at hfirst
      refine ⟨seen, fun token => ?_, by simp [collisionAfter, hown, hfirst]⟩
      rw [h token, List.find?_append]
      by_cases hsame : token = own
      · rw [hsame, hfirst, Option.some_or]
      · simp [hown, Ne.symm hsame]
    | none =>
      have hfirst := hseen
      rw [h own] at hfirst
      refine ⟨(own, id) :: seen, fun token => ?_, by simp [collisionAfter, hown, hfirst]⟩
      rw [List.lookup_cons, List.find?_append]
      by_cases hsame : token = own
      · subst hsame
        simp [hfirst, hown]
      · rw [beq_false_of_ne hsame]
        simp [h token, hown, Ne.symm hsame]

theorem collisionsFrom_eq (h : Remembers m seen before) (rest : List ElementId) :
    collisionsFrom m seen rest = (rest.zipIdx before.length).filterMap fun p =>
      collisionAfter m ((before ++ rest).take p.2) p.1 := by
  induction rest generalizing seen before with
  | nil => rfl
  | cons id rest ih =>
    obtain ⟨seen', h', hscan⟩ := collisionsFrom_cons h id rest
    have hwhole : before ++ id :: rest = (before ++ [id]) ++ rest := by simp
    have hlength : before.length + 1 = (before ++ [id]).length := by simp
    rw [hscan, ih h', List.zipIdx_cons, List.filterMap_cons, List.take_left, hwhole, hlength]
    cases collisionAfter m before id <;> rfl

theorem collisions_eq (m : Model) : collisions m = m.elementIds.zipIdx.filterMap fun p =>
    collisionAfter m (m.elementIds.take p.2) p.1 :=
  collisionsFrom_eq (remembers_nil m) m.elementIds

theorem level_of_mem_collisions {record : Record} (h : record ∈ collisions m) :
    record.level = .warn := by
  rw [collisions_eq] at h
  obtain ⟨p, -, hrecord⟩ := List.mem_filterMap.1 h
  obtain ⟨token, -, hfirst⟩ := Option.bind_eq_some_iff.1 hrecord
  obtain ⟨first, -, rfl⟩ := Option.map_eq_some_iff.1 hfirst
  rfl

theorem isSome_collisionAfter {id : ElementId} {token : String} (h : m.token? id = some token)
    (before : List ElementId) :
    (collisionAfter m before id).isSome ↔ token ∈ before.filterMap m.token? := by
  simp [collisionAfter, h]

theorem length_collisionAfter (m : Model) (before : List ElementId) (id : ElementId) :
    (collisionAfter m before id).toList.length +
        ((before ++ [id]).filterMap m.token?).toFinset.card =
      (m.token? id).toList.length + (before.filterMap m.token?).toFinset.card := by
  rw [List.filterMap_append, List.toFinset_append]
  cases ht : m.token? id with
  | none => simp [collisionAfter, ht]
  | some token =>
    have hiff := isSome_collisionAfter ht before
    have hown : [id].filterMap m.token? = [token] := by simp [ht]
    rw [hown, List.toFinset_cons, List.toFinset_nil, Finset.union_insert, Finset.union_empty]
    cases hrecord : collisionAfter m before id with
    | some record =>
      rw [hrecord] at hiff
      rw [Finset.insert_eq_of_mem (List.mem_toFinset.2 (hiff.1 rfl))]
      rfl
    | none =>
      have hnew : token ∉ before.filterMap m.token? := by
        rw [← hiff, hrecord]
        simp
      rw [Finset.card_insert_of_notMem fun hmem => hnew (List.mem_toFinset.1 hmem)]
      simp [Nat.add_comm]

theorem length_collisionsFrom (h : Remembers m seen before) (rest : List ElementId) :
    (collisionsFrom m seen rest).length + ((before ++ rest).filterMap m.token?).toFinset.card =
      (rest.filterMap m.token?).length + (before.filterMap m.token?).toFinset.card := by
  induction rest generalizing seen before with
  | nil => simp [collisionsFrom]
  | cons id rest ih =>
    obtain ⟨seen', h', hscan⟩ := collisionsFrom_cons h id rest
    have hrest := ih h'
    have hown := length_collisionAfter m before id
    have htokens : ((id :: rest).filterMap m.token?).length =
        (m.token? id).toList.length + (rest.filterMap m.token?).length := by
      cases ht : m.token? id <;> simp [ht, Nat.add_comm]
    rw [List.append_assoc, List.singleton_append] at hrest
    rw [hscan, List.length_append, htokens]
    omega

theorem length_collisions (m : Model) :
    (collisions m).length + m.tokens.toFinset.card = m.tokens.length :=
  length_collisionsFrom (remembers_nil m) m.elementIds

theorem collisions_eq_nil_iff (m : Model) : collisions m = [] ↔ m.tokens.Nodup := by
  rw [← List.length_eq_zero_iff, ← Multiset.coe_nodup, ← Multiset.toFinset_card_eq_card_iff_nodup]
  have hlength := length_collisions m
  change _ ↔ m.tokens.toFinset.card = m.tokens.length
  omega

theorem signals_notes (unit : String) (depth : ℕ) (records : List Record) (rest : Script) :
    signals unit depth (records.flatMap Script.note ++ rest) =
      records.map .note ++ signals unit depth rest := by
  induction records with
  | nil => rfl
  | cons record records ih => exact congrArg (_ :: ·) ih

theorem deliver_notes {σ : Type} (sink : Sink σ) (state : σ) (records : List Record)
    (rest : List Signal) : deliver sink state (records.map .note ++ rest) =
      ({ (deliver sink state rest).1 with
          notes := records ++ (deliver sink state rest).1.notes },
        (deliver sink state rest).2) := by
  induction records with
  | nil => rfl
  | cons record records ih =>
    rw [List.map_cons, List.cons_append, deliver, ih]
    rfl

theorem perform_notes {σ : Type} (l : Layout) (sink : Sink σ) (depth : ℕ) (records : List Record)
    (rest : Script) : (perform l sink depth (records.flatMap Script.note ++ rest)).1 =
      { (perform l sink depth rest).1 with
        notes := records ++ (perform l sink depth rest).1.notes } := by
  rw [perform, signals_notes, deliver_notes]
  rfl

theorem note_mem_signals {unit : String} {depth : ℕ} {script : Script} {record : Record}
    (h : .note record ∈ signals unit depth script) : .note record ∈ script := by
  induction script generalizing depth with
  | nil => exact absurd h List.not_mem_nil
  | cons event rest ih =>
    cases event with
    | write subject directive =>
      rcases List.mem_append.1 h with h | h
      · obtain ⟨text, -, htext⟩ := List.mem_map.1 h
        cases htext
      · exact List.mem_cons_of_mem _ (ih h)
    | note own =>
      rcases List.mem_cons.1 h with h | h
      · cases h
        exact List.mem_cons_self
      · exact List.mem_cons_of_mem _ (ih h)
    | stop error =>
      rcases List.mem_cons.1 h with h | h
      · cases h
      · exact List.mem_cons_of_mem _ (ih h)

theorem note_mem_of_deliver {σ : Type} {sink : Sink σ} {state : σ} {items : List Signal}
    {record : Record} (h : record ∈ (deliver sink state items).1.notes) :
    .note record ∈ items := by
  induction items generalizing state with
  | nil => cases h
  | cons signal rest ih =>
    cases signal with
    | note own =>
      rcases List.mem_cons.1 h with rfl | h
      · exact List.mem_cons_self
      · exact List.mem_cons_of_mem _ (ih h)
    | stop error => cases h
    | piece subject text =>
      rcases haccept : sink.accept state text with ⟨state', taken⟩
      rw [deliver, haccept] at h
      cases taken with
      | false => cases h
      | true => exact List.mem_cons_of_mem _ (ih h)

theorem Orderly.notes {σ : Type} {l : Layout} {sink : Sink σ} {depth : ℕ} {script : Script}
    {record : Record} (h : Orderly script)
    (hrecord : record ∈ (perform l sink depth script).1.notes) : record.level ≠ .warn :=
  h.quiet record (note_mem_signals (note_mem_of_deliver hrecord))

end Dsl

def referral : ElementId → String
  | .person id => "person#" ++ toString id.index
  | .softwareSystem id => "software system#" ++ toString id.index
  | .container id => "container#" ++ toString id.index
  | .component id => "component#" ++ toString id.index
  | .deploymentNode id => "deployment node#" ++ toString id.index
  | .infrastructureNode id => "infrastructure node#" ++ toString id.index
  | .containerInstance id => "container instance#" ++ toString id.index

theorem label_eq_referral (id : ElementId) : id.label = referral id := by
  cases id <;> rfl

/-- The warnings of a rendering are its report on shared tokens, and making the report changes
nothing of what is written. -/
structure Workspace.ReportsCollisions {σ : Type} (w : Workspace) (l : Layout) (sink : Sink σ) :
    Prop where
  /-- In the order of the elements, one record for each that has a token which an element before
  it has. The first of those with the token is named in it. -/
  warnings : (w.write l sink).notes.filter (·.level = .warn) =
    w.model.elementIds.zipIdx.filterMap fun (second, position) =>
      (w.model.token? second).bind fun token =>
        ((w.model.elementIds.take position).find? (w.model.token? · = some token)).map fun first =>
          ⟨.warn, "Identifier collision",
            [("token", token), ("first", referral first), ("second", referral second)]⟩
  /-- The report comes first, and the rest is what the four phases do without it. -/
  rest : w.write l sink =
    { (perform l sink 0 (w.phasesScript l)).1 with
      notes := (w.write l sink).notes.filter (·.level = .warn) ++
        (perform l sink 0 (w.phasesScript l)).1.notes }
  silent_iff : (w.write l sink).notes.filter (·.level = .warn) = [] ↔ w.model.tokens.Nodup
  /-- Every element with a token is the first one with it or reported. -/
  length : ((w.write l sink).notes.filter (·.level = .warn)).length +
      w.model.tokens.toFinset.card =
    w.model.elementIds.countP fun id => (w.model.token? id).isSome

theorem Workspace.write_eq {σ : Type} (w : Workspace) (l : Layout) (sink : Sink σ) :
    w.write l sink = { (perform l sink 0 (w.phasesScript l)).1 with
      notes := collisions w.model ++ (perform l sink 0 (w.phasesScript l)).1.notes } :=
  perform_notes l sink 0 _ _

theorem Workspace.warnings_write {σ : Type} (w : Workspace) (l : Layout) (sink : Sink σ) :
    (w.write l sink).notes.filter (·.level = .warn) = collisions w.model := by
  have hreport : (collisions w.model).filter (·.level = .warn) = collisions w.model :=
    List.filter_eq_self.2 fun record h => decide_eq_true (level_of_mem_collisions h)
  have hrest : (perform l sink 0 (w.phasesScript l)).1.notes.filter (·.level = .warn) = [] :=
    List.filter_eq_nil_iff.2 fun record h => by simpa using (w.orderly_phasesScript l).notes h
  rw [w.write_eq, List.filter_append, hreport, hrest, List.append_nil]

theorem Workspace.collisions_reported {σ : Type} (w : Workspace) (l : Layout) (sink : Sink σ) :
    w.ReportsCollisions l sink := by
  constructor
  · simp only [w.warnings_write, ← label_eq_referral]
    exact collisions_eq w.model
  · rw [w.warnings_write]
    exact w.write_eq l sink
  · rw [w.warnings_write]
    exact collisions_eq_nil_iff w.model
  · rw [w.warnings_write, length_collisions, Model.tokens, List.length_filterMap_eq_countP]

/-- Two people and a system share a token, so the second and the third are reported with the first.
The instance has no token, since its container does not exist, and is passed over. -/
theorem Workspace.collisions_reported_of_threefold :
    ∃ w : Workspace, w.model.Reachable ∧ w.ReportsCollisions .standard .unlimited ∧
      w.model.elementIds = [.person ⟨0⟩, .person ⟨1⟩, .softwareSystem ⟨0⟩, .deploymentNode ⟨0⟩,
        .containerInstance ⟨0⟩] ∧
      w.model.elementIds.map w.model.token? =
        [some "user", some "user", some "user", some "host", none] ∧
      (w.render .standard).notes.filter (·.level = .warn) =
        [⟨.warn, "Identifier collision",
            [("token", "user"), ("first", "person#0"), ("second", "person#1")]⟩,
          ⟨.warn, "Identifier collision",
            [("token", "user"), ("first", "person#0"), ("second", "software system#0")]⟩] := by
  let history : List Edit := [.addPerson "User" "", .addSoftwareSystem "user" "",
    .addDeploymentNode "Host" "" "" .development, .addContainerInstance ⟨0⟩ ⟨7⟩, .addPerson "USER" ""]
  let w : Workspace :=
    { Workspace.empty with model := (Model.empty.performAll history).getD .empty }
  have hreport : w.ReportsCollisions .standard .unlimited :=
    Workspace.collisions_reported w .standard .unlimited
  exact ⟨w, ⟨history, rfl⟩, hreport, by decide +kernel, by decide +kernel,
    hreport.warnings.trans (by decide +kernel)⟩

end C4
