import C4.Proofs.Citations

/-!
# Definition before use

What a document refers to by a token has been defined by a header with that token before. The
document introduces people, software systems and what they consist of first, then what is
deployed, then the relationships, and then come the views. Only what hangs on a node that is not
deployed is never defined.
-/
namespace C4

open Dsl

namespace Model

variable {m : Model} {id : ElementId}

/-- An element that is or hangs on a deployment node from which no way leads up to a root. -/
def Detached (m : Model) (id : ElementId) : Prop := ∃ n, m.nodeAround? id = some n ∧ ¬ m.Deployed n

theorem nameOf?_isSome_of_token {token : String} (h : m.token id = .ok token) :
    (m.nameOf? id).isSome := by
  cases id with
  | containerInstance id =>
    cases hi : m.containerInstance? id with
    | none => simp [Model.token, hi] at h
    | some i =>
      cases hc : m.container? i.container with
      | none => simp [Model.token, hi, hc] at h
      | some c => simp [nameOf?, hi, hc]
  | person | softwareSystem | container | component | deploymentNode | infrastructureNode =>
    simp only [Model.token] at h
    split at h
    · cases h
    · next name hname => rw [hname, Option.isSome_some]

theorem listed_or_detached {token : String} (h : m.token id = .ok token) :
    m.Listed id ∨ m.Detached id := by
  have hname := nameOf?_isSome_of_token h
  have deployed {n : DeploymentNodeId} (hn : m.nodeAround? id = some n) :
      (∃ n, m.nodeAround? id = some n ∧ m.Deployed n) ∨ m.Detached id := by
    by_cases hdeployed : m.Deployed n
    · exact Or.inl ⟨n, hn, hdeployed⟩
    · exact Or.inr ⟨n, hn, hdeployed⟩
  cases id with
  | person | softwareSystem | container | component =>
    exact Or.inl (by simpa [nameOf?, Listed] using hname)
  | deploymentNode id =>
    rcases deployed rfl with ⟨n, hn, hdeployed⟩ | hdetached
    · cases hn
      exact Or.inl hdeployed
    · exact Or.inr hdetached
  | infrastructureNode id =>
    obtain ⟨n, hn⟩ : ∃ n, m.infrastructureNode? id = some n := by
      simpa [nameOf?, Option.isSome_iff_exists] using hname
    have haround : m.nodeAround? (.infrastructureNode id) = some n.parent := by
      simp [nodeAround?, infrastructureHost?, hn]
    exact deployed haround
  | containerInstance id =>
    obtain ⟨i, hi⟩ : ∃ i, m.containerInstance? id = some i := by
      rw [← Option.isSome_iff_exists]
      exact Option.isSome_of_isSome_bind hname
    have haround : m.nodeAround? (.containerInstance id) = some i.parent := by
      simp [nodeAround?, instanceHost?, hi]
    exact deployed haround

theorem elementHeader_eq (token keyword name : String) (args : List (Option String)) :
    elementHeader token keyword name args =
      token ++ " = " ++ (keyword ++ " " ++ quote name ++ arguments args) := by
  simp [elementHeader, String.append_assoc]

theorem Headed.token {name text : String} (h : m.Headed id name text) :
    ∃ token rest, m.token id = .ok token ∧ text = token ++ " = " ++ rest := by
  cases h with
  | person _ ht | softwareSystem _ ht | container _ ht | component _ ht | deploymentNode _ ht
  | infrastructureNode _ ht => exact ⟨_, _, ht, elementHeader_eq ..⟩
  | @containerInstance _ _ _ token container _ _ ht _ =>
    have hkeyword : " = containerInstance " = " = " ++ "containerInstance " := rfl
    refine ⟨token, "containerInstance " ++ container, ht, ?_⟩
    rw [hkeyword, String.append_assoc, String.append_assoc, String.append_assoc]

theorem elementContents_split (m : Model) : ∃ first : List Entry, m.elementContents =
    first ++ (environmentGroups m).flatMap m.environmentContents := ⟨_, rfl⟩

theorem mem_environmentReferences (hm : m.skeleton.Sound) : Reference.element id ∈
      referencesIn ((environmentGroups m).flatMap m.environmentContents) ↔
    ∃ n, m.nodeAround? id = some n ∧ m.Deployed n := by
  rw [(referencesIn_environmentContents_perm hm).mem_iff]
  simp only [List.mem_flatMap, List.mem_map, Reference.element.injEq, exists_eq_right,
    mem_deployedNodes hm, (mirrors_nodeElements hm).mem_iff]
  exact exists_congr fun n => and_comm

end Model

theorem prefix_of_append_eq {α : Type*} {first rest before after : List α} {a : α}
    (h : first ++ rest = before ++ a :: after) (ha : a ∉ first) : first <+: before := by
  rcases List.append_eq_append_iff.1 h with ⟨more, rfl, -⟩ | ⟨more, hfirst, hmore⟩
  · exact List.prefix_append ..
  · cases more with
    | nil =>
      rw [List.append_nil] at hfirst
      exact hfirst ▸ List.prefix_rfl
    | cons b more =>
      obtain ⟨rfl, -⟩ := List.cons.inj hmore
      exact absurd (hfirst ▸ List.mem_append_right _ List.mem_cons_self) ha

namespace Workspace

variable {w : Workspace} {l : Layout}

/-- Some directives define an element by the token that it is referred to by. -/
def Defines (w : Workspace) (lines : List Placed) (id : ElementId) : Prop :=
  ∃ q ∈ lines, q.entity? = some (.element id) ∧ ∃ token rest, w.model.token id = .ok token ∧
    q.directive.text? = some (token ++ " = " ++ rest)

theorem defines_of_mem {lines : List Placed} (hlines : lines ⊆ w.placed l) {id : ElementId}
    (h : .element id ∈ lines.filterMap Placed.entity?) : w.Defines lines id := by
  obtain ⟨q, hq, hid⟩ := List.mem_filterMap.1 h
  obtain ⟨text, htext, hintroduces, hsubject⟩ :=
    (attributed_of_mem_placed (hlines hq)).introduces_of_entity? hid
  obtain ⟨outer, name, -, -, hheaded⟩ := hintroduces.of_element hsubject
  obtain ⟨token, rest, ht, rfl⟩ := hheaded.token
  exact ⟨q, hq, hid, token, rest, ht, htext⟩

theorem Defines.mono {lines more : List Placed} {id : ElementId} (h : w.Defines lines id)
    (hsubset : lines ⊆ more) : w.Defines more id := by
  obtain ⟨q, hq, hdefines⟩ := h
  exact ⟨q, hsubset hq, hdefines⟩

theorem not_suffix_views_of_mem {p : Placed} (hp : p ∈ w.modelDirectives l) :
    ¬ [(.views, "views"), (w.subject, w.headerLine)] <:+ p.around := by
  intro hviews
  rw [modelDirectives_eq_placedOf, modelBlock, placedOf_cons, placedOf_nil, List.append_nil,
    placed_block] at hp
  have inside (hmodel : [(.model, "model"), (w.subject, w.headerLine)] <:+ p.around) : False := by
    have hsame := (List.suffix_of_suffix_length_le hviews hmodel (Nat.le_refl _)).eq_of_length rfl
    cases hsame
  rcases List.mem_cons.1 hp with rfl | hp
  · exact absurd hviews.length_le (by simp)
  · rcases List.mem_append.1 hp with hp | hp
    · exact inside (suffix_of_mem_placedOf hp)
    · obtain rfl := List.mem_singleton.1 hp
      exact inside List.suffix_rfl

section Before

variable (hm : w.model.skeleton.Sound) (hv : ∀ v ∈ w.views.dynamic, v.Advances)
  (hresolved : ∀ r ∈ w.references, w.model.exists? r = true)
include hm hv hresolved

theorem references_placed : (w.placed l).filterMap Placed.entity? =
    referencesIn w.model.elementContents ++ w.model.relationshipIds.map .relationship := by
  have hlaid : w.LaysOut l := .of_resolved hm hv hresolved
  obtain ⟨before, after, hplaced, hbefore, hafter⟩ := hlaid.block
  rw [hplaced, List.filterMap_append, List.filterMap_append, hbefore, hafter, List.nil_append,
    List.append_nil, filterMap_entity?, contents_modelDirectives hm hresolved,
    ← referencesIn_relationships hm hresolved, ← referencesIn_append]
  rfl

omit hv in
theorem elementReferences_perm :
    (referencesIn w.model.elementContents).Perm (w.model.elements.map .element) :=
  Model.referencesIn_elementContents_perm hm fun r hr =>
    hresolved r (List.mem_append_left _ (List.mem_append_left _ (List.mem_append_left _ hr)))

omit hv in
theorem mem_elementReferences {r : Reference} : r ∈ referencesIn w.model.elementContents ↔
    ∃ id, w.model.Listed id ∧ r = .element id := by
  rw [(elementReferences_perm hm hresolved).mem_iff, List.mem_map]
  simp only [Model.mem_elements hm, eq_comm]

omit hv in
theorem elementReferences_nodup : (referencesIn w.model.elementContents).Nodup := by
  rw [(elementReferences_perm hm hresolved).nodup_iff]
  exact (Model.elements_nodup hm).map fun _ _ hab => Reference.element.inj hab

variable {before after : List Placed} {p : Placed}

omit hm hv hresolved in
theorem defines_before_of_append (hsplit : w.placed l = before ++ p :: after) {r : Reference}
    (hr : p.entity? = some r) {first rest : List Reference}
    (happend : (w.placed l).filterMap Placed.entity? = first ++ rest) (hfirst : r ∉ first)
    {id : ElementId} (hid : .element id ∈ first) : w.Defines before id := by
  have hbefore : before ⊆ w.placed l := hsplit ▸ List.subset_append_left ..
  rw [hsplit, List.filterMap_append, List.filterMap_cons, hr] at happend
  exact defines_of_mem hbefore ((prefix_of_append_eq happend.symm hfirst).subset hid)

theorem defines_before_relationship (hsplit : w.placed l = before ++ p :: after)
    {r : RelationshipId} (hr : p.entity? = some (.relationship r)) {id : ElementId}
    (hid : w.model.Listed id) : w.Defines before id := by
  refine defines_before_of_append hsplit hr (references_placed hm hv hresolved) ?_
    ((mem_elementReferences hm hresolved).2 ⟨id, hid, rfl⟩)
  intro hmem
  obtain ⟨id, -, hid⟩ := (mem_elementReferences hm hresolved).1 hmem
  cases hid

theorem defines_before_instance (hsplit : w.placed l = before ++ p :: after)
    {i : ContainerInstanceId} (hi : p.entity? = some (.element (.containerInstance i)))
    {c : ContainerId} (hc : w.model.Listed (.container c)) : w.Defines before (.container c) := by
  have hreferences := references_placed hm hv hresolved (l := l)
  have hnodup := elementReferences_nodup hm hresolved
  have hcontainer := (mem_elementReferences hm hresolved).2 ⟨_, hc, rfl⟩
  have hinstance : .element (.containerInstance i) ∈ referencesIn w.model.elementContents := by
    have hp : p ∈ w.placed l := hsplit ▸ List.mem_append_right _ List.mem_cons_self
    have hmem := List.mem_filterMap.2 ⟨p, hp, hi⟩
    rw [hreferences] at hmem
    rcases List.mem_append.1 hmem with hmem | hmem
    · exact hmem
    · obtain ⟨r, -, hr⟩ := List.mem_map.1 hmem
      cases hr
  have hdeployed : .element (.containerInstance i) ∈
      referencesIn ((environmentGroups w.model).flatMap w.model.environmentContents) := by
    obtain ⟨_, hlisted, heq⟩ := (mem_elementReferences hm hresolved).1 hinstance
    cases heq
    exact (Model.mem_environmentReferences hm).2 hlisted
  -- What is deployed is listed last, and no element is listed twice.
  obtain ⟨first, hfirst⟩ := w.model.elementContents_split
  rw [hfirst, referencesIn_append] at hreferences hnodup hcontainer
  rw [List.append_assoc] at hreferences
  refine defines_before_of_append hsplit hi hreferences
    (fun hmem => List.disjoint_of_nodup_append hnodup hmem hdeployed) ?_
  rcases List.mem_append.1 hcontainer with hc | hc
  · exact hc
  · obtain ⟨n, hn, -⟩ := (Model.mem_environmentReferences hm).1 hc
    cases hn

theorem defines_before_view (hsplit : w.placed l = before ++ p :: after)
    (hviews : [(.views, "views"), (w.subject, w.headerLine)] <:+ p.around) {id : ElementId}
    (hid : w.model.Listed id) : w.Defines before id := by
  have hplaced := placed_of_outcome_ok ((outcome_ok_iff hm hv (l := l)).2 hresolved)
  have hmodel : w.modelDirectives l ⊆ w.placed l := by
    rw [hplaced]
    exact List.Subset.trans (List.subset_append_right ..) (List.subset_append_left ..)
  rw [hsplit] at hplaced
  have hbegins := prefix_of_append_eq hplaced.symm fun hp => by
    rcases List.mem_append.1 hp with hp | hp
    · obtain rfl := List.mem_singleton.1 hp
      cases hviews.length_le
    · exact not_suffix_views_of_mem hp hviews
  obtain ⟨elements, horder, -, hlisted⟩ := (LaysOut.of_resolved hm hv hresolved (l := l)).order
  have hmem : .element id ∈ (w.modelDirectives l).filterMap Placed.entity? := by
    rw [horder]
    exact List.mem_append_left _ (List.mem_map_of_mem ((hlisted id).2 hid))
  exact (defines_of_mem hmodel hmem).mono
    (List.Subset.trans (List.subset_append_right ..) hbegins.subset)

theorem defines_of_cites (hsplit : w.placed l = before ++ p :: after) {cited : List ElementId}
    (h : w.Cites p cited) {id : ElementId} (hid : id ∈ cited) (hdetached : ¬ w.model.Detached id) :
    w.Defines before id := by
  obtain ⟨token, ht⟩ := h.token id hid
  have hlisted : w.model.Listed id := (Model.listed_or_detached ht).resolve_right hdetached
  cases h with
  | containerInstance hi =>
    obtain rfl := List.mem_singleton.1 hid
    exact defines_before_instance hm hv hresolved hsplit hi hlisted
  | relationship hr => exact defines_before_relationship hm hv hresolved hsplit hr hlisted
  | view hviews => exact defines_before_view hm hv hresolved hsplit hviews hlisted

omit hm hv hresolved in
theorem cites_of_relationship (hp : p ∈ w.placed l) {id : RelationshipId}
    (hid : p.entity? = some (.relationship id)) : ∃ cited, w.Cites p cited := by
  obtain ⟨text, htext, hintroduces, hsubject⟩ :=
    (attributed_of_mem_placed hp).introduces_of_entity? hid
  obtain ⟨-, r, source, target, hr, hs, ht, rfl⟩ := hintroduces.of_relationship hsubject
  exact ⟨_, .relationship hid hr hs ht htext⟩

omit hm hv hresolved in
theorem cites_of_instance (hp : p ∈ w.placed l) {id : ContainerInstanceId}
    (hid : p.entity? = some (.element (.containerInstance id))) : ∃ cited, w.Cites p cited := by
  obtain ⟨text, htext, hintroduces, hsubject⟩ :=
    (attributed_of_mem_placed hp).introduces_of_entity? hid
  obtain ⟨outer, name, -, -, hheaded⟩ := hintroduces.of_element hsubject
  cases hheaded with
  | containerInstance hi _ _ ht => exact ⟨_, .containerInstance hid hi ht htext⟩

omit hm hv hresolved in
theorem Cites.of_entity {cited : List ElementId} (h : w.Cites p cited) {r : Reference}
    (hr : p.entity? = some r) :
    (∃ id i, r = .element (.containerInstance id) ∧ w.model.containerInstance? id = some i ∧
      cited = [.container i.container]) ∨
    ∃ id q, r = .relationship id ∧ w.model.relationship? id = some q ∧
      cited = [q.source, q.target] := by
  cases h with
  | containerInstance hid hi _ _ =>
    exact Or.inl ⟨_, _, Option.some.inj (hr.symm.trans hid), hi, rfl⟩
  | relationship hid hq _ _ _ =>
    exact Or.inr ⟨_, _, Option.some.inj (hr.symm.trans hid), hq, rfl⟩
  | view _ hsubject _ =>
    obtain ⟨-, -, -, hreference⟩ := Placed.entity?_eq_some hr
    rw [hsubject] at hreference
    cases hreference

theorem cites_of_view (hp : p ∈ w.placed l)
    (hviews : [(.views, "views"), (w.subject, w.headerLine)] <:+ p.around) {id : ViewId}
    {name : String} (hsubject : p.subject = .view id name) : ∃ cited, w.Cites p cited := by
  rw [placed_of_outcome_ok ((outcome_ok_iff hm hv (l := l)).2 hresolved)] at hp
  simp only [List.mem_append, List.mem_singleton] at hp
  rcases hp with (rfl | hp) | hp | rfl
  · exact absurd hviews.length_le (by simp)
  · exact absurd hviews (not_suffix_views_of_mem hp)
  · rw [viewsDirectives_eq_placedOf] at hp
    obtain ⟨cited, hcited⟩ := everywhere_viewsBlock hv l _ p hp id name hsubject
    exact ⟨cited, .view hviews hsubject hcited⟩
  · exact absurd hviews.length_le (by simp)

end Before

end Workspace

/-- In a finished document whatever is referred to by a token has been defined by a header with
that token before, unless it is detached. The lines that refer to elements are the headers of
instances, the arrows and those of the views. -/
theorem defined_before_use (w : Workspace) (l : Layout) (hm : w.model.Reachable)
    (hv : w.views.Reachable) (hok : ∃ text, (w.render l).result = .ok text) :
    (∀ before p after, w.placed l = before ++ p :: after → ∀ cited, w.Cites p cited →
      ∀ id ∈ cited, ¬ w.model.Detached id → w.Defines before id) ∧
    ∀ p ∈ w.placed l,
      (∃ id, p.entity? = some (.element (.containerInstance id))) ∨
        (∃ id, p.entity? = some (.relationship id)) ∨
        [(.views, "views"), (w.subject, w.headerLine)] <:+ p.around ∧
          (∃ id name, p.subject = .view id name) →
      ∃ cited, w.Cites p cited := by
  have hsound := hm.sound
  have hadvances := hv.advances
  have hresolved :=
    (Workspace.outcome_ok_iff hsound hadvances).1 (Workspace.exists_result_iff.1 hok)
  constructor
  · intro before p after hsplit cited hcites id hid hdetached
    exact Workspace.defines_of_cites hsound hadvances hresolved hsplit hcites hid hdetached
  · rintro p hp (⟨id, hid⟩ | ⟨id, hid⟩ | ⟨hviews, id, name, hsubject⟩)
    · exact Workspace.cites_of_instance hp hid
    · exact Workspace.cites_of_relationship hp hid
    · exact Workspace.cites_of_view hsound hadvances hresolved hp hviews hsubject

/-- A container runs on two nodes, of which one is never attached. The instance there is referred
to, but has no header. -/
theorem defined_before_use_with_spare_node :
    ∃ w : Workspace, w.model.Reachable ∧ w.views.Reachable ∧
      (∃ text, (w.render .standard).result = .ok text) ∧
      w.model.relationship? ⟨0⟩ = some (.create (.containerInstance ⟨0⟩) (.containerInstance ⟨1⟩)
        none) ∧
      (∃ before p after, w.placed .standard = before ++ p :: after ∧
        p.entity? = some (.relationship ⟨0⟩) ∧ w.Defines before (.containerInstance ⟨0⟩)) ∧
      (∃ before p after, w.placed .standard = before ++ p :: after ∧
        p.entity? = some (.element (.containerInstance ⟨0⟩)) ∧ w.Defines before (.container ⟨0⟩)) ∧
      .element (.containerInstance ⟨1⟩) ∉ (w.placed .standard).filterMap Placed.entity? := by
  let history : List Edit := [.addSoftwareSystem "Bank" "", .addContainer ⟨0⟩ "Ledger",
    .addDeploymentNode "Rack" "" "" .production, .createDeploymentNode "Spare" "" "" .production,
    .addContainerInstance ⟨0⟩ ⟨0⟩, .addContainerInstance ⟨1⟩ ⟨0⟩,
    .addRelationship (.containerInstance ⟨0⟩) (.containerInstance ⟨1⟩)]
  let views := (Views.empty.addContainerView ⟨0⟩ "" "").2
  have hviews : views.Reachable := .addContainerView .empty ⟨0⟩ "" ""
  obtain ⟨w, hv, hm, hresolved, hfacts⟩ : ∃ w : Workspace, w.views = views ∧
      Model.empty.performAll history = some w.model ∧
      (∀ r ∈ w.references, w.model.exists? r = true) ∧
      w.model.relationship? ⟨0⟩ = some (.create (.containerInstance ⟨0⟩)
        (.containerInstance ⟨1⟩) none) ∧
      w.model.containerInstance? ⟨0⟩ = some (.create ⟨0⟩ ⟨0⟩) ∧
      w.model.topLevel = [⟨0⟩] ∧ w.model.parentOf? ⟨0⟩ = none ∧
      (w.placed .standard).filterMap Placed.entity? =
        [.element (.softwareSystem ⟨0⟩), .element (.container ⟨0⟩), .element (.deploymentNode ⟨0⟩),
          .element (.containerInstance ⟨0⟩), .relationship ⟨0⟩] :=
    ⟨{ Workspace.empty with
      model := (Model.empty.performAll history).getD .empty, views := views }, rfl,
      by decide +kernel⟩
  obtain ⟨hrelationship, hinstance, hroots, hfree, hentities⟩ := hfacts
  have hreachable : w.model.Reachable := ⟨history, hm⟩
  have hviews : w.views.Reachable := hv ▸ hviews
  have hok : ∃ text, (w.render .standard).result = .ok text := Workspace.exists_result_iff.2
    ((Workspace.outcome_ok_iff hreachable.sound hviews.advances).2 hresolved)
  obtain ⟨hdefined, hcited⟩ := defined_before_use w .standard hreachable hviews hok
  refine ⟨w, hreachable, hviews, hok, hrelationship, ?arrow, ?header, by simp [hentities]⟩
  case arrow =>
    obtain ⟨p, hp, hid⟩ := List.mem_filterMap.1
      (by simp [hentities] : .relationship ⟨0⟩ ∈ (w.placed .standard).filterMap Placed.entity?)
    obtain ⟨before, after, hsplit⟩ := List.append_of_mem hp
    obtain ⟨cited, hcites⟩ := hcited p hp (Or.inr (Or.inl ⟨_, hid⟩))
    refine ⟨before, p, after, hsplit, hid, hdefined before p after hsplit cited hcites _ ?_ ?_⟩
    · rcases hcites.of_entity hid with ⟨_, _, hr, -⟩ | ⟨_, _, hr, hq, rfl⟩
      · cases hr
      · cases hr
        cases hrelationship.symm.trans hq
        exact List.mem_cons_self
    · rintro ⟨n, hn, hdeployed⟩
      have hhost : n = ⟨0⟩ := by simpa [Model.nodeAround?, Model.instanceHost?, hinstance,
        ContainerInstance.create] using hn.symm
      subst hhost
      exact hdeployed ⟨⟨0⟩, by simp [hroots], .refl, hfree⟩
  case header =>
    obtain ⟨p, hp, hid⟩ := List.mem_filterMap.1 (by simp [hentities] :
      .element (.containerInstance ⟨0⟩) ∈ (w.placed .standard).filterMap Placed.entity?)
    obtain ⟨before, after, hsplit⟩ := List.append_of_mem hp
    obtain ⟨cited, hcites⟩ := hcited p hp (Or.inl ⟨_, hid⟩)
    refine ⟨before, p, after, hsplit, hid, hdefined before p after hsplit cited hcites _ ?_ ?_⟩
    · rcases hcites.of_entity hid with ⟨_, _, hr, hi, rfl⟩ | ⟨_, _, hr, -⟩
      · cases hr
        cases hinstance.symm.trans hi
        exact List.mem_cons_self
      · cases hr
    · rintro ⟨n, hn, -⟩
      cases hn

end C4
