import C4.Proofs.Delivery
import C4.Proofs.Outlines
import C4.Proofs.Scripts

/-!
# Failing fast

A sink that refuses a piece is offered nothing more, and the error names the innermost entity that
the piece belongs to, by its kind and by the name that it has in the workspace.
-/
namespace C4

open Dsl

namespace Workspace

def placed (w : Workspace) (l : Layout) : List Placed := placedFrom [] (beforeStop (w.script l))

/-- The pieces of a workspace, each with the directive that it is a part of. -/
def chunks (w : Workspace) (l : Layout) : List (Placed × String) :=
  (w.placed l).flatMap (Placed.chunks l.indentUnit)

theorem placed_prefix (w : Workspace) (l : Layout) :
    w.placed l <+: placedOf [] (w.outline l) := by
  rw [← placedFrom_eventsOf, eventsOf_outline]
  obtain ⟨rest, hrest⟩ : beforeStop (w.script l) <+: w.script l := List.takeWhile_prefix _
  conv => rhs; rw [← hrest, placedFrom_append]
  exact List.prefix_append ..

theorem contents_placed_prefix (w : Workspace) (l : Layout) :
    Dsl.contents (w.placed l) <+: w.contents := by
  have hbegun := (fits_outline w l).begun
  rwa [eventsOf_outline] at hbegun

theorem pieces_script (w : Workspace) (l : Layout) :
    piecesOf (signals l.indentUnit 0 (w.script l)) =
      (w.chunks l).map fun chunk => (chunk.1.subject, chunk.2) :=
  piecesOf_signals l.indentUnit [] _

theorem texts_script (w : Workspace) (l : Layout) :
    (piecesOf (signals l.indentUnit 0 (w.script l))).map (·.2) = (w.chunks l).map (·.2) := by
  rw [pieces_script, List.map_map]
  rfl

theorem render_eq_deliver (w : Workspace) (l : Layout) :
    w.render l = (deliver .unlimited () (signals l.indentUnit 0 (w.script l))).1 := rfl

theorem written_render (w : Workspace) (l : Layout) :
    (w.render l).written = (w.chunks l).map (·.2) := by
  rw [← texts_script, render_eq_deliver, (deliver_unlimited _).1]

theorem outcome_render (w : Workspace) (l : Layout) :
    (w.render l).outcome = outcomeOf (firstStop (w.script l)) := by
  rw [← stopOf_signals l.indentUnit 0, render_eq_deliver, (deliver_unlimited _).2]

theorem attributed_of_mem_placed {w : Workspace} {l : Layout} {p : Placed}
    (hp : p ∈ w.placed l) : p.Attributed w :=
  (fits_outline w l).attributed p ((w.placed_prefix l).subset hp)

theorem placed_of_chunks {w : Workspace} {l : Layout} {k : ℕ} {p : Placed} {text : String}
    (h : (w.chunks l)[k]? = some (p, text)) : p ∈ w.placed l := by
  obtain ⟨q, hq, hmem⟩ := List.mem_flatMap.1 (List.mem_of_getElem? h)
  obtain ⟨t, -, ht⟩ := List.mem_map.1 hmem
  cases ht
  exact hq

/-- The kind and the name by which an entity of the workspace is reported. -/
inductive Names (w : Workspace) : Subject → String → String → Prop
  | workspace : Names w w.subject "workspace" (w.name.getD "workspace")
  | model : Names w .model "model" "model"
  | views : Names w .views "views" "views"
  | styles : Names w .styles "styles" "styles"
  | enterprise {e : Enterprise} (he : w.model.enterprise = some e) :
    Names w (.enterprise e.name) "enterprise" e.name
  | environment {id : DeploymentNodeId} {n : DeploymentNode} (hid : id ∈ w.model.topLevel)
    (hn : w.model.deploymentNode? id = some n) :
    Names w (.environment n.environment.name) "deployment environment" n.environment.name
  | person {id : PersonId} {p : Person} (hp : w.model.person? id = some p) :
    Names w (.element id p.name) "person" p.name
  | softwareSystem {id : SoftwareSystemId} {s : SoftwareSystem}
    (hs : w.model.softwareSystem? id = some s) :
    Names w (.element id s.name) "software system" s.name
  | container {id : ContainerId} {c : Container} (hc : w.model.container? id = some c) :
    Names w (.element id c.name) "container" c.name
  | component {id : ComponentId} {c : Component} (hc : w.model.component? id = some c) :
    Names w (.element id c.name) "component" c.name
  | deploymentNode {id : DeploymentNodeId} {n : DeploymentNode}
    (hn : w.model.deploymentNode? id = some n) :
    Names w (.element id n.name) "deployment node" n.name
  | infrastructureNode {id : InfrastructureNodeId} {n : InfrastructureNode}
    (hn : w.model.infrastructureNode? id = some n) :
    Names w (.element id n.name) "infrastructure node" n.name
  | containerInstance {id : ContainerInstanceId} {i : ContainerInstance} {c : Container}
    (hi : w.model.containerInstance? id = some i)
    (hc : w.model.container? i.container = some c) :
    Names w (.element id c.name) "container instance" c.name
  | healthCheck {id : ContainerInstanceId} {i : ContainerInstance} {check : HealthCheck}
    (hi : w.model.containerInstance? id = some i) (hcheck : check ∈ i.healthChecks) :
    Names w (.healthCheck check.name) "health check" check.name
  /-- A relationship is named by its own line. -/
  | relationship {id : RelationshipId} {r : Relationship} {source target line : String}
    (hr : w.model.relationship? id = some r) (hsource : w.model.token r.source = .ok source)
    (htarget : w.model.token r.target = .ok target)
    (hline : line = source ++ " -> " ++ target ++
      arguments [r.description, r.technology, r.interactionStyle.map InteractionStyle.name]) :
    Names w (.relationship id line) "relationship" line
  /-- A view is named by its key, or else by its keyword. -/
  | systemContextView {index : ℕ} {v : StaticView SoftwareSystemId} {name : String}
    (hv : w.views.systemContext[index]? = some v) (hname : name = v.header.key.getD "systemContext") :
    Names w (.view (.systemContext index) name) "systemContext" name
  | containerView {index : ℕ} {v : StaticView SoftwareSystemId} {name : String}
    (hv : w.views.container[index]? = some v) (hname : name = v.header.key.getD "container") :
    Names w (.view (.container index) name) "container" name
  | componentView {index : ℕ} {v : StaticView ContainerId} {name : String}
    (hv : w.views.component[index]? = some v) (hname : name = v.header.key.getD "component") :
    Names w (.view (.component index) name) "component" name
  | dynamicView {index : ℕ} {v : DynamicView} {name : String}
    (hv : w.views.dynamic[index]? = some v) (hname : name = v.header.key.getD "dynamic") :
    Names w (.view (.dynamic index) name) "dynamic" name
  | deploymentView {index : ℕ} {v : DeploymentView} {name : String}
    (hv : w.views.deployment[index]? = some v) (hname : name = v.header.key.getD "deploymentView") :
    Names w (.view (.deployment index) name) "deploymentView" name
  | filteredView {index : ℕ} {v : FilteredView} {name : String}
    (hv : w.views.filtered[index]? = some v) (hname : name = v.header.key.getD "filteredView") :
    Names w (.view (.filtered index) name) "filteredView" name
  | elementStyle {style : ElementStyle} (hstyle : style ∈ w.views.styles.elements) :
    Names w (.elementStyle style.tag) "element style" style.tag
  | relationshipStyle {style : RelationshipStyle}
    (hstyle : style ∈ w.views.styles.relationships) :
    Names w (.relationshipStyle style.tag) "relationship style" style.tag

variable {w : Workspace}

theorem Names.kind_name {subject : Subject} {kind name : String} (h : w.Names subject kind name) :
    subject.kind = kind ∧ subject.name = name := by
  cases h <;> exact ⟨rfl, rfl⟩

theorem Names.message {subject : Subject} {kind name : String} (h : w.Names subject kind name) :
    (RenderError.refused subject).message = "failed to write " ++ kind ++ " '" ++ name ++ "'" := by
  obtain ⟨rfl, rfl⟩ := h.kind_name
  rfl

theorem exists_names_view {id : ViewId} {header : ViewHeader}
    (h : w.views.header? id = some header) :
    ∃ kind name, w.Names (.view id (header.key.getD id.keyword)) kind name := by
  have found {α : Type} {view : Option α} {own : α → ViewHeader}
      (h : view.map own = some header) : ∃ v, view = some v ∧ own v = header :=
    Option.map_eq_some_iff.1 h
  cases id with
  | systemContext index =>
    obtain ⟨v, hv, rfl⟩ := found h
    exact ⟨_, _, .systemContextView hv rfl⟩
  | container index =>
    obtain ⟨v, hv, rfl⟩ := found h
    exact ⟨_, _, .containerView hv rfl⟩
  | component index =>
    obtain ⟨v, hv, rfl⟩ := found h
    exact ⟨_, _, .componentView hv rfl⟩
  | dynamic index =>
    obtain ⟨v, hv, rfl⟩ := found h
    exact ⟨_, _, .dynamicView hv rfl⟩
  | deployment index =>
    obtain ⟨v, hv, rfl⟩ := found h
    exact ⟨_, _, .deploymentView hv rfl⟩
  | filtered index =>
    obtain ⟨v, hv, rfl⟩ := found h
    exact ⟨_, _, .filteredView hv rfl⟩

theorem Introduces.exists_names {outer : Option Subject} {text : String} {subject : Subject}
    (h : w.Introduces outer text subject) : ∃ kind name, w.Names subject kind name := by
  cases h with
  | workspace => exact ⟨_, _, .workspace⟩
  | model => exact ⟨_, _, .model⟩
  | views => exact ⟨_, _, .views⟩
  | element _ hheaded =>
    cases hheaded with
    | person hp _ => exact ⟨_, _, .person hp⟩
    | softwareSystem hs _ => exact ⟨_, _, .softwareSystem hs⟩
    | container hc _ => exact ⟨_, _, .container hc⟩
    | component hc _ => exact ⟨_, _, .component hc⟩
    | deploymentNode hn _ => exact ⟨_, _, .deploymentNode hn⟩
    | infrastructureNode hn _ => exact ⟨_, _, .infrastructureNode hn⟩
    | containerInstance hi hc _ _ => exact ⟨_, _, .containerInstance hi hc⟩
  | enterprise he => exact ⟨_, _, .enterprise he⟩
  | environment hid hn => exact ⟨_, _, .environment hid hn⟩
  | healthCheck hi _ hcheck => exact ⟨_, _, .healthCheck hi hcheck⟩
  | relationship hr hsource htarget => exact ⟨_, _, .relationship hr hsource htarget rfl⟩
  | view hview _ => exact exists_names_view hview
  | styles => exact ⟨_, _, .styles⟩
  | elementStyle hstyle => exact ⟨_, _, .elementStyle hstyle⟩
  | relationshipStyle hstyle => exact ⟨_, _, .relationshipStyle hstyle⟩

theorem exists_names_of_attributed {around : Surround} {events : List Event}
    (haround : ∀ block ∈ around, ∃ kind name, w.Names block.1 kind name)
    (h : ∀ p ∈ placedFrom around events, p.Attributed w) :
    ∀ p ∈ placedFrom around events, ∃ kind name, w.Names p.subject kind name := by
  induction events generalizing around with
  | nil => exact fun _ hp => nomatch hp
  | cons event rest ih =>
    cases event with
    | note record => exact ih haround h
    | stop error => exact ih haround h
    | write subject directive =>
      rw [placedFrom, List.forall_mem_cons] at h ⊢
      obtain ⟨hfirst, hrest⟩ := h
      have howner (hown : around.owner? = some subject) :
          ∃ kind name, w.Names subject kind name := by
        obtain ⟨block, hblock, rfl⟩ := Option.map_eq_some_iff.1 hown
        exact haround block (List.mem_of_head? hblock)
      have hspoken {text : String} (hbelongs : Belongs w around subject text) :
          ∃ kind name, w.Names subject kind name := by
        unfold Belongs at hbelongs
        split at hbelongs
        · exact hbelongs.exists_names
        · exact howner hbelongs
      cases directive with
      | line text => exact ⟨hspoken hfirst, ih haround hrest⟩
      | opening header =>
        refine ⟨hspoken hfirst, ih ?_ hrest⟩
        exact List.forall_mem_cons.2 ⟨hspoken hfirst, haround⟩
      | closing =>
        refine ⟨howner hfirst, ih ?_ hrest⟩
        exact fun block hblock => haround block (List.mem_of_mem_tail hblock)
      | gap => exact ⟨howner hfirst, ih haround hrest⟩

theorem exists_names_of_mem_placed {l : Layout} {p : Placed} (hp : p ∈ w.placed l) :
    ∃ kind name, w.Names p.subject kind name :=
  exists_names_of_attributed (List.forall_mem_nil _) (fun _ hq => attributed_of_mem_placed hq) p hp

end Workspace

/-- What a sink that takes `k` pieces and refuses the next one does to the delivery of a
workspace. The entities of the pieces are introduced in the order of the table of contents. -/
theorem delivery_fails_fast (w : Workspace) (l : Layout) {σ : Type} (sink : Sink σ) (k : ℕ)
    (hsink : sink.TakesOnly sink.start k (w.render l).written) :
    ((w.render l).written.length ≤ k →
      (w.write l sink).outcome = (w.render l).outcome ∧
      (w.write l sink).written = (w.render l).written ∧
      (perform l sink 0 (w.script l)).2 = sink.after sink.start (w.render l).written) ∧
    (∀ hk : k < (w.render l).written.length,
      (w.write l sink).written = (w.render l).written.take k ∧
      (perform l sink 0 (w.script l)).2 =
        sink.after sink.start ((w.render l).written.take (k + 1)) ∧
      ∃ (p : Placed) (kind name : String),
        (w.chunks l)[k]? = some (p, (w.render l).written[k]) ∧
        (w.write l sink).outcome = .error (.refused p.subject) ∧ p.Attributed w ∧
        w.Names p.subject kind name ∧ p.subject.kind = kind ∧ p.subject.name = name ∧
        (RenderError.refused p.subject).message =
          "failed to write " ++ kind ++ " '" ++ name ++ "'") ∧
    (w.chunks l).map (·.2) = (w.render l).written ∧
    contents (w.placed l) <+: w.contents := by
  have htexts := w.texts_script l
  have hpieces := w.pieces_script l
  have houtcome := w.outcome_render l
  have hwrite : w.write l sink =
    (deliver sink sink.start (signals l.indentUnit 0 (w.script l))).1 := rfl
  have hdelivery : perform l sink 0 (w.script l) =
    deliver sink sink.start (signals l.indentUnit 0 (w.script l)) := rfl
  rw [← w.written_render l] at htexts
  rw [← stopOf_signals l.indentUnit 0] at houtcome
  rw [hwrite, hdelivery]
  -- From here on the signals matter only through their pieces and their first stop.
  generalize signals l.indentUnit 0 (w.script l) = items at htexts hpieces houtcome ⊢
  rw [← htexts] at hsink ⊢
  refine ⟨fun hk => ?_, fun hk => ?_, ?_, w.contents_placed_prefix l⟩
  · obtain ⟨hwritten, houtcome', hlast⟩ := deliver_taken sink hsink (by simpa using hk)
    exact ⟨houtcome'.trans houtcome.symm, hwritten, hlast⟩
  · rw [List.length_map] at hk
    obtain ⟨⟨p, text⟩, hchunk, hpiece⟩ : ∃ chunk, (w.chunks l)[k]? = some chunk ∧
        (chunk.1.subject, chunk.2) = (piecesOf items)[k] := by
      rw [← Option.map_eq_some_iff, ← List.getElem?_map, ← hpieces, List.getElem?_eq_getElem hk]
    obtain ⟨hwritten, houtcome', hlast⟩ := deliver_refused sink hsink
      ((List.getElem?_eq_getElem hk).trans (congrArg some hpiece.symm))
    have hp : p ∈ w.placed l := Workspace.placed_of_chunks hchunk
    obtain ⟨kind, name, hnames⟩ := Workspace.exists_names_of_mem_placed hp
    obtain ⟨hkind, hname⟩ := hnames.kind_name
    refine ⟨hwritten, hlast, p, kind, name, ?_, houtcome', Workspace.attributed_of_mem_placed hp,
      hnames, hkind, hname, hnames.message⟩
    rw [hchunk, List.getElem_map, ← hpiece]
  · rw [hpieces, List.map_map]
    rfl

/-- The eighth piece of a workspace with one person is the line of the person. -/
theorem delivery_fails_fast_at_person :
    ∃ (w : Workspace) (p : Placed), w.model = (Model.empty.addPerson "User" "").2 ∧
      (Sink.limited (some 7) none).TakesOnly (0, 0) 7 (w.render .standard).written ∧
      (w.chunks .standard)[7]? = some (p, "user = person \"User\"") ∧
      (w.write .standard (.limited (some 7) none)).outcome = .error (.refused p.subject) ∧
      p.Attributed w ∧ p.subject = .element (.person ⟨0⟩) "User" ∧
      w.Names p.subject "person" "User" ∧ p.subject.kind = "person" ∧ p.subject.name = "User" ∧
      (RenderError.refused p.subject).message = "failed to write person 'User'" := by
  let w : Workspace := { Workspace.empty with model := (Model.empty.addPerson "User" "").2 }
  have hline : (w.render .standard).written[7]? = some "user = person \"User\"" := by
    decide +kernel
  have hsubject : (w.chunks .standard)[7]?.map (·.1.subject) =
      some (.element (.person ⟨0⟩) "User") := by decide +kernel
  have hsink := Sink.takesOnly_limited 0 7 0 (w.render .standard).written
  obtain ⟨hlength, hget⟩ := List.getElem?_eq_some_iff.1 hline
  obtain ⟨-, hfail, -⟩ := delivery_fails_fast w .standard (.limited (some 7) none) 7 hsink
  obtain ⟨-, -, p, kind, name, hchunk, houtcome, hattributed, hnames, hkind, hname, hmessage⟩ :=
    hfail hlength
  have hp : p.subject = .element (.person ⟨0⟩) "User" := by
    rw [hchunk] at hsubject
    exact Option.some.inj hsubject
  obtain rfl : "person" = kind := by rw [← hkind, hp]; rfl
  obtain rfl : "User" = name := by rw [← hname, hp]; rfl
  exact ⟨w, p, rfl, hsink, hget ▸ hchunk, houtcome, hattributed, hp, hnames, hkind, hname,
    hmessage⟩

end C4
