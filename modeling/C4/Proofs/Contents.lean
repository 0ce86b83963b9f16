import C4.Outline.Document
import C4.Proofs.Headers

/-!
# Contents

The table of contents of a document: its entities in the order in which they are introduced, each
with the entity in whose block it stands. It is worked out from the workspace alone, as if no
reference led nowhere.
-/
namespace C4

open Dsl

namespace Dsl

structure Entry where
  outer : Option Subject
  subject : Subject
deriving DecidableEq

def Surround.owner? (around : Surround) : Option Subject := around.head?.map (·.1)

def entriesOf (around : Surround) (subject : Subject) (text : String) : List Entry :=
  if introduces around text then [⟨around.owner?, subject⟩] else []

def Placed.entries (p : Placed) : List Entry :=
  match p.directive with
  | .line text => entriesOf p.around p.subject text
  | .opening header => entriesOf p.around p.subject header
  | .closing => []
  | .gap => []

def contents (placed : List Placed) : List Entry := placed.flatMap Placed.entries

end Dsl

namespace Model

variable (m : Model)

def personContents (outer : Subject) (id : PersonId) : List Entry :=
  match m.person? id with
  | none => []
  | some p => [⟨some outer, .element id p.name⟩]

def componentContents (outer : Subject) (id : ComponentId) : List Entry :=
  match m.component? id with
  | none => []
  | some c => [⟨some outer, .element id c.name⟩]

def containerContents (outer : Subject) (id : ContainerId) : List Entry :=
  match m.container? id with
  | none => []
  | some c =>
    ⟨some outer, .element id c.name⟩ ::
      c.components.flatMap (m.componentContents (.element id c.name))

def softwareSystemContents (outer : Subject) (id : SoftwareSystemId) : List Entry :=
  match m.softwareSystem? id with
  | none => []
  | some s =>
    ⟨some outer, .element id s.name⟩ ::
      s.containers.flatMap (m.containerContents (.element id s.name))

def enterpriseContents (e : Enterprise) : List Entry :=
  ⟨some .model, .enterprise e.name⟩ ::
    (e.members.flatMap (fun id =>
      match id with
      | .person id => m.personContents (.enterprise e.name) id
      | _ => []) ++
    e.members.flatMap (fun id =>
      match id with
      | .softwareSystem id => m.softwareSystemContents (.enterprise e.name) id
      | _ => []))

def infrastructureNodeContents (outer : Subject) (id : InfrastructureNodeId) : List Entry :=
  match m.infrastructureNode? id with
  | none => []
  | some n => [⟨some outer, .element id n.name⟩]

def containerInstanceContents (outer : Subject) (id : ContainerInstanceId) : List Entry :=
  match m.containerInstance? id with
  | none => []
  | some i =>
    let subject : Subject := .element id ((m.nameOf? id).getD "")
    ⟨some outer, subject⟩ ::
      i.healthChecks.flatMap fun check => [⟨some subject, .healthCheck check.name⟩]

def nodeContents : Nat → Subject → DeploymentNodeId → List Entry
  | depth, outer, id =>
    match m.deploymentNode? id with
    | none => []
    | some n =>
      let subject : Subject := .element id n.name
      ⟨some outer, subject⟩ ::
        ((match depth with
          | 0 => []
          | depth + 1 => n.children.flatMap (nodeContents depth subject)) ++
        n.infrastructureNodes.flatMap (m.infrastructureNodeContents subject) ++
        n.containerInstances.flatMap (m.containerInstanceContents subject))

def environmentContents (g : Environment × List DeploymentNodeId) : List Entry :=
  ⟨some .model, .environment g.1.name⟩ ::
    g.2.flatMap (m.nodeContents m.deploymentNodes.size (.environment g.1.name))

def relationshipContents (id : RelationshipId) : List Entry :=
  match m.relationship? id with
  | none => []
  | some r =>
    match arrow m r.source r.target with
    | .error _ => []
    | .ok ends =>
      [⟨some .model, .relationship id (ends ++ arguments
        [r.description, r.technology, r.interactionStyle.map InteractionStyle.name])⟩]

def elementContents : List Entry :=
  (m.personIds.filter fun id => m.isOutside (.person id)).flatMap (m.personContents .model) ++
    (m.softwareSystemIds.filter fun id => m.isOutside (.softwareSystem id)).flatMap
      (m.softwareSystemContents .model) ++
    m.enterprise.elim [] m.enterpriseContents ++
    (environmentGroups m).flatMap m.environmentContents

end Model

namespace Views

def viewContents (vs : Views) (id : ViewId) : List Entry :=
  match vs.header? id with
  | none => []
  | some header => [⟨some .views, viewSubject id header⟩]

def stylesContents (s : Styles) : List Entry :=
  if s.isEmpty then []
  else
    ⟨some .views, .styles⟩ ::
      (s.elements.flatMap (fun style => [⟨some .styles, .elementStyle style.tag⟩]) ++
        s.relationships.flatMap fun style => [⟨some .styles, .relationshipStyle style.tag⟩])

end Views

def Workspace.contents (w : Workspace) : List Entry :=
  ⟨none, w.subject⟩ ::
    (⟨some w.subject, .model⟩ ::
      (w.model.elementContents ++ w.model.relationshipIds.flatMap w.model.relationshipContents) ++
    ⟨some w.subject, .views⟩ ::
      (w.views.ids.flatMap w.views.viewContents ++ Views.stylesContents w.views.styles))

end C4
