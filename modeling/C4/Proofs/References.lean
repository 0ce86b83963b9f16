import C4.Proofs.Changes
import C4.Proofs.Parallel
import C4.Proofs.Scripts

/-!
# References

What a workspace refers to, in the order in which a rendering comes across it. A reference
resolves when the entity exists. An instance that exists also needs its container.
-/
namespace C4

open Dsl

inductive Reference
  | element (id : ElementId)
  | relationship (id : RelationshipId)
deriving DecidableEq

def Reference.error : Reference → RenderError
  | element id => .unknownElement id
  | relationship id => .unknownRelationship id

namespace Model

def exists? (m : Model) : Reference → Bool
  | .element (.person id) => (m.person? id).isSome
  | .element (.softwareSystem id) => (m.softwareSystem? id).isSome
  | .element (.container id) => (m.container? id).isSome
  | .element (.component id) => (m.component? id).isSome
  | .element (.deploymentNode id) => (m.deploymentNode? id).isSome
  | .element (.infrastructureNode id) => (m.infrastructureNode? id).isSome
  | .element (.containerInstance id) => (m.containerInstance? id).isSome
  | .relationship id => (m.relationship? id).isSome

def unresolved? (m : Model) (references : List Reference) : Option Reference :=
  references.find? fun r => !m.exists? r

def tokenReferences (m : Model) (id : ElementId) : List Reference :=
  .element id ::
    match id with
    | .containerInstance i =>
      match m.containerInstance? i with
      | none => []
      | some i => [.element i.container]
    | _ => []

def endReferences (m : Model) (source target : ElementId) : List Reference :=
  m.tokenReferences source ++ m.tokenReferences target

def memberReferences (m : Model) : List Reference :=
  m.members.flatMap (fun id =>
    match id with
    | .person id => [.element (.person id)]
    | _ => []) ++
  m.members.flatMap (fun id =>
    match id with
    | .softwareSystem id => [.element (.softwareSystem id)]
    | _ => [])

def instanceReferences (m : Model) (id : ContainerInstanceId) : List Reference :=
  match m.containerInstance? id with
  | none => []
  | some i => [.element i.container]

/-- The containers of the instances on a node. Those on its children come first. -/
def nodeReferences (m : Model) : Nat → DeploymentNodeId → List Reference
  | depth, id =>
    (match depth with
      | 0 => []
      | depth + 1 => (m.childrenOf id).flatMap (m.nodeReferences depth)) ++
    (m.instancesOf id).flatMap m.instanceReferences

def deploymentReferences (m : Model) : List Reference :=
  (environmentGroups m).flatMap fun g =>
    g.2.flatMap (m.nodeReferences m.deploymentNodes.size)

def relationshipReferences (m : Model) (id : RelationshipId) : List Reference :=
  match m.relationship? id with
  | none => []
  | some r => m.endReferences r.source r.target

end Model

def IncludeExpression.references (m : Model) (e : IncludeExpression) : List Reference :=
  (e.subject.toList ++ e.source.toList ++ e.target.toList).flatMap m.tokenReferences

def StaticView.references {σ : Type} (m : Model) (scope : ElementId) (v : StaticView σ) :
    List Reference :=
  m.tokenReferences scope ++ v.inclusions.elements.flatMap m.tokenReferences ++
    v.inclusions.expressions.flatMap (IncludeExpression.references m)

def DynamicView.references (m : Model) (v : DynamicView) : List Reference :=
  v.scope.toList.flatMap m.tokenReferences ++
    v.steps.flatMap fun step => m.endReferences step.source step.target

/-- What the flags of the view stand for counts like what it lists. -/
def DeploymentView.references (m : Model) (v : DeploymentView) : List Reference :=
  v.scope.toList.flatMap (fun system => m.tokenReferences (.softwareSystem system)) ++
    (shownElements m v).flatMap m.tokenReferences ++
    (shownRelationships m v).flatMap fun id => .relationship id :: m.relationshipReferences id

def Views.references (m : Model) (vs : Views) : ViewId → List Reference
  | .systemContext index => (vs.systemContext[index]?).elim [] fun v => v.references m v.scope
  | .container index => (vs.container[index]?).elim [] fun v => v.references m v.scope
  | .component index => (vs.component[index]?).elim [] fun v => v.references m v.scope
  | .dynamic index => (vs.dynamic[index]?).elim [] (DynamicView.references m)
  | .deployment index => (vs.deployment[index]?).elim [] (DeploymentView.references m)
  | .filtered _ => []

def Workspace.references (w : Workspace) : List Reference :=
  w.model.memberReferences ++ w.model.deploymentReferences ++
    w.model.relationshipIds.flatMap w.model.relationshipReferences ++
    w.views.ids.flatMap (w.views.references w.model)

end C4
