import C4.Model.Tag
import C4.Workspace

/-!
# Building workspaces step by step

A small vocabulary for writing down a workspace as a sequence of steps. A step that is given
a handle that does not exist ends the sequence.
-/
namespace C4

abbrev Build := StateT Workspace (Except ModelError)

namespace Build

def run (w : Workspace) (steps : Build Unit) : Except ModelError Workspace :=
  (StateT.run steps w).map (·.2)

def updateModel (f : Model → Except ModelError Model) : Build Unit := do
  let w ← get
  let m ← f w.model
  set { w with model := m }

def make {α : Type} (f : Model → Except ModelError (α × Model)) : Build α := do
  let w ← get
  let (id, m) ← f w.model
  set { w with model := m }
  return id

def enterprise (name : String) (members : List ElementId) : Build Unit := do
  updateModel fun m => .ok (m.setEnterprise name)
  for id in members do
    updateModel fun m => .ok (m.addToEnterprise id)

def person (name description : String) (settings : List Person.Setting) : Build PersonId := do
  let id ← make fun m => .ok (m.addPerson name description)
  for s in settings do
    updateModel fun m => m.setPerson id s
  return id

def softwareSystem (name description : String) (settings : List SoftwareSystem.Setting) :
    Build SoftwareSystemId := do
  let id ← make fun m => .ok (m.addSoftwareSystem name description)
  for s in settings do
    updateModel fun m => m.setSoftwareSystem id s
  return id

def container (system : SoftwareSystemId) (name : String) (settings : List Container.Setting) :
    Build ContainerId := do
  let id ← make fun m => m.addContainer system name
  for s in settings do
    updateModel fun m => m.setContainer id s
  return id

def uses (source target : ElementId) (description : String)
    (settings : List Relationship.Setting) : Build Unit := do
  let id ← make fun m => .ok (m.uses source target description)
  for s in settings do
    updateModel fun m => m.setRelationship id s

def rootNode (name description technology : String) (environment : Environment)
    (settings : List DeploymentNode.Setting) : Build DeploymentNodeId := do
  let id ← make fun m => .ok (m.addDeploymentNode name description technology environment)
  for s in settings do
    updateModel fun m => m.setDeploymentNode id s
  return id

def looseNode (name description technology : String) (environment : Environment) :
    Build DeploymentNodeId :=
  make fun m => .ok (m.createDeploymentNode name description technology environment)

def childNode (parent : DeploymentNodeId) (name description technology : String) :
    Build DeploymentNodeId :=
  make fun m => m.addChildNode parent name description technology

def nest (parent child : DeploymentNodeId) : Build Unit :=
  updateModel fun m => m.addChild parent child

def infrastructure (parent : DeploymentNodeId) (name : String)
    (settings : List InfrastructureNode.Setting) : Build InfrastructureNodeId := do
  let id ← make fun m => m.addInfrastructureNode parent name
  for s in settings do
    updateModel fun m => m.setInfrastructureNode id s
  return id

def deploy (node : DeploymentNodeId) (container : ContainerId)
    (settings : List ContainerInstance.Setting) : Build ContainerInstanceId := do
  let id ← make fun m => m.addContainerInstance node container
  for s in settings do
    updateModel fun m => m.setContainerInstance id s
  return id

def view {σ : Type} (add : Views → ViewId × Views) (apply : Views → ViewId → σ → Option Views)
    (settings : List σ) : Build ViewId := do
  let w ← get
  let (id, views) := add w.views
  set { w with views := settings.foldl (fun vs s => (apply vs id s).getD vs) views }
  return id

def staticView (add : Views → ViewId × Views) (settings : List StaticView.Setting) :
    Build ViewId :=
  view add Views.setStatic? settings

def dynamicView (add : Views → ViewId × Views) (settings : List DynamicView.Setting) :
    Build ViewId :=
  view add (fun vs id => vs.setDynamic? id.index) settings

def deploymentView (add : Views → ViewId × Views) (settings : List DeploymentView.Setting) :
    Build ViewId :=
  view add (fun vs id => vs.setDeployment? id.index) settings

def filteredView (add : Views → ViewId × Views) (settings : List FilteredView.Setting) :
    Build ViewId :=
  view add (fun vs id => vs.setFiltered? id.index) settings

def updateStyles (f : Styles → Styles) : Build Unit :=
  modify fun w => { w with views := { w.views with styles := f w.views.styles } }

def elementStyle (tag : String) (attributes : List ElementStyle.Attribute) : Build Unit :=
  updateStyles (·.addElementStyle (attributes.foldl ElementStyle.set (.create tag)))

def relationshipStyle (tag : String) (attributes : List RelationshipStyle.Attribute) :
    Build Unit :=
  updateStyles (·.addRelationshipStyle
    (attributes.foldl RelationshipStyle.set (.create tag)))

end Build

end C4
