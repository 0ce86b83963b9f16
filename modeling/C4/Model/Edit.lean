import C4.Model.Topology

/-!
# Histories

Every operation on a model, as data. A history is a list of operations performed one after
the other on the empty model. It goes on after an operation that would have formed a cycle,
which leaves the model as it was. It has no result once an operation has been given a handle
that does not exist, or walks over the nodes without end.
-/
namespace C4

inductive Edit
  | addPerson (name description : String)
  | addSoftwareSystem (name description : String)
  | addContainer (system : SoftwareSystemId) (name : String)
  | addComponent (container : ContainerId) (name : String)
  | addRelationship (source target : ElementId)
  | uses (source target : ElementId) (description : String)
  | setEnterprise (name : String)
  | setEnterpriseProperty (key value : String)
  | addToEnterprise (id : ElementId)
  | setProperty (key value : String)
  | createDeploymentNode (name description technology : String) (environment : Environment)
  | addDeploymentNode (name description technology : String) (environment : Environment)
  | addChildDeploymentNode (parent : DeploymentNodeId) (name description technology : String)
      (environment : Environment)
  | addChildNode (parent : DeploymentNodeId) (name description technology : String)
  | addChild (parent child : DeploymentNodeId)
  | setEnvironment (id : DeploymentNodeId) (environment : Environment)
  | addInfrastructureNode (parent : DeploymentNodeId) (name : String)
  | addContainerInstance (node : DeploymentNodeId) (container : ContainerId)
  | setPerson (id : PersonId) (setting : Person.Setting)
  | setSoftwareSystem (id : SoftwareSystemId) (setting : SoftwareSystem.Setting)
  | setContainer (id : ContainerId) (setting : Container.Setting)
  | setComponent (id : ComponentId) (setting : Component.Setting)
  | setDeploymentNode (id : DeploymentNodeId) (setting : DeploymentNode.Setting)
  | setInfrastructureNode (id : InfrastructureNodeId) (setting : InfrastructureNode.Setting)
  | setContainerInstance (id : ContainerInstanceId) (setting : ContainerInstance.Setting)
  | setRelationship (id : RelationshipId) (setting : Relationship.Setting)
deriving DecidableEq

namespace Edit

def apply (m : Model) : Edit → Except ModelError Model
  | addPerson name description => .ok (m.addPerson name description).2
  | addSoftwareSystem name description => .ok (m.addSoftwareSystem name description).2
  | addContainer system name => (m.addContainer system name).map (·.2)
  | addComponent container name => (m.addComponent container name).map (·.2)
  | addRelationship source target => .ok (m.addRelationship source target).2
  | uses source target description => .ok (m.uses source target description).2
  | setEnterprise name => .ok (m.setEnterprise name)
  | setEnterpriseProperty key value => .ok (m.setEnterpriseProperty key value)
  | addToEnterprise id => .ok (m.addToEnterprise id)
  | setProperty key value => .ok (m.setProperty key value)
  | createDeploymentNode name description technology environment =>
    .ok (m.createDeploymentNode name description technology environment).2
  | addDeploymentNode name description technology environment =>
    .ok (m.addDeploymentNode name description technology environment).2
  | addChildDeploymentNode parent name description technology environment =>
    (m.addChildDeploymentNode parent name description technology environment).map (·.2)
  | addChildNode parent name description technology =>
    (m.addChildNode parent name description technology).map (·.2)
  | addChild parent child => m.addChild parent child
  | setEnvironment id environment => m.setEnvironment id environment
  | addInfrastructureNode parent name => (m.addInfrastructureNode parent name).map (·.2)
  | addContainerInstance node container => (m.addContainerInstance node container).map (·.2)
  | setPerson id setting => m.setPerson id setting
  | setSoftwareSystem id setting => m.setSoftwareSystem id setting
  | setContainer id setting => m.setContainer id setting
  | setComponent id setting => m.setComponent id setting
  | setDeploymentNode id setting => m.setDeploymentNode id setting
  | setInfrastructureNode id setting => m.setInfrastructureNode id setting
  | setContainerInstance id setting => m.setContainerInstance id setting
  | setRelationship id setting => m.setRelationship id setting

def perform (m : Model) (e : Edit) : Option Model :=
  match e.apply m with
  | .ok m => some m
  | .error (.cycle _ _) => some m
  | .error _ => none

end Edit

def Model.performAll (m : Model) (history : List Edit) : Option Model :=
  history.foldlM Edit.perform m

def Model.Reachable (m : Model) : Prop :=
  ∃ history, Model.empty.performAll history = some m

theorem Model.reachable_empty : Model.empty.Reachable := ⟨[], rfl⟩

theorem Model.Reachable.perform {m m' : Model} (h : m.Reachable) {e : Edit}
    (he : e.perform m = some m') : m'.Reachable := by
  obtain ⟨history, h⟩ := h
  exact ⟨history ++ [e], by simp_all [Model.performAll, List.foldlM_append]⟩

end C4
