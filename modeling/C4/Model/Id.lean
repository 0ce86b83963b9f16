/-!
# Handles

Everything in a model is addressed by its kind and its place in the order of creation.
Each kind has a type of its own, so that a container can not be asked for by a person's
handle. `ElementId` is the sum of the seven kinds that can take part in a relationship.
-/
namespace C4

structure PersonId where
  index : Nat
deriving DecidableEq

structure SoftwareSystemId where
  index : Nat
deriving DecidableEq

structure ContainerId where
  index : Nat
deriving DecidableEq

structure ComponentId where
  index : Nat
deriving DecidableEq

structure DeploymentNodeId where
  index : Nat
deriving DecidableEq

structure InfrastructureNodeId where
  index : Nat
deriving DecidableEq

structure ContainerInstanceId where
  index : Nat
deriving DecidableEq

structure RelationshipId where
  index : Nat
deriving DecidableEq

inductive ElementId
  | person (id : PersonId)
  | softwareSystem (id : SoftwareSystemId)
  | container (id : ContainerId)
  | component (id : ComponentId)
  | deploymentNode (id : DeploymentNodeId)
  | infrastructureNode (id : InfrastructureNodeId)
  | containerInstance (id : ContainerInstanceId)
deriving DecidableEq

namespace ElementId

def kind : ElementId → String
  | person _ => "person"
  | softwareSystem _ => "software system"
  | container _ => "container"
  | component _ => "component"
  | deploymentNode _ => "deployment node"
  | infrastructureNode _ => "infrastructure node"
  | containerInstance _ => "container instance"

def index : ElementId → Nat
  | person id => id.index
  | softwareSystem id => id.index
  | container id => id.index
  | component id => id.index
  | deploymentNode id => id.index
  | infrastructureNode id => id.index
  | containerInstance id => id.index

def label (id : ElementId) : String :=
  id.kind ++ "#" ++ toString id.index

end ElementId

instance : Coe PersonId ElementId := ⟨.person⟩
instance : Coe SoftwareSystemId ElementId := ⟨.softwareSystem⟩
instance : Coe ContainerId ElementId := ⟨.container⟩
instance : Coe ComponentId ElementId := ⟨.component⟩
instance : Coe DeploymentNodeId ElementId := ⟨.deploymentNode⟩
instance : Coe InfrastructureNodeId ElementId := ⟨.infrastructureNode⟩
instance : Coe ContainerInstanceId ElementId := ⟨.containerInstance⟩

end C4
