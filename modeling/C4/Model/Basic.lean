import C4.Model.Deployment
import C4.Model.Element
import C4.Model.Relationship

/-!
# The model

All entities live in arrays, one for each kind, and are never removed: the handle that a
factory returns stays good for every later model. A factory that takes the handle of a
parent fails when there is no such parent; otherwise it enters the child in the parent's
list in the same step.
-/
namespace C4

inductive ModelError
  | missingElement (id : ElementId)
  | missingRelationship (id : RelationshipId)
  | cycle (parent child : String)
  /-- The walk over the nodes that starts here would never end. -/
  | endless (id : DeploymentNodeId)
deriving DecidableEq

def ModelError.message : ModelError → String
  | missingElement id => "unknown " ++ id.kind ++ " with index " ++ toString id.index
  | missingRelationship id => "unknown relationship with index " ++ toString id.index
  | cycle parent child =>
    "deployment node '" ++ child ++ "' cannot be nested under '" ++ parent ++
      "': it would form a cycle"
  | endless id => "endless walk from deployment node with index " ++ toString id.index

structure Model where
  persons : Array Person
  softwareSystems : Array SoftwareSystem
  containers : Array Container
  components : Array Component
  deploymentNodes : Array DeploymentNode
  infrastructureNodes : Array InfrastructureNode
  containerInstances : Array ContainerInstance
  relationships : Array Relationship
  /-- The roots that are rendered, in the order in which they were added. -/
  topLevel : List DeploymentNodeId
  enterprise : Option Enterprise
  properties : Properties
deriving DecidableEq

namespace Model

def empty : Model :=
  { persons := #[]
    softwareSystems := #[]
    containers := #[]
    components := #[]
    deploymentNodes := #[]
    infrastructureNodes := #[]
    containerInstances := #[]
    relationships := #[]
    topLevel := []
    enterprise := none
    properties := .empty }

instance : Inhabited Model := ⟨empty⟩

def person? (m : Model) (id : PersonId) : Option Person := m.persons[id.index]?

def softwareSystem? (m : Model) (id : SoftwareSystemId) : Option SoftwareSystem :=
  m.softwareSystems[id.index]?

def container? (m : Model) (id : ContainerId) : Option Container := m.containers[id.index]?

def component? (m : Model) (id : ComponentId) : Option Component := m.components[id.index]?

def deploymentNode? (m : Model) (id : DeploymentNodeId) : Option DeploymentNode :=
  m.deploymentNodes[id.index]?

def infrastructureNode? (m : Model) (id : InfrastructureNodeId) : Option InfrastructureNode :=
  m.infrastructureNodes[id.index]?

def containerInstance? (m : Model) (id : ContainerInstanceId) : Option ContainerInstance :=
  m.containerInstances[id.index]?

def relationship? (m : Model) (id : RelationshipId) : Option Relationship :=
  m.relationships[id.index]?

/-- The display name. An instance goes by the name of the container that it runs. -/
def nameOf? (m : Model) : ElementId → Option String
  | .person id => (m.person? id).map (·.name)
  | .softwareSystem id => (m.softwareSystem? id).map (·.name)
  | .container id => (m.container? id).map (·.name)
  | .component id => (m.component? id).map (·.name)
  | .deploymentNode id => (m.deploymentNode? id).map (·.name)
  | .infrastructureNode id => (m.infrastructureNode? id).map (·.name)
  | .containerInstance id =>
    (m.containerInstance? id).bind fun i => (m.container? i.container).map (·.name)

def personIds (m : Model) : List PersonId := (List.range m.persons.size).map .mk

def softwareSystemIds (m : Model) : List SoftwareSystemId :=
  (List.range m.softwareSystems.size).map .mk

def containerIds (m : Model) : List ContainerId := (List.range m.containers.size).map .mk

def componentIds (m : Model) : List ComponentId := (List.range m.components.size).map .mk

def deploymentNodeIds (m : Model) : List DeploymentNodeId :=
  (List.range m.deploymentNodes.size).map .mk

def infrastructureNodeIds (m : Model) : List InfrastructureNodeId :=
  (List.range m.infrastructureNodes.size).map .mk

def containerInstanceIds (m : Model) : List ContainerInstanceId :=
  (List.range m.containerInstances.size).map .mk

def relationshipIds (m : Model) : List RelationshipId :=
  (List.range m.relationships.size).map .mk

/-- Every element, kind by kind, each kind in the order of creation. -/
def elementIds (m : Model) : List ElementId :=
  m.personIds.map .person ++ m.softwareSystemIds.map .softwareSystem ++
    m.containerIds.map .container ++ m.componentIds.map .component ++
    m.deploymentNodeIds.map .deploymentNode ++
    m.infrastructureNodeIds.map .infrastructureNode ++
    m.containerInstanceIds.map .containerInstance

def addPerson (m : Model) (name description : String) : PersonId × Model :=
  (⟨m.persons.size⟩,
    { m with persons := m.persons.push ⟨name, provided description, .empty⟩ })

def addSoftwareSystem (m : Model) (name description : String) : SoftwareSystemId × Model :=
  (⟨m.softwareSystems.size⟩,
    { m with
      softwareSystems := m.softwareSystems.push ⟨name, provided description, .empty, []⟩ })

def addContainer (m : Model) (system : SoftwareSystemId) (name : String) :
    Except ModelError (ContainerId × Model) :=
  if system.index < m.softwareSystems.size then
    let id : ContainerId := ⟨m.containers.size⟩
    .ok (id, { m with
      containers := m.containers.push ⟨name, none, none, .empty, system, []⟩
      softwareSystems := m.softwareSystems.modify system.index fun s =>
        { s with containers := s.containers ++ [id] } })
  else .error (.missingElement system)

def addComponent (m : Model) (container : ContainerId) (name : String) :
    Except ModelError (ComponentId × Model) :=
  if container.index < m.containers.size then
    let id : ComponentId := ⟨m.components.size⟩
    .ok (id, { m with
      components := m.components.push ⟨name, none, none, .empty, container⟩
      containers := m.containers.modify container.index fun c =>
        { c with components := c.components ++ [id] } })
  else .error (.missingElement container)

def addRelationship (m : Model) (source target : ElementId) : RelationshipId × Model :=
  (⟨m.relationships.size⟩,
    { m with relationships := m.relationships.push (.create source target none) })

def uses (m : Model) (source target : ElementId) (description : String) :
    RelationshipId × Model :=
  (⟨m.relationships.size⟩,
    { m with
      relationships := m.relationships.push (.create source target (provided description)) })

/-- The new boundary replaces any earlier one and starts without members. -/
def setEnterprise (m : Model) (name : String) : Model :=
  { m with enterprise := some ⟨name, .empty, []⟩ }

def setEnterpriseProperty (m : Model) (key value : String) : Model :=
  { m with enterprise := m.enterprise.map (·.setProperty key value) }

def addToEnterprise (m : Model) (id : ElementId) : Model :=
  { m with enterprise := m.enterprise.map (·.join id) }

def setProperty (m : Model) (key value : String) : Model :=
  { m with properties := m.properties.insert key value }

def isOutside (m : Model) (id : ElementId) : Bool :=
  match m.enterprise with
  | none => true
  | some e => !e.isMember id

def setPerson (m : Model) (id : PersonId) (s : Person.Setting) : Except ModelError Model :=
  if id.index < m.persons.size then
    .ok { m with persons := m.persons.modify id.index (·.set s) }
  else .error (.missingElement id)

def setSoftwareSystem (m : Model) (id : SoftwareSystemId) (s : SoftwareSystem.Setting) :
    Except ModelError Model :=
  if id.index < m.softwareSystems.size then
    .ok { m with softwareSystems := m.softwareSystems.modify id.index (·.set s) }
  else .error (.missingElement id)

def setContainer (m : Model) (id : ContainerId) (s : Container.Setting) :
    Except ModelError Model :=
  if id.index < m.containers.size then
    .ok { m with containers := m.containers.modify id.index (·.set s) }
  else .error (.missingElement id)

def setComponent (m : Model) (id : ComponentId) (s : Component.Setting) :
    Except ModelError Model :=
  if id.index < m.components.size then
    .ok { m with components := m.components.modify id.index (·.set s) }
  else .error (.missingElement id)

def setDeploymentNode (m : Model) (id : DeploymentNodeId) (s : DeploymentNode.Setting) :
    Except ModelError Model :=
  if id.index < m.deploymentNodes.size then
    .ok { m with deploymentNodes := m.deploymentNodes.modify id.index (·.set s) }
  else .error (.missingElement id)

def setInfrastructureNode (m : Model) (id : InfrastructureNodeId)
    (s : InfrastructureNode.Setting) : Except ModelError Model :=
  if id.index < m.infrastructureNodes.size then
    .ok { m with infrastructureNodes := m.infrastructureNodes.modify id.index (·.set s) }
  else .error (.missingElement id)

def setContainerInstance (m : Model) (id : ContainerInstanceId)
    (s : ContainerInstance.Setting) : Except ModelError Model :=
  if id.index < m.containerInstances.size then
    .ok { m with containerInstances := m.containerInstances.modify id.index (·.set s) }
  else .error (.missingElement id)

def setRelationship (m : Model) (id : RelationshipId) (s : Relationship.Setting) :
    Except ModelError Model :=
  if id.index < m.relationships.size then
    .ok { m with relationships := m.relationships.modify id.index (·.set s) }
  else .error (.missingRelationship id)

end Model

end C4
