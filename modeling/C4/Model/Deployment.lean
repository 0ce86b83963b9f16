import C4.Model.Attributes
import C4.Model.Environment
import C4.Model.Id

/-!
# Deployment nodes and what runs on them

Deployment nodes form a forest. A node may carry further nodes, pieces of infrastructure
and instances of containers. A node whose environment has been pinned hands it on to
whatever is attached below it later.
-/
namespace C4

structure DeploymentNode where
  name : String
  description : Option String
  technology : Option String
  environment : Environment
  pinned : Bool
  location : Location
  tags : Tags
  properties : Properties
  parent : Option DeploymentNodeId
  children : List DeploymentNodeId
  infrastructureNodes : List InfrastructureNodeId
  containerInstances : List ContainerInstanceId
deriving DecidableEq

inductive DeploymentNode.Setting
  | description (text : String)
  | technology (text : String)
  | location (location : Location)
  | tag (name : String)
  | property (key value : String)
deriving DecidableEq

namespace DeploymentNode

def create (name : String) (description technology : Option String)
    (environment : Environment) : DeploymentNode :=
  { name, description, technology, environment
    pinned := false
    location := .internal
    tags := .empty
    properties := .empty
    parent := none
    children := []
    infrastructureNodes := []
    containerInstances := [] }

def set (n : DeploymentNode) : DeploymentNode.Setting → DeploymentNode
  | .description text => { n with description := some text }
  | .technology text => { n with technology := some text }
  | .location location => { n with location := location }
  | .tag name => { n with tags := n.tags.add name }
  | .property key value => { n with properties := n.properties.insert key value }

@[simp] theorem set_parent (n : DeploymentNode) (x : DeploymentNode.Setting) :
    (n.set x).parent = n.parent := by
  cases x <;> rfl

@[simp] theorem set_children (n : DeploymentNode) (x : DeploymentNode.Setting) :
    (n.set x).children = n.children := by
  cases x <;> rfl

@[simp] theorem set_infrastructureNodes (n : DeploymentNode) (x : DeploymentNode.Setting) :
    (n.set x).infrastructureNodes = n.infrastructureNodes := by
  cases x <;> rfl

@[simp] theorem set_containerInstances (n : DeploymentNode) (x : DeploymentNode.Setting) :
    (n.set x).containerInstances = n.containerInstances := by
  cases x <;> rfl

def pin (n : DeploymentNode) (environment : Environment) : DeploymentNode :=
  { n with environment := environment, pinned := true }

def hasBody (n : DeploymentNode) : Bool :=
  !n.tags.isEmpty || !n.properties.isEmpty || !n.children.isEmpty ||
    !n.infrastructureNodes.isEmpty || !n.containerInstances.isEmpty

end DeploymentNode

structure InfrastructureNode where
  name : String
  description : Option String
  technology : Option String
  tags : Tags
  properties : Properties
  parent : DeploymentNodeId
deriving DecidableEq

inductive InfrastructureNode.Setting
  | description (text : String)
  | technology (text : String)
  | tag (name : String)
  | property (key value : String)
deriving DecidableEq

namespace InfrastructureNode

def create (name : String) (parent : DeploymentNodeId) : InfrastructureNode :=
  { name, parent
    description := none
    technology := none
    tags := .empty
    properties := .empty }

def set (n : InfrastructureNode) : InfrastructureNode.Setting → InfrastructureNode
  | .description text => { n with description := some text }
  | .technology text => { n with technology := some text }
  | .tag name => { n with tags := n.tags.add name }
  | .property key value => { n with properties := n.properties.insert key value }

@[simp] theorem set_parent (n : InfrastructureNode) (x : InfrastructureNode.Setting) :
    (n.set x).parent = n.parent := by
  cases x <;> rfl

end InfrastructureNode

structure HealthCheck where
  name : String
  url : String
  interval : Option UInt32
  timeout : Option UInt32
  properties : Properties
deriving DecidableEq

inductive HealthCheck.Setting
  | interval (seconds : UInt32)
  | timeout (milliseconds : UInt32)
  | property (key value : String)
deriving DecidableEq

namespace HealthCheck

/-- Seconds between two probes, unless set. -/
def defaultInterval : UInt32 := 60

/-- Milliseconds until a probe has failed, unless set. -/
def defaultTimeout : UInt32 := 1000

def create (name url : String) : HealthCheck :=
  { name, url, interval := none, timeout := none, properties := .empty }

def set (h : HealthCheck) : HealthCheck.Setting → HealthCheck
  | .interval seconds => { h with interval := some seconds }
  | .timeout milliseconds => { h with timeout := some milliseconds }
  | .property key value => { h with properties := h.properties.insert key value }

def effectiveInterval (h : HealthCheck) : UInt32 := h.interval.getD defaultInterval

def effectiveTimeout (h : HealthCheck) : UInt32 := h.timeout.getD defaultTimeout

def hasBody (h : HealthCheck) : Bool :=
  h.interval.isSome || h.timeout.isSome || !h.properties.isEmpty

end HealthCheck

structure ContainerInstance where
  container : ContainerId
  instanceId : Option UInt32
  tags : Tags
  properties : Properties
  healthChecks : List HealthCheck
  parent : DeploymentNodeId
deriving DecidableEq

inductive ContainerInstance.Setting
  | instanceId (number : UInt32)
  | tag (name : String)
  | property (key value : String)
  | healthCheck (check : HealthCheck)
deriving DecidableEq

namespace ContainerInstance

def defaultInstanceId : UInt32 := 1

def create (container : ContainerId) (parent : DeploymentNodeId) : ContainerInstance :=
  { container, parent
    instanceId := none
    tags := .empty
    properties := .empty
    healthChecks := [] }

def set (i : ContainerInstance) : ContainerInstance.Setting → ContainerInstance
  | .instanceId number => { i with instanceId := some number }
  | .tag name => { i with tags := i.tags.add name }
  | .property key value => { i with properties := i.properties.insert key value }
  | .healthCheck check => { i with healthChecks := i.healthChecks ++ [check] }

@[simp] theorem set_parent (i : ContainerInstance) (x : ContainerInstance.Setting) :
    (i.set x).parent = i.parent := by
  cases x <;> rfl

def effectiveInstanceId (i : ContainerInstance) : UInt32 :=
  i.instanceId.getD defaultInstanceId

def hasBody (i : ContainerInstance) : Bool :=
  !i.tags.isEmpty || !i.properties.isEmpty || i.instanceId.isSome || !i.healthChecks.isEmpty

end ContainerInstance

end C4
