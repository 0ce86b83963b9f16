import C4.Model.Basic

/-!
# Deployment topology

The operations that build and rearrange the forest of deployment nodes. Two walks over the
nodes decide what they do: the one up from a node to its root, and the one down to everything
below a node. In a forest neither takes more steps than there are nodes. A walk that is still
under way after so many steps goes round in a circle, and the operation has no result.
-/
namespace C4.Model

def parentOf? (m : Model) (id : DeploymentNodeId) : Option DeploymentNodeId :=
  (m.deploymentNode? id).bind (·.parent)

def childrenOf (m : Model) (id : DeploymentNodeId) : List DeploymentNodeId :=
  match m.deploymentNode? id with
  | none => []
  | some n => n.children

/-- Whether `candidate` is met on the way up from a node. There is no answer when the way is
longer than `steps` nodes. -/
def meets? (m : Model) (candidate : DeploymentNodeId) : Nat → DeploymentNodeId → Option Bool
  | 0, _ => none
  | steps + 1, id =>
    if id = candidate then some true
    else match m.parentOf? id with
      | none => some false
      | some parent => m.meets? candidate steps parent

def isSelfOrAncestor? (m : Model) (candidate node : DeploymentNodeId) : Option Bool :=
  m.meets? candidate m.deploymentNodes.size node

/-- The nodes that leave a stack when each one is replaced by its children, the last child on
top, in the order in which they leave. There is no answer when more than `steps` leave it. -/
def unstack? (m : Model) : Nat → List DeploymentNodeId → Option (List DeploymentNodeId)
  | _, [] => some []
  | 0, _ :: _ => none
  | steps + 1, id :: stack =>
    (m.unstack? steps ((m.childrenOf id).reverse ++ stack)).map (id :: ·)

def subtree? (m : Model) (root : DeploymentNodeId) : Option (List DeploymentNodeId) :=
  m.unstack? m.deploymentNodes.size [root]

/-- A node without a place in the forest. It is not rendered until it gets one. -/
def createDeploymentNode (m : Model) (name description technology : String)
    (environment : Environment) : DeploymentNodeId × Model :=
  (⟨m.deploymentNodes.size⟩,
    { m with
      deploymentNodes := m.deploymentNodes.push
        (.create name (provided description) (provided technology) environment) })

def addDeploymentNode (m : Model) (name description technology : String)
    (environment : Environment) : DeploymentNodeId × Model :=
  let (id, m) := m.createDeploymentNode name description technology environment
  (id, { m with topLevel := m.topLevel ++ [id] })

def attach (m : Model) (parent child : DeploymentNodeId) : Except ModelError Model :=
  if parent.index < m.deploymentNodes.size then
    .ok { m with
      deploymentNodes :=
        (m.deploymentNodes.modify child.index fun n => { n with parent := some parent }).modify
          parent.index fun n => { n with children := n.children ++ [child] } }
  else .error (.missingElement parent)

def detach (m : Model) (id : DeploymentNodeId) : Model :=
  match m.parentOf? id with
  | none => { m with topLevel := m.topLevel.filter (· ≠ id) }
  | some old =>
    { m with
      deploymentNodes :=
        (m.deploymentNodes.modify id.index fun n => { n with parent := none }).modify
          old.index fun n => { n with children := n.children.filter (· ≠ id) } }

/-- A child with an environment of its own. The parent is looked up once the child exists. -/
def addChildDeploymentNode (m : Model) (parent : DeploymentNodeId)
    (name description technology : String) (environment : Environment) :
    Except ModelError (DeploymentNodeId × Model) :=
  let (id, m) := m.createDeploymentNode name description technology environment
  (m.attach parent id).map (id, ·)

def addChildNode (m : Model) (parent : DeploymentNodeId)
    (name description technology : String) : Except ModelError (DeploymentNodeId × Model) :=
  match m.deploymentNode? parent with
  | none => .error (.missingElement parent)
  | some p => m.addChildDeploymentNode parent name description technology p.environment

def pinAll (m : Model) (ids : List DeploymentNodeId) (environment : Environment) : Model :=
  { m with
    deploymentNodes := ids.foldl
      (fun nodes id => nodes.modify id.index (·.pin environment)) m.deploymentNodes }

def pinSubtree (m : Model) (root : DeploymentNodeId) (environment : Environment) :
    Except ModelError Model :=
  match m.subtree? root with
  | none => .error (.endless root)
  | some ids => .ok (m.pinAll ids environment)

def setEnvironment (m : Model) (id : DeploymentNodeId) (environment : Environment) :
    Except ModelError Model :=
  if id.index < m.deploymentNodes.size then m.pinSubtree id environment
  else .error (.missingElement id)

/-- Move a node, with everything below it, under `parent`. It may not become its own ancestor.
A pinned parent imposes its environment on all that arrives. -/
def addChild (m : Model) (parent child : DeploymentNodeId) : Except ModelError Model :=
  match m.deploymentNode? parent with
  | none => .error (.missingElement parent)
  | some p =>
    match m.isSelfOrAncestor? child parent, m.deploymentNode? child with
    | none, _ => .error (.endless parent)
    | some _, none => .error (.missingElement child)
    | some true, some c => .error (.cycle p.name c.name)
    | some false, some _ =>
      ((m.detach child).attach parent child).bind fun moved =>
        if p.pinned then moved.pinSubtree child p.environment else .ok moved

def addInfrastructureNode (m : Model) (parent : DeploymentNodeId) (name : String) :
    Except ModelError (InfrastructureNodeId × Model) :=
  if parent.index < m.deploymentNodes.size then
    let id : InfrastructureNodeId := ⟨m.infrastructureNodes.size⟩
    .ok (id, { m with
      infrastructureNodes := m.infrastructureNodes.push (.create name parent)
      deploymentNodes := m.deploymentNodes.modify parent.index fun n =>
        { n with infrastructureNodes := n.infrastructureNodes ++ [id] } })
  else .error (.missingElement parent)

/-- The container need not exist yet; it is looked up when the instance is rendered. -/
def addContainerInstance (m : Model) (node : DeploymentNodeId) (container : ContainerId) :
    Except ModelError (ContainerInstanceId × Model) :=
  if node.index < m.deploymentNodes.size then
    let id : ContainerInstanceId := ⟨m.containerInstances.size⟩
    .ok (id, { m with
      containerInstances := m.containerInstances.push (.create container node)
      deploymentNodes := m.deploymentNodes.modify node.index fun n =>
        { n with containerInstances := n.containerInstances ++ [id] } })
  else .error (.missingElement node)

def deploymentNodesIn (m : Model) (environment : Environment) : List DeploymentNodeId :=
  m.topLevel.filter fun id =>
    match m.deploymentNode? id with
    | none => false
    | some n => n.environment = environment

end C4.Model
