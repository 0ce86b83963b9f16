import C4.Dsl.Element

/-!
# Deployment

Scripts of deployment nodes with all that they carry, and of the environments, each of which
gathers its roots in one block.
-/
namespace C4.Dsl

def infrastructureNodeScript (m : Model) (id : InfrastructureNodeId) : Script :=
  match m.infrastructureNode? id with
  | none => Script.stop (.unknownElement id)
  | some n => Script.withToken (m.token id) fun token =>
    let subject : Subject := .element id n.name
    Script.entity subject
      (elementHeader token "infrastructureNode" n.name [n.description, n.technology])
      (!n.tags.isEmpty || !n.properties.isEmpty)
      (tagScript subject n.tags ++ propertyScript subject n.properties)

def numberScript (subject : Subject) (keyword : String) (number : Option UInt32) : Script :=
  match number with
  | none => []
  | some n => Script.line subject (keyword ++ " " ++ toString n.toNat)

def healthCheckScript (check : HealthCheck) : Script :=
  let subject : Subject := .healthCheck check.name
  Script.entity subject ("healthCheck " ++ quote check.name ++ " " ++ quote check.url)
    check.hasBody
    (numberScript subject "interval" check.interval ++
      numberScript subject "timeout" check.timeout ++
      propertyScript subject check.properties)

def containerInstanceScript (m : Model) (id : ContainerInstanceId) : Script :=
  match m.containerInstance? id with
  | none => Script.stop (.unknownElement id)
  | some i => Script.withToken (m.token id) fun token =>
    Script.withToken (m.token i.container) fun container =>
      let subject : Subject := .element id ((m.nameOf? id).getD "")
      Script.entity subject (token ++ " = containerInstance " ++ container) i.hasBody
        (tagScript subject i.tags ++ propertyScript subject i.properties ++
          numberScript subject "instanceId" i.instanceId ++
          i.healthChecks.flatMap healthCheckScript)

def nodeScript (m : Model) (id : DeploymentNodeId) (n : DeploymentNode)
    (children : List DeploymentNodeId) (nested : Script) : Script :=
  Script.withToken (m.token id) fun token =>
    let subject : Subject := .element id n.name
    Script.note ⟨.trace, "Emitting deployment node",
        [("token", token), ("children", toString n.children.length)]⟩ ++
      Script.entity subject
        (elementHeader token "deploymentNode" n.name [n.description, n.technology])
        { n with children := children }.hasBody
        (tagScript subject n.tags ++ propertyScript subject n.properties ++ nested ++
          n.infrastructureNodes.flatMap (infrastructureNodeScript m) ++
          n.containerInstances.flatMap (containerInstanceScript m))

/-- A node and what is nested in it, at most `depth` levels of children. On the last level
nodes are drawn as if they had no children. -/
def nestedNodeScript (m : Model) (depth : Nat) (id : DeploymentNodeId) : Script :=
  match m.deploymentNode? id with
  | none => Script.stop (.unknownElement id)
  | some n =>
    match depth with
    | 0 => nodeScript m id n [] []
    | depth + 1 => nodeScript m id n n.children (n.children.flatMap (nestedNodeScript m depth))

/-- A level for each node is enough, unless a node is its own child: the script of such a node
would have no end, and this one breaks off. -/
def deploymentNodeScript (m : Model) (id : DeploymentNodeId) : Script :=
  nestedNodeScript m m.deploymentNodes.size id

def enrol (environment : Environment) (id : DeploymentNodeId) :
    List (Environment × List DeploymentNodeId) → List (Environment × List DeploymentNodeId)
  | [] => [(environment, [id])]
  | (e, ids) :: rest =>
    if e = environment then (e, ids ++ [id]) :: rest
    else (e, ids) :: enrol environment id rest

/-- The roots by environment, both in the order of their first appearance. -/
def environmentGroups (m : Model) : List (Environment × List DeploymentNodeId) :=
  m.topLevel.foldl
    (fun groups id =>
      match m.deploymentNode? id with
      | none => groups
      | some n => enrol n.environment id groups) []

def environmentScript (m : Model) (group : Environment × List DeploymentNodeId) : Script :=
  Script.note ⟨.debug, "Emitting deployment environment",
      [("environment", group.1.name), ("nodes", toString group.2.length)]⟩ ++
    Script.block (.environment group.1.name) ("deploymentEnvironment " ++ quote group.1.name)
      (group.2.flatMap (deploymentNodeScript m))

def unknownRoot? (m : Model) : Option DeploymentNodeId :=
  m.topLevel.find? fun id => (m.deploymentNode? id).isNone

/-- The roots are gathered before anything is drawn. -/
def environmentsScript (m : Model) : Script :=
  match unknownRoot? m with
  | some id => Script.stop (.unknownElement id)
  | none => (environmentGroups m).flatMap (environmentScript m)

end C4.Dsl
