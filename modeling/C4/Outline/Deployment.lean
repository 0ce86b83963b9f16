import C4.Dsl.Deployment
import C4.Outline.Element

/-!
# Outlines of deployment

Outlines of deployment nodes with all that they carry, and of the environments, each of
which gathers its roots in one block.
-/
namespace C4.Dsl

def infrastructureNodeItems (m : Model) (id : InfrastructureNodeId) : List Item :=
  match m.infrastructureNode? id with
  | none => [.dangling (.unknownElement id)]
  | some n => withToken (m.token id) fun token =>
    let subject : Subject := .element id n.name
    [.entity subject
      (elementHeader token "infrastructureNode" n.name [n.description, n.technology])
      (tagLines subject n.tags ++ propertyBlock subject n.properties)]

def numberLine (subject : Subject) (keyword : String) (number : Option UInt32) : List Item :=
  match number with
  | none => []
  | some n => [.line subject (keyword ++ " " ++ toString n.toNat)]

def healthCheckItem (check : HealthCheck) : Item :=
  let subject : Subject := .healthCheck check.name
  .entity subject ("healthCheck " ++ quote check.name ++ " " ++ quote check.url)
    (numberLine subject "interval" check.interval ++
      numberLine subject "timeout" check.timeout ++
      propertyBlock subject check.properties)

def containerInstanceItems (m : Model) (id : ContainerInstanceId) : List Item :=
  match m.containerInstance? id with
  | none => [.dangling (.unknownElement id)]
  | some i => withToken (m.token id) fun token =>
    withToken (m.token i.container) fun container =>
      let subject : Subject := .element id ((m.nameOf? id).getD "")
      [.entity subject (token ++ " = containerInstance " ++ container)
        (tagLines subject i.tags ++ propertyBlock subject i.properties ++
          numberLine subject "instanceId" i.instanceId ++
          i.healthChecks.map healthCheckItem)]

def nodeItems (m : Model) (id : DeploymentNodeId) (n : DeploymentNode) (nested : List Item) :
    List Item :=
  withToken (m.token id) fun token =>
    let subject : Subject := .element id n.name
    [.note ⟨.trace, "Emitting deployment node",
        [("token", token), ("children", toString n.children.length)]⟩,
      .entity subject
        (elementHeader token "deploymentNode" n.name [n.description, n.technology])
        (tagLines subject n.tags ++ propertyBlock subject n.properties ++ nested ++
          n.infrastructureNodes.flatMap (infrastructureNodeItems m) ++
          n.containerInstances.flatMap (containerInstanceItems m))]

def nestedNodeItems (m : Model) (depth : Nat) (id : DeploymentNodeId) : List Item :=
  match m.deploymentNode? id with
  | none => [.dangling (.unknownElement id)]
  | some n =>
    match depth with
    | 0 => nodeItems m id n []
    | depth + 1 => nodeItems m id n (n.children.flatMap (nestedNodeItems m depth))

def deploymentNodeItems (m : Model) (id : DeploymentNodeId) : List Item :=
  nestedNodeItems m m.deploymentNodes.size id

def environmentItems (m : Model) (group : Environment × List DeploymentNodeId) : List Item :=
  [.note ⟨.debug, "Emitting deployment environment",
      [("environment", group.1.name), ("nodes", toString group.2.length)]⟩,
    .block (.environment group.1.name) ("deploymentEnvironment " ++ quote group.1.name)
      (group.2.flatMap (deploymentNodeItems m))]

def environmentsItems (m : Model) : List Item :=
  match unknownRoot? m with
  | some id => [.dangling (.unknownElement id)]
  | none => (environmentGroups m).flatMap (environmentItems m)

end C4.Dsl
