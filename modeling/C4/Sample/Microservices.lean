import C4.Sample.Build

/-!
# Sample: microservices

Services around a message bus, with parallel behaviour in a dynamic view and a deployment
whose environment is handed down from one region.
-/
namespace C4.Sample

open Build

def microservices : Except ModelError Workspace :=
  Build.run (.create "Microservices example"
      "An example of a microservices architecture, which includes asynchronous and parallel behaviour.") do
    let customer ← person "Customer" "A customer" []
    let system ← softwareSystem "Customer Information System" "Stores information" []
    let part (name description technology tag : String) : Build ContainerId :=
      container system name [.description description, .technology technology, .tag tag]
    let application ← part "Customer Application" "Allows customers to manage their profile."
      "Angular" Tag.container
    let customerService ← part "Customer Service"
      "The point of access for customer information." "Java and Spring Boot" "Microservice"
    let customerDatabase ← part "Customer Database" "Stores customer information." "Oracle 12c"
      Tag.database
    let reportingService ← part "Reporting Service"
      "Creates normalised data for reporting purposes." "Ruby" "Microservice"
    let reportingDatabase ← part "Reporting Database"
      "Stores a normalised version of all business data for ad hoc reporting purposes." "MySQL"
      Tag.database
    let auditService ← part "Audit Service" "Provides organisation-wide auditing facilities."
      "C# .NET" "Microservice"
    let auditStore ← part "Audit Store" "Stores information about events that have happened."
      "Event Store" Tag.database
    let bus ← part "Message Bus" "Transport for business events." "RabbitMQ" "Message Bus"

    uses customer application "Uses" []
    uses application customerService "Updates customer information using"
      [.technology "JSON/HTTPS", .interactionStyle .synchronous]
    uses customerService bus "Sends customer update events to" [.interactionStyle .asynchronous]
    uses customerService customerDatabase "Stores data in"
      [.technology "JDBC", .interactionStyle .synchronous]
    uses customerService application "Sends events to"
      [.technology "WebSocket", .interactionStyle .asynchronous]
    uses bus reportingService "Sends customer update events to" [.interactionStyle .asynchronous]
    uses bus auditService "Sends customer update events to" [.interactionStyle .asynchronous]
    uses reportingService reportingDatabase "Stores data in" [.interactionStyle .synchronous]
    uses auditService auditStore "Stores events in" [.interactionStyle .synchronous]

    let region ← looseNode "EU West" "" "AWS region" .development
    let kubernetes ← looseNode "Cluster" "" "Kubernetes" .development
    let databaseHost ← looseNode "Database Host" "" "Amazon RDS" .development
    updateModel fun m => m.setEnvironment region (.ofName "Production")
    nest region kubernetes
    nest region databaseHost
    let root ← rootNode "AWS" "" "" .production []
    nest root region
    for service in [customerService, reportingService, auditService] do
      let _ ← deploy kubernetes service [.instanceId 1]
    for store in [customerDatabase, reportingDatabase, auditStore] do
      let _ ← deploy databaseHost store []

    let _ ← staticView (·.addContainerView system "Containers" "")
      [.allElements, .header (.autoLayout true)]
    let _ ← dynamicView
      (·.addDynamicView (some system) "CustomerUpdateEvent"
        "This diagram shows what happens when a customer updates their details.")
      [.step customer application "Updates their details using" none,
        .step application customerService "Updates customer information using"
          (some "JSON/HTTPS"),
        .step customerService customerDatabase "Stores data in" none,
        .step customerService bus "Sends customer update events to" none,
        .startParallel,
        .step bus reportingService "Sends customer update events to" none,
        .step bus auditService "Sends customer update events to" none,
        .endParallel,
        .step customerService application "Confirms update to" none,
        .header (.autoLayout true)]
    let _ ← deploymentView (·.addDeploymentView (some system) .production "Live" "")
      [.allDeploymentNodes, .allRelationships, .header (.autoLayout true)]

    elementStyle Tag.element [.color "#000000"]
    elementStyle Tag.person [.background "#ffcc33", .shape .person]
    elementStyle Tag.database [.shape .database]
    elementStyle "Microservice" [.shape .hexagon]
    elementStyle "Message Bus" [.width 1600, .shape .queue]
    relationshipStyle Tag.asynchronous [.lineStyle .dashed]
    relationshipStyle Tag.synchronous [.endTerminator .arrow]

end C4.Sample
