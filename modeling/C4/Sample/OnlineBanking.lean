import C4.Sample.Build

/-!
# Sample: online banking

A banking system that runs in a cloud region and a data centre, with load balancers and
health checks.
-/
namespace C4.Sample

open Build

def onlineBanking : Except ModelError Workspace :=
  Build.run (.create "Deployment Example"
      "Example showing deployment nodes and infrastructure") do
    let customer ← person "Customer" "A customer of ACME Financial" []
    let support ← person "Customer Support" "Customer support staff" []
    let banking ← softwareSystem "Online Banking System"
      "Allows customers to view accounts and make transactions" []
    let core ← softwareSystem "Mainframe Banking System" "Stores core banking information" []
    enterprise "ACME Financial" [support, banking, core]
    uses customer banking "Uses" []
    uses support banking "Uses to support customers" []
    uses banking core "Gets account information from" []

    let web ← container banking "Web Application"
      [.description "Provides online banking functionality to customers",
        .technology "Java and Spring MVC"]
    let api ← container banking "API Application"
      [.description "Provides API for mobile and web applications",
        .technology "Java and Spring Boot"]
    let database ← container banking "Database"
      [.description "Stores user data, sessions, etc.", .technology "Oracle", .tag Tag.database]
    uses web api "Makes API calls to" [.technology "HTTPS"]
    uses api database "Reads from and writes to" [.technology "JDBC"]
    uses api core "Makes API calls to" [.technology "WebSphere MQ"]

    let aws ← rootNode "AWS" "Amazon Web Services" "Cloud Infrastructure" .production
      [.location .external]
    let webTier ← childNode aws "Web Tier" "Web application tier" "Amazon EC2 Auto Scaling Group"
    let webServer1 ← childNode webTier "Web Server 1" "Web server instance" "Amazon EC2"
    let webServer2 ← childNode webTier "Web Server 2" "Web server instance" "Amazon EC2"
    let appTier ← childNode aws "App Tier" "Application tier" "Amazon EC2 Auto Scaling Group"
    let appServer1 ← childNode appTier "App Server 1" "Application server instance" "Amazon EC2"
    let appServer2 ← childNode appTier "App Server 2" "Application server instance" "Amazon EC2"
    let databaseTier ← childNode aws "Database Tier" "Database tier" "Amazon RDS"
    let primary ← childNode databaseTier "Primary DB" "Primary database" "Oracle RDS"
    let standby ← childNode databaseTier "Standby DB" "Standby database" "Oracle RDS"
    let loadBalancer ← infrastructure aws "Load Balancer"
      [.description "Elastic Load Balancer", .technology "AWS ELB"]
    let internalBalancer ← infrastructure appTier "Internal Load Balancer"
      [.description "Internal load balancer", .technology "AWS ELB"]

    let web1 ← deploy webServer1 web
      [.healthCheck (.create "Web Status" "https://web1.example.com/health")]
    let web2 ← deploy webServer2 web
      [.healthCheck (.create "Web Status" "https://web2.example.com/health")]
    let api1 ← deploy appServer1 api
      [.healthCheck (.create "API Status" "https://api1.example.com/health")]
    let api2 ← deploy appServer2 api
      [.healthCheck (.create "API Status" "https://api2.example.com/health")]
    let databaseInstance ← deploy primary database
      [.healthCheck (((HealthCheck.create "DB Status" "https://db.example.com/health").set
        (.interval 30)).set (.timeout 500))]
    let onPremises ← rootNode "On-Premises" "On-premises infrastructure" "Data Center"
      .production []
    let mainframe ← childNode onPremises "Mainframe" "Mainframe system" "IBM z/OS"

    uses loadBalancer webServer1 "Routes requests to" [.technology "HTTPS"]
    uses loadBalancer webServer2 "Routes requests to" [.technology "HTTPS"]
    uses web1 internalBalancer "Makes API calls to" [.technology "HTTPS"]
    uses web2 internalBalancer "Makes API calls to" [.technology "HTTPS"]
    uses internalBalancer appServer1 "Routes requests to" [.technology "HTTPS"]
    uses internalBalancer appServer2 "Routes requests to" [.technology "HTTPS"]
    uses api1 databaseInstance "Reads from and writes to" [.technology "JDBC"]
    uses api2 databaseInstance "Reads from and writes to" [.technology "JDBC"]
    uses primary standby "Replicates data to" [.technology "Oracle Data Guard"]
    uses api1 mainframe "Makes API calls to" [.technology "WebSphere MQ"]
    uses api2 mainframe "Makes API calls to" [.technology "WebSphere MQ"]

    let _ ← staticView
      (·.addSystemContextView banking "SystemContext"
        "System Context diagram for the Online Banking System")
      [.allElements, .header (.autoLayout true)]
    let _ ← staticView
      (·.addContainerView banking "Containers" "Container diagram for the Online Banking System")
      [.allPeople, .element web, .element api, .element database, .element core,
        .header (.autoLayout true)]
    let _ ← deploymentView
      (·.addDeploymentView (some banking) .production "ProductionDeployment"
        "Production deployment diagram for the Online Banking System")
      [.element aws, .element onPremises, .allRelationships, .header (.autoLayout true)]

    elementStyle Tag.person [.background "#08427b", .color "#ffffff"]
    elementStyle Tag.softwareSystem [.background "#1168bd", .color "#ffffff"]
    elementStyle Tag.container [.background "#438dd5", .color "#ffffff"]
    elementStyle Tag.deploymentNode [.background "#999999", .color "#ffffff"]
    elementStyle Tag.infrastructureNode [.background "#85bbf0", .color "#000000"]
    elementStyle Tag.database [.shape .database]

end C4.Sample
