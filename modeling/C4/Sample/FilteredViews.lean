import C4.Sample.Build

/-!
# Sample: filtered views

One system context, cut four ways by tags.
-/
namespace C4.Sample

open Build

def keep (value : String) : FilteredView.Setting := .filter ⟨.including, .tag, value⟩

def drop (value : String) : FilteredView.Setting := .filter ⟨.excluding, .tag, value⟩

def filteredViews : Except ModelError Workspace :=
  Build.run (.create "Filtered Views Example"
      "This is an example of filtered views in Structurizr") do
    let customerA ← person "Customer A" "A premium customer" [.tag "Customer", .tag "Premium"]
    let customerB ← person "Customer B" "A regular customer" [.tag "Customer", .tag "Regular"]
    let administrator ← person "Administrator" "System administrator" [.tag "Staff", .tag "Admin"]
    let support ← person "Support Staff" "Customer support" [.tag "Staff", .tag "Support"]

    let web ← softwareSystem "Web Application" "The main web application"
      [.tag Tag.internal, .tag "WebApp"]
    let database ← softwareSystem "Customer Database" "Stores customer information"
      [.tag Tag.internal, .tag Tag.database, .tag "Critical"]
    let reporting ← softwareSystem "Reporting System" "Generates business reports"
      [.tag Tag.internal, .tag "Reporting"]
    let portal ← softwareSystem "Admin Portal" "Admin management interface"
      [.tag Tag.internal, .tag "AdminTool"]
    let payments ← softwareSystem "Payment Provider" "Processes payments"
      [.tag Tag.external, .tag "Payment"]
    let email ← softwareSystem "Email System" "Sends emails to customers"
      [.tag Tag.external, .tag "Communication"]
    let monitoring ← softwareSystem "Monitoring System" "Monitors system health"
      [.tag Tag.external, .tag "Monitoring"]
    enterprise "Example Corp" [administrator, support, web, database, reporting, portal]

    uses customerA web "Uses" []
    uses customerB web "Uses" []
    uses administrator portal "Manages system using" []
    uses support portal "Views customer info using" []
    uses web database "Reads from and writes to" []
    uses web payments "Makes payments using" []
    uses web email "Sends emails using" []
    uses portal database "Reads from" []
    uses portal reporting "Generates reports using" []
    uses reporting database "Reads from" []
    uses monitoring web "Monitors" []
    uses monitoring database "Monitors" []

    let context ← staticView
      (·.addSystemContextView web "SystemContext" "The system context diagram")
      [.allElements, .header (.autoLayout true)]
    let _ ← filteredView
      (·.addFilteredView context "CustomerView" "Shows customer interaction")
      [keep "Customer", keep "WebApp", keep "Payment", drop "Admin", drop "Monitoring",
        drop "Reporting", .header (.autoLayout true)]
    let _ ← filteredView (·.addFilteredView context "AdminView" "Shows admin capabilities")
      [keep "Admin", keep "Staff", keep "AdminTool", keep "Reporting", drop "Customer",
        drop "Payment", .header (.autoLayout true)]
    let _ ← filteredView (·.addFilteredView context "CriticalView" "Shows critical systems only")
      [keep "Critical", keep "WebApp", .header (.autoLayout true)]
    let _ ← filteredView
      (·.addFilteredView context "ExternalView" "Shows only external integrations")
      [keep Tag.external, keep "WebApp", .filter ⟨.excluding, .type, "Person"⟩,
        .header (.autoLayout true)]

    elementStyle Tag.person [.shape .person, .background "#08427B", .color "#ffffff"]
    elementStyle Tag.softwareSystem [.shape .roundedBox, .background "#1168BD", .color "#ffffff"]
    elementStyle "Customer" [.background "#3498DB"]
    elementStyle "Premium" [.background "#2E86C1", .fontStyle "bold"]
    elementStyle "Regular" [.background "#5DADE2"]
    elementStyle "Staff" [.background "#16A085"]
    elementStyle Tag.database [.shape .cylinder, .background "#9B59B6"]
    elementStyle "AdminTool" [.background "#2C3E50"]
    elementStyle "Critical" [.border 4, .borderStyle .solid, .background "#E74C3C"]
    elementStyle Tag.external [.background "#95A5A6", .fontStyle "italic"]

end C4.Sample
