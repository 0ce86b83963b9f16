import C4.Sample.Build

/-!
# Sample: advanced styling

Styles for elements and relationships that use most of the attributes there are.
-/
namespace C4.Sample

open Build

def advancedStyling : Except ModelError Workspace :=
  Build.run (.create "Advanced Styling Example"
      "This is an example of advanced element and relationship styling in Structurizr") do
    let user ← person "User" "A user of the system" [.tag Tag.external]
    let web ← softwareSystem "Web Application" "The main web application" [.tag "WebApp"]
    let database ← softwareSystem "Database" "The primary database" [.tag Tag.database]
    let cache ← softwareSystem "Cache" "Redis cache" [.tag "Cache"]
    let messaging ← softwareSystem "Messaging" "Kafka messaging platform" [.tag Tag.queue]
    let api ← softwareSystem "API" "External REST API" [.tag "API"]
    uses user web "Uses" []
    uses web database "Reads from and writes to" [.interactionStyle .synchronous]
    uses web cache "Reads from and writes to" []
    uses web messaging "Publishes events to" [.interactionStyle .asynchronous]
    uses web api "Makes API calls to" [.interactionStyle .synchronous]
    let _ ← staticView (·.addSystemContextView web "SystemContext" "System Context diagram")
      [.allElements, .header (.autoLayout true)]

    elementStyle Tag.person
      [.shape .person, .background "#08427B", .color "#ffffff", .fontFamily "Arial",
        .fontSize 24, .border 20, .shadow true]
    elementStyle Tag.softwareSystem [.shape .roundedBox, .background "#1168BD", .color "#ffffff"]
    elementStyle Tag.database [.shape .cylinder, .background "#1168BD", .color "#ffffff"]
    elementStyle "WebApp" [.background "#62A420", .strokeWidth 2, .borderStyle .dashed]
    elementStyle "API" [.background "#85BBF0", .border 4, .shape .hexagon]
    elementStyle "Cache" [.background "#D4A017", .rotation 15]
    elementStyle Tag.queue [.background "#E62D2D", .shape .queue]
    elementStyle Tag.external [.background "#999999", .fontStyle "italic"]
    relationshipStyle Tag.synchronous
      [.color "#289CE1", .fontColor "#289CE1", .fontSize 12, .thickness 2, .lineStyle .solid,
        .routing .direct]
    relationshipStyle Tag.asynchronous
      [.color "#E62D2D", .fontColor "#E62D2D", .fontSize 12, .thickness 2, .lineStyle .dashed,
        .routing .curved]
    relationshipStyle "Cache"
      [.color "#D4A017", .fontColor "#D4A017", .thickness 2, .lineStyle .dotted,
        .endTerminator .arrow]
    relationshipStyle Tag.database [.color "#1168BD", .thickness 2, .routing .orthogonal]

end C4.Sample
