import C4.Sample.Build

/-!
# Sample: getting started

One person, one software system and one relationship.
-/
namespace C4.Sample

open Build

def gettingStarted : Except ModelError Workspace :=
  Build.run (.create "Getting Started" "This is a model of my software system.") do
    let user ← person "User" "A user of my software system." []
    let system ← softwareSystem "Software System" "My software system." []
    uses user system "Uses" []
    let _ ← staticView
      (·.addSystemContextView system "SystemContext" "An example of a System Context diagram.")
      [.allSoftwareSystems, .allPeople, .header (.autoLayout true)]
    elementStyle Tag.softwareSystem [.background "#1168bd", .color "#ffffff"]
    elementStyle Tag.person [.background "#08427b", .color "#ffffff", .shape .person]

end C4.Sample
