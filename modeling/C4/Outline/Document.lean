import C4.Dsl.Document
import C4.Outline.Deployment
import C4.Outline.View

/-!
# Outlines of documents

The outline of a whole workspace and of single parts of it. The block of the workspace holds the
two phases between its opening and its closing.
-/
namespace C4.Dsl

def styleItem (subject : Subject) (tag : String) (lines : List String) : Item :=
  .block subject ("element " ++ quote tag) (lines.map (.line subject))

def stylesItems (s : Styles) : List Item :=
  if s.isEmpty then []
  else
    [.note ⟨.debug, "Emitting styles",
        [("elements", toString s.elements.length),
          ("relationships", toString s.relationships.length)]⟩,
      .block .styles "styles"
        (s.elements.map (fun style => styleItem (.elementStyle style.tag) style.tag style.lines) ++
          s.relationships.map
            fun style => styleItem (.relationshipStyle style.tag) style.tag style.lines)]

def Layout.separator (l : Layout) (subject : Subject) : List Item :=
  if l.sectionSpacing then [.gap subject] else []

def Phase.note (p : Phase) : Item := .note p.record

def modelSections (m : Model) : List (List Item) :=
  [propertyBlock .model m.properties,
    (m.personIds.filter fun id => m.isOutside (.person id)).flatMap (personItems m),
    (m.softwareSystemIds.filter fun id => m.isOutside (.softwareSystem id)).flatMap
      (softwareSystemItems m),
    m.enterprise.elim [] (enterpriseItems m),
    environmentsItems m,
    m.relationshipIds.flatMap (relationshipItems m)]

def modelBlock (l : Layout) (m : Model) : Item :=
  .block .model "model" (spaced (l.separator .model) (modelSections m))

def viewsBlock (l : Layout) (m : Model) (vs : Views) : Item :=
  .block .views "views"
    (spaced (l.separator .views) (vs.ids.map (viewItems m vs) ++ [stylesItems vs.styles]))

end C4.Dsl

namespace C4.Workspace

open Dsl

def outline (w : Workspace) (l : Layout) : List Item :=
  (collisions w.model).map .note ++
  [Phase.header.note,
    .block w.subject w.headerLine
      [Phase.model.note,
        modelBlock l w.model,
        Phase.views.note,
        .note ⟨.debug, "Emitting views", [("views", toString w.views.ids.length)]⟩,
        viewsBlock l w.model w.views,
        Phase.close.note]]

end C4.Workspace

namespace C4.Dsl

def elementItems (m : Model) : ElementId → List Item
  | .person id => personItems m id
  | .softwareSystem id => softwareSystemItems m id
  | .container id => containerItems m id
  | .component id => componentItems m id
  | .deploymentNode id => deploymentNodeItems m id
  | .infrastructureNode id => infrastructureNodeItems m id
  | .containerInstance id => containerInstanceItems m id

def Fragment.outline (w : Workspace) : Fragment → List Item
  | element id => elementItems w.model id
  | relationship id => relationshipItems w.model id
  | view id => viewItems w.model w.views id
  | styles => stylesItems w.views.styles

end C4.Dsl
