import C4.Dsl.Deployment
import C4.Dsl.Style
import C4.Dsl.View
import C4.Workspace

/-!
# Documents

The script of a whole workspace, in four phases, and of single parts of it. The first phase
opens the block of the workspace, and the last one closes it.
-/
namespace C4.Dsl

structure Layout where
  indentWidth : Nat
  sectionSpacing : Bool
deriving DecidableEq

namespace Layout

def standard : Layout := ⟨4, false⟩

def indentUnit (l : Layout) : String := String.ofList (List.replicate l.indentWidth ' ')

def separatorScript (l : Layout) (subject : Subject) : Script :=
  if l.sectionSpacing then Script.gap subject else []

end Layout

inductive Phase
  | header
  | model
  | views
  | close
deriving DecidableEq

namespace Phase

def sequence : List Phase := [header, model, views, close]

def name : Phase → String
  | header => "Header"
  | model => "Model"
  | views => "Views"
  | close => "Close"

def record (p : Phase) : Record := ⟨.debug, "Render phase", [("phase", p.name)]⟩

end Phase

/-- The sections of the model block. Members of the enterprise stand inside its boundary and
nowhere else. -/
def modelSectionScripts (m : Model) : List Section :=
  let people := m.personIds.filter fun id => m.isOutside (.person id)
  let systems := m.softwareSystemIds.filter fun id => m.isOutside (.softwareSystem id)
  [⟨!m.properties.isEmpty, propertyScript .model m.properties⟩,
    ⟨!people.isEmpty, people.flatMap (personScript m)⟩,
    ⟨!systems.isEmpty, systems.flatMap (softwareSystemScript m)⟩,
    ⟨m.enterprise.isSome, m.enterprise.elim [] (enterpriseScript m)⟩,
    ⟨!m.topLevel.isEmpty, environmentsScript m⟩,
    ⟨!m.relationshipIds.isEmpty, m.relationshipIds.flatMap (relationshipScript m)⟩]

def modelScript (l : Layout) (m : Model) : Script :=
  Script.block .model "model" (Script.sections (l.separatorScript .model) true (modelSectionScripts m))

def viewSectionScripts (m : Model) (vs : Views) : List Section :=
  vs.ids.map (fun id => ⟨true, viewScript m vs id⟩) ++
    [⟨!vs.styles.isEmpty, stylesScript vs.styles⟩]

def viewsScript (l : Layout) (m : Model) (vs : Views) : Script :=
  Script.note ⟨.debug, "Emitting views", [("views", toString vs.ids.length)]⟩ ++
    Script.block .views "views" (Script.sections (l.separatorScript .views) true (viewSectionScripts m vs))

end C4.Dsl

namespace C4.Workspace

open Dsl

def subject (w : Workspace) : Subject := .workspace (w.name.getD "workspace")

/-- A workspace that extends another one names only that. -/
def headerLine (w : Workspace) : String :=
  match w.base with
  | some path => "workspace extends " ++ quote path
  | none => "workspace" ++ arguments [w.name, w.description]

def phaseScript (w : Workspace) (l : Layout) : Phase → Script
  | .header => Script.opening w.subject w.headerLine
  | .model => modelScript l w.model
  | .views => viewsScript l w.model w.views
  | .close => Script.closing w.subject

def phasesScript (w : Workspace) (l : Layout) : Script :=
  Phase.sequence.flatMap fun p => Script.note p.record ++ w.phaseScript l p

def script (w : Workspace) (l : Layout) : Script :=
  (collisions w.model).flatMap Script.note ++ w.phasesScript l

end C4.Workspace

namespace C4.Dsl

inductive Fragment
  | element (id : ElementId)
  | relationship (id : RelationshipId)
  | view (id : ViewId)
  | styles
deriving DecidableEq

def elementScript (m : Model) : ElementId → Script
  | .person id => personScript m id
  | .softwareSystem id => softwareSystemScript m id
  | .container id => containerScript m id
  | .component id => componentScript m id
  | .deploymentNode id => deploymentNodeScript m id
  | .infrastructureNode id => infrastructureNodeScript m id
  | .containerInstance id => containerInstanceScript m id

def Fragment.script (w : Workspace) : Fragment → Script
  | element id => elementScript w.model id
  | relationship id => relationshipScript w.model id
  | view id => viewScript w.model w.views id
  | styles => stylesScript w.views.styles

end C4.Dsl
