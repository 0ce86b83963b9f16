import C4.Style.Basic
import C4.View.Deployment
import C4.View.Dynamic
import C4.View.Filtered

/-!
# All views of a workspace

The views of each kind in the order in which they were added, and the styles they share.
-/
namespace C4

structure Views where
  systemContext : Array (StaticView SoftwareSystemId)
  container : Array (StaticView SoftwareSystemId)
  component : Array (StaticView ContainerId)
  dynamic : Array DynamicView
  deployment : Array DeploymentView
  filtered : Array FilteredView
  styles : Styles
deriving DecidableEq

namespace Views

def empty : Views :=
  { systemContext := #[]
    container := #[]
    component := #[]
    dynamic := #[]
    deployment := #[]
    filtered := #[]
    styles := .empty }

instance : Inhabited Views := ⟨empty⟩

def addSystemContextView (v : Views) (system : SoftwareSystemId) (key description : String) :
    ViewId × Views :=
  (.systemContext v.systemContext.size,
    { v with
      systemContext := v.systemContext.push ⟨system, .create key description, .nothing⟩ })

def addContainerView (v : Views) (system : SoftwareSystemId) (key description : String) :
    ViewId × Views :=
  (.container v.container.size,
    { v with container := v.container.push ⟨system, .create key description, .nothing⟩ })

def addComponentView (v : Views) (container : ContainerId) (key description : String) :
    ViewId × Views :=
  (.component v.component.size,
    { v with component := v.component.push ⟨container, .create key description, .nothing⟩ })

def addDynamicView (v : Views) (scope : Option ElementId) (key description : String) :
    ViewId × Views :=
  (.dynamic v.dynamic.size,
    { v with dynamic := v.dynamic.push (.create scope (.create key description)) })

def addDeploymentView (v : Views) (system : Option SoftwareSystemId)
    (environment : Environment) (key description : String) : ViewId × Views :=
  (.deployment v.deployment.size,
    { v with
      deployment := v.deployment.push
        (.create system environment (.create key description)) })

def addFilteredView (v : Views) (base : ViewId) (key description : String) : ViewId × Views :=
  (.filtered v.filtered.size,
    { v with filtered := v.filtered.push ⟨base, .create key description, none, []⟩ })

def header? (v : Views) : ViewId → Option ViewHeader
  | .systemContext index => v.systemContext[index]?.map (·.header)
  | .container index => v.container[index]?.map (·.header)
  | .component index => v.component[index]?.map (·.header)
  | .dynamic index => v.dynamic[index]?.map (·.header)
  | .deployment index => v.deployment[index]?.map (·.header)
  | .filtered index => v.filtered[index]?.map (·.header)

def contains (v : Views) (id : ViewId) : Bool := (v.header? id).isSome

def keyOf? (v : Views) (id : ViewId) : Option String := (v.header? id).bind (·.key)

def modifyAt? {α : Type} (views : Array α) (index : Nat) (change : α → α) : Option (Array α) :=
  if index < views.size then some (views.modify index change) else none

def setStatic? (v : Views) (id : ViewId) (s : StaticView.Setting) : Option Views :=
  match id with
  | .systemContext index =>
    (modifyAt? v.systemContext index (·.set s)).map fun views => { v with systemContext := views }
  | .container index =>
    (modifyAt? v.container index (·.set s)).map fun views => { v with container := views }
  | .component index =>
    (modifyAt? v.component index (·.set s)).map fun views => { v with component := views }
  | _ => none

def setDynamic? (v : Views) (index : Nat) (s : DynamicView.Setting) : Option Views :=
  (modifyAt? v.dynamic index (·.set s)).map fun views => { v with dynamic := views }

def setDeployment? (v : Views) (index : Nat) (s : DeploymentView.Setting) : Option Views :=
  (modifyAt? v.deployment index (·.set s)).map fun views => { v with deployment := views }

def setFiltered? (v : Views) (index : Nat) (s : FilteredView.Setting) : Option Views :=
  (modifyAt? v.filtered index (·.set s)).map fun views => { v with filtered := views }

def ids (v : Views) : List ViewId :=
  (List.range v.systemContext.size).map .systemContext ++
    (List.range v.container.size).map .container ++
    (List.range v.component.size).map .component ++
    (List.range v.dynamic.size).map .dynamic ++
    (List.range v.deployment.size).map .deployment ++
    (List.range v.filtered.size).map .filtered

def isEmpty (v : Views) : Bool := v.ids.isEmpty && v.styles.isEmpty

end Views

end C4
