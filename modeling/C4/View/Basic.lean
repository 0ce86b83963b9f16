import C4.Model.Id
import C4.Model.Attributes

/-!
# Views over one scope

What all views share, and the three static kinds: the context of a software system, the
containers of a software system and the components of a container.
-/
namespace C4

inductive ViewId
  | systemContext (index : Nat)
  | container (index : Nat)
  | component (index : Nat)
  | dynamic (index : Nat)
  | deployment (index : Nat)
  | filtered (index : Nat)
deriving DecidableEq

namespace ViewId

def kind : ViewId → String
  | systemContext _ => "system context"
  | container _ => "container"
  | component _ => "component"
  | dynamic _ => "dynamic"
  | deployment _ => "deployment"
  | filtered _ => "filtered"

def index : ViewId → Nat
  | systemContext index => index
  | container index => index
  | component index => index
  | dynamic index => index
  | deployment index => index
  | filtered index => index

def label (id : ViewId) : String :=
  id.kind ++ "#" ++ toString id.index

def keyword : ViewId → String
  | systemContext _ => "systemContext"
  | container _ => "container"
  | component _ => "component"
  | dynamic _ => "dynamic"
  | deployment _ => "deploymentView"
  | filtered _ => "filteredView"

end ViewId

structure ViewHeader where
  key : Option String
  description : Option String
  autoLayout : Bool
deriving DecidableEq

inductive ViewHeader.Setting
  | key (text : String)
  | description (text : String)
  | autoLayout (enabled : Bool)
deriving DecidableEq

namespace ViewHeader

def create (key description : String) : ViewHeader :=
  ⟨provided key, provided description, false⟩

def set (h : ViewHeader) : ViewHeader.Setting → ViewHeader
  | .key text => { h with key := some text }
  | .description text => { h with description := some text }
  | .autoLayout enabled => { h with autoLayout := enabled }

end ViewHeader

/-- Asks for an element, with what points to it (`afferent`) and what it points to
(`efferent`), or else for the relationships between two ends, of which either may be left
open. -/
structure IncludeExpression where
  subject : Option ElementId
  source : Option ElementId
  target : Option ElementId
  afferent : Bool
  efferent : Bool
deriving DecidableEq

namespace IncludeExpression

def element (id : ElementId) : IncludeExpression := ⟨some id, none, none, false, false⟩

def afferentTo (id : ElementId) : IncludeExpression := ⟨some id, none, none, true, false⟩

def efferentFrom (id : ElementId) : IncludeExpression := ⟨some id, none, none, false, true⟩

def neighbours (id : ElementId) : IncludeExpression := ⟨some id, none, none, true, true⟩

def relationship (source target : ElementId) : IncludeExpression :=
  ⟨none, some source, some target, false, false⟩

end IncludeExpression

structure Inclusions where
  all : Bool
  people : Bool
  softwareSystems : Bool
  elements : List ElementId
  expressions : List IncludeExpression
deriving DecidableEq

namespace Inclusions

def nothing : Inclusions := ⟨false, false, false, [], []⟩

def everything (i : Inclusions) : Bool := i.all || (i.people && i.softwareSystems)

end Inclusions

structure StaticView (σ : Type) where
  scope : σ
  header : ViewHeader
  inclusions : Inclusions
deriving DecidableEq

inductive StaticView.Setting
  | header (setting : ViewHeader.Setting)
  | allElements
  | allPeople
  | allSoftwareSystems
  | element (id : ElementId)
  | expression (expression : IncludeExpression)
deriving DecidableEq

def StaticView.set {σ : Type} (v : StaticView σ) : StaticView.Setting → StaticView σ
  | .header setting => { v with header := v.header.set setting }
  | .allElements => { v with inclusions := { v.inclusions with all := true } }
  | .allPeople => { v with inclusions := { v.inclusions with people := true } }
  | .allSoftwareSystems => { v with inclusions := { v.inclusions with softwareSystems := true } }
  | .element id =>
    { v with inclusions := { v.inclusions with elements := v.inclusions.elements ++ [id] } }
  | .expression e =>
    { v with inclusions := { v.inclusions with expressions := v.inclusions.expressions ++ [e] } }

end C4
