import C4.Model.Attributes
import C4.Model.Id

/-!
# People, software systems, containers and components

The four levels of abstraction and the boundary of the enterprise. Parents list their
children and children name their parent; the model keeps the two in step. Each kind comes
with its settings, the changes that may be made to one entity after it has been created.
A setting always stores what it is given, the empty text included.
-/
namespace C4

structure Person where
  name : String
  description : Option String
  tags : Tags
deriving DecidableEq

inductive Person.Setting
  | description (text : String)
  | tag (name : String)
deriving DecidableEq

def Person.set (p : Person) : Person.Setting → Person
  | .description text => { p with description := some text }
  | .tag name => { p with tags := p.tags.add name }

structure SoftwareSystem where
  name : String
  description : Option String
  tags : Tags
  containers : List ContainerId
deriving DecidableEq

inductive SoftwareSystem.Setting
  | description (text : String)
  | tag (name : String)
deriving DecidableEq

def SoftwareSystem.set (s : SoftwareSystem) : SoftwareSystem.Setting → SoftwareSystem
  | .description text => { s with description := some text }
  | .tag name => { s with tags := s.tags.add name }

@[simp] theorem SoftwareSystem.set_containers (s : SoftwareSystem) (x : SoftwareSystem.Setting) :
    (s.set x).containers = s.containers := by
  cases x <;> rfl

structure Container where
  name : String
  description : Option String
  technology : Option String
  tags : Tags
  softwareSystem : SoftwareSystemId
  components : List ComponentId
deriving DecidableEq

inductive Container.Setting
  | description (text : String)
  | technology (text : String)
  | tag (name : String)
deriving DecidableEq

def Container.set (c : Container) : Container.Setting → Container
  | .description text => { c with description := some text }
  | .technology text => { c with technology := some text }
  | .tag name => { c with tags := c.tags.add name }

@[simp] theorem Container.set_softwareSystem (c : Container) (x : Container.Setting) :
    (c.set x).softwareSystem = c.softwareSystem := by
  cases x <;> rfl

@[simp] theorem Container.set_components (c : Container) (x : Container.Setting) :
    (c.set x).components = c.components := by
  cases x <;> rfl

structure Component where
  name : String
  description : Option String
  technology : Option String
  tags : Tags
  container : ContainerId
deriving DecidableEq

inductive Component.Setting
  | description (text : String)
  | technology (text : String)
  | tag (name : String)
deriving DecidableEq

def Component.set (c : Component) : Component.Setting → Component
  | .description text => { c with description := some text }
  | .technology text => { c with technology := some text }
  | .tag name => { c with tags := c.tags.add name }

@[simp] theorem Component.set_container (c : Component) (x : Component.Setting) :
    (c.set x).container = c.container := by
  cases x <;> rfl

/-- People and software systems may be members. Other elements may be listed too, but
nothing is drawn inside the boundary for them. -/
structure Enterprise where
  name : String
  properties : Properties
  members : List ElementId
deriving DecidableEq

namespace Enterprise

def isMember (e : Enterprise) (id : ElementId) : Bool := e.members.contains id

def join (e : Enterprise) (id : ElementId) : Enterprise :=
  if e.isMember id then e else { e with members := e.members ++ [id] }

def setProperty (e : Enterprise) (key value : String) : Enterprise :=
  { e with properties := e.properties.insert key value }

theorem join_nodup {e : Enterprise} (h : e.members.Nodup) (id : ElementId) :
    (e.join id).members.Nodup := by
  unfold join isMember
  split
  · exact h
  · next hid =>
    refine List.nodup_append.2 ⟨h, by simp, fun a ha b hb hab => hid ?_⟩
    obtain rfl := List.mem_singleton.1 hb
    exact List.contains_iff_mem.2 (hab ▸ ha)

end Enterprise

end C4
