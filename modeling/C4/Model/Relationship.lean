import C4.Model.Id

/-!
# Relationships

A relationship is a directed edge between any two elements. Its ends are not required to
exist when it is made; they are looked up when it is rendered.
-/
namespace C4

inductive InteractionStyle
  | synchronous
  | asynchronous
deriving DecidableEq

def InteractionStyle.name : InteractionStyle → String
  | synchronous => "synchronous"
  | asynchronous => "asynchronous"

structure Relationship where
  source : ElementId
  target : ElementId
  description : Option String
  technology : Option String
  interactionStyle : Option InteractionStyle
deriving DecidableEq

inductive Relationship.Setting
  | description (text : String)
  | technology (text : String)
  | interactionStyle (style : InteractionStyle)
deriving DecidableEq

namespace Relationship

def create (source target : ElementId) (description : Option String) : Relationship :=
  { source, target, description, technology := none, interactionStyle := none }

def set (r : Relationship) : Relationship.Setting → Relationship
  | .description text => { r with description := some text }
  | .technology text => { r with technology := some text }
  | .interactionStyle style => { r with interactionStyle := some style }

end Relationship

end C4
