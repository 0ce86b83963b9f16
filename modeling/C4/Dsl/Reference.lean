import C4.Dsl.Identifier
import C4.Dsl.Subject
import C4.Log
import C4.Model.Basic

/-!
# References

Elements refer to each other by tokens. The token of an instance is made of the node, the
container and the number of the instance. Different elements may end up with the same
token; a full rendering reports every such collision.
-/
namespace C4

open Dsl

/-- The token of an element, or the first thing missing on the way to it. -/
def Model.token (m : Model) : ElementId → Except RenderError String
  | .containerInstance id =>
    match m.containerInstance? id with
    | none => .error (.unknownElement (.containerInstance id))
    | some i =>
      match m.container? i.container with
      | none => .error (.unknownElement (.container i.container))
      | some c =>
        match m.deploymentNode? i.parent with
        | none => .error (.unknownElement (.deploymentNode i.parent))
        | some n =>
          .ok (identifier
            (n.name ++ " " ++ c.name ++ " " ++ toString i.effectiveInstanceId.toNat))
  | id =>
    match m.nameOf? id with
    | none => .error (.unknownElement id)
    | some name => .ok (identifier name)

namespace Dsl

def collisionRecord (token : String) (first second : ElementId) : Record :=
  { level := .warn
    message := "Identifier collision"
    fields := [("token", token), ("first", first.label), ("second", second.label)] }

/-- The collisions among `ids`, given the first owner of each token seen so far. -/
def collisionsFrom (m : Model) (seen : List (String × ElementId)) :
    List ElementId → List Record
  | [] => []
  | id :: rest =>
    match m.token id with
    | .error _ => collisionsFrom m seen rest
    | .ok token =>
      match seen.lookup token with
      | some first => collisionRecord token first id :: collisionsFrom m seen rest
      | none => collisionsFrom m ((token, id) :: seen) rest

def collisions (m : Model) : List Record := collisionsFrom m [] m.elementIds

end Dsl

end C4
