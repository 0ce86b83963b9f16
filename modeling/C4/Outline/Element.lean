import C4.Dsl.Element
import C4.Outline.Basic

/-!
# Outlines of elements and relationships

Outlines of the four levels of abstraction, of the enterprise boundary and of relationships.
-/
namespace C4.Dsl

def tagLines (subject : Subject) (tags : Tags) : List Item :=
  if tags.isEmpty then [] else [.line subject ("tags " ++ quote tags.joined)]

def propertyBlock (subject : Subject) (properties : Properties) : List Item :=
  if properties.isEmpty then []
  else [.block subject "properties"
    (properties.entries.map fun entry => .line subject (propertyLine entry))]

def personItems (m : Model) (id : PersonId) : List Item :=
  match m.person? id with
  | none => [.dangling (.unknownElement id)]
  | some p => withToken (m.token id) fun token =>
    let subject : Subject := .element id p.name
    [.note ⟨.trace, "Emitting person", [("token", token)]⟩,
      .entity subject (elementHeader token "person" p.name [p.description])
        (tagLines subject p.tags)]

def componentItems (m : Model) (id : ComponentId) : List Item :=
  match m.component? id with
  | none => [.dangling (.unknownElement id)]
  | some c => withToken (m.token id) fun token =>
    let subject : Subject := .element id c.name
    [.entity subject (elementHeader token "component" c.name [c.description, c.technology])
      (tagLines subject c.tags)]

def containerItems (m : Model) (id : ContainerId) : List Item :=
  match m.container? id with
  | none => [.dangling (.unknownElement id)]
  | some c => withToken (m.token id) fun token =>
    let subject : Subject := .element id c.name
    [.entity subject (elementHeader token "container" c.name [c.description, c.technology])
      (tagLines subject c.tags ++ c.components.flatMap (componentItems m))]

def softwareSystemItems (m : Model) (id : SoftwareSystemId) : List Item :=
  match m.softwareSystem? id with
  | none => [.dangling (.unknownElement id)]
  | some s => withToken (m.token id) fun token =>
    let subject : Subject := .element id s.name
    [.note ⟨.trace, "Emitting software system",
        [("token", token), ("containers", toString s.containers.length)]⟩,
      .entity subject (elementHeader token "softwareSystem" s.name [s.description])
        (tagLines subject s.tags ++ s.containers.flatMap (containerItems m))]

def enterpriseItems (m : Model) (e : Enterprise) : List Item :=
  let subject : Subject := .enterprise e.name
  [.block subject ("enterprise " ++ quote e.name)
    (propertyBlock subject e.properties ++
      e.members.flatMap (fun id =>
        match id with
        | .person id => personItems m id
        | _ => []) ++
      e.members.flatMap (fun id =>
        match id with
        | .softwareSystem id => softwareSystemItems m id
        | _ => []))]

def relationshipItems (m : Model) (id : RelationshipId) : List Item :=
  match m.relationship? id with
  | none => [.dangling (.unknownRelationship id)]
  | some r => withToken (arrow m r.source r.target) fun ends =>
    let line := ends ++ arguments
      [r.description, r.technology, r.interactionStyle.map InteractionStyle.name]
    [.line (.relationship id line) line]

end C4.Dsl
