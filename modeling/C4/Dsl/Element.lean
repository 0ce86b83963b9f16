import C4.Dsl.Quoted
import C4.Dsl.Reference
import C4.Dsl.Script

/-!
# Elements and relationships

Scripts of the four levels of abstraction, of the enterprise boundary and of relationships.
-/
namespace C4.Dsl

def tagScript (subject : Subject) (tags : Tags) : Script :=
  if tags.isEmpty then [] else Script.line subject ("tags " ++ quote tags.joined)

def propertyLine (entry : String × String) : String :=
  propertyKey entry.1 ++ " " ++ quote entry.2

def propertyScript (subject : Subject) (properties : Properties) : Script :=
  if properties.isEmpty then []
  else
    Script.opening subject "properties" ++
      properties.entries.flatMap (fun entry => Script.line subject (propertyLine entry)) ++
      Script.closing subject

def personScript (m : Model) (id : PersonId) : Script :=
  match m.person? id with
  | none => Script.stop (.unknownElement id)
  | some p => Script.withToken (m.token id) fun token =>
    let subject : Subject := .element id p.name
    Script.note ⟨.trace, "Emitting person", [("token", token)]⟩ ++
      Script.entity subject (elementHeader token "person" p.name [p.description])
        (!p.tags.isEmpty) (tagScript subject p.tags)

def componentScript (m : Model) (id : ComponentId) : Script :=
  match m.component? id with
  | none => Script.stop (.unknownElement id)
  | some c => Script.withToken (m.token id) fun token =>
    let subject : Subject := .element id c.name
    Script.entity subject
      (elementHeader token "component" c.name [c.description, c.technology])
      (!c.tags.isEmpty) (tagScript subject c.tags)

def containerScript (m : Model) (id : ContainerId) : Script :=
  match m.container? id with
  | none => Script.stop (.unknownElement id)
  | some c => Script.withToken (m.token id) fun token =>
    let subject : Subject := .element id c.name
    Script.entity subject
      (elementHeader token "container" c.name [c.description, c.technology])
      (!c.tags.isEmpty || !c.components.isEmpty)
      (tagScript subject c.tags ++ c.components.flatMap (componentScript m))

def softwareSystemScript (m : Model) (id : SoftwareSystemId) : Script :=
  match m.softwareSystem? id with
  | none => Script.stop (.unknownElement id)
  | some s => Script.withToken (m.token id) fun token =>
    let subject : Subject := .element id s.name
    Script.note ⟨.trace, "Emitting software system",
        [("token", token), ("containers", toString s.containers.length)]⟩ ++
      Script.entity subject (elementHeader token "softwareSystem" s.name [s.description])
        (!s.tags.isEmpty || !s.containers.isEmpty)
        (tagScript subject s.tags ++ s.containers.flatMap (containerScript m))

def enterpriseScript (m : Model) (e : Enterprise) : Script :=
  let subject : Subject := .enterprise e.name
  Script.block subject ("enterprise " ++ quote e.name)
    (propertyScript subject e.properties ++
      e.members.flatMap (fun id =>
        match id with
        | .person id => personScript m id
        | _ => []) ++
      e.members.flatMap (fun id =>
        match id with
        | .softwareSystem id => softwareSystemScript m id
        | _ => []))

def arrow (m : Model) (source target : ElementId) : Except RenderError String := do
  let source ← m.token source
  let target ← m.token target
  return source ++ " -> " ++ target

def relationshipScript (m : Model) (id : RelationshipId) : Script :=
  match m.relationship? id with
  | none => Script.stop (.unknownRelationship id)
  | some r => Script.withToken (arrow m r.source r.target) fun ends =>
    let line := ends ++ arguments
      [r.description, r.technology, r.interactionStyle.map InteractionStyle.name]
    Script.line (.relationship id line) line

end C4.Dsl
