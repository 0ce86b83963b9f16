import C4.Dsl.Quoted
import C4.Dsl.Script
import C4.Style.Basic

/-!
# The styles block

One line for each attribute that is set. Element styles come first; relationship styles
follow and have the same form of block.
-/
namespace C4

open Dsl

def ElementStyle.Attribute.text : ElementStyle.Attribute → String
  | .shape v => "shape " ++ v.name
  | .icon v => "icon " ++ quote v
  | .width v => "width " ++ toString v.toNat
  | .height v => "height " ++ toString v.toNat
  | .background v => "background " ++ quote v
  | .color v => "color " ++ quote v
  | .stroke v => "stroke " ++ quote v
  | .opacity v => "opacity " ++ toString v.toNat
  | .fontSize v => "fontSize " ++ toString v.toNat
  | .metadata v => "metadata " ++ toString v
  | .description v => "description " ++ toString v
  | .border v => "border " ++ toString v.toNat
  | .borderStyle v => "borderStyle " ++ quote v.name
  | .strokeWidth v => "strokeWidth " ++ toString v.toNat
  | .fontFamily v => "fontFamily " ++ quote v
  | .fontStyle v => "fontStyle " ++ quote v
  | .shadow v => "shadow " ++ toString v
  | .zIndex v => "zIndex " ++ toString v.toInt
  | .rotation v => "rotation " ++ toString v.toInt
  | .position x y => "position " ++ toString x.toInt ++ "," ++ toString y.toInt
  | .icons vs => "icons [" ++ String.intercalate ", " (vs.map quote) ++ "]"

def ElementStyle.lines (s : ElementStyle) : List String := s.attributes.map (·.text)

def RelationshipStyle.Attribute.text : RelationshipStyle.Attribute → String
  | .color v => "color " ++ quote v
  | .opacity v => "opacity " ++ toString v.toNat
  | .thickness v => "thickness " ++ toString v.toNat
  | .lineStyle v => "style " ++ quote v.name
  | .fontSize v => "fontSize " ++ toString v.toNat
  | .fontColor v => "fontColor " ++ quote v
  | .fontFamily v => "fontFamily " ++ quote v
  | .fontStyle v => "fontStyle " ++ quote v
  | .routing v => "routing " ++ quote v.name
  | .position v => "position " ++ toString v.toNat
  | .startTerminator v => "sourceTerminator " ++ quote v.name
  | .endTerminator v => "destinationTerminator " ++ quote v.name

def RelationshipStyle.lines (s : RelationshipStyle) : List String := s.attributes.map (·.text)

namespace Dsl

def styleScript (subject : Subject) (tag : String) (lines : List String) : Script :=
  Script.block subject ("element " ++ quote tag) (lines.flatMap (Script.line subject))

def stylesScript (s : Styles) : Script :=
  if s.isEmpty then []
  else
    Script.note ⟨.debug, "Emitting styles",
        [("elements", toString s.elements.length),
          ("relationships", toString s.relationships.length)]⟩ ++
      Script.block .styles "styles"
        (s.elements.flatMap
            (fun style => styleScript (.elementStyle style.tag) style.tag style.lines) ++
          s.relationships.flatMap
            fun style => styleScript (.relationshipStyle style.tag) style.tag style.lines)

end Dsl

end C4
