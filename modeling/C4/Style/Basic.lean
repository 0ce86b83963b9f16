/-!
# Styles

A style is attached to a tag and says how whatever bears the tag is drawn. Every attribute
may be left unset. A collection of styles only ever grows: a second style for a tag stands
after the first and does not replace it.
-/
namespace C4

inductive Shape
  | box
  | roundedBox
  | circle
  | ellipse
  | hexagon
  | cylinder
  | pipe
  | person
  | robot
  | folder
  | webBrowser
  | mobileDevicePortrait
  | mobileDeviceLandscape
  | component
deriving DecidableEq

namespace Shape

def database : Shape := cylinder

def queue : Shape := pipe

def all : List Shape :=
  [box, roundedBox, circle, ellipse, hexagon, cylinder, pipe, person, robot, folder, webBrowser,
    mobileDevicePortrait, mobileDeviceLandscape, component]

def name : Shape → String
  | box => "Box"
  | roundedBox => "RoundedBox"
  | circle => "Circle"
  | ellipse => "Ellipse"
  | hexagon => "Hexagon"
  | cylinder => "Cylinder"
  | pipe => "Pipe"
  | person => "Person"
  | robot => "Robot"
  | folder => "Folder"
  | webBrowser => "WebBrowser"
  | mobileDevicePortrait => "MobileDevicePortrait"
  | mobileDeviceLandscape => "MobileDeviceLandscape"
  | component => "Component"

end Shape

inductive BorderStyle
  | solid
  | dashed
  | dotted
deriving DecidableEq

namespace BorderStyle

def all : List BorderStyle := [solid, dashed, dotted]

def name : BorderStyle → String
  | solid => "Solid"
  | dashed => "Dashed"
  | dotted => "Dotted"

end BorderStyle

inductive LineStyle
  | solid
  | dashed
  | dotted
deriving DecidableEq

namespace LineStyle

def all : List LineStyle := [solid, dashed, dotted]

def name : LineStyle → String
  | solid => "Solid"
  | dashed => "Dashed"
  | dotted => "Dotted"

end LineStyle

inductive Routing
  | direct
  | orthogonal
  | curved
deriving DecidableEq

namespace Routing

def all : List Routing := [direct, orthogonal, curved]

def name : Routing → String
  | direct => "Direct"
  | orthogonal => "Orthogonal"
  | curved => "Curved"

end Routing

inductive Terminator
  | none
  | arrow
  | circle
  | diamond
  | triangle
deriving DecidableEq

namespace Terminator

def all : List Terminator := [none, arrow, circle, diamond, triangle]

def name : Terminator → String
  | none => "None"
  | arrow => "Arrow"
  | circle => "Circle"
  | diamond => "Diamond"
  | triangle => "Triangle"

end Terminator

structure ElementStyle where
  tag : String
  shape : Option Shape
  icon : Option String
  width : Option UInt32
  height : Option UInt32
  background : Option String
  color : Option String
  stroke : Option String
  opacity : Option UInt8
  fontSize : Option UInt32
  metadata : Option Bool
  description : Option Bool
  border : Option UInt32
  borderStyle : Option BorderStyle
  strokeWidth : Option UInt32
  fontFamily : Option String
  fontStyle : Option String
  shadow : Option Bool
  zIndex : Option Int32
  rotation : Option Int32
  position : Option (Int32 × Int32)
  icons : List String
deriving DecidableEq

inductive ElementStyle.Attribute
  | shape (shape : Shape)
  | icon (source : String)
  | width (pixels : UInt32)
  | height (pixels : UInt32)
  | background (color : String)
  | color (color : String)
  | stroke (color : String)
  | opacity (percent : UInt8)
  | fontSize (pixels : UInt32)
  | metadata (shown : Bool)
  | description (shown : Bool)
  | border (pixels : UInt32)
  | borderStyle (style : BorderStyle)
  | strokeWidth (pixels : UInt32)
  | fontFamily (name : String)
  | fontStyle (name : String)
  | shadow (shown : Bool)
  | zIndex (level : Int32)
  | rotation (degrees : Int32)
  | position (x y : Int32)
  | icons (sources : List String)
deriving DecidableEq

namespace ElementStyle

def create (tag : String) : ElementStyle :=
  { tag
    shape := none
    icon := none
    width := none
    height := none
    background := none
    color := none
    stroke := none
    opacity := none
    fontSize := none
    metadata := none
    description := none
    border := none
    borderStyle := none
    strokeWidth := none
    fontFamily := none
    fontStyle := none
    shadow := none
    zIndex := none
    rotation := none
    position := none
    icons := [] }

def set (s : ElementStyle) : Attribute → ElementStyle
  | .shape v => { s with shape := some v }
  | .icon v => { s with icon := some v }
  | .width v => { s with width := some v }
  | .height v => { s with height := some v }
  | .background v => { s with background := some v }
  | .color v => { s with color := some v }
  | .stroke v => { s with stroke := some v }
  | .opacity v => { s with opacity := some v }
  | .fontSize v => { s with fontSize := some v }
  | .metadata v => { s with metadata := some v }
  | .description v => { s with description := some v }
  | .border v => { s with border := some v }
  | .borderStyle v => { s with borderStyle := some v }
  | .strokeWidth v => { s with strokeWidth := some v }
  | .fontFamily v => { s with fontFamily := some v }
  | .fontStyle v => { s with fontStyle := some v }
  | .shadow v => { s with shadow := some v }
  | .zIndex v => { s with zIndex := some v }
  | .rotation v => { s with rotation := some v }
  | .position x y => { s with position := some (x, y) }
  | .icons v => { s with icons := v }

def addIcon (s : ElementStyle) (source : String) : ElementStyle :=
  { s with icons := s.icons ++ [source] }

def attributes (s : ElementStyle) : List Attribute :=
  (s.shape.map .shape).toList ++ (s.icon.map .icon).toList ++
  (s.width.map .width).toList ++ (s.height.map .height).toList ++
  (s.background.map .background).toList ++ (s.color.map .color).toList ++
  (s.stroke.map .stroke).toList ++ (s.opacity.map .opacity).toList ++
  (s.fontSize.map .fontSize).toList ++ (s.metadata.map .metadata).toList ++
  (s.description.map .description).toList ++ (s.border.map .border).toList ++
  (s.borderStyle.map .borderStyle).toList ++ (s.strokeWidth.map .strokeWidth).toList ++
  (s.fontFamily.map .fontFamily).toList ++ (s.fontStyle.map .fontStyle).toList ++
  (s.shadow.map .shadow).toList ++ (s.zIndex.map .zIndex).toList ++
  (s.rotation.map .rotation).toList ++
  (s.position.map fun p => .position p.1 p.2).toList ++
  if s.icons.isEmpty then [] else [.icons s.icons]

end ElementStyle

structure RelationshipStyle where
  tag : String
  color : Option String
  opacity : Option UInt8
  thickness : Option UInt32
  lineStyle : Option LineStyle
  fontSize : Option UInt32
  fontColor : Option String
  fontFamily : Option String
  fontStyle : Option String
  routing : Option Routing
  position : Option UInt32
  startTerminator : Option Terminator
  endTerminator : Option Terminator
deriving DecidableEq

inductive RelationshipStyle.Attribute
  | color (color : String)
  | opacity (percent : UInt8)
  | thickness (pixels : UInt32)
  | lineStyle (style : LineStyle)
  | fontSize (pixels : UInt32)
  | fontColor (color : String)
  | fontFamily (name : String)
  | fontStyle (name : String)
  | routing (routing : Routing)
  | position (percent : UInt32)
  | startTerminator (terminator : Terminator)
  | endTerminator (terminator : Terminator)
deriving DecidableEq

namespace RelationshipStyle

def create (tag : String) : RelationshipStyle :=
  { tag
    color := none
    opacity := none
    thickness := none
    lineStyle := none
    fontSize := none
    fontColor := none
    fontFamily := none
    fontStyle := none
    routing := none
    position := none
    startTerminator := none
    endTerminator := none }

def set (s : RelationshipStyle) : Attribute → RelationshipStyle
  | .color v => { s with color := some v }
  | .opacity v => { s with opacity := some v }
  | .thickness v => { s with thickness := some v }
  | .lineStyle v => { s with lineStyle := some v }
  | .fontSize v => { s with fontSize := some v }
  | .fontColor v => { s with fontColor := some v }
  | .fontFamily v => { s with fontFamily := some v }
  | .fontStyle v => { s with fontStyle := some v }
  | .routing v => { s with routing := some v }
  | .position v => { s with position := some v }
  | .startTerminator v => { s with startTerminator := some v }
  | .endTerminator v => { s with endTerminator := some v }

def attributes (s : RelationshipStyle) : List Attribute :=
  (s.color.map .color).toList ++ (s.opacity.map .opacity).toList ++
  (s.thickness.map .thickness).toList ++ (s.lineStyle.map .lineStyle).toList ++
  (s.fontSize.map .fontSize).toList ++ (s.fontColor.map .fontColor).toList ++
  (s.fontFamily.map .fontFamily).toList ++ (s.fontStyle.map .fontStyle).toList ++
  (s.routing.map .routing).toList ++ (s.position.map .position).toList ++
  (s.startTerminator.map .startTerminator).toList ++
  (s.endTerminator.map .endTerminator).toList

end RelationshipStyle

structure Styles where
  elements : List ElementStyle
  relationships : List RelationshipStyle
deriving DecidableEq

namespace Styles

def empty : Styles := ⟨[], []⟩

instance : Inhabited Styles := ⟨empty⟩

def isEmpty (s : Styles) : Bool := s.elements.isEmpty && s.relationships.isEmpty

def addElementStyle (s : Styles) (style : ElementStyle) : Styles :=
  { s with elements := s.elements ++ [style] }

def addRelationshipStyle (s : Styles) (style : RelationshipStyle) : Styles :=
  { s with relationships := s.relationships ++ [style] }

def append (s : Styles) (more : Styles) : Styles :=
  ⟨s.elements ++ more.elements, s.relationships ++ more.relationships⟩

end Styles

end C4
