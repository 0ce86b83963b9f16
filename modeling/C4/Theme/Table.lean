import C4.Theme.Basic
import C4.Toml.Table

/-!
# Themes as tables

The table that says what a theme says: its name and its description if there are any, and one
table for each style with the attributes that are set.
-/
namespace C4.Theme

open Toml

def nowhere : Span := ⟨0, 0⟩

def entry (name : String) (value : Value) : Key × Value := (⟨name, nowhere⟩, value)

def textEntry (name text : String) : Key × Value := entry name (.string nowhere text)

def numberEntry (name : String) (n : Int) : Key × Value := entry name (.integer nowhere n)

def truthEntry (name : String) (b : Bool) : Key × Value := entry name (.boolean nowhere b)

def elementEntry : ElementStyle.Attribute → Key × Value
  | .shape shape => textEntry "shape" shape.name
  | .icon source => textEntry "icon" source
  | .width pixels => numberEntry "width" pixels.toNat
  | .height pixels => numberEntry "height" pixels.toNat
  | .background color => textEntry "background" color
  | .color color => textEntry "color" color
  | .stroke color => textEntry "stroke" color
  | .opacity percent => numberEntry "opacity" percent.toNat
  | .fontSize pixels => numberEntry "font_size" pixels.toNat
  | .metadata shown => truthEntry "metadata" shown
  | .description shown => truthEntry "description" shown
  | .border pixels => numberEntry "border" pixels.toNat
  | .borderStyle style => textEntry "border_style" style.name
  | .strokeWidth pixels => numberEntry "stroke_width" pixels.toNat
  | .fontFamily name => textEntry "font_family" name
  | .fontStyle name => textEntry "font_style" name
  | .shadow shown => truthEntry "shadow" shown
  | .zIndex level => numberEntry "z_index" level.toInt
  | .rotation degrees => numberEntry "rotation" degrees.toInt
  | .position x y =>
    entry "position" (.array nowhere [.integer nowhere x.toInt, .integer nowhere y.toInt])
  | .icons sources => entry "icons" (.array nowhere (sources.map (.string nowhere)))

def relationshipEntry : RelationshipStyle.Attribute → Key × Value
  | .color color => textEntry "color" color
  | .opacity percent => numberEntry "opacity" percent.toNat
  | .thickness pixels => numberEntry "thickness" pixels.toNat
  | .lineStyle style => textEntry "line_style" style.name
  | .fontSize pixels => numberEntry "font_size" pixels.toNat
  | .fontColor color => textEntry "font_color" color
  | .fontFamily name => textEntry "font_family" name
  | .fontStyle name => textEntry "font_style" name
  | .routing routing => textEntry "routing" routing.name
  | .position percent => numberEntry "position" percent.toNat
  | .startTerminator terminator => textEntry "start_terminator" terminator.name
  | .endTerminator terminator => textEntry "end_terminator" terminator.name

def elementEntries (s : ElementStyle) : List (Key × Value) :=
  textEntry "tag" s.tag :: s.attributes.map elementEntry

def relationshipEntries (s : RelationshipStyle) : List (Key × Value) :=
  textEntry "tag" s.tag :: s.attributes.map relationshipEntry

def aboutEntries (t : Theme) : List (Key × Value) :=
  (t.name.map (textEntry "name")).toList ++ (t.description.map (textEntry "description")).toList

def tableOf (entries : List (Key × Value)) : Value := .table (some nowhere) .header entries

def listing (name : String) (styles : List (List (Key × Value))) : List (Key × Value) :=
  if styles.isEmpty then [] else [entry name (.tables (styles.map tableOf))]

def toTable (t : Theme) : Table :=
  { span := none
    form := .header
    entries :=
      entry "metadata" (tableOf t.aboutEntries) ::
        (listing "element" (t.styles.elements.map elementEntries) ++
          listing "relationship" (t.styles.relationships.map relationshipEntries)) }

end C4.Theme
