import C4.Log
import C4.Model.Tag
import C4.Style.Basic

/-!
# Themes

A theme is a named collection of styles. Applying it adds its styles after those that are
already there.
-/
namespace C4

structure Theme where
  name : Option String
  description : Option String
  styles : Styles
deriving DecidableEq

namespace Theme

def apply (t : Theme) (s : Styles) : Styles := s.append t.styles

def record (t : Theme) : Record :=
  { level := .debug
    message := "Applying theme"
    fields :=
      [("theme", t.name.getD "unnamed"), ("elements", toString t.styles.elements.length),
        ("relationships", toString t.styles.relationships.length)] }

def standard : Theme :=
  let element (tag : String) (attributes : List ElementStyle.Attribute) :=
    attributes.foldl ElementStyle.set (.create tag)
  { name := some "C4"
    description := some "Standard C4 model colours"
    styles :=
      { elements :=
          [element Tag.person [.shape .person, .background "#08427b", .color "#ffffff"],
            element Tag.softwareSystem [.background "#1168bd", .color "#ffffff"],
            element Tag.container [.background "#438dd5", .color "#ffffff"],
            element Tag.component [.background "#85bbf0", .color "#000000"],
            element Tag.database [.shape .database]]
        relationships :=
          [(RelationshipStyle.create Tag.asynchronous).set (.lineStyle .dashed)] } }

end Theme

end C4
