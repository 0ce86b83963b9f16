import C4.Theme.Basic
import C4.Theme.Fields
import C4.Toml.Document

/-!
# Theme documents

A theme is written as a table with a name and a description under `metadata` and one table
for each style under `element` or `relationship`.
-/
namespace C4.Theme

open Toml

def shapes : Choice Shape := ⟨Shape.all, Shape.name⟩

def borderStyles : Choice BorderStyle := ⟨BorderStyle.all, BorderStyle.name⟩

def lineStyles : Choice LineStyle := ⟨LineStyle.all, LineStyle.name⟩

def routings : Choice Routing := ⟨Routing.all, Routing.name⟩

def terminators : Choice Terminator := ⟨Terminator.all, Terminator.name⟩

def elementField {α : Type} (name : String) (decode : Decoder α)
    (put : α → ElementStyle.Attribute) : Field ElementStyle :=
  field name decode fun a s => s.set (put a)

def elementStyle : Schema ElementStyle :=
  { name := "ElementStyle"
    fields :=
      [field "tag" text fun tag s => { s with tag },
        elementField "shape" shapes.decode .shape,
        elementField "icon" text .icon,
        elementField "width" word .width,
        elementField "height" word .height,
        elementField "background" text .background,
        elementField "color" text .color,
        elementField "stroke" text .stroke,
        elementField "opacity" byte .opacity,
        elementField "font_size" word .fontSize,
        elementField "metadata" truth .metadata,
        elementField "description" truth .description,
        elementField "border" word .border,
        elementField "border_style" borderStyles.decode .borderStyle,
        elementField "stroke_width" word .strokeWidth,
        elementField "font_family" text .fontFamily,
        elementField "font_style" text .fontStyle,
        elementField "shadow" truth .shadow,
        elementField "z_index" signedWord .zIndex,
        elementField "rotation" signedWord .rotation,
        elementField "position" (pairOf signedWord) fun p => .position p.1 p.2,
        elementField "icons" (listOf text) .icons]
    blank := .create ""
    closed := true
    mayEndEarly := true }

def relationshipField {α : Type} (name : String) (decode : Decoder α)
    (put : α → RelationshipStyle.Attribute) : Field RelationshipStyle :=
  field name decode fun a s => s.set (put a)

def relationshipStyle : Schema RelationshipStyle :=
  { name := "RelationshipStyle"
    fields :=
      [field "tag" text fun tag s => { s with tag },
        relationshipField "color" text .color,
        relationshipField "opacity" byte .opacity,
        relationshipField "thickness" word .thickness,
        relationshipField "line_style" lineStyles.decode .lineStyle,
        relationshipField "font_size" word .fontSize,
        relationshipField "font_color" text .fontColor,
        relationshipField "font_family" text .fontFamily,
        relationshipField "font_style" text .fontStyle,
        relationshipField "routing" routings.decode .routing,
        relationshipField "position" word .position,
        relationshipField "start_terminator" terminators.decode .startTerminator,
        relationshipField "end_terminator" terminators.decode .endTerminator]
    blank := .create ""
    closed := true
    mayEndEarly := true }

def about : Schema (Option String × Option String) :=
  { name := "TomlMetadata"
    fields :=
      [field "name" text fun name m => (some name, m.2),
        field "description" text fun description m => (m.1, some description)]
    blank := (none, none)
    closed := false
    mayEndEarly := false }

def theme : Schema Theme :=
  { name := "Theme"
    fields :=
      [field "metadata" about.decode fun m t => { t with name := m.1, description := m.2 },
        field "element" (listOf elementStyle.decode)
          fun styles t => { t with styles := { t.styles with elements := styles } },
        field "relationship" (listOf relationshipStyle.decode)
          fun styles t => { t with styles := { t.styles with relationships := styles } }]
    blank := ⟨none, none, .empty⟩
    closed := true
    mayEndEarly := true }

def ofTable (t : Table) : Except Fault Theme := theme.ofEntries t.entries

end C4.Theme
