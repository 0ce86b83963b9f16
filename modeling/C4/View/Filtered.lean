import C4.View.Basic

/-!
# Filtered views

A filtered view names another view and the criteria by which things are taken out of it. Of
all references it is the only one that may lead nowhere.
-/
namespace C4

inductive FilterMode
  | including
  | excluding
deriving DecidableEq

def FilterMode.name : FilterMode → String
  | .including => "Include"
  | .excluding => "Exclude"

inductive FilterType
  | tag
  | name
  | type
  | relation
deriving DecidableEq

def FilterType.label : FilterType → String
  | .tag => "Tag"
  | .name => "Name"
  | .type => "Type"
  | .relation => "Relation"

structure FilterCriterion where
  mode : FilterMode
  type : FilterType
  value : String
deriving DecidableEq

structure FilteredView where
  base : ViewId
  header : ViewHeader
  title : Option String
  filters : List FilterCriterion
deriving DecidableEq

inductive FilteredView.Setting
  | header (setting : ViewHeader.Setting)
  | title (text : String)
  | filter (criterion : FilterCriterion)
deriving DecidableEq

def FilteredView.set (v : FilteredView) : FilteredView.Setting → FilteredView
  | .header setting => { v with header := v.header.set setting }
  | .title text => { v with title := some text }
  | .filter criterion => { v with filters := v.filters ++ [criterion] }

end C4
