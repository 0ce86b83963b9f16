import C4.Dsl.View
import C4.Outline.Element

/-!
# Outlines of views

Outlines of the six kinds of view. The steps of a dynamic view come in segments, which are what
the rounds of the loop over them draw.
-/
namespace C4

/-- A part of the sequence: one step, or the steps of one stretch. -/
inductive Segment
  | single (step : DynamicStep)
  | together (steps : List DynamicStep)
deriving DecidableEq

namespace DynamicView

def segmentsFrom (steps : List DynamicStep) (stretches : List Stretch) :
    Nat → Nat → List Segment
  | 0, _ => []
  | limit + 1, index =>
    match steps[index]? with
    | none => []
    | some step =>
      match stretches.find? (·.start = index) with
      | none => .single step :: segmentsFrom steps stretches limit (index + 1)
      | some s =>
        .together ((steps.drop s.start).take (s.stop - s.start)) ::
          segmentsFrom steps stretches limit s.stop

def segments (v : DynamicView) : List Segment :=
  segmentsFrom v.steps v.parallel v.steps.length 0

end DynamicView

namespace Dsl

def autoLayoutLine (subject : Subject) (header : ViewHeader) : List Item :=
  if header.autoLayout then [.line subject "autoLayout"] else []

def quotedLine (subject : Subject) (keyword : String) (text : Option String) : List Item :=
  match text with
  | none => []
  | some t => [.line subject (keyword ++ " " ++ quote t)]

def keyAndDescription (subject : Subject) (header : ViewHeader) : List Item :=
  quotedLine subject "key" header.key ++ quotedLine subject "description" header.description

def includeItems (subject : Subject) (token : Except RenderError String) : List Item :=
  withToken token fun t => [.line subject ("include " ++ t)]

def flagLines (subject : Subject) (i : Inclusions) : List Item :=
  if i.everything then [.line subject "include *"]
  else
    (if i.people then [.line subject "include element.type==Person"] else []) ++
      if i.softwareSystems then [.line subject "include element.type==SoftwareSystem"] else []

def inclusionItems (m : Model) (subject : Subject) (i : Inclusions) : List Item :=
  flagLines subject i ++
    i.elements.flatMap (fun id => includeItems subject (m.token id)) ++
    i.expressions.flatMap fun e => includeItems subject (expressionText m e)

def staticViewItems (m : Model) (id : ViewId) (scope : ElementId) (header : ViewHeader)
    (inclusions : Inclusions) : List Item :=
  let subject := viewSubject id header
  withToken (m.token scope) fun scope =>
    [.block subject (viewHeaderLine id scope header)
      (inclusionItems m subject inclusions ++ autoLayoutLine subject header)]

def stepItems (m : Model) (subject : Subject) (step : DynamicStep) : List Item :=
  withToken (arrow m step.source step.target) fun ends =>
    [.line subject (ends ++ arguments [step.description, step.technology])]

def segmentItems (m : Model) (subject : Subject) : Segment → List Item
  | .single step => stepItems m subject step
  | .together steps =>
    [.block subject "" (steps.map fun step => .block subject "" (stepItems m subject step))]

def dynamicViewItems (m : Model) (id : ViewId) (v : DynamicView) : List Item :=
  let subject := viewSubject id v.header
  let scope := match v.scope with
    | none => .ok "*"
    | some scope => m.token scope
  withToken scope fun scope =>
    [.block subject (viewHeaderLine id scope v.header)
      (v.segments.flatMap (segmentItems m subject) ++ autoLayoutLine subject v.header)]

def deploymentViewItems (m : Model) (id : ViewId) (v : DeploymentView) : List Item :=
  let subject := viewSubject id v.header
  let scope := match v.scope with
    | none => []
    | some system =>
      withToken (m.token system) fun token => [.line subject ("softwareSystem " ++ token)]
  [.block subject id.keyword
    (scope ++
      .line subject ("environment " ++ quote v.environment.name) ::
      (keyAndDescription subject v.header ++ autoLayoutLine subject v.header ++
        (shownElements m v).flatMap (fun id => includeItems subject (m.token id)) ++
        (shownRelationships m v).flatMap
          fun id => includeItems subject (includedRelationship m id)))]

def filterLine (subject : Subject) (f : FilterCriterion) : Item :=
  .line subject (f.mode.name ++ " " ++ f.type.label ++ " " ++ quote f.value)

def filteredViewItems (vs : Views) (id : ViewId) (v : FilteredView) : List Item :=
  let subject := viewSubject id v.header
  let base := vs.keyOf? v.base
  (if base.isNone then
    [.note ⟨.debug, "Base view has no key, omitting baseView", [("view", subject.name)]⟩]
  else []) ++
  [.block subject id.keyword
    (quotedLine subject "baseView" base ++ quotedLine subject "title" v.title ++
      keyAndDescription subject v.header ++ v.filters.map (filterLine subject) ++
      autoLayoutLine subject v.header)]

def viewItems (m : Model) (vs : Views) (id : ViewId) : List Item :=
  let items : Option (List Item) := match id with
    | .systemContext index =>
      vs.systemContext[index]?.map fun v => staticViewItems m id v.scope v.header v.inclusions
    | .container index =>
      vs.container[index]?.map fun v => staticViewItems m id v.scope v.header v.inclusions
    | .component index =>
      vs.component[index]?.map fun v => staticViewItems m id v.scope v.header v.inclusions
    | .dynamic index => vs.dynamic[index]?.map (dynamicViewItems m id)
    | .deployment index => vs.deployment[index]?.map (deploymentViewItems m id)
    | .filtered index => vs.filtered[index]?.map (filteredViewItems vs id)
  items.getD [.dangling (.unknownView id)]

end Dsl

end C4
