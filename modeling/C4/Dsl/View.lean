import C4.Dsl.Element
import C4.Model.Topology
import C4.View.Collection

/-!
# Views

Scripts of the six kinds of view. A view is named by its key, or else by its keyword. What a
deployment view includes is worked out here, from the model as it is now.
-/
namespace C4.Dsl

def viewSubject (id : ViewId) (header : ViewHeader) : Subject :=
  .view id (header.key.getD id.keyword)

def viewHeaderLine (id : ViewId) (scope : String) (header : ViewHeader) : String :=
  id.keyword ++ " " ++ scope ++ arguments [header.key, header.description]

def autoLayoutScript (subject : Subject) (header : ViewHeader) : Script :=
  if header.autoLayout then Script.line subject "autoLayout" else []

def quotedScript (subject : Subject) (keyword : String) (text : Option String) : Script :=
  match text with
  | none => []
  | some t => Script.line subject (keyword ++ " " ++ quote t)

def keyScript (subject : Subject) (header : ViewHeader) : Script :=
  quotedScript subject "key" header.key ++ quotedScript subject "description" header.description

def includeScript (subject : Subject) (token : Except RenderError String) : Script :=
  Script.withToken token fun t => Script.line subject ("include " ++ t)

def optionalToken (m : Model) : Option ElementId → Except RenderError (Option String)
  | none => .ok none
  | some id => (m.token id).map some

/-- All three ends are looked up, also those that the subject makes superfluous. -/
def expressionText (m : Model) (e : IncludeExpression) : Except RenderError String := do
  let subject ← optionalToken m e.subject
  let source ← optionalToken m e.source
  let target ← optionalToken m e.target
  return match subject, source, target with
    | some subject, _, _ =>
      (if e.afferent then "->" else "") ++ subject ++ (if e.efferent then "->" else "")
    | none, some source, some target => source ++ " -> " ++ target
    | none, some source, none => source ++ "->"
    | none, none, some target => "->" ++ target
    | none, none, none => "*"

def flagScript (subject : Subject) (i : Inclusions) : Script :=
  if i.everything then Script.line subject "include *"
  else
    (if i.people then Script.line subject "include element.type==Person" else []) ++
      if i.softwareSystems then Script.line subject "include element.type==SoftwareSystem" else []

def inclusionScript (m : Model) (subject : Subject) (i : Inclusions) : Script :=
  flagScript subject i ++
    i.elements.flatMap (fun id => includeScript subject (m.token id)) ++
    i.expressions.flatMap fun e => includeScript subject (expressionText m e)

def staticViewScript (m : Model) (id : ViewId) (scope : ElementId) (header : ViewHeader)
    (inclusions : Inclusions) : Script :=
  let subject := viewSubject id header
  Script.withToken (m.token scope) fun scope =>
    Script.block subject (viewHeaderLine id scope header)
      (inclusionScript m subject inclusions ++ autoLayoutScript subject header)

def stepScript (m : Model) (subject : Subject) (step : DynamicStep) : Script :=
  Script.withToken (arrow m step.source step.target) fun ends =>
    Script.line subject (ends ++ arguments [step.description, step.technology])

/-- The loop over the steps from an index on, for so many rounds at most. A stretch that starts at
the index is one block, in which each of its steps has a block of its own, and the loop goes on
where the stretch stops. -/
def stepLoop (m : Model) (subject : Subject) (steps : List DynamicStep)
    (stretches : List Stretch) : Nat → Nat → Script
  | 0, _ => []
  | limit + 1, index =>
    match steps[index]? with
    | none => []
    | some step =>
      match stretches.find? (·.start = index) with
      | none => stepScript m subject step ++ stepLoop m subject steps stretches limit (index + 1)
      | some s =>
        Script.opening subject "" ++
          ((steps.drop s.start).take (s.stop - s.start)).flatMap (fun step =>
            Script.opening subject "" ++ stepScript m subject step ++ Script.closing subject) ++
          Script.closing subject ++ stepLoop m subject steps stretches limit s.stop

/-- Every round passes at least one step. -/
def stepsScript (m : Model) (subject : Subject) (v : DynamicView) : Script :=
  stepLoop m subject v.steps v.parallel v.steps.length 0

def dynamicViewScript (m : Model) (id : ViewId) (v : DynamicView) : Script :=
  let subject := viewSubject id v.header
  let scope := match v.scope with
    | none => .ok "*"
    | some scope => m.token scope
  Script.withToken scope fun scope =>
    Script.block subject (viewHeaderLine id scope v.header)
      (stepsScript m subject v ++ autoLayoutScript subject v.header)

def completed {α : Type} [DecidableEq α] (listed available : List α) : List α :=
  available.foldl (fun shown a => if shown.contains a then shown else shown ++ [a]) listed

def shownElements (m : Model) (v : DeploymentView) : List ElementId :=
  if v.allDeploymentNodes then
    completed v.elements ((m.deploymentNodesIn v.environment).map .deploymentNode)
  else v.elements

def shownRelationships (m : Model) (v : DeploymentView) : List RelationshipId :=
  if v.allRelationships then completed v.relationships m.relationshipIds else v.relationships

def includedRelationship (m : Model) (id : RelationshipId) : Except RenderError String :=
  match m.relationship? id with
  | none => .error (.unknownRelationship id)
  | some r => arrow m r.source r.target

def deploymentViewScript (m : Model) (id : ViewId) (v : DeploymentView) : Script :=
  let subject := viewSubject id v.header
  let scope := match v.scope with
    | none => []
    | some system =>
      Script.withToken (m.token system) fun token =>
        Script.line subject ("softwareSystem " ++ token)
  Script.block subject id.keyword
    (scope ++ Script.line subject ("environment " ++ quote v.environment.name) ++
      keyScript subject v.header ++ autoLayoutScript subject v.header ++
      (shownElements m v).flatMap (fun id => includeScript subject (m.token id)) ++
      (shownRelationships m v).flatMap
        fun id => includeScript subject (includedRelationship m id))

def filterScript (subject : Subject) (f : FilterCriterion) : Script :=
  Script.line subject (f.mode.name ++ " " ++ f.type.label ++ " " ++ quote f.value)

/-- A base without a key, or one that does not exist, is left out. -/
def filteredViewScript (vs : Views) (id : ViewId) (v : FilteredView) : Script :=
  let subject := viewSubject id v.header
  let base := vs.keyOf? v.base
  (if base.isNone then
    Script.note ⟨.debug, "Base view has no key, omitting baseView", [("view", subject.name)]⟩
  else []) ++
  Script.block subject id.keyword
    (quotedScript subject "baseView" base ++ quotedScript subject "title" v.title ++
      keyScript subject v.header ++ v.filters.flatMap (filterScript subject) ++
      autoLayoutScript subject v.header)

def viewScript (m : Model) (vs : Views) (id : ViewId) : Script :=
  let script : Option Script := match id with
    | .systemContext index =>
      vs.systemContext[index]?.map fun v => staticViewScript m id v.scope v.header v.inclusions
    | .container index =>
      vs.container[index]?.map fun v => staticViewScript m id v.scope v.header v.inclusions
    | .component index =>
      vs.component[index]?.map fun v => staticViewScript m id v.scope v.header v.inclusions
    | .dynamic index => vs.dynamic[index]?.map (dynamicViewScript m id)
    | .deployment index => vs.deployment[index]?.map (deploymentViewScript m id)
    | .filtered index => vs.filtered[index]?.map (filteredViewScript vs id)
  script.getD (Script.stop (.unknownView id))

end C4.Dsl
