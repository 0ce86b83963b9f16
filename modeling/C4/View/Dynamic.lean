import C4.View.Basic

/-!
# Dynamic views

A dynamic view is a sequence of interactions. Some stretches of it may run in parallel: such
a stretch is opened, collects the steps that follow, and is closed again, at the latest when
the next one is opened. A stretch that collected nothing leaves no trace.
-/
namespace C4

structure DynamicStep where
  source : ElementId
  target : ElementId
  description : Option String
  technology : Option String
deriving DecidableEq

/-- The steps with an index from `start` up to but not including `stop`. -/
structure Stretch where
  start : Nat
  stop : Nat
deriving DecidableEq

structure DynamicView where
  scope : Option ElementId
  header : ViewHeader
  steps : List DynamicStep
  closed : List Stretch
  opened : Option Nat
deriving DecidableEq

inductive DynamicView.Setting
  | header (setting : ViewHeader.Setting)
  | step (source target : ElementId) (description : String) (technology : Option String)
  | startParallel
  | endParallel
deriving DecidableEq

namespace DynamicView

def create (scope : Option ElementId) (header : ViewHeader) : DynamicView :=
  { scope, header, steps := [], closed := [], opened := none }

def parallel (v : DynamicView) : List Stretch :=
  match v.opened with
  | none => v.closed
  | some start =>
    if start < v.steps.length then v.closed ++ [⟨start, v.steps.length⟩] else v.closed

def endParallel (v : DynamicView) : DynamicView :=
  { v with closed := v.parallel, opened := none }

def startParallel (v : DynamicView) : DynamicView :=
  { v.endParallel with opened := some v.steps.length }

def addStep (v : DynamicView) (step : DynamicStep) : DynamicView :=
  { v with steps := v.steps ++ [step] }

def set (v : DynamicView) : DynamicView.Setting → DynamicView
  | .header setting => { v with header := v.header.set setting }
  | .step source target description technology =>
    v.addStep ⟨source, target, provided description, technology⟩
  | .startParallel => v.startParallel
  | .endParallel => v.endParallel

end DynamicView

end C4
