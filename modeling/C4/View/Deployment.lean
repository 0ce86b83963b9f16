import C4.Model.Environment
import C4.View.Basic

/-!
# Deployment views

A deployment view shows one environment. What it includes is settled when it is rendered:
the flags are kept, not the elements they stand for.
-/
namespace C4

structure DeploymentView where
  scope : Option SoftwareSystemId
  environment : Environment
  header : ViewHeader
  elements : List ElementId
  relationships : List RelationshipId
  allDeploymentNodes : Bool
  allRelationships : Bool
deriving DecidableEq

inductive DeploymentView.Setting
  | header (setting : ViewHeader.Setting)
  | environment (environment : Environment)
  | element (id : ElementId)
  | relationship (id : RelationshipId)
  | allDeploymentNodes
  | allRelationships
deriving DecidableEq

namespace DeploymentView

def create (scope : Option SoftwareSystemId) (environment : Environment)
    (header : ViewHeader) : DeploymentView :=
  { scope, environment, header
    elements := []
    relationships := []
    allDeploymentNodes := false
    allRelationships := false }

def set (v : DeploymentView) : DeploymentView.Setting → DeploymentView
  | .header setting => { v with header := v.header.set setting }
  | .environment environment => { v with environment := environment }
  | .element id => { v with elements := v.elements ++ [id] }
  | .relationship id => { v with relationships := v.relationships ++ [id] }
  | .allDeploymentNodes => { v with allDeploymentNodes := true }
  | .allRelationships => { v with allRelationships := true }

end DeploymentView

end C4
