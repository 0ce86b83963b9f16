import C4.Model.Id
import C4.View.Basic

/-!
# What a line is about

Every piece of output belongs to one entity of the workspace. When the output can not be
written, or when the workspace refers to something that does not exist, the error says so.
-/
namespace C4.Dsl

inductive Subject
  | workspace (name : String)
  | model
  | views
  | styles
  | enterprise (name : String)
  | environment (name : String)
  | element (id : ElementId) (name : String)
  | healthCheck (name : String)
  | relationship (id : RelationshipId) (line : String)
  | view (id : ViewId) (name : String)
  | elementStyle (tag : String)
  | relationshipStyle (tag : String)
deriving DecidableEq

namespace Subject

def kind : Subject → String
  | workspace _ => "workspace"
  | model => "model"
  | views => "views"
  | styles => "styles"
  | enterprise _ => "enterprise"
  | environment _ => "deployment environment"
  | element id _ => id.kind
  | healthCheck _ => "health check"
  | relationship _ _ => "relationship"
  | view id _ => id.keyword
  | elementStyle _ => "element style"
  | relationshipStyle _ => "relationship style"

def name : Subject → String
  | workspace name => name
  | model => "model"
  | views => "views"
  | styles => "styles"
  | enterprise name => name
  | environment name => name
  | element _ name => name
  | healthCheck name => name
  | relationship _ line => line
  | view _ name => name
  | elementStyle tag => tag
  | relationshipStyle tag => tag

end Subject

inductive RenderError
  | refused (subject : Subject)
  | output (reason : String)
  | unknownElement (id : ElementId)
  | unknownRelationship (id : RelationshipId)
  | unknownView (id : ViewId)
deriving DecidableEq

def RenderError.message : RenderError → String
  | refused subject => "failed to write " ++ subject.kind ++ " '" ++ subject.name ++ "'"
  | output reason => "failed to write output: " ++ reason
  | unknownElement id => "unknown " ++ id.kind ++ " with index " ++ toString id.index
  | unknownRelationship id => "unknown relationship with index " ++ toString id.index
  | unknownView id => "unknown " ++ id.kind ++ " view with index " ++ toString id.index

end C4.Dsl
