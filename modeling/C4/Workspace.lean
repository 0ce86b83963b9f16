import C4.Model.Topology
import C4.View.Collection

/-!
# Workspaces

A workspace is a model together with the views over it. It has a name and a description of
its own, or extends another workspace.
-/
namespace C4

structure Workspace where
  name : Option String
  description : Option String
  base : Option String
  model : Model
  views : Views
deriving DecidableEq

namespace Workspace

def empty : Workspace := ⟨none, none, none, .empty, .empty⟩

instance : Inhabited Workspace := ⟨empty⟩

def create (name description : String) : Workspace :=
  { empty with name := provided name, description := provided description }

def extending (path : String) : Workspace := { empty with base := some path }

end Workspace

end C4
