/-!
# Deployment environments

Four environments are well known; any other is known by its name alone. A custom
environment that bears the name of a well-known one is still a different environment.
-/
namespace C4

inductive Environment
  | development
  | test
  | staging
  | production
  | custom (name : String)
deriving DecidableEq

namespace Environment

instance : Inhabited Environment := ⟨development⟩

def ofName (name : String) : Environment :=
  match name.toLower with
  | "development" => development
  | "test" => test
  | "staging" => staging
  | "production" => production
  | _ => custom name

def name : Environment → String
  | development => "Development"
  | test => "Test"
  | staging => "Staging"
  | production => "Production"
  | custom name => name

end Environment

inductive Location
  | internal
  | external
deriving DecidableEq

instance : Inhabited Location := ⟨.internal⟩

end C4
