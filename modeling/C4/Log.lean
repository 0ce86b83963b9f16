/-!
# Log records

Building and rendering leave a trail of records. A record is data: a severity, a fixed
message and named values. Whoever listens picks a threshold and writes the text.
-/
namespace C4

inductive Level
  | error
  | warn
  | info
  | debug
  | trace
deriving DecidableEq

namespace Level

/-- Grows as the records become more frequent and less important. -/
def rank : Level → Nat
  | error => 1
  | warn => 2
  | info => 3
  | debug => 4
  | trace => 5

def label : Level → String
  | error => "ERROR"
  | warn => "WARN"
  | info => "INFO"
  | debug => "DEBUG"
  | trace => "TRACE"

end Level

abbrev Threshold := Option Level

def Threshold.admits (t : Threshold) (l : Level) : Bool :=
  match t with
  | none => false
  | some limit => l.rank ≤ limit.rank

def Threshold.ofName? (name : String) : Option Threshold :=
  match name.toLower with
  | "off" => some none
  | "error" => some (some .error)
  | "warn" => some (some .warn)
  | "info" => some (some .info)
  | "debug" => some (some .debug)
  | "trace" => some (some .trace)
  | _ => none

structure Record where
  level : Level
  message : String
  fields : List (String × String)
deriving DecidableEq

def Record.text (r : Record) : String :=
  r.fields.foldl (fun line field => line ++ " " ++ field.1 ++ "=" ++ field.2)
    (r.level.label ++ " " ++ r.message)

end C4
