import C4.Number.Binary64
import C4.Text.Span

/-!
# TOML values

A TOML document is a table of values. Keys and values know which bytes of the text they were
read from; tables that came into being on the way to another one have no place of their own.
-/
namespace C4.Toml

structure Key where
  text : String
  span : Span
deriving DecidableEq

/-- How a table came into being, which decides what may still be added to it. -/
inductive Form
  /-- Written between braces; it is complete. -/
  | inline
  /-- Opened by a header of its own. -/
  | header
  /-- Passed through by the header of a table inside it. -/
  | implied
  /-- Passed through by a dotted key. -/
  | dotted
deriving DecidableEq

inductive Value
  | string (span : Span) (text : String)
  | integer (span : Span) (value : Int)
  | float (span : Span) (value : Number.Binary64)
  | boolean (span : Span) (value : Bool)
  /-- A date, a time or both, as written. -/
  | moment (span : Span) (text : String)
  | array (span : Span) (items : List Value)
  | table (span : Option Span) (form : Form) (entries : List (Key × Value))
  /-- The tables that were opened under one header in double brackets. -/
  | tables (items : List Value)

namespace Value

mutual

/-- The tables of one header extend from the first of them to the last. -/
def span? : Value → Option Span
  | string span _ => some span
  | integer span _ => some span
  | float span _ => some span
  | boolean span _ => some span
  | moment span _ => some span
  | array span _ => some span
  | table span _ _ => span
  | tables items => hull items

def hull : List Value → Option Span
  | [] => none
  | [item] => item.span?
  | item :: rest =>
    match item.span?, hull rest with
    | some first, some last => some ⟨first.start, last.stop⟩
    | _, _ => none

end

def typeName : Value → String
  | string _ _ => "string"
  | integer _ _ => "integer"
  | float _ _ => "float"
  | boolean _ _ => "boolean"
  | moment _ _ => "datetime"
  | array _ _ => "array"
  | table _ _ _ => "table"
  | tables _ => "array of tables"

end Value

end C4.Toml
