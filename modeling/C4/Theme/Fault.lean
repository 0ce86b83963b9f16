import C4.Text.Escaped
import C4.Toml.Value

/-!
# What can be wrong with a theme

A document can be sound TOML and still not be a theme. A fault says which bytes are to blame
and what is the matter with them.
-/
namespace C4.Theme

inductive Found
  | integer (n : Int)
  | float (x : Number.Binary64)
  | boolean (b : Bool)
  | string (s : String)
  | sequence
  | map
deriving DecidableEq

def Found.ofValue : Toml.Value → Found
  | .string _ s => string s
  | .integer _ n => integer n
  | .float _ x => float x
  | .boolean _ b => boolean b
  | .moment _ _ => map
  | .array _ _ => sequence
  | .table _ _ _ => map
  | .tables _ => sequence

def Found.description : Found → String
  | integer n => "integer `" ++ toString n ++ "`"
  | float x => "floating point `" ++ x.text ++ "`"
  | boolean b => "boolean `" ++ toString b ++ "`"
  | string s => "string " ++ Text.inQuotes s
  | sequence => "sequence"
  | map => "map"

inductive Wanted
  | text
  | boolean
  | sequence
  /-- A natural number below `2 ^ bits`. -/
  | unsigned (bits : Nat)
  /-- An integer from `-2 ^ (bits - 1)` up to but not including `2 ^ (bits - 1)`. -/
  | signed (bits : Nat)
  | pair
  | record (name : String)
deriving DecidableEq

def Wanted.description : Wanted → String
  | .text => "a string"
  | .boolean => "a boolean"
  | .sequence => "a sequence"
  | .unsigned bits => "u" ++ toString bits
  | .signed bits => "i" ++ toString bits
  | .pair => "a tuple of size 2"
  | .record name => "struct " ++ name

inductive Cause
  | unknownField (name : String) (known : List String)
  | unknownVariant (name : String) (known : List String)
  | wrongType (found : Found) (wanted : Wanted)
  | outOfRange (n : Int) (wanted : Wanted)
  | tooShort (length : Nat) (wanted : Wanted)
  /-- Too few items for a record that needs all its fields. -/
  | missingItems (length : Nat) (wanted : Wanted) (needed : Nat)
  | noVariant
  | severalVariants
  | notAChoice
  | arrayNotEmpty
  | tableNotEmpty
  | notATable (found : String)
deriving DecidableEq

def inBackticks (s : String) : String := "`" ++ s ++ "`"

def expectation (known : List String) : String :=
  match known with
  | [] => "there are none"
  | [a] => "expected " ++ inBackticks a
  | [a, b] => "expected " ++ inBackticks a ++ " or " ++ inBackticks b
  | names => "expected one of " ++ String.intercalate ", " (names.map inBackticks)

def Cause.message : Cause → String
  | unknownField name known => "unknown field " ++ inBackticks name ++ ", " ++ expectation known
  | unknownVariant name known =>
    "unknown variant " ++ inBackticks name ++ ", " ++ expectation known
  | wrongType found wanted => "invalid type: " ++ found.description ++ ", expected " ++ wanted.description
  | outOfRange n wanted =>
    "invalid value: " ++ (Found.integer n).description ++ ", expected " ++ wanted.description
  | tooShort length wanted =>
    "invalid length " ++ toString length ++ ", expected " ++ wanted.description
  | missingItems length wanted needed =>
    "invalid length " ++ toString length ++ ", expected " ++ wanted.description ++ " with " ++
      toString needed ++ " elements"
  | noVariant => "wanted exactly 1 element, found 0 elements"
  | severalVariants => "wanted exactly 1 element, more than 1 element"
  | notAChoice => "wanted string or table"
  | arrayNotEmpty => "expected empty array"
  | tableNotEmpty => "expected empty table"
  | notATable found => "expected table, found " ++ found

structure Fault where
  span : Span
  cause : Cause
deriving DecidableEq

end C4.Theme
