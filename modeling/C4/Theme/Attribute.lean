import C4.Theme.Fault

/-!
# Reading attributes

Readers for the values that attributes of a style can have. Each is told which bytes to blame
if the value is not what it should be.
-/
namespace C4.Theme

open Toml

abbrev Decoder (α : Type) := Span → Value → Except Fault α

def placeOf (outer : Span) (v : Value) : Span := v.span?.getD outer

def blame {α : Type} (span : Span) (cause : Cause) : Except Fault α := .error ⟨span, cause⟩

def mismatch {α : Type} (span : Span) (v : Value) (wanted : Wanted) : Except Fault α :=
  blame span (.wrongType (.ofValue v) wanted)

def items? : Value → Option (List Value)
  | .array _ items => some items
  | .tables items => some items
  | _ => none

def text : Decoder String
  | _, .string _ s => .ok s
  | span, v => mismatch span v .text

def truth : Decoder Bool
  | _, .boolean _ b => .ok b
  | span, v => mismatch span v .boolean

/-- An integer between two bounds, the upper one excluded. -/
def integerIn (wanted : Wanted) (low high : Int) : Decoder Int
  | span, .integer _ n => if low ≤ n ∧ n < high then .ok n else blame span (.outOfRange n wanted)
  | span, v => mismatch span v wanted

def unsigned (bits : Nat) : Decoder Int := integerIn (.unsigned bits) 0 (Int.pow 2 bits)

def signed (bits : Nat) : Decoder Int :=
  integerIn (.signed bits) (-Int.pow 2 (bits - 1)) (Int.pow 2 (bits - 1))

def byte : Decoder UInt8 := fun span v => return .ofInt (← unsigned 8 span v)

def word : Decoder UInt32 := fun span v => return .ofInt (← unsigned 32 span v)

def signedWord : Decoder Int32 := fun span v => return .ofInt (← signed 32 span v)

def listOf {α : Type} (item : Decoder α) : Decoder (List α) := fun span v =>
  match items? v with
  | some items => items.mapM fun i => item (placeOf span i) i
  | none => mismatch span v .sequence

def pairOf {α : Type} (item : Decoder α) : Decoder (α × α) := fun span v => do
  match items? v with
  | none => mismatch span v .pair
  | some items =>
    match ← (items.take 2).mapM fun i => item (placeOf span i) i with
    | [a, b] => return (a, b)
    | few => blame span (.tooShort few.length .pair)

structure Choice (α : Type) where
  all : List α
  name : α → String

def Choice.named {α : Type} (c : Choice α) (span : Span) (name : String) : Except Fault α :=
  match c.all.find? fun a => c.name a = name with
  | some a => .ok a
  | none => blame span (.unknownVariant name (c.all.map c.name))

/-- What stands beside the name of a choice has to be empty. Items in brackets count as a table
that is not empty, and only tables with a header each as an array. -/
def nothing : Decoder Unit
  | _, .table _ _ [] => .ok ()
  | _, .array _ [] => .ok ()
  | _, .tables [] => .ok ()
  | span, .table _ _ _ => blame span .tableNotEmpty
  | span, .array _ _ => blame span .tableNotEmpty
  | span, .tables _ => blame span .arrayNotEmpty
  | span, v => blame span (.notATable v.typeName)

def Choice.decode {α : Type} (c : Choice α) : Decoder α
  | span, .string _ name => c.named span name
  | span, .table _ _ [] => blame span .noVariant
  | span, .table _ _ [(key, payload)] => do
    let a ← c.named key.span key.text
    nothing (placeOf span payload) payload
    return a
  | span, .table _ _ _ => blame span .severalVariants
  | span, _ => blame span .notAChoice

end C4.Theme
