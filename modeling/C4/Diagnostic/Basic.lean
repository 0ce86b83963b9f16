import C4.Text.Span

/-!
# Diagnostics

A message about a part of a text. There are two ways to show one: a short excerpt with the
part marked below, and a framed excerpt in colour.
-/
namespace C4

structure Diagnostic where
  source : String
  span : Span
  message : String
deriving DecidableEq

/-- A place in a text, both numbers counted from zero. The column counts characters. -/
structure Position where
  line : Nat
  column : Nat
deriving DecidableEq

def Position.text (p : Position) (between : String) : String :=
  toString (p.line + 1) ++ between ++ toString (p.column + 1)

def spaces (n : Nat) : String := String.ofList (List.replicate n ' ')

def gutter (line : Nat) : Nat := (toString (line + 1)).length

end C4
