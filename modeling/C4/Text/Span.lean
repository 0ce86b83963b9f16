/-!
# Spans

A part of a text, measured in the bytes that encode it.
-/
namespace C4

/-- The bytes from `start` up to but not including `stop`. -/
structure Span where
  start : Nat
  stop : Nat
deriving DecidableEq

end C4
