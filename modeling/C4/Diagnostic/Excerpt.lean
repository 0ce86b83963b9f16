import C4.Diagnostic.Basic

/-!
# Excerpts

The line in which a diagnostic begins, with a mark below every byte of it.
-/
namespace C4.Diagnostic.Excerpt

def before : List Char → Nat → List Char
  | [], _ => []
  | c :: rest, n => if n = 0 then [] else c :: before rest (n - c.utf8Size)

def position (source : List Char) (byte : Nat) : Position :=
  let passed := before source byte
  ⟨passed.count '\n', (passed.reverse.takeWhile (· ≠ '\n')).length⟩

def lines (source : String) : List String := source.splitOn "\n"

/-- Marks that would lie beyond the bytes of the line are left out, but one is always there. -/
def marks (span : Span) (column : Nat) (line : String) : String :=
  let count := min (span.stop - span.start) (line.utf8ByteSize - column)
  String.ofList (List.replicate (max 1 count) '^')

def start (d : Diagnostic) : Position := position d.source.toList d.span.start

def place (d : Diagnostic) : String :=
  "TOML parse error at line " ++ (start d).text ", column "

end Diagnostic.Excerpt

open Diagnostic.Excerpt

def Diagnostic.excerpt (d : Diagnostic) : String :=
  let p := start d
  let line := ((lines d.source)[p.line]?).getD ""
  let margin := spaces (gutter p.line + 1) ++ "|"
  place d ++ "\n" ++
  margin ++ "\n" ++
  toString (p.line + 1) ++ " | " ++ line ++ "\n" ++
  margin ++ spaces (p.column + 1) ++ marks d.span p.column line ++ "\n" ++
  d.message ++ "\n"

end C4
