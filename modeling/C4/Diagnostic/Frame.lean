import C4.Diagnostic.Basic
import C4.Text.Blank
import C4.Text.Width

/-!
# Framed excerpts

The line in which a diagnostic begins, in colour and in a frame. The part that is meant is
underlined, and a hook leads from its middle to the message. Numbers of the span are taken as
numbers of characters here.
-/
namespace C4.Diagnostic.Frame

def endsLine (c : Char) : Bool :=
  c = '\n' || c = '\r' || c = '\x0b' || c = '\x0c' || c = '\u0085' || c = '\u2028' || c = '\u2029'

def lines : List Char → List (List Char)
  | [] => []
  | '\r' :: '\n' :: rest => ['\r', '\n'] :: lines rest
  | c :: rest =>
    if endsLine c then [c] :: lines rest
    else
      match lines rest with
      | [] => [[c]]
      | line :: later => (c :: line) :: later

structure Spot where
  position : Position
  line : List Char

/-- The spot of a character. What lies right behind the text belongs to the last line. -/
def spot : List (List Char) → Nat → Option Spot
  | [], _ => none
  | [line], n => if n ≤ line.length then some ⟨⟨0, n⟩, line⟩ else none
  | line :: rest, n =>
    if n < line.length then some ⟨⟨0, n⟩, line⟩
    else
      (spot rest (n - line.length)).map
        fun s => { s with position := { s.position with line := s.position.line + 1 } }

inductive Color
  | red
  | frame
  | faint
  | plain
deriving DecidableEq

def Color.code : Color → String
  | red => "31"
  | frame => "38;5;246"
  | faint => "38;5;240"
  | plain => "38;5;249"

def paint (c : Color) (text : String) : String :=
  "\x1b[" ++ c.code ++ "m" ++ text ++ "\x1b[0m"

def paintEach (c : Color) (signs : List Char) : String :=
  String.join (signs.map fun s => paint c (String.singleton s))

def tabWidth : Nat := 4

def drawn (column : Nat) (c : Char) : List Char × Nat :=
  if c = '\t' then
    let n := (column / tabWidth + 1) * tabWidth - column
    (List.replicate n ' ', n)
  else if Text.isBlank c then ([' '], 1)
  else ([c], Text.width c)

def trimmed (line : List Char) : List Char := (line.reverse.dropWhile Text.isBlank).reverse

def sourceRow (line : List Char) (start stop : Nat) : String :=
  String.join ((trimmed line).mapIdx fun column c =>
    paintEach (if start ≤ column ∧ column < stop then .red else .plain) (drawn column c).1)

def widthAt (line : List Char) (column : Nat) : Nat :=
  match (trimmed line)[column]? with
  | some c => (drawn column c).2
  | none => 1

def stretch (color : Option Color) (head tail : Char) (width : Nat) : String :=
  let signs := if width = 0 then [] else head :: List.replicate (width - 1) tail
  match color with
  | some color => paintEach color signs
  | none => String.ofList signs

def underline (line : List Char) (start stop : Nat) : String :=
  String.join ((List.range (stop + 2)).map fun column =>
    let width := widthAt line column
    if start ≤ column ∧ column < stop then
      stretch (some .red) (if column = (start + stop) / 2 then '┬' else '─') '─' width
    else stretch none ' ' ' ' width)

def hook (line : List Char) (start stop : Nat) : String :=
  String.join ((List.range (stop + 2)).map fun column =>
    let width := widthAt line column
    if column < (start + stop) / 2 then stretch none ' ' ' ' width
    else stretch (some .red) (if column = (start + stop) / 2 then '╰' else '─') '─' width)

def title : String := paint .red "Error:" ++ " invalid theme\n"

def top (digits : Nat) (place : String) : String :=
  spaces (digits + 2) ++ paint .frame "╭" ++ paint .frame "─" ++ paint .frame "[" ++ place ++
  paint .frame "]" ++ "\n" ++
  spaces (digits + 2) ++ paint .frame "│" ++ "\n"

def margin (digits : Nat) : String := " " ++ paint .faint (spaces (digits + 1) ++ "│") ++ " "

def bottom (digits : Nat) : String :=
  paint .frame (String.ofList (List.replicate (digits + 2) '─') ++ "╯") ++ "\n"

def start (d : Diagnostic) : Option Spot := spot (lines d.source.toList) d.span.start

def place (file : String) (p : Position) : String := file ++ ":" ++ p.text ":"

/-- The line and what is said about it. Nothing is shown of a part that goes beyond the line. -/
def body (s : Spot) (length : Nat) (message : String) : String :=
  let start := s.position.column
  let stop := start + length
  let digits := gutter s.position.line
  if s.line.length < stop then margin digits ++ "\n"
  else
    " " ++ paint .frame (toString (s.position.line + 1) ++ " │") ++ " " ++
    sourceRow s.line start stop ++ "\n" ++
    margin digits ++ underline s.line start stop ++ "\n" ++
    margin digits ++ hook s.line start stop ++ " " ++ message ++ "\n"

end Diagnostic.Frame

open Diagnostic.Frame

/-- A part that begins or goes on behind the text leaves only the title. -/
def Diagnostic.frame (d : Diagnostic) (file : String) : String :=
  match start d with
  | none => title
  | some s =>
    if d.source.length + 1 < d.span.stop then title
    else
      let digits := gutter s.position.line
      title ++ top digits (place file s.position) ++
      body s (d.span.stop - d.span.start) d.message ++ bottom digits

end C4
