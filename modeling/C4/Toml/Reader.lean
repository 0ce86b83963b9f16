import C4.Toml.Value

/-!
# Reading characters

A reader takes what it needs from the front of the text, or fails. It keeps count of the bytes
that have been taken. Failing takes nothing, so that another reader can be tried.
-/
namespace C4.Toml

structure Cursor where
  offset : Nat
  rest : List Char

abbrev Reader := StateT Cursor Option

namespace Reader

def position : Reader Nat := do return (← get).offset

def peek : Reader (Option Char) := do return (← get).rest.head?

def satisfy (p : Char → Bool) : Reader Char := fun c =>
  match c.rest with
  | [] => none
  | d :: rest => if p d then some (d, ⟨c.offset + d.utf8Size, rest⟩) else none

def char (d : Char) : Reader Unit := do
  let _ ← satisfy (· = d)

def literal (text : String) : Reader Unit := text.toList.forM char

def takeWhile (p : Char → Bool) : Reader (List Char) := fun c =>
  let taken := c.rest.takeWhile p
  some (taken, ⟨taken.foldl (fun n d => n + d.utf8Size) c.offset, c.rest.drop taken.length⟩)

def atMost {α : Type} (limit : Nat) (r : Reader α) : Reader (List α) :=
  match limit with
  | 0 => return []
  | limit + 1 =>
    (do
      let a ← r
      let rest ← atMost limit r
      return a :: rest) <|> return []

def many {α : Type} (r : Reader α) : Reader (List α) := do
  atMost (← get).rest.length r

def perhaps {α : Type} (r : Reader α) : Reader (Option α) := (some <$> r) <|> return none

def located {α : Type} (r : Reader α) : Reader (Span × α) := do
  let start ← position
  let a ← r
  return (⟨start, ← position⟩, a)

end Reader

end C4.Toml
