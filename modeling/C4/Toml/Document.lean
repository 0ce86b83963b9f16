import C4.Toml.Number
import C4.Toml.Table

/-!
# TOML documents

The grammar of values, pairs and headers, and of the whole text.
-/
namespace C4.Toml

open Reader

def spelling (r : Reader Unit) : Reader String := do
  let before := (← get).rest
  r
  let after := (← get).rest
  return String.ofList (before.take (before.length - after.length))

def boolean : Reader Bool :=
  (do literal "true"; return true) <|> (do literal "false"; return false)

def arrayItems (item : Reader Value) : Nat → Reader (List Value)
  | 0 => failure
  | limit + 1 => do
    looseSpace
    if (← peek) = some ']' then
      char ']'
      return []
    let v ← item
    looseSpace
    if (← peek) = some ',' then
      char ','
      return v :: (← arrayItems item limit)
    char ']'
    return [v]

def pairWith (value : Reader Value) : Reader Table.Pair := do
  let (path, key) ← dottedKey
  char '='
  blanks
  return ⟨path, key, ← value⟩

def inlinePairs (value : Reader Value) : Nat → Reader (List Table.Pair)
  | 0 => failure
  | limit + 1 => do
    let p ← pairWith value
    blanks
    if (← peek) = some ',' then
      char ','
      return p :: (← inlinePairs value limit)
    char '\x7d'
    return [p]

def inlineTable (value : Reader Value) : Reader (List (Key × Value)) := do
  char '\x7b'
  blanks
  if (← peek) = some '\x7d' then
    char '\x7d'
    return []
  let pairs ← inlinePairs value (← get).rest.length
  match Table.addPairs ⟨none, .inline, []⟩ pairs with
  | none => failure
  | some t => return t.entries

def scalar : Reader Value :=
  (do let (s, v) ← located anyString; return .string s v) <|>
  (do let (s, v) ← located (spelling dateTime); return .moment s v) <|>
  (do let (s, v) ← located float; return .float s v) <|>
  (do let (s, v) ← located integer; return .integer s v) <|>
  (do let (s, v) ← located boolean; return .boolean s v)

def valueWithin : Nat → Reader Value
  | 0 => scalar
  | depth + 1 => do
    match ← peek with
    | some '[' =>
      let (s, items) ← located do
        char '['
        arrayItems (valueWithin depth) ((← get).rest.length + 1)
      return .array s items
    | some '\x7b' =>
      let (s, entries) ← located (inlineTable (valueWithin depth))
      return .table (some s) .inline entries
    | _ => scalar

def pair : Reader Table.Pair := do
  let p ← pairWith (valueWithin (depthLimit - 1))
  endOfLine
  return p

def header : Reader Table.Section := do
  let repeated := (← get).rest.take 2 = ['[', '[']
  let brackets := if repeated then 2 else 1
  let (span, path, key) ← located do
    let _ ← exactly brackets (char '[')
    let keys ← dottedKey
    let _ ← exactly brackets (char ']')
    return keys
  endOfLine
  return ⟨repeated, path, key, span, []⟩

def between : Reader Unit := do
  blanks
  let _ ← many do
    let _ ← perhaps comment
    newline
    blanks

def pairs : Reader (List Table.Pair) :=
  many do
    let p ← pair
    between
    return p

def document : Reader (Option Table) := do
  let _ ← perhaps (char '\ufeff')
  between
  let top ← pairs
  let sections ← many do
    let s ← header
    between
    return { s with pairs := ← pairs }
  let _ ← perhaps comment
  endOfText
  return Table.ofSections? top sections

def parse (text : String) : Option Table :=
  (document.run ⟨0, text.toList⟩).bind (·.1)

end C4.Toml
