import C4.Toml.Reader

/-!
# Space, comments, strings and keys
-/
namespace C4.Toml

open Reader

def isCommentChar (c : Char) : Bool :=
  c = '\t' || (0x20 ≤ c.toNat && c.toNat ≠ 0x7F)

def isBasicChar (c : Char) : Bool := isCommentChar c && c ≠ '"' && c ≠ '\\'

def isLiteralChar (c : Char) : Bool := isCommentChar c && c ≠ '\x27'

def isBareKeyChar (c : Char) : Bool := c.isAlphanum || c = '-' || c = '_'

def blanks : Reader Unit := do
  let _ ← takeWhile fun c => c = ' ' || c = '\t'

def newline : Reader Unit := char '\n' <|> literal "\r\n"

def comment : Reader Unit := do
  char '#'
  let _ ← takeWhile isCommentChar

def endOfText : Reader Unit := do
  if (← peek).isSome then failure

def endOfLine : Reader Unit := do
  blanks
  let _ ← perhaps comment
  newline <|> endOfText

def looseSpace : Reader Unit := do
  blanks
  let _ ← many do
    let _ ← perhaps comment
    newline
    blanks

def isHexDigit (c : Char) : Bool :=
  c.isDigit || ('a' ≤ c && c ≤ 'f') || ('A' ≤ c && c ≤ 'F')

def digitValue (c : Char) : Nat :=
  if c.isDigit then c.toNat - 0x30 else c.toLower.toNat - 0x61 + 10

def numeral (base : Nat) (digits : List Char) : Nat :=
  digits.foldl (fun n c => n * base + digitValue c) 0

def exactly {α : Type} (n : Nat) (r : Reader α) : Reader (List α) :=
  match n with
  | 0 => return []
  | n + 1 => do
    let a ← r
    return a :: (← exactly n r)

def codePoint (digits : Nat) : Reader Char := do
  let n := numeral 16 (← exactly digits (satisfy isHexDigit))
  if n.isValidChar then return Char.ofNat n else failure

def escapeSequence : Reader Char := do
  char '\\'
  match ← satisfy fun _ => true with
  | 'b' => return '\x08'
  | 't' => return '\t'
  | 'n' => return '\n'
  | 'f' => return '\x0c'
  | 'r' => return '\r'
  | '"' => return '"'
  | '\\' => return '\\'
  | 'u' => codePoint 4
  | 'U' => codePoint 8
  | _ => failure

def basicString : Reader String := do
  char '"'
  let chars ← many (satisfy isBasicChar <|> escapeSequence)
  char '"'
  return String.ofList chars

def literalString : Reader String := do
  char '\x27'
  let chars ← takeWhile isLiteralChar
  char '\x27'
  return String.ofList chars

def hiddenLineBreak : Reader (List Char) := do
  char '\\'
  blanks
  newline
  let _ ← many (newline <|> (do let _ ← satisfy fun c => c = ' ' || c = '\t'))
  return []

def lineBreak : Reader (List Char) := do
  newline
  return ['\n']

/-- The rest of a string in triple quotes. One or two quotes may stand anywhere in it, also
right before the closing ones. -/
def untilTripleQuote (quote : Char) (piece : Reader (List Char)) : Nat → Reader (List Char)
  | 0 => failure
  | limit + 1 => do
    let quotes ← takeWhile (· = quote)
    if quotes.length < 3 then
      let chars ← piece
      return quotes ++ chars ++ (← untilTripleQuote quote piece limit)
    else if quotes.length ≤ 5 then return quotes.drop 3
    else failure

def tripleQuoted (quote : Char) (piece : Reader (List Char)) : Reader String := do
  let _ ← exactly 3 (char quote)
  let _ ← perhaps newline
  let limit := (← get).rest.length + 1
  return String.ofList (← untilTripleQuote quote piece limit)

def multilineBasicString : Reader String :=
  tripleQuoted '"'
    (hiddenLineBreak <|> lineBreak <|> (do return [← satisfy isBasicChar <|> escapeSequence]))

def multilineLiteralString : Reader String :=
  tripleQuoted '\x27' (lineBreak <|> (do return [← satisfy isLiteralChar]))

def anyString : Reader String :=
  multilineBasicString <|> basicString <|> multilineLiteralString <|> literalString

def bareKey : Reader String := do
  let c ← satisfy isBareKeyChar
  return String.ofList (c :: (← takeWhile isBareKeyChar))

def simpleKey : Reader Key := do
  blanks
  let (span, text) ← located (basicString <|> literalString <|> bareKey)
  blanks
  return ⟨text, span⟩

def depthLimit : Nat := 80

def dottedKey : Reader (List Key × Key) := do
  let first ← simpleKey
  let later ← many do
    char '.'
    simpleKey
  let keys := first :: later
  if keys.length < depthLimit then return (keys.dropLast, keys.getLastD first)
  else failure

end C4.Toml
