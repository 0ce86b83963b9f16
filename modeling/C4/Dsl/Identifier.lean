/-!
# Identifiers

The token by which an element is referred to is made from its display name. Only ASCII
letters and digits count; everything else parts words. Words are also parted inside a run of
letters and digits: where a lower-case letter meets an upper-case one, where a letter and a
digit meet, and before the last capital of several that are followed by a lower-case letter.
The words are joined in camel case.
-/
namespace C4.Dsl

def prepend (c : Char) : List (List Char) → List (List Char)
  | [] => [[c]]
  | word :: words => (c :: word) :: words

def runs : List Char → List (List Char)
  | [] => []
  | [c] => if c.isAlphanum then [[c]] else []
  | c :: d :: rest =>
    if c.isAlphanum then
      if d.isAlphanum then prepend c (runs (d :: rest)) else [c] :: runs (d :: rest)
    else runs (d :: rest)

/-- Whether a word starts at `d`, which follows `c` and is followed by `next` in one run. -/
def startsWord (c d : Char) (next : Option Char) : Bool :=
  (c.isLower && d.isUpper) || (c.isAlpha && d.isDigit) || (c.isDigit && d.isAlpha) ||
    (c.isUpper && d.isUpper && next.any Char.isLower)

def words : List Char → List (List Char)
  | [] => []
  | [c] => [[c]]
  | c :: d :: rest =>
    if startsWord c d rest.head? then [c] :: words (d :: rest)
    else prepend c (words (d :: rest))

def capitalise : List Char → List Char
  | [] => []
  | c :: rest => c.toUpper :: rest.map Char.toLower

def camelCase : List (List Char) → List Char
  | [] => []
  | first :: later => first.map Char.toLower ++ later.flatMap capitalise

/-- A name without any letter or digit gives `element`; a token never starts with a digit. -/
def identifier (name : String) : String :=
  match camelCase ((runs name.toList).flatMap words) with
  | [] => "element"
  | c :: rest =>
    if c.isDigit then String.ofList ('_' :: c :: rest) else String.ofList (c :: rest)

end C4.Dsl
