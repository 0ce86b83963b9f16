import C4.Model.Attributes
import C4.Text.Blank

/-!
# Quoted arguments

Free text is written between double quotes. A double quote inside it is preceded by a
backslash; every other character stands for itself.
-/
namespace C4.Dsl

def escape : List Char → List Char
  | [] => []
  | c :: rest => if c = '"' then '\\' :: '"' :: escape rest else c :: escape rest

def quote (text : String) : String :=
  String.ofList ('"' :: escape text.toList ++ ['"'])

/-- Arguments are known by their place. Those after the last one that is set are left out, and
an unset one before it is written as the empty text. -/
def positional : List (Option String) → List String
  | [] => []
  | argument :: rest =>
    match argument, positional rest with
    | none, [] => []
    | argument, written => argument.getD "" :: written

def arguments (args : List (Option String)) : String :=
  String.join ((positional args).map fun text => " " ++ quote text)

def elementHeader (token keyword name : String) (args : List (Option String)) : String :=
  token ++ " = " ++ keyword ++ " " ++ quote name ++ arguments args

def propertyKey (key : String) : String :=
  if key.isEmpty || key.toList.any (fun c => Text.isBlank c || c = '"') then quote key else key

end C4.Dsl
