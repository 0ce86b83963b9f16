/-!
# Options

What the command line can ask for. Options that take a value find it behind an equals sign,
right behind a single letter or in the next argument. No option may be given twice, and
nothing else may be given.
-/
namespace C4.CommandLine

structure Options where
  sample : String
  theme : Option String
  defaultTheme : Bool
  output : Option String
  indent : Nat
  spacing : Bool
  logLevel : String
  list : Bool
deriving DecidableEq

inductive Setting
  | demo
  | theme
  | defaultTheme
  | output
  | indent
  | spacing
  | logLevel
  | list
  | help
deriving DecidableEq

namespace Setting

def all : List Setting :=
  [demo, theme, defaultTheme, output, indent, spacing, logLevel, list, help]

def word : Setting → String
  | demo => "demo"
  | theme => "theme"
  | defaultTheme => "default-theme"
  | output => "output"
  | indent => "indent"
  | spacing => "spacing"
  | logLevel => "log-level"
  | list => "list"
  | help => "help"

def letter? : Setting → Option Char
  | demo => some 'd'
  | theme => some 't'
  | output => some 'o'
  | indent => some 'i'
  | list => some 'l'
  | help => some 'h'
  | _ => none

def takesValue : Setting → Bool
  | demo => true
  | theme => true
  | output => true
  | indent => true
  | logLevel => true
  | _ => false

def ofWord? (w : String) : Option Setting := all.find? fun s => s.word = w

def ofLetter? (c : Char) : Option Setting := all.find? fun s => s.letter? = some c

end Setting

inductive Misuse
  | unexpected (argument : String)
  | repeated (setting : Setting)
  | valueMissing (setting : Setting)
  | valueUnwanted (setting : Setting)
  | valueUnsuitable (setting : Setting) (value : String)
deriving DecidableEq

def Misuse.message : Misuse → String
  | unexpected argument => "unexpected argument '" ++ argument ++ "' found"
  | repeated s => "the option '--" ++ s.word ++ "' cannot be used multiple times"
  | valueMissing s => "a value is required for '--" ++ s.word ++ "'"
  | valueUnwanted s => "the option '--" ++ s.word ++ "' takes no value"
  | valueUnsuitable s value => "invalid value '" ++ value ++ "' for '--" ++ s.word ++ "'"

def number? (text : String) : Option Nat :=
  let digits := match text.toList with
    | '+' :: digits => digits
    | digits => digits
  if digits.isEmpty || !digits.all Char.isDigit then none
  else
    let n := digits.foldl (fun n c => n * 10 + (c.toNat - '0'.toNat)) 0
    if n < Nat.pow 2 64 then some n else none

def Setting.suits (s : Setting) (value : String) : Bool :=
  match s with
  | theme => !value.isEmpty
  | output => !value.isEmpty
  | indent => (number? value).isSome
  | _ => true

structure Progress where
  given : List (Setting × String)
  waiting : Option Setting
  /-- Whether two dashes have put an end to the options. -/
  ended : Bool

namespace Progress

def record (p : Progress) (s : Setting) (value : String) : Except Misuse Progress :=
  if p.given.any fun g => g.1 = s then .error (.repeated s)
  else if s.suits value then .ok { p with given := p.given ++ [(s, value)], waiting := none }
  else .error (.valueUnsuitable s value)

def takeWord (p : Progress) (argument : String) (body : List Char) : Except Misuse Progress :=
  let name := body.takeWhile (· ≠ '=')
  let value := (body.dropWhile (· ≠ '=')).tail?
  match Setting.ofWord? (String.ofList name) with
  | none => .error (.unexpected argument)
  | some s =>
    match s.takesValue, value with
    | true, some v => p.record s (String.ofList v)
    | true, none => .ok { p with waiting := some s }
    | false, some _ => .error (.valueUnwanted s)
    | false, none => p.record s ""

def takeLetters (p : Progress) (argument : String) : List Char → Except Misuse Progress
  | [] => .ok p
  | c :: rest =>
    match Setting.ofLetter? c with
    | none => .error (.unexpected argument)
    | some s =>
      if s.takesValue then
        match rest with
        | [] => .ok { p with waiting := some s }
        | '=' :: value => p.record s (String.ofList value)
        | value => p.record s (String.ofList value)
      else if s = .help then p.record s ""
      else do (← p.record s "").takeLetters argument rest

def asksForHelp (p : Progress) : Bool := p.given.any fun g => g.1 = .help

/-- An argument that begins with a dash is an option and no value. A dash alone is none. What
comes after a request for help is not looked at. -/
def take (p : Progress) (argument : String) : Except Misuse Progress :=
  if p.asksForHelp then .ok p
  else if p.ended then .error (.unexpected argument)
  else
    match argument.toList, p.waiting with
    | '-' :: c :: body, some s =>
      if c = '-' && body.isEmpty then .ok { p with ended := true } else .error (.valueMissing s)
    | _, some s => p.record s argument
    | ['-', '-'], none => .ok { p with ended := true }
    | '-' :: '-' :: body, none => p.takeWord argument body
    | '-' :: c :: body, none => p.takeLetters argument (c :: body)
    | _, none => .error (.unexpected argument)

def value? (p : Progress) (s : Setting) : Option String :=
  (p.given.find? fun g => g.1 = s).map (·.2)

def options (p : Progress) : Options :=
  { sample := (p.value? .demo).getD "getting-started"
    theme := p.value? .theme
    defaultTheme := (p.value? .defaultTheme).isSome
    output := p.value? .output
    indent := ((p.value? .indent).bind number?).getD 4
    spacing := (p.value? .spacing).isSome
    logLevel := (p.value? .logLevel).getD "warn"
    list := (p.value? .list).isSome }

end Progress

def request (arguments : List String) : Except Misuse (Option Options) := do
  let p ← arguments.foldlM Progress.take ⟨[], none, false⟩
  match p.waiting with
  | some s => .error (.valueMissing s)
  | none => return if p.asksForHelp then none else some p.options

end C4.CommandLine
