import C4.Toml.Text

/-!
# Numbers, dates and times
-/
namespace C4.Toml

open Reader Number

def digits (p : Char → Bool) : Reader (List Char) := do
  let first ← satisfy p
  let later ← many (satisfy p <|> (do char '_'; satisfy p))
  return first :: later

def sign : Reader Bool :=
  (do char '-'; return true) <|> (do char '+'; return false) <|> return false

def decimalDigits : Reader (List Char) := do
  match ← peek with
  | some '0' => return [← satisfy Char.isDigit]
  | _ => digits Char.isDigit

def inRange (n : Int) : Reader Int :=
  if -Int.pow 2 63 ≤ n && n < Int.pow 2 63 then return n else failure

def based (mark : String) (base : Nat) (p : Char → Bool) : Reader Int := do
  literal mark
  inRange (numeral base (← digits p))

def integer : Reader Int :=
  based "0x" 16 isHexDigit <|>
  based "0o" 8 (fun c => '0' ≤ c && c ≤ '7') <|>
  based "0b" 2 (fun c => c = '0' || c = '1') <|>
  (do
    let negative ← sign
    let n := numeral 10 (← decimalDigits)
    inRange (if negative then -n else n))

def fraction : Reader (List Char) := do
  char '.'
  digits Char.isDigit

def exponent : Reader Int := do
  let _ ← satisfy fun c => c = 'e' || c = 'E'
  let negative ← sign
  let n := numeral 10 (← digits Char.isDigit)
  return if negative then -n else n

/-- A number that is too large is refused, unless it is negative. -/
def decimalFloat : Reader Binary64 := do
  let negative ← sign
  let whole ← decimalDigits
  let places ← perhaps fraction
  let power ← perhaps exponent
  if places.isNone && power.isNone then failure
  let places := places.getD []
  let value := Binary64.ofDecimal negative (numeral 10 (whole ++ places))
    (power.getD 0 - places.length)
  if value = .infinite false then failure else return value

def specialFloat : Reader Binary64 := do
  let negative ← sign
  (do literal "inf"; return .infinite negative) <|> (do literal "nan"; return .nan)

def float : Reader Binary64 := decimalFloat <|> specialFloat

def field (width low high : Nat) : Reader Nat := do
  let n := numeral 10 (← exactly width (satisfy Char.isDigit))
  if low ≤ n && n ≤ high then return n else failure

def daysInMonth (year month : Nat) : Nat :=
  match month with
  | 2 => if year % 4 = 0 && (year % 100 ≠ 0 || year % 400 = 0) then 29 else 28
  | 4 => 30
  | 6 => 30
  | 9 => 30
  | 11 => 30
  | _ => 31

def date : Reader Unit := do
  let year ← field 4 0 9999
  char '-'
  let month ← field 2 1 12
  char '-'
  let _ ← field 2 1 (daysInMonth year month)

def time : Reader Unit := do
  let _ ← field 2 0 23
  char ':'
  let _ ← field 2 0 59
  char ':'
  let _ ← field 2 0 60
  let _ ← perhaps do
    char '.'
    let _ ← satisfy Char.isDigit
    takeWhile Char.isDigit

def zone : Reader Unit :=
  (do let _ ← satisfy fun c => c = 'Z' || c = 'z') <|>
  (do
    let _ ← satisfy fun c => c = '+' || c = '-'
    let _ ← field 2 0 23
    char ':'
    let _ ← field 2 0 59)

def dateTime : Reader Unit :=
  (do
    date
    let _ ← perhaps do
      let _ ← satisfy fun c => c = 'T' || c = 't' || c = ' '
      time
      perhaps zone) <|> time

end C4.Toml
