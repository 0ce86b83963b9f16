/-!
# Binary floating point

The numbers of the 64-bit binary format, in exact integer arithmetic: a decimal literal is
rounded to the nearest of them, ties to the even one, and a number is written with the fewest
decimal digits that still round to it.
-/
namespace C4.Number

inductive Binary64
  | nan
  | infinite (negative : Bool)
  /-- The value `mantissa * 2 ^ exponent`, with the given sign. -/
  | finite (negative : Bool) (mantissa : Nat) (exponent : Int)
deriving DecidableEq

def scaled (n b : Nat) (e : Int) : Nat × Nat :=
  if 0 ≤ e then (n * b.pow e.toNat, 1) else (n, b.pow (-e).toNat)

def roundHalfEven (num den : Nat) : Nat :=
  let q := num / den
  let r := num % den
  if 2 * r < den then q
  else if den < 2 * r then q + 1
  else if q % 2 = 0 then q
  else q + 1

def leadingExponent (num den : Nat) : Int :=
  let e : Int := (num.log2 : Int) - (den.log2 : Int)
  let (n, d) := scaled num 2 (-e)
  if n < d * den then e - 1 else e

namespace Binary64

def leastExponent : Int := -1074

def greatestExponent : Int := 971

def zero (negative : Bool) : Binary64 := finite negative 0 leastExponent

def ofRatio (negative : Bool) (num den : Nat) : Binary64 :=
  let e := max (leadingExponent num den - 52) leastExponent
  let (n, d) := scaled num 2 (-e)
  let m := roundHalfEven n (d * den)
  let (m, e) := if m = Nat.pow 2 53 then (Nat.pow 2 52, e + 1) else (m, e)
  if greatestExponent < e then infinite negative else finite negative m e

/-- The number nearest to `digits * 10 ^ power`. What is certain to be too large or too small is
not worked out. -/
def ofDecimal (negative : Bool) (digits : Nat) (power : Int) : Binary64 :=
  if digits = 0 then zero negative
  else
    let magnitude : Int := (Nat.repr digits).length + power
    if 310 < magnitude then infinite negative
    else if magnitude < -330 then zero negative
    else
      let (num, den) := scaled digits 10 power
      ofRatio negative num den

/-- The multiple of `10 ^ power` that lies nearest to `m * 2 ^ e` among those that round to it,
the larger one of two, if there is one. In units of `2 ^ (e - 2)` the number is `4 * m`, its upper neighbours are four
away, and its lower ones four or, where the exponent changes, two. -/
def onGrid? (m : Nat) (e : Int) (power : Int) : Option Nat :=
  let (a, b) := scaled 1 2 (e - 2)
  let (p, q) := scaled 1 10 power
  let step := p * b
  let unit := a * q
  let low := 4 * m - (if m = Nat.pow 2 52 && leastExponent < e then 1 else 2)
  let high := 4 * m + 2
  let below := 4 * m * unit / step
  let inside (c : Nat) : Bool :=
    if m % 2 = 0 then low * unit ≤ c * step && c * step ≤ high * unit
    else low * unit < c * step && c * step < high * unit
  if inside below then
    if inside (below + 1) && (below + 1) * step - 4 * m * unit ≤ 4 * m * unit - below * step then
      some (below + 1)
    else some below
  else if inside (below + 1) then some (below + 1)
  else none

/-- The coarsest decimal grid below `10 ^ power` with a point that rounds to the number: the
point's digits and the grid's exponent. -/
def coarsest (m : Nat) (e : Int) : Nat → Int → Nat × Int
  | 0, power => (0, power)
  | steps + 1, power =>
    match onGrid? m e power with
    | some digits => (digits, power)
    | none => coarsest m e steps (power - 1)

def shortest (m : Nat) (e : Int) : Nat × Int := coarsest m e 640 309

def positionalText (digits : Nat) (power : Int) : String :=
  let text := Nat.repr digits
  if 0 ≤ power then text ++ String.ofList (List.replicate power.toNat '0') ++ ".0"
  else
    let places := (-power).toNat
    let padded := List.replicate (places + 1 - text.length) '0' ++ text.toList
    let whole := padded.length - places
    String.ofList (padded.take whole) ++ "." ++ String.ofList (padded.drop whole)

def text : Binary64 → String
  | nan => "NaN"
  | infinite negative => if negative then "-inf" else "inf"
  | finite negative m e =>
    let magnitude :=
      if m = 0 then "0.0"
      else
        let (digits, power) := shortest m e
        positionalText digits power
    if negative then "-" ++ magnitude else magnitude

end Binary64

end C4.Number
