import Mips32.Binary64.Basic
import Mips32.Numeral.Digits

/-!
# The shortest decimal text of a floating-point value

A finite value is written with the fewest significant digits that still round to it, and of those
with the digits nearest to it. The search goes through the grids of one, two, … seventeen digits: a
grid has a point that rounds to the value only if one of the two grid points around the value does.

`format` holds the decisions of the notation: positional as long as the decimal point falls less
than four places before the first digit and not more than sixteen behind it, with `.0` after an
integer, and otherwise scientific with an exponent of at least two digits.
-/

namespace Mips32.Binary64

/-- A positive rational interval around a value: all in units of `1 / den`. The ends round to the
value as well if `closed`. -/
structure Neighbourhood where
  value : Nat
  low : Nat
  high : Nat
  den : Nat
  closed : Bool

/-- What rounds to `mantissa * 2 ^ exponent`. Below a power of two the next value is only half as
far away as above it. -/
def neighbourhood (mantissa : Nat) (exponent : Int) : Neighbourhood :=
  let (up, down) := power 2 (exponent - 2)
  let below := if mantissa = Nat.pow 2 52 ∧ leastExponent < exponent then 1 else 2
  { value := 4 * mantissa * up
    low := (4 * mantissa - below) * up
    high := (4 * mantissa + 2) * up
    den := down
    closed := mantissa % 2 == 0 }

/-- Whether `num / den'` lies in the neighbourhood. -/
def Neighbourhood.holds (b : Neighbourhood) (num den' : Nat) : Bool :=
  let x := num * b.den
  if b.closed then b.low * den' ≤ x && x ≤ b.high * den'
  else b.low * den' < x && x < b.high * den'

/-- The least `k` with `value < 10 ^ k`, found upwards from `k`. -/
def decimalOrderFrom (b : Neighbourhood) : (fuel : Nat) → (k : Int) → Int
  | 0, k => k
  | fuel + 1, k =>
    let (up, down) := power 10 k
    if b.value * down < b.den * up then k else decimalOrderFrom b fuel (k + 1)

/-- The order of a value: its first digit stands `order` places before the decimal point. -/
def decimalOrder (b : Neighbourhood) : Int :=
  decimalOrderFrom b 700 (-330)

/-- The point of the grid with unit `10 ^ e` that rounds to the value and is nearest to it, as a
multiple of the unit; of two equally near ones the even one. -/
def gridPoint? (b : Neighbourhood) (e : Int) : Option Nat :=
  let (up, down) := power 10 e
  let num := b.value * down
  let den := b.den * up
  let f := num / den
  let holdsLow := b.holds (f * up) down
  let holdsHigh := b.holds ((f + 1) * up) down
  match holdsLow, holdsHigh with
  | false, false => none
  | true, false => some f
  | false, true => some (f + 1)
  | true, true => some (roundHalfEven num den)

/-- Tries grids of growing fineness, from `n` digits on. -/
def shortestFrom (b : Neighbourhood) (order : Int) : (fuel n : Nat) → Nat × Int
  | 0, n => (0, order - n)
  | fuel + 1, n =>
    match gridPoint? b (order - n) with
    | some d => (d, order - n)
    | none => shortestFrom b order fuel (n + 1)

/-- The shortest decimal `d * 10 ^ e` of a positive value. -/
def shortest (mantissa : Nat) (exponent : Int) : Nat × Int :=
  let b := neighbourhood mantissa exponent
  shortestFrom b (decimalOrder b) 17 1

/-- Drops the zeros at the end of a digit text. -/
def dropFinalZeros (ds : Text) : Text :=
  (ds.reverse.dropWhile (· == .char '0')).reverse

/-- Writes digits of which the first stands `order` places before the decimal point. -/
def layOut (ds : Text) (order : Int) : Text :=
  if -4 < order ∧ order ≤ 16 then
    if order ≤ 0 then "0.".text ++ List.replicate (-order).toNat (.char '0') ++ ds
    else
      let n := order.toNat
      ds.take n ++ List.replicate (n - ds.length) (.char '0') ++ [.char '.'] ++
        (if ds.length ≤ n then [.char '0'] else ds.drop n)
  else
    let e := order - 1
    let mantissa :=
      match ds with
      | [] => []
      | [d] => [d]
      | d :: r => d :: .char '.' :: r
    let size := Numeral.digits 10 e.natAbs
    mantissa ++ [.char 'e', if e < 0 then .char '-' else .char '+'] ++
      List.replicate (2 - size.length) (.char '0') ++ size

/-- The text of a value. -/
def format : Binary64 → Text
  | .nan => "nan".text
  | .infinite negative => if negative then "-inf".text else "inf".text
  | .finite negative m e =>
    let body :=
      if m = 0 then "0.0".text
      else
        let (d, unit) := shortest m e
        let ds := Numeral.digits 10 d
        layOut (dropFinalZeros ds) (ds.length + unit)
    if negative then .char '-' :: body else body

end Mips32.Binary64
