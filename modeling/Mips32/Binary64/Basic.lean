/-!
# Binary floating point of 64 bits

A value is kept exactly, as a mantissa times a power of two, so nothing here depends on the
floating-point unit. Finite values are canonical when the mantissa has 53 bits, or fewer at the
least exponent; `ofDecimal` yields only such values.
-/

namespace Mips32

/-- A floating-point value: not a number, an infinity, or `mantissa * 2 ^ exponent` with a sign. -/
inductive Binary64 where
  | nan
  | infinite (negative : Bool)
  | finite (negative : Bool) (mantissa : Nat) (exponent : Int)
  deriving DecidableEq, Repr

namespace Binary64

/-- The exponent of the smallest positive value. -/
def leastExponent : Int := -1074

/-- The exponent of the largest finite values. -/
def greatestExponent : Int := 971

/-- Zero of either sign. -/
def zero (negative : Bool) : Binary64 :=
  .finite negative 0 leastExponent

/-- `10 ^ e` and `2 ^ e` as a numerator and a denominator. -/
def power (base : Nat) (e : Int) : Nat × Nat :=
  (base.pow e.toNat, base.pow (-e).toNat)

/-- The integer nearest to `num / den`; of two the even one. -/
def roundHalfEven (num den : Nat) : Nat :=
  let q := num / den
  let r := num % den
  if 2 * r < den then q
  else if den < 2 * r then q + 1
  else if q % 2 = 0 then q
  else q + 1

/-- The largest `k` with `2 ^ k ≤ num / den`, for positive numbers. -/
def binaryOrder (num den : Nat) : Int :=
  let k : Int := (num.log2 : Int) - (den.log2 : Int)
  let (up, down) := power 2 k
  if den * up ≤ num * down then k else k - 1

/-- The value nearest to the positive fraction `num / den`. -/
def ofFraction (negative : Bool) (num den : Nat) : Binary64 :=
  let e := max leastExponent (binaryOrder num den - 52)
  let (up, down) := power 2 e
  let m := roundHalfEven (num * down) (den * up)
  let (m, e) := if m = Nat.pow 2 53 then (Nat.pow 2 52, e + 1) else (m, e)
  if greatestExponent < e then .infinite negative else .finite negative m e

/-- The value nearest to the decimal `m * 10 ^ e`. Decimals far beyond the range are answered by
their magnitude alone. -/
def ofDecimal (negative : Bool) (m : Nat) (e : Int) : Binary64 :=
  let order : Int := (Nat.toDigits 10 m).length + e
  if m = 0 ∨ order < -330 then zero negative
  else if 310 < order then .infinite negative
  else
    let (up, down) := power 10 e
    ofFraction negative (m * up) down

/-- Whether the value equals zero. -/
def isZero : Binary64 → Bool
  | .finite _ m _ => m == 0
  | _ => false

end Binary64

end Mips32
