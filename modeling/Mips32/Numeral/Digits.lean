import Mips32.Text.Basic

/-!
# Digits in a base

Numbers are printed in four manners: all digits, all digits filled up with zeros to a width, a fixed
count of low digits, and digits filled up to a width in which the sign counts. `ofDigits` is the
reading side of them all.
-/

namespace Mips32.Numeral

/-- The worth of an ASCII digit or letter, letters of either case counting from ten. -/
def digitValue? (c : CodePoint) : Option Nat :=
  if '0' ≤ c ∧ c ≤ '9' then some (c.toNat - '0'.toNat)
  else if 'a' ≤ c ∧ c ≤ 'z' then some (c.toNat - 'a'.toNat + 10)
  else if 'A' ≤ c ∧ c ≤ 'Z' then some (c.toNat - 'A'.toNat + 10)
  else none

/-- Whether `c` is an ASCII digit of the base. -/
def isDigit (base : Nat) (c : CodePoint) : Bool :=
  (digitValue? c).any (· < base)

/-- The number that a list of digits spells, the highest digit first. -/
def ofDigits (base : Nat) (ds : Text) : Nat :=
  ds.foldl (fun n c => n * base + (digitValue? c).getD 0) 0

/-- All digits of a number, without zeros in front. -/
def digits (base n : Nat) : Text :=
  (Nat.toDigits base n).map .char

/-- All digits of a number, with zeros in front until they fill the width. -/
def padded (base width n : Nat) : Text :=
  List.replicate (width - (digits base n).length) (.char '0') ++ digits base n

/-- The `width` lowest digits of a number. -/
def lowDigits (base : Nat) : (width n : Nat) → Text
  | 0, _ => []
  | width + 1, n => lowDigits base width (n / base) ++ [.char (Nat.digitChar (n % base))]

/-- An integer in decimal. -/
def decimal (n : Int) : Text :=
  if n < 0 then .char '-' :: digits 10 n.natAbs else digits 10 n.natAbs

/-- An integer in hexadecimal, with zeros between sign and digits until sign and digits together
fill the width. -/
def hexadecimal (width : Nat) (n : Int) : Text :=
  let sign : Text := if n < 0 then ['-'] else []
  let body := digits 16 n.natAbs
  sign ++ List.replicate (width - (sign.length + body.length)) (.char '0') ++ body

theorem length_digits (base n : Nat) : (digits base n).length = (Nat.toDigits base n).length :=
  List.length_map ..

theorem length_lowDigits (base width n : Nat) : (lowDigits base width n).length = width := by
  induction width generalizing n with
  | zero => rfl
  | succ width ih => simp [lowDigits, ih]

end Mips32.Numeral
