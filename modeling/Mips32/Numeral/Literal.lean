import Mips32.Numeral.Digits
import Mips32.Text.DecimalDigit

/-!
# Integer literals

Two literal forms are read, and plain decimals. An operand is an optional sign and then ASCII
decimal digits, or `0x` and hexadecimal digits. An address is written more freely: binary, octal and
hexadecimal marks, single underscores between digits, and decimal digits of any script, but no zero
in front of a decimal.

Decimal numerals of more than `digitLimit` digits are refused in all forms, and that refusal is
kept apart from "this is no numeral": the limit speaks of the size of a well-begun numeral and is
never a fault of the program text.
-/

namespace Mips32.Numeral

/-- Why a literal has no value. -/
inductive Error where
  /-- The text is no literal. -/
  | malformed
  /-- A decimal numeral of this many digits is not converted. -/
  | tooManyDigits (count : Nat)
  deriving DecidableEq, Repr

/-- The largest count of decimal digits that is converted; zeros in front count. -/
def digitLimit : Nat := 4300

/-- What is said about a decimal numeral beyond the limit. -/
def tooManyDigitsMessage (count : Nat) : Text :=
  "Exceeds the limit (".text ++ decimal digitLimit ++
    " digits) for integer string conversion: value has ".text ++ decimal count ++
    " digits; use sys.set_int_max_str_digits() to increase the limit".text

/-- Splits a leading sign off; `true` stands for minus. -/
def splitSign : Text → Bool × Text
  | '+' :: r => (false, r)
  | '-' :: r => (true, r)
  | r => (false, r)

/-- The number with the sign that was split off. -/
def withSign (negative : Bool) (n : Nat) : Int :=
  if negative then -(n : Int) else n

/-- The value of decimal digits, if there are not too many. -/
def ofDecimal (ds : Text) : Except Error Nat :=
  if digitLimit < ds.length then .error (.tooManyDigits ds.length) else .ok (ofDigits 10 ds)

/-- The digits behind `0x` or `0X`, if `s` is such a hexadecimal numeral. -/
def hexDigits? : Text → Option Text
  | '0' :: x :: ds =>
    if (x = 'x' ∨ x = 'X') ∧ ds ≠ [] ∧ ds.all (isDigit 16) then some ds else none
  | _ => none

/-- Whether `s` is a decimal numeral of ASCII digits. -/
def isDecimal (s : Text) : Bool :=
  !s.isEmpty && s.all (isDigit 10)

/-- Whether `s` is an operand literal: `[+-]`, then `0x` with hexadecimal digits or decimal digits.
-/
def isOperand (s : Text) : Bool :=
  let body := (splitSign s).2
  (hexDigits? body).isSome || isDecimal body

/-- Reads an operand literal. -/
def readOperand (s : Text) : Except Error Int :=
  let (negative, body) := splitSign s
  match hexDigits? body with
  | some ds => .ok (withSign negative (ofDigits 16 ds))
  | none =>
    if isDecimal body then (ofDecimal body).map (withSign negative) else .error .malformed

/-- A text has the form of an operand literal exactly if reading it does not call it malformed. -/
theorem isOperand_eq_false_iff {s : Text} :
    isOperand s = false ↔ readOperand s = .error .malformed := by
  cases hx : hexDigits? (splitSign s).2 with
  | some ds => simp [isOperand, readOperand, hx]
  | none =>
    by_cases hd : isDecimal (splitSign s).2 = true
    · by_cases hl : digitLimit < (splitSign s).2.length <;>
        simp [isOperand, readOperand, hx, hd, hl, ofDecimal, Except.map]
    · simp [isOperand, readOperand, hx, hd]

/-- Whether underscores stand only between two other characters. -/
def grouped : Text → Bool
  | [] => true
  | ['_'] => false
  | '_' :: '_' :: _ => false
  | _ :: r => grouped r

/-- Reads digits of a base with single underscores between them, to the end of `s`. The limit on
decimal digits is looked at before what stands behind the digits. -/
def readDigits (base : Nat) (s : Text) : Except Error Nat :=
  let isBody : CodePoint → Bool := fun c => isDigit base c || c == '_'
  let body := s.takeWhile isBody
  let ds := body.filter (· != .char '_')
  if body.head? = some (.char '_') ∨ grouped body = false then .error .malformed
  else if base = 10 ∧ digitLimit < ds.length then .error (.tooManyDigits ds.length)
  else if ds = [] ∨ s.dropWhile isBody ≠ [] then .error .malformed
  else .ok (ofDigits base ds)

/-- Drops one underscore in front. -/
def dropUnderscore : Text → Text
  | '_' :: r => r
  | r => r

/-- Reads a numeral without sign whose base is told by its mark. A decimal with a zero in front is
accepted only if it is zero. -/
def readMarked : Text → Except Error Nat
  | '0' :: m :: r =>
    if m = 'x' ∨ m = 'X' then readDigits 16 (dropUnderscore r)
    else if m = 'o' ∨ m = 'O' then readDigits 8 (dropUnderscore r)
    else if m = 'b' ∨ m = 'B' then readDigits 2 (dropUnderscore r)
    else
      match readDigits 10 (.char '0' :: m :: r) with
      | .ok 0 => .ok 0
      | .ok _ => .error .malformed
      | .error e => .error e
  | s => readDigits 10 s

/-- A decimal digit of any script as the ASCII digit of the same worth; any other character beyond
ASCII as one that no literal holds. -/
def asciiDigit (c : CodePoint) : CodePoint :=
  if c.toNat < 128 then c
  else
    match Text.decimalDigit? c with
    | some d => .char (Nat.digitChar d)
    | none => '?'

/-- Reads a decimal of any script with single underscores between its digits, a sign in front of
them and blanks around them. Zeros may stand in front. The four information separators are no blanks
here. -/
def readDecimal (s : Text) : Except Error Int :=
  if s.any fun c => 28 ≤ c.toNat && c.toNat ≤ 31 then .error .malformed
  else
    let (negative, body) := splitSign ((Text.trim s).map asciiDigit)
    (readDigits 10 body).map (withSign negative)

/-- Reads an address literal, of which the blanks at both ends are gone already. -/
def readFree (s : Text) : Except Error Int :=
  let (negative, body) := splitSign (s.map asciiDigit)
  (readMarked body).map (withSign negative)

end Mips32.Numeral
