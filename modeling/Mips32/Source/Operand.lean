import Mips32.Fault
import Mips32.Isa.Instruction
import Mips32.Text.Case

/-!
# Operands

Registers, integers and memory operands are read from one token each. A token from a line never
holds a line feed; a reader here still takes one line feed at the end of its text and passes over
it.

The order of the checks is the order in which faults are reported: first the form, then the count of
digits, then the range. In a memory operand the offset comes before the register.
-/

namespace Mips32.Operand

/-- The decimal digits of a numeric register, if `s` is one. -/
def registerDigits? : Text → Option Text
  | '$' :: ds => if Numeral.isDecimal ds then some ds else none
  | _ => none

/-- Reads a register: a dollar sign with a number, or a conventional name in any letter case. -/
def register (s : Text) : Except (Failure Fault) Register :=
  match registerDigits? (Text.dropFinalNewline s) with
  | some ds =>
    match Numeral.ofDecimal ds with
    | .ok n => if n < 32 then .ok (BitVec.ofNat 5 n) else .error (.fault (.registerRange s))
    | .error e => .error (.ofNumeral (.unknownRegister s) e)
  | none =>
    match Register.ofName? (Text.lower s) with
    | some r => .ok r
    | none => .error (.fault (.unknownRegister s))

/-- Reads an integer between two bounds. -/
def integer (low high : Int) (s : Text) : Except (Failure Fault) Int :=
  match Numeral.readOperand (Text.dropFinalNewline s) with
  | .ok n => if low ≤ n ∧ n ≤ high then .ok n else .error (.fault (.integerRange s low high))
  | .error e => .error (.ofNumeral (.malformedInteger s) e)

/-- The characters of the word in a base register: ASCII letters, digits and the underscore. -/
def isWordChar (c : CodePoint) : Bool :=
  c.isAlphanum || c == '_'

/-- The base register between parentheses, the opening one being gone already. ASCII blanks may
stand around it. -/
def baseText? (s : Text) : Option Text :=
  match s.dropWhile Text.isNarrowBlank with
  | '$' :: r =>
    let word := r.takeWhile isWordChar
    if word ≠ [] ∧ (r.dropWhile isWordChar).dropWhile Text.isNarrowBlank = [.char ')'] then
      some (.char '$' :: word)
    else none
  | _ => none

/-- Splits `offset(base)` or `(base)` into the text of the offset and that of the base. -/
def memoryTexts? (s : Text) : Option (Text × Text) :=
  let offset := s.takeWhile (· != .char '(')
  match s.dropWhile (· != .char '(') with
  | [] => none
  | _ :: r =>
    if offset = [] ∨ Numeral.isOperand offset then (baseText? r).map (offset, ·) else none

/-- Reads a memory operand into its offset and its base register. An offset left out is zero. -/
def memory (s : Text) : Except (Failure Fault) (Int × Register) :=
  match memoryTexts? (Text.dropFinalNewline s) with
  | none => .error (.fault (.malformedMemory s))
  | some (offset, base) => do
    let n ← if offset = [] then .ok 0 else integer halfwordLow halfwordHigh offset
    let r ← register base
    return (n, r)

end Mips32.Operand
