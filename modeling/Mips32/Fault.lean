import Mips32.Isa.Mnemonic
import Mips32.Numeral.Literal

/-!
# Faults of a program

A `Fault` is a cause: what is wrong with a line, without the line. A `Diagnostic` is a fault at its
line, and is what a run reports. Beside the faults stands one other way to fail, `tooManyDigits`: a
numeral whose size alone is refused. It belongs to no line, and a run does not report it as a fault
of the program but stops.
-/

namespace Mips32

/-- What can be wrong with a line of source text. -/
inductive Fault where
  /-- A colon with no name before it. -/
  | emptyLabel
  /-- A label that an earlier line defines as well. -/
  | duplicateLabel (name : Text)
  /-- An instruction line of separators only. -/
  | emptyInstruction
  /-- A first token that is no operation. -/
  | unsupported (token : Text)
  /-- A wrong number of operands. -/
  | operandCount (mnemonic : Mnemonic) (count : Nat)
  /-- An operand that names no register. -/
  | unknownRegister (operand : Text)
  /-- A register number beyond the last register. -/
  | registerRange (operand : Text)
  /-- An operand that is no integer. -/
  | malformedInteger (operand : Text)
  /-- An integer outside the range of its field. -/
  | integerRange (operand : Text) (low high : Int)
  /-- An operand that is no offset and base register. -/
  | malformedMemory (operand : Text)
  /-- A label that no line defines. -/
  | undefinedLabel (name : Text)
  /-- A branch whose distance in words does not fit its field. -/
  | branchRange (label : Text) (distance : Int)
  deriving DecidableEq, Repr

namespace Fault

/-- The classes under which faults are reported. -/
inductive Kind where
  | unsupportedInstruction
  | malformedOperand
  | undefinedLabel
  | operandOutOfRange
  | duplicateLabel
  deriving DecidableEq, Repr

/-- The name of a class in a report. -/
def Kind.name : Kind → Text
  | .unsupportedInstruction => "UnsupportedInstruction".text
  | .malformedOperand => "MalformedOperand".text
  | .undefinedLabel => "UndefinedLabel".text
  | .operandOutOfRange => "OperandOutOfRange".text
  | .duplicateLabel => "DuplicateLabel".text

/-- The class of a fault. -/
def kind : Fault → Kind
  | .emptyLabel | .emptyInstruction | .operandCount .. | .unknownRegister _
  | .malformedInteger _ | .malformedMemory _ => .malformedOperand
  | .duplicateLabel _ => .duplicateLabel
  | .unsupported _ => .unsupportedInstruction
  | .registerRange _ | .integerRange .. | .branchRange .. => .operandOutOfRange
  | .undefinedLabel _ => .undefinedLabel

/-- The wording of a fault. -/
def message : Fault → Text
  | .emptyLabel => "Empty label name".text
  | .duplicateLabel name => "Duplicate label definition: ".text ++ name
  | .emptyInstruction => "Empty instruction".text
  | .unsupported token => "This instruction is not supported: '".text ++ token ++ [.char '\'']
  | .operandCount m count =>
    "Incorrect operand count for '".text ++ m.name ++ "'. Expected ".text ++
      Numeral.decimal m.arity ++ ", got ".text ++ Numeral.decimal count ++ [.char '.']
  | .unknownRegister operand => "Invalid register name: '".text ++ operand ++ [.char '\'']
  | .registerRange operand => "Register '".text ++ operand ++ "' out of range (0 to 31)".text
  | .malformedInteger operand => "Invalid immediate value: '".text ++ operand ++ [.char '\'']
  | .integerRange operand low high =>
    "Immediate '".text ++ operand ++ "' out of range (".text ++ Numeral.decimal low ++
      " to ".text ++ Numeral.decimal high ++ [.char ')']
  | .malformedMemory operand =>
    "Invalid memory operand format: '".text ++ operand ++
      "'. Expected 'offset($reg)' or '($reg)'.".text
  | .undefinedLabel name => "Undefined label: '".text ++ name ++ [.char '\'']
  | .branchRange label distance =>
    "Branch target '".text ++ label ++ "' (offset ".text ++ Numeral.decimal distance ++
      ") too far for 16-bit signed relative offset.".text

end Fault

/-- A fault at a line. The number zero stands for "no line number". -/
structure Diagnostic where
  fault : Fault
  line : Int
  text : Text
  deriving DecidableEq, Repr

/-- The fault with its place: the number and the text of the line, or the text alone, or neither. -/
def Diagnostic.message (d : Diagnostic) : Text :=
  if d.line ≠ 0 then
    "Line ".text ++ Numeral.decimal d.line ++ ": ".text ++ d.fault.message ++
      " in '".text ++ d.text ++ [.char '\'']
  else if d.text ≠ [] then d.fault.message ++ " in '".text ++ d.text ++ [.char '\'']
  else d.fault.message

/-- Why a computation over source text has no result: a fault, located or not, or a decimal numeral
of too many digits. -/
inductive Failure (ε : Type) where
  | fault (cause : ε)
  | tooManyDigits (count : Nat)
  deriving DecidableEq, Repr

namespace Failure

/-- Changes the fault and keeps the other failure. -/
def map {ε δ : Type} (f : ε → δ) : Failure ε → Failure δ
  | .fault cause => .fault (f cause)
  | .tooManyDigits count => .tooManyDigits count

/-- A literal that cannot be read, where `malformed` says what is wrong with one that is none. -/
def ofNumeral (malformed : Fault) : Numeral.Error → Failure Fault
  | .malformed => .fault malformed
  | .tooManyDigits count => .tooManyDigits count

/-- Puts a failure at a line. -/
def locate (line : Int) (text : Text) : Failure Fault → Failure Diagnostic :=
  map fun fault => ⟨fault, line, text⟩

end Failure

end Mips32
