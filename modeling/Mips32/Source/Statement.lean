import Mips32.Source.Line
import Mips32.Source.Operand

/-!
# Statements

A statement is an instruction line cut into an operation and operand tokens. `parse` makes it from a
line, behind whose label it starts; `instruction` reads the tokens, from left to right, into an
instruction whose targets are still names.
-/

namespace Mips32

/-- An operation with its operand tokens. -/
structure Statement where
  mnemonic : Mnemonic
  operands : List Text
  deriving DecidableEq, Repr

namespace Statement

/-- Tokens are separated by blanks and commas in any mixture. -/
def isSeparator (c : CodePoint) : Bool :=
  Text.isBlank c || c == ','

/-- The text of a line behind its label. -/
def bodyOf (line : Text) : Text :=
  let s := Text.trim line
  match Line.splitLabel? s with
  | some (_, body) => body
  | none => s

/-- The statement that a list of tokens makes. -/
def ofTokens : List Text → Except Fault Statement
  | [] => .error .emptyInstruction
  | token :: operands =>
    match Mnemonic.ofName? (Text.lower token) with
    | some m => .ok ⟨m, operands⟩
    | none => .error (.unsupported token)

/-- Cuts a line into a statement. -/
def parse (line : Text) : Except Fault Statement :=
  ofTokens (Text.runs isSeparator (bodyOf line))

/-- A signed constant of sixteen bits. -/
def halfword (s : Text) : Except (Failure Fault) (BitVec 16) :=
  (Operand.integer halfwordLow halfwordHigh s).map (BitVec.ofInt 16)

/-- A shift amount. -/
def shiftAmount (s : Text) : Except (Failure Fault) (BitVec 5) :=
  (Operand.integer 0 31 s).map (BitVec.ofInt 5)

/-- Reads the operands in their order in source text. -/
def instruction : Statement → Except (Failure Fault) SymbolicInstruction
  | ⟨.arith op, [d, s, t]⟩ => do
    let rd ← Operand.register d
    let rs ← Operand.register s
    let rt ← Operand.register t
    return .arith op rd rs rt
  | ⟨.variableShift op, [d, t, s]⟩ => do
    let rd ← Operand.register d
    let rt ← Operand.register t
    let rs ← Operand.register s
    return .variableShift op rd rt rs
  | ⟨.shift op, [d, t, a]⟩ => do
    let rd ← Operand.register d
    let rt ← Operand.register t
    let amount ← shiftAmount a
    return .shift op rd rt amount
  | ⟨.immediate op, [t, s, i]⟩ => do
    let rt ← Operand.register t
    let rs ← Operand.register s
    let value ← halfword i
    return .immediate op rt rs value
  | ⟨.memory op, [t, a]⟩ => do
    let rt ← Operand.register t
    let (offset, base) ← Operand.memory a
    return .memory op rt base (BitVec.ofInt 16 offset)
  | ⟨.branchPair test, [s, t, label]⟩ => do
    let rs ← Operand.register s
    let rt ← Operand.register t
    return .branchPair test rs rt label
  | ⟨.branchSign test, [s, label]⟩ => do
    let rs ← Operand.register s
    return .branchSign test rs label
  | ⟨.jump, [label]⟩ => .ok (.jump label)
  | ⟨m, operands⟩ => .error (.fault (.operandCount m operands.length))

end Statement

end Mips32
