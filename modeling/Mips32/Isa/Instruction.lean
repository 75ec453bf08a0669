import Mips32.Isa.Mnemonic
import Mips32.Isa.Register

/-!
# Instructions

An instruction is an operation with its operands. The type leaves open what a branch and a jump
point at: a label name in source text, a field of the word in machine code. All other operands are
fields from the start, so between source text and machine code only the targets change.
-/

namespace Mips32

/-- An instruction whose branches point at a `β` and whose jump points at a `γ`. -/
inductive Instruction (β γ : Type) where
  | arith (op : ArithOp) (rd rs rt : Register)
  | variableShift (op : ShiftOp) (rd rt rs : Register)
  | shift (op : ShiftOp) (rd rt : Register) (amount : BitVec 5)
  | immediate (op : ImmediateOp) (rt rs : Register) (value : BitVec 16)
  | memory (op : MemoryOp) (rt base : Register) (offset : BitVec 16)
  | branchPair (test : PairTest) (rs rt : Register) (target : β)
  | branchSign (test : SignTest) (rs : Register) (target : β)
  | jump (target : γ)
  deriving DecidableEq, Repr

/-- An instruction of source text: targets are label names. -/
abbrev SymbolicInstruction := Instruction Text Text

/-- An instruction of machine code: a branch holds a signed distance in words, counted from the
instruction behind it, and a jump the low 26 bits of a word index. -/
abbrev MachineInstruction := Instruction (BitVec 16) (BitVec 26)

/-- The least value of a signed field of sixteen bits. -/
def halfwordLow : Int := -32768

/-- The greatest value of a signed field of sixteen bits. -/
def halfwordHigh : Int := 32767

namespace Instruction

/-- The operation of an instruction. -/
def mnemonic {β γ : Type} : Instruction β γ → Mnemonic
  | .arith op .. => .arith op
  | .variableShift op .. => .variableShift op
  | .shift op .. => .shift op
  | .immediate op .. => .immediate op
  | .memory op .. => .memory op
  | .branchPair test .. => .branchPair test
  | .branchSign test .. => .branchSign test
  | .jump .. => .jump

end Instruction

/-- The label that an instruction of source text names. -/
def SymbolicInstruction.label? : SymbolicInstruction → Option Text
  | .branchPair _ _ _ label | .branchSign _ _ label | .jump label => some label
  | _ => none

end Mips32
