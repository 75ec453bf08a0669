import Mips32.Text.Basic

/-!
# The instruction set

Nineteen operations in eight formats. A format fixes the operands and their order in source text, so
an operation is a constructor for its format around what tells the operations of that format apart.
Variable shifts name the shifted register before the amount register, which is the one difference
between their format and that of the arithmetic operations.
-/

namespace Mips32

/-- Register arithmetic: `op rd, rs, rt`. -/
inductive ArithOp where
  | add | addu | sub | and | or
  deriving DecidableEq, Repr

/-- The direction of a shift. -/
inductive ShiftOp where
  | left | right
  deriving DecidableEq, Repr

/-- Arithmetic with a constant: `op rt, rs, value`. -/
inductive ImmediateOp where
  | addi | addiu | andi
  deriving DecidableEq, Repr

/-- Memory access: `op rt, offset(base)`. -/
inductive MemoryOp where
  | load | store
  deriving DecidableEq, Repr

/-- Comparison of two registers: `op rs, rt, label`. -/
inductive PairTest where
  | equal | unequal
  deriving DecidableEq, Repr

/-- Comparison of a register with zero: `op rs, label`. -/
inductive SignTest where
  | nonpositive | positive
  deriving DecidableEq, Repr

/-- An operation of the instruction set. -/
inductive Mnemonic where
  | arith (op : ArithOp)
  | variableShift (op : ShiftOp)
  | shift (op : ShiftOp)
  | immediate (op : ImmediateOp)
  | memory (op : MemoryOp)
  | branchPair (test : PairTest)
  | branchSign (test : SignTest)
  | jump
  deriving DecidableEq, Repr

namespace Mnemonic

/-- The name of an operation in source text. -/
def name : Mnemonic → Text
  | .arith .add => "add".text
  | .arith .addu => "addu".text
  | .arith .sub => "sub".text
  | .arith .and => "and".text
  | .arith .or => "or".text
  | .variableShift .left => "sllv".text
  | .variableShift .right => "srlv".text
  | .shift .left => "sll".text
  | .shift .right => "srl".text
  | .immediate .addi => "addi".text
  | .immediate .addiu => "addiu".text
  | .immediate .andi => "andi".text
  | .memory .load => "lw".text
  | .memory .store => "sw".text
  | .branchPair .equal => "beq".text
  | .branchPair .unequal => "bne".text
  | .branchSign .nonpositive => "blez".text
  | .branchSign .positive => "bgtz".text
  | .jump => "j".text

/-- Every operation once. -/
def all : List Mnemonic :=
  [.arith .add, .arith .addu, .arith .sub, .arith .and, .arith .or,
   .variableShift .left, .variableShift .right, .shift .left, .shift .right,
   .immediate .addi, .immediate .addiu, .immediate .andi, .memory .load, .memory .store,
   .branchPair .equal, .branchPair .unequal, .branchSign .nonpositive, .branchSign .positive, .jump]

/-- The operation with a name, which is written in lower case. -/
def ofName? (name : Text) : Option Mnemonic :=
  all.find? (·.name == name)

/-- How many operands an operation takes in source text. -/
def arity : Mnemonic → Nat
  | .arith _ | .variableShift _ | .shift _ | .immediate _ | .branchPair _ => 3
  | .memory _ | .branchSign _ => 2
  | .jump => 1

theorem mem_all (m : Mnemonic) : m ∈ all := by
  cases m with
  | jump => decide
  | _ op => cases op <;> decide

/-- A name names its operation. -/
theorem ofName?_name (m : Mnemonic) : ofName? m.name = some m := by
  cases m with
  | jump => decide
  | _ op => cases op <;> decide

/-- Only the name of an operation names it. -/
theorem name_of_ofName? {s : Text} {m : Mnemonic} (h : ofName? s = some m) : m.name = s := by
  simpa using List.find?_some h

/-- A text names no operation exactly if it is not the name of one. -/
theorem ofName?_eq_none_iff {s : Text} : ofName? s = none ↔ ∀ m : Mnemonic, s ≠ m.name := by
  constructor
  · rintro h m rfl
    rw [ofName?_name] at h
    cases h
  · intro h
    exact Option.eq_none_iff_forall_ne_some.2 fun m hm => h m (name_of_ofName? hm).symm

end Mnemonic

end Mips32
