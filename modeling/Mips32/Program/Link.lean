import Mips32.Address
import Mips32.Fault
import Mips32.Isa.Instruction
import Mips32.SymbolTable

/-!
# Linking

Linking gives an instruction at an address its targets: the label of a branch becomes the signed
distance in words from the instruction behind it, and the label of a jump becomes 26 bits of word
index. A branch too far away is a fault. A jump always has an index; `sameRegion` tells whether its
label is in the region of the jump itself, which is what a run warns by.
-/

namespace Mips32

namespace Address

/-- The distance of a branch at `pc` to a target, in words, cut off toward zero. -/
def branchDistance (pc target : Int) : Int :=
  Int.tdiv (target - pc - 4) 4

/-- The part of a target that a jump holds. -/
def jumpIndex (target : Int) : BitVec 26 :=
  BitVec.ofInt 26 (target / 4)

/-- The region of 256 megabytes that an address lies in: its bits 28 to 31. -/
def region (a : Int) : Int :=
  a / 0x10000000 % 16

/-- Whether a jump at `pc` and its target lie in one region. -/
def sameRegion (pc target : Int) : Bool :=
  region pc = region target

end Address

namespace SymbolicInstruction

/-- The address of a label that an instruction names. -/
def resolve (table : SymbolTable) (label : Text) : Except Fault Int :=
  match table.address? label with
  | some a => .ok a
  | none => .error (.undefinedLabel label)

/-- The field of a branch at `pc` to a label. -/
def branchField (table : SymbolTable) (pc : Int) (label : Text) : Except Fault (BitVec 16) := do
  let target ← resolve table label
  let distance := Address.branchDistance pc target
  if halfwordLow ≤ distance ∧ distance ≤ halfwordHigh then .ok (BitVec.ofInt 16 distance)
  else .error (.branchRange label distance)

/-- Links an instruction at `pc`. -/
def link (table : SymbolTable) (pc : Int) : SymbolicInstruction → Except Fault MachineInstruction
  | .arith op rd rs rt => .ok (.arith op rd rs rt)
  | .variableShift op rd rt rs => .ok (.variableShift op rd rt rs)
  | .shift op rd rt amount => .ok (.shift op rd rt amount)
  | .immediate op rt rs value => .ok (.immediate op rt rs value)
  | .memory op rt base offset => .ok (.memory op rt base offset)
  | .branchPair test rs rt label => (branchField table pc label).map (.branchPair test rs rt)
  | .branchSign test rs label => (branchField table pc label).map (.branchSign test rs)
  | .jump label => (resolve table label).map fun a => .jump (Address.jumpIndex a)

end SymbolicInstruction

end Mips32
