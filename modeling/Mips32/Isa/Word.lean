import Mips32.Isa.Instruction

/-!
# Machine words

A word has 32 bits in one of three layouts, all with the opcode in the highest six:

* register layout: opcode 0, `rs`, `rt`, `rd`, shift amount, function code;
* immediate layout: opcode, `rs`, `rt`, sixteen bits of constant, offset or branch distance;
* jump layout: opcode, 26 bits of word index.

`encode` puts the fields side by side, so they can neither overlap nor spill. `decode` reads them
back by position and refuses a word in which a field that the operation does not use is not zero.
`decode_encode` and `encode_of_decode` say that the two are inverse to each other: a word is the
encoding of an instruction exactly if it decodes to it.
-/

namespace Mips32

/-- A machine word. -/
abbrev Word := BitVec 32

/-! ## Operation codes -/

/-- The function code of an arithmetic operation. -/
def ArithOp.funct : ArithOp → BitVec 6
  | .add => 0x20
  | .addu => 0x21
  | .sub => 0x22
  | .and => 0x24
  | .or => 0x25

/-- The function code of a shift by a constant. -/
def ShiftOp.funct : ShiftOp → BitVec 6
  | .left => 0x00
  | .right => 0x02

/-- The function code of a shift by a register. -/
def ShiftOp.variableFunct : ShiftOp → BitVec 6
  | .left => 0x04
  | .right => 0x06

def ImmediateOp.opcode : ImmediateOp → BitVec 6
  | .addi => 0x08
  | .addiu => 0x09
  | .andi => 0x0c

def MemoryOp.opcode : MemoryOp → BitVec 6
  | .load => 0x23
  | .store => 0x2b

def PairTest.opcode : PairTest → BitVec 6
  | .equal => 0x04
  | .unequal => 0x05

def SignTest.opcode : SignTest → BitVec 6
  | .nonpositive => 0x06
  | .positive => 0x07

/-- The opcode of the jump. -/
def jumpOpcode : BitVec 6 := 0x02

namespace Word

/-! ## Layouts -/

/-- A word in register layout. -/
def ofRegisters (rs rt rd amount : BitVec 5) (funct : BitVec 6) : Word :=
  0#6 ++ rs ++ rt ++ rd ++ amount ++ funct

/-- A word in immediate layout. -/
def ofImmediate (opcode : BitVec 6) (rs rt : BitVec 5) (low : BitVec 16) : Word :=
  opcode ++ rs ++ rt ++ low

/-- A word in jump layout. -/
def ofIndex (opcode : BitVec 6) (index : BitVec 26) : Word :=
  opcode ++ index

/-! ## Fields -/

def opcode (w : Word) : BitVec 6 := w.extractLsb' 26 6
def rs (w : Word) : BitVec 5 := w.extractLsb' 21 5
def rt (w : Word) : BitVec 5 := w.extractLsb' 16 5
def rd (w : Word) : BitVec 5 := w.extractLsb' 11 5
def amount (w : Word) : BitVec 5 := w.extractLsb' 6 5
def funct (w : Word) : BitVec 6 := w.extractLsb' 0 6
def low (w : Word) : BitVec 16 := w.extractLsb' 0 16
def index (w : Word) : BitVec 26 := w.extractLsb' 0 26

end Word

/-! ## Encoding and decoding -/

namespace MachineInstruction

/-- The word of an instruction. Fields that the operation does not use are zero. -/
def encode : MachineInstruction → Word
  | .arith op rd rs rt => .ofRegisters rs rt rd 0 op.funct
  | .variableShift op rd rt rs => .ofRegisters rs rt rd 0 op.variableFunct
  | .shift op rd rt amount => .ofRegisters 0 rt rd amount op.funct
  | .immediate op rt rs value => .ofImmediate op.opcode rs rt value
  | .memory op rt base offset => .ofImmediate op.opcode base rt offset
  | .branchPair test rs rt target => .ofImmediate test.opcode rs rt target
  | .branchSign test rs target => .ofImmediate test.opcode rs 0 target
  | .jump target => .ofIndex jumpOpcode target

/-- Reads a word in register layout. -/
def decodeRegisters (w : Word) : Option MachineInstruction :=
  let arith (op : ArithOp) := if w.amount = 0 then some (.arith op w.rd w.rs w.rt) else none
  let byRegister (op : ShiftOp) :=
    if w.amount = 0 then some (.variableShift op w.rd w.rt w.rs) else none
  let byConstant (op : ShiftOp) := if w.rs = 0 then some (.shift op w.rd w.rt w.amount) else none
  if w.funct = 0x20 then arith .add
  else if w.funct = 0x21 then arith .addu
  else if w.funct = 0x22 then arith .sub
  else if w.funct = 0x24 then arith .and
  else if w.funct = 0x25 then arith .or
  else if w.funct = 0x04 then byRegister .left
  else if w.funct = 0x06 then byRegister .right
  else if w.funct = 0x00 then byConstant .left
  else if w.funct = 0x02 then byConstant .right
  else none

/-- Reads a word in immediate layout whose low half is a distance in words. -/
def decodeBranch (w : Word) : Option MachineInstruction :=
  if w.opcode = 0x04 then some (.branchPair .equal w.rs w.rt w.low)
  else if w.opcode = 0x05 then some (.branchPair .unequal w.rs w.rt w.low)
  else if w.opcode = 0x06 ∧ w.rt = 0 then some (.branchSign .nonpositive w.rs w.low)
  else if w.opcode = 0x07 ∧ w.rt = 0 then some (.branchSign .positive w.rs w.low)
  else none

/-- Reads a word in immediate layout whose low half is a number. -/
def decodeConstant (w : Word) : Option MachineInstruction :=
  if w.opcode = 0x08 then some (.immediate .addi w.rt w.rs w.low)
  else if w.opcode = 0x09 then some (.immediate .addiu w.rt w.rs w.low)
  else if w.opcode = 0x0c then some (.immediate .andi w.rt w.rs w.low)
  else if w.opcode = 0x23 then some (.memory .load w.rt w.rs w.low)
  else if w.opcode = 0x2b then some (.memory .store w.rt w.rs w.low)
  else none

/-- The instruction that a word is the encoding of, if there is one. -/
def decode (w : Word) : Option MachineInstruction :=
  if w.opcode = 0x00 then decodeRegisters w
  else if w.opcode = jumpOpcode then some (.jump w.index)
  else (decodeBranch w).or (decodeConstant w)

end MachineInstruction

/-! ## Reading fields back -/

namespace Word

theorem fields_ofRegisters (rs rt rd amount : BitVec 5) (funct : BitVec 6) :
    let w := ofRegisters rs rt rd amount funct
    w.opcode = 0 ∧ w.rs = rs ∧ w.rt = rt ∧ w.rd = rd ∧ w.amount = amount ∧ w.funct = funct := by
  refine ⟨?_, ?_, ?_, ?_, ?_, ?_⟩ <;>
  · apply BitVec.eq_of_getLsbD_eq
    intro i hi
    simp only [opcode, Word.rs, Word.rt, Word.rd, Word.amount, Word.funct, ofRegisters,
      BitVec.getLsbD_extractLsb', BitVec.getLsbD_append]
    grind

theorem fields_ofImmediate (opcode : BitVec 6) (rs rt : BitVec 5) (low : BitVec 16) :
    let w := ofImmediate opcode rs rt low
    w.opcode = opcode ∧ w.rs = rs ∧ w.rt = rt ∧ w.low = low := by
  refine ⟨?_, ?_, ?_, ?_⟩ <;>
  · apply BitVec.eq_of_getLsbD_eq
    intro i hi
    simp only [Word.opcode, Word.rs, Word.rt, Word.low, ofImmediate,
      BitVec.getLsbD_extractLsb', BitVec.getLsbD_append]
    grind

theorem fields_ofIndex (opcode : BitVec 6) (index : BitVec 26) :
    let w := ofIndex opcode index
    w.opcode = opcode ∧ w.index = index := by
  refine ⟨?_, ?_⟩ <;>
  · apply BitVec.eq_of_getLsbD_eq
    intro i hi
    simp only [Word.opcode, Word.index, ofIndex, BitVec.getLsbD_extractLsb',
      BitVec.getLsbD_append]
    grind

/-- A word with opcode zero is its fields in register layout. -/
theorem ofRegisters_fields {w : Word} (h : w.opcode = 0) :
    ofRegisters w.rs w.rt w.rd w.amount w.funct = w := by
  apply BitVec.eq_of_getLsbD_eq
  intro i hi
  have top : ∀ j, j < 6 → w.getLsbD (26 + j) = false := by
    intro j hj
    have := congrArg (·.getLsbD j) h
    simpa [Word.opcode, BitVec.getLsbD_extractLsb', hj] using this
  have := top (i - 26)
  simp only [Word.rs, Word.rt, Word.rd, Word.amount, Word.funct, ofRegisters,
    BitVec.getLsbD_extractLsb', BitVec.getLsbD_append, BitVec.getLsbD_zero]
  grind

/-- Every word is its fields in immediate layout. -/
theorem ofImmediate_fields (w : Word) : ofImmediate w.opcode w.rs w.rt w.low = w := by
  apply BitVec.eq_of_getLsbD_eq
  intro i hi
  simp only [Word.opcode, Word.rs, Word.rt, Word.low, ofImmediate, BitVec.getLsbD_extractLsb',
    BitVec.getLsbD_append]
  grind

/-- Every word is its fields in jump layout. -/
theorem ofIndex_fields (w : Word) : ofIndex w.opcode w.index = w := by
  apply BitVec.eq_of_getLsbD_eq
  intro i hi
  simp only [Word.opcode, Word.index, ofIndex, BitVec.getLsbD_extractLsb', BitVec.getLsbD_append]
  grind

end Word

/-! ## Encoding and decoding are inverse to each other -/

namespace MachineInstruction

/-- Decoding gives back every instruction. -/
theorem decode_encode (i : MachineInstruction) : decode (encode i) = some i := by
  cases i with
  | arith op rd rs rt =>
    obtain ⟨h0, h1, h2, h3, h4, h5⟩ := Word.fields_ofRegisters rs rt rd 0 op.funct
    cases op <;> simp_all [encode, decode, decodeRegisters, ArithOp.funct]
  | variableShift op rd rt rs =>
    obtain ⟨h0, h1, h2, h3, h4, h5⟩ := Word.fields_ofRegisters rs rt rd 0 op.variableFunct
    cases op <;> simp_all [encode, decode, decodeRegisters, ShiftOp.variableFunct]
  | shift op rd rt amount =>
    obtain ⟨h0, h1, h2, h3, h4, h5⟩ := Word.fields_ofRegisters 0 rt rd amount op.funct
    cases op <;> simp_all [encode, decode, decodeRegisters, ShiftOp.funct]
  | immediate op rt rs value =>
    obtain ⟨h0, h1, h2, h3⟩ := Word.fields_ofImmediate op.opcode rs rt value
    cases op <;>
      simp_all [encode, decode, decodeBranch, decodeConstant, jumpOpcode, ImmediateOp.opcode]
  | memory op rt base offset =>
    obtain ⟨h0, h1, h2, h3⟩ := Word.fields_ofImmediate op.opcode base rt offset
    cases op <;>
      simp_all [encode, decode, decodeBranch, decodeConstant, jumpOpcode, MemoryOp.opcode]
  | branchPair test rs rt target =>
    obtain ⟨h0, h1, h2, h3⟩ := Word.fields_ofImmediate test.opcode rs rt target
    cases test <;> simp_all [encode, decode, decodeBranch, jumpOpcode, PairTest.opcode]
  | branchSign test rs target =>
    obtain ⟨h0, h1, h2, h3⟩ := Word.fields_ofImmediate test.opcode rs 0 target
    cases test <;> simp_all [encode, decode, decodeBranch, jumpOpcode, SignTest.opcode]
  | jump target =>
    obtain ⟨h0, h1⟩ := Word.fields_ofIndex jumpOpcode target
    simp_all [encode, decode, jumpOpcode]

theorem encode_of_decodeRegisters {w : Word} {i : MachineInstruction} (ho : w.opcode = 0)
    (h : decodeRegisters w = some i) : encode i = w := by
  have hw := Word.ofRegisters_fields ho
  simp only [decodeRegisters] at h
  grind -ext [encode, ArithOp.funct, ShiftOp.funct, ShiftOp.variableFunct]

theorem encode_of_decodeBranch {w : Word} {i : MachineInstruction} (h : decodeBranch w = some i) :
    encode i = w := by
  have hw := Word.ofImmediate_fields w
  simp only [decodeBranch] at h
  grind -ext [encode, PairTest.opcode, SignTest.opcode]

theorem encode_of_decodeConstant {w : Word} {i : MachineInstruction}
    (h : decodeConstant w = some i) : encode i = w := by
  have hw := Word.ofImmediate_fields w
  simp only [decodeConstant] at h
  grind -ext [encode, ImmediateOp.opcode, MemoryOp.opcode]

/-- Only the encoding of an instruction decodes to it. -/
theorem encode_of_decode {w : Word} {i : MachineInstruction} (h : decode w = some i) :
    encode i = w := by
  unfold decode at h
  split at h
  · exact encode_of_decodeRegisters ‹_› h
  · split at h
    · have hj := Word.ofIndex_fields w
      cases h
      simpa [encode, ← ‹w.opcode = jumpOpcode›] using hj
    · rcases Option.or_eq_some_iff.1 h with h | ⟨-, h⟩
      · exact encode_of_decodeBranch h
      · exact encode_of_decodeConstant h

end MachineInstruction

end Mips32
