import Mathlib.Algebra.Group.Int.Defs
import Mips32.Program.Words
import Mips32.Proofs.Outcome

/-!
# What a statement reads as

`Statement.Reads` relates a statement to the instruction that it spells, one constructor for each
format, and says of every field of the instruction which operand token it is read from. Fields are
numbers in a word but integers in source text; the relation states the integer that the reader
gives, so that nothing is lost where a number is put into its field.

* `instruction_eq_ok_iff`: reading a statement succeeds exactly if it is related to the result.
* `branchField_eq_ok_iff`: the field of a branch is the distance to its label, without a loss.
* `encodeLine_eq_ok_iff`: a line has a word exactly if it cuts into a statement that reads as an
  instruction that links.
-/

namespace Mips32

/-- An integer that a signed field of sixteen bits can hold is kept by it. -/
theorem toInt_ofInt_halfword {n : Int} (h : halfwordLow ≤ n ∧ n ≤ halfwordHigh) :
    (BitVec.ofInt 16 n).toInt = n := by
  obtain ⟨hlow, hhigh⟩ := h
  rw [BitVec.toInt_ofInt]
  apply Int.bmod_eq_of_le <;> simp only [halfwordLow, halfwordHigh] at hlow hhigh <;> omega

theorem halfword_bounds (v : BitVec 16) : halfwordLow ≤ v.toInt ∧ v.toInt ≤ halfwordHigh := by
  have hlow := BitVec.le_toInt v
  have hhigh := BitVec.toInt_lt (x := v)
  simp only [halfwordLow, halfwordHigh]
  omega

/-- The index that a jump holds is what 26 bits hold of the index of a word. -/
theorem Address.natCast_jumpIndex (target : Int) :
    ((jumpIndex target).toNat : Int) = target / 4 % 2 ^ 26 := by
  rw [jumpIndex, BitVec.toNat_ofInt]
  exact Int.toNat_of_nonneg (Int.emod_nonneg _ (by decide))

namespace Operand

/-- An integer operand is within its bounds. -/
theorem bounds_of_integer {low high : Int} {s : Text} {n : Int}
    (h : integer low high s = .ok n) : low ≤ n ∧ n ≤ high := by
  unfold integer at h
  split at h
  · split at h
    case isTrue hn =>
      cases h
      exact hn
    case isFalse => cases h
  · cases h

/-- The offset of a memory operand fits its field. -/
theorem bounds_of_memory {s : Text} {n : Int} {r : Register} (h : memory s = .ok (n, r)) :
    halfwordLow ≤ n ∧ n ≤ halfwordHigh := by
  unfold memory at h
  split at h
  · cases h
  · split at h
    case isTrue =>
      simp only [bind_eq_ok, pure_eq_ok] at h
      obtain ⟨m, hm, _, -, heq⟩ := h
      cases heq
      cases hm
      decide
    case isFalse =>
      simp only [bind_eq_ok, pure_eq_ok] at h
      obtain ⟨m, hm, _, -, heq⟩ := h
      cases heq
      exact bounds_of_integer hm

end Operand

namespace Statement

theorem halfword_eq_ok_iff {s : Text} {v : BitVec 16} :
    halfword s = .ok v ↔ Operand.integer halfwordLow halfwordHigh s = .ok v.toInt := by
  rw [halfword, map_eq_ok]
  constructor
  · rintro ⟨n, hn, rfl⟩
    rw [hn, toInt_ofInt_halfword (Operand.bounds_of_integer hn)]
  · exact fun h => ⟨_, h, BitVec.ofInt_toInt⟩

theorem shiftAmount_eq_ok_iff {s : Text} {v : BitVec 5} :
    shiftAmount s = .ok v ↔ Operand.integer 0 31 s = .ok v.toNat := by
  rw [shiftAmount, map_eq_ok]
  constructor
  · rintro ⟨n, hn, rfl⟩
    obtain ⟨hlow, hhigh⟩ := Operand.bounds_of_integer hn
    rw [hn, BitVec.toNat_ofInt, Int.emod_eq_of_lt hlow (by omega), Int.toNat_of_nonneg hlow]
  · exact fun h => ⟨_, h, by rw [BitVec.ofInt_natCast, BitVec.ofNat_toNat, BitVec.setWidth_eq]⟩

/-- A statement reads as an instruction: each token, in source order, gives its field. -/
inductive Reads : Statement → SymbolicInstruction → Prop
  | arith {op d s t rd rs rt} (hd : Operand.register d = .ok rd)
      (hs : Operand.register s = .ok rs) (ht : Operand.register t = .ok rt) :
      Reads ⟨.arith op, [d, s, t]⟩ (.arith op rd rs rt)
  | variableShift {op d t s rd rt rs} (hd : Operand.register d = .ok rd)
      (ht : Operand.register t = .ok rt) (hs : Operand.register s = .ok rs) :
      Reads ⟨.variableShift op, [d, t, s]⟩ (.variableShift op rd rt rs)
  | shift {op d t a rd rt} {amount : BitVec 5} (hd : Operand.register d = .ok rd)
      (ht : Operand.register t = .ok rt) (ha : Operand.integer 0 31 a = .ok amount.toNat) :
      Reads ⟨.shift op, [d, t, a]⟩ (.shift op rd rt amount)
  | immediate {op t s n rt rs} {value : BitVec 16} (ht : Operand.register t = .ok rt)
      (hs : Operand.register s = .ok rs)
      (hn : Operand.integer halfwordLow halfwordHigh n = .ok value.toInt) :
      Reads ⟨.immediate op, [t, s, n]⟩ (.immediate op rt rs value)
  | memory {op t a rt base} {offset : BitVec 16} (ht : Operand.register t = .ok rt)
      (ha : Operand.memory a = .ok (offset.toInt, base)) :
      Reads ⟨.memory op, [t, a]⟩ (.memory op rt base offset)
  | branchPair {test s t label rs rt} (hs : Operand.register s = .ok rs)
      (ht : Operand.register t = .ok rt) :
      Reads ⟨.branchPair test, [s, t, label]⟩ (.branchPair test rs rt label)
  | branchSign {test s label rs} (hs : Operand.register s = .ok rs) :
      Reads ⟨.branchSign test, [s, label]⟩ (.branchSign test rs label)
  | jump {label} : Reads ⟨.jump, [label]⟩ (.jump label)

theorem reads_of_instruction {s : Statement} {i : SymbolicInstruction}
    (h : s.instruction = .ok i) : s.Reads i := by
  unfold instruction at h
  split at h
  · simp only [bind_eq_ok, pure_eq_ok] at h
    obtain ⟨rd, hd, rs, hs, rt, ht, rfl⟩ := h
    exact .arith hd hs ht
  · simp only [bind_eq_ok, pure_eq_ok] at h
    obtain ⟨rd, hd, rt, ht, rs, hs, rfl⟩ := h
    exact .variableShift hd ht hs
  · simp only [bind_eq_ok, pure_eq_ok, shiftAmount_eq_ok_iff] at h
    obtain ⟨rd, hd, rt, ht, amount, ha, rfl⟩ := h
    exact .shift hd ht ha
  · simp only [bind_eq_ok, pure_eq_ok, halfword_eq_ok_iff] at h
    obtain ⟨rt, ht, rs, hs, value, hn, rfl⟩ := h
    exact .immediate ht hs hn
  · simp only [bind_eq_ok, pure_eq_ok] at h
    obtain ⟨rt, ht, ⟨n, base⟩, ha, rfl⟩ := h
    refine .memory ht ?_
    rw [ha, toInt_ofInt_halfword (Operand.bounds_of_memory ha)]
  · simp only [bind_eq_ok, pure_eq_ok] at h
    obtain ⟨rs, hs, rt, ht, rfl⟩ := h
    exact .branchPair hs ht
  · simp only [bind_eq_ok, pure_eq_ok] at h
    obtain ⟨rs, hs, rfl⟩ := h
    exact .branchSign hs
  · cases h
    exact .jump
  · cases h

/-- Reading succeeds exactly with the instruction that the statement spells. -/
theorem instruction_eq_ok_iff {s : Statement} {i : SymbolicInstruction} :
    s.instruction = .ok i ↔ s.Reads i := by
  refine ⟨reads_of_instruction, fun h => ?_⟩
  cases h with
  | arith hd hs ht => simp [instruction, hd, hs, ht, bind, Except.bind, pure, Except.pure]
  | variableShift hd ht hs => simp [instruction, hd, hs, ht, bind, Except.bind, pure, Except.pure]
  | shift hd ht ha =>
    rw [← shiftAmount_eq_ok_iff] at ha
    simp [instruction, hd, ht, ha, bind, Except.bind, pure, Except.pure]
  | immediate ht hs hn =>
    rw [← halfword_eq_ok_iff] at hn
    simp [instruction, hs, ht, hn, bind, Except.bind, pure, Except.pure]
  | memory ht ha => simp [instruction, ht, ha, bind, Except.bind, pure, Except.pure]
  | branchPair hs ht => simp [instruction, hs, ht, bind, Except.bind, pure, Except.pure]
  | branchSign hs => simp [instruction, hs, bind, Except.bind, pure, Except.pure]
  | jump => rfl

end Statement

namespace SymbolicInstruction

theorem resolve_eq_ok_iff {table : SymbolTable} {label : Text} {a : Int} :
    resolve table label = .ok a ↔ table.address? label = some a := by
  unfold resolve
  split <;> simp_all

/-- A branch has a field exactly if its label is defined and the field holds the distance to it. -/
theorem branchField_eq_ok_iff {table : SymbolTable} {pc : Int} {label : Text} {d : BitVec 16} :
    branchField table pc label = .ok d ↔
      ∃ target, table.address? label = some target ∧
        d.toInt = Address.branchDistance pc target := by
  simp only [branchField, bind_eq_ok, resolve_eq_ok_iff]
  refine exists_congr fun target => and_congr_right fun _ => ?_
  constructor
  · intro h
    split at h
    case isTrue hrange =>
      cases h
      exact toInt_ofInt_halfword hrange
    case isFalse => cases h
  · intro h
    rw [← h, if_pos (halfword_bounds d), BitVec.ofInt_toInt]

end SymbolicInstruction

/-- A statement that reads as an instruction is encoded as this instruction is linked. -/
theorem encodeLine_of_reads {table : SymbolTable} {pc : Int} {line : Text} {s : Statement}
    {i : SymbolicInstruction} (hs : Statement.parse line = .ok s) (h : s.Reads i) :
    encodeLine table pc line =
      ((i.link table pc).mapError .fault).map MachineInstruction.encode := by
  rw [encodeLine, hs]
  show s.instruction >>= _ = _
  rw [Statement.instruction_eq_ok_iff.2 h]
  show Except.mapError _ (i.link table pc) >>= _ = _
  cases i.link table pc <;> rfl

/-- A line has a word exactly if it cuts into a statement that reads as an instruction that links,
and then the word is the encoding of the linked instruction. -/
theorem encodeLine_eq_ok_iff {table : SymbolTable} {pc : Int} {line : Text} {w : Word} :
    encodeLine table pc line = .ok w ↔
      ∃ s i m, Statement.parse line = .ok s ∧ s.Reads i ∧
        SymbolicInstruction.link table pc i = .ok m ∧ MachineInstruction.encode m = w := by
  simp only [encodeLine, bind_eq_ok, mapError_eq_ok, pure_eq_ok, Statement.instruction_eq_ok_iff]
  grind

end Mips32
