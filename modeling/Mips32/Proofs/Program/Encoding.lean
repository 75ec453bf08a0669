import Mips32.Proofs.Program.Branch
import Mips32.Proofs.Source.Spelling

/-!
# One word for all spellings

The word of an instruction depends on the operation, the numbers of its operands, and the address of
its label, and on nothing else: `encodeLine_of_writtenAs` says that all lines that an instruction is
written as have one word, and that it holds these numbers. The spellings are undone by reading
(`parse_of_writtenAs`, `reads_of_operandsWrittenAs`); what is left is that an instruction links as
soon as its label is in the table, and near enough for a branch (`exists_link`).

Zeros in front of a number do not count as long as the number is converted at all. A line with too
many of them has no word (`encodeLine_overlongLine`).
-/

namespace Mips32

namespace SymbolicInstruction

/-- The numbers of an instruction at `pc` whose label is at `target`. A branch holds the distance in
words from the instruction behind it, and a jump the low 26 bits of the word index. -/
def numbers (pc target : Int) : SymbolicInstruction → Fields
  | .arith _ rd rs rt => [(.rd, rd.toNat), (.rs, rs.toNat), (.rt, rt.toNat)]
  | .variableShift _ rd rt rs => [(.rd, rd.toNat), (.rt, rt.toNat), (.rs, rs.toNat)]
  | .shift _ rd rt amount => [(.rd, rd.toNat), (.rt, rt.toNat), (.amount, amount.toNat)]
  | .immediate _ rt rs value => [(.rt, rt.toNat), (.rs, rs.toNat), (.low, value.toInt)]
  | .memory _ rt base offset => [(.rt, rt.toNat), (.low, offset.toInt), (.rs, base.toNat)]
  | .branchPair _ rs rt _ =>
    [(.rs, rs.toNat), (.rt, rt.toNat), (.low, Int.tdiv (target - pc - 4) 4)]
  | .branchSign _ rs _ => [(.rs, rs.toNat), (.low, Int.tdiv (target - pc - 4) 4)]
  | .jump _ => [(.index, target / 4 % 2 ^ 26)]

/-- An instruction whose label is in the table, and near for a branch, links to its numbers. -/
theorem exists_link {i : SymbolicInstruction} {table : SymbolTable} {pc target : Int}
    (hlabel : ∀ label, i.label? = some label → table.address? label = some target)
    (hnear : i.mnemonic.isBranch = true →
      -32768 ≤ Int.tdiv (target - pc - 4) 4 ∧ Int.tdiv (target - pc - 4) 4 ≤ 32767) :
    ∃ m, i.link table pc = .ok m ∧ m.mnemonic = i.mnemonic ∧ m.fields = i.numbers pc target := by
  -- The field of a branch is the distance, which fits.
  have hfield : ∀ {label}, table.address? label = some target →
      -32768 ≤ Int.tdiv (target - pc - 4) 4 ∧ Int.tdiv (target - pc - 4) 4 ≤ 32767 →
      ∃ d, branchField table pc label = .ok d ∧ d.toInt = Int.tdiv (target - pc - 4) 4 :=
    fun htarget hrange => ⟨_, branchField_eq_ok_iff.2 ⟨target, htarget,
      toInt_ofInt_halfword hrange⟩, toInt_ofInt_halfword hrange⟩
  cases i with
  | branchPair test rs rt label =>
    obtain ⟨d, hd, hdistance⟩ := hfield (hlabel label rfl) (hnear rfl)
    refine ⟨_, map_eq_ok.2 ⟨d, hd, rfl⟩, rfl, ?_⟩
    rw [MachineInstruction.fields, hdistance, numbers]
  | branchSign test rs label =>
    obtain ⟨d, hd, hdistance⟩ := hfield (hlabel label rfl) (hnear rfl)
    refine ⟨_, map_eq_ok.2 ⟨d, hd, rfl⟩, rfl, ?_⟩
    rw [MachineInstruction.fields, hdistance, numbers]
  | jump label =>
    refine ⟨_, map_eq_ok.2 ⟨target, resolve_eq_ok_iff.2 (hlabel label rfl), rfl⟩, rfl, ?_⟩
    rw [MachineInstruction.fields, Address.natCast_jumpIndex, numbers]
  | _ => exact ⟨_, rfl, rfl, rfl⟩

end SymbolicInstruction

/-- All lines that an instruction is written as have one word, which carries the operation and the
numbers of the instruction, if its label is in the table and near enough for a branch. -/
theorem encodeLine_of_writtenAs {i : SymbolicInstruction} {table : SymbolTable} {pc target : Int}
    (hlabel : ∀ label, i.label? = some label → table.address? label = some target)
    (hnear : i.mnemonic.isBranch = true →
      -32768 ≤ Int.tdiv (target - pc - 4) 4 ∧ Int.tdiv (target - pc - 4) 4 ≤ 32767) :
    ∃ w : Word, w.Carries i.mnemonic (i.numbers pc target) ∧
      ∀ line, i.WrittenAs line → encodeLine table pc line = .ok w := by
  obtain ⟨m, hlink, hmnemonic, hnumbers⟩ := SymbolicInstruction.exists_link hlabel hnear
  refine ⟨m.encode, hmnemonic ▸ hnumbers ▸ m.carries_encode, fun line hline => ?_⟩
  obtain ⟨operands, hparse, hoperands⟩ := SymbolicInstruction.parse_of_writtenAs hline
  exact encodeLine_eq_ok_iff.2 ⟨_, i, m, hparse,
    SymbolicInstruction.reads_of_operandsWrittenAs hoperands, hlink, rfl⟩

/-- A branch to a label that looks like no name. -/
def oddBranch : SymbolicInstruction :=
  .branchPair .equal 0 29 "a:(".text

theorem writtenAs_oddBranch : oddBranch.WrittenAs "beq $0 $sp a:(".text := by
  have hfront : IsFront [] := .margin (by decide)
  have htoken : Text.IsCaseOf "beq".text oddBranch.mnemonic.name := by decide
  have hoperands : oddBranch.OperandsWrittenAs ["$0".text, "$sp".text, "a:(".text] :=
    .branchPair (.number (by decide) (by decide) (by decide) rfl) (.name rfl rfl)
      ⟨by decide, by decide⟩
  have hbody : Renders ["beq".text, "$0".text, "$sp".text, "a:(".text]
      ("beq".text ++ (" ".text ++ ("$0".text ++ (" ".text ++ ("$sp".text ++
        (" ".text ++ ("a:(".text ++ []))))))) :=
    .cons (by decide) (by decide) (.cons (by decide) (by decide) (.cons (by decide) (by decide)
      (.last (by decide))))
  exact .mk hfront htoken hoperands hbody

theorem writtenAs_oddBranch_wild :
    oddBranch.WrittenAs "\tx.1: BeQ\u3000$ZerO,,$0029 ,a:( , ".text := by
  have hfront : IsFront ("\t".text ++ ("x.1".text ++ .char ':' :: " ".text)) :=
    .label (by decide) rfl (by decide) (by decide)
  have htoken : Text.IsCaseOf "BeQ".text oddBranch.mnemonic.name := by decide
  have hoperands : oddBranch.OperandsWrittenAs ["$ZerO".text, "$0029".text, "a:(".text] :=
    .branchPair (.name rfl rfl) (.number (by decide) (by decide) (by decide) rfl)
      ⟨by decide, by decide⟩
  have hbody : Renders ["BeQ".text, "$ZerO".text, "$0029".text, "a:(".text]
      ("BeQ".text ++ ("\u3000".text ++ ("$ZerO".text ++ (",,".text ++ ("$0029".text ++
        (" ,".text ++ ("a:(".text ++ " , ".text))))))) :=
    .cons (by decide) (by decide) (.cons (by decide) (by decide) (.cons (by decide) (by decide)
      (.last (by decide))))
  exact .mk hfront htoken hoperands hbody

/-- A plain line and one that is spelled in many ways at once have the same word. -/
theorem encodeLine_oddBranch :
    ∃ w : Word, w.Carries (.branchPair .equal) [(.rs, 0), (.rt, 29), (.low, -3)] ∧
      encodeLine [("a:(".text, 0x00400000)] 0x00400008 "beq $0 $sp a:(".text = .ok w ∧
      encodeLine [("a:(".text, 0x00400000)] 0x00400008
        "\tx.1: BeQ\u3000$ZerO,,$0029 ,a:( , ".text = .ok w := by
  have hlabel : ∀ label, oddBranch.label? = some label →
      SymbolTable.address? [("a:(".text, 0x00400000)] label = some 0x00400000 := by
    rintro _ ⟨⟩
    rfl
  have hnear : oddBranch.mnemonic.isBranch = true →
      -32768 ≤ Int.tdiv (0x00400000 - 0x00400008 - 4) 4 ∧
        Int.tdiv (0x00400000 - 0x00400008 - 4) 4 ≤ 32767 := by decide
  obtain ⟨w, hcarries, hword⟩ := encodeLine_of_writtenAs hlabel hnear
  exact ⟨w, hcarries, hword _ writtenAs_oddBranch, hword _ writtenAs_oddBranch_wild⟩

/-! ## Too many zeros -/

/-- Register zero with one digit too many. -/
def overlongZero : Text :=
  .char '$' :: List.replicate (Numeral.digitLimit + 1) '0'

/-- The sum of two registers, for register zero. -/
def overlongLine : Text :=
  "add".text ++ ([.char ' '] ++ (overlongZero ++ (", ".text ++ ("$1".text ++ (", ".text ++
    ("$2".text ++ []))))))

/-- Zeros spell zero, however many they are. -/
theorem Numeral.ofDigits_zeros (n : Nat) : ofDigits 10 (List.replicate n '0') = 0 := by
  induction n with
  | zero => rfl
  | succ n ih => exact ih

/-- The first register of an addition is read first. -/
theorem encodeLine_eq_error_of_register {table : SymbolTable} {pc : Int} {line d s t : Text}
    {op : ArithOp} {e : Failure Fault} (hparse : Statement.parse line = .ok ⟨.arith op, [d, s, t]⟩)
    (hd : Operand.register d = .error e) : encodeLine table pc line = .error e := by
  rw [encodeLine, hparse]
  show (Statement.instruction ⟨.arith op, [d, s, t]⟩ >>= _) = _
  rw [Statement.instruction, hd]
  rfl

/-- There is no word for a register with too many zeros in front of its number. -/
theorem encodeLine_overlongLine :
    Operand.Names overlongZero 0 ∧
      Renders ["add".text, overlongZero, "$1".text, "$2".text] overlongLine ∧
      encodeLine [] Address.defaultBase overlongLine = .error (.tooManyDigits 4301) := by
  have hd : ∀ c ∈ List.replicate (Numeral.digitLimit + 1) (CodePoint.char '0'),
      Numeral.isDigit 10 c = true := by
    intro c hc
    rw [List.eq_of_mem_replicate hc]
    decide
  have hrenders : Renders ["add".text, overlongZero, "$1".text, "$2".text] overlongLine :=
    .cons (by decide) (by decide) (.cons (by decide) (by decide) (.cons (by decide) (by decide)
      (.last (by decide))))
  have hfront : IsFront [] := .margin (by decide)
  have htoken : Text.IsCaseOf "add".text (Mnemonic.arith .add).name := by decide
  have hoperands : ∀ t ∈ [overlongZero, "$1".text, "$2".text], Statement.IsRun t := by
    intro t ht
    rcases List.mem_cons.1 ht with rfl | ht
    · exact ⟨by simp [overlongZero], Operand.not_separator_of_digits hd⟩
    · have hshort : ∀ t ∈ ["$1".text, "$2".text], t ≠ [] ∧
          ∀ c ∈ t, Statement.isSeparator c = false := by decide
      exact ⟨(hshort t ht).1, (hshort t ht).2⟩
  have hparse : Statement.parse ([] ++ overlongLine) = _ :=
    parse_of_renders hfront htoken hoperands hrenders
  have hregister : Operand.register overlongZero = .error (.tooManyDigits 4301) := by
    have h := Operand.register_of_tooManyDigits hd (by rw [List.length_replicate]; omega)
    rwa [List.length_replicate] at h
  refine ⟨.number (by simp) hd (Numeral.ofDigits_zeros _), hrenders, ?_⟩
  exact encodeLine_eq_error_of_register hparse hregister

end Mips32
