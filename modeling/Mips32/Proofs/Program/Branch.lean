import Mips32.Proofs.Program.Layout
import Mips32.Proofs.Source.Reads

/-!
# Where branches land

A branch holds a distance in words from the instruction behind it, cut off toward zero from a
distance in bytes. Both passes produce addresses of words only, also where they wrap, so nothing is
ever cut off (`four_mul_branchDistance`), and the field holds the whole distance since a greater one
is a fault. `branch_lands` follows for every branch of every program that assembles: four times the
field leads from the next instruction exactly to the address of the label, as plain integers,
without another wrap.
-/

namespace Mips32

/-- Between addresses of words the distance in words is the distance in bytes. -/
theorem Address.four_mul_branchDistance {pc target : Int} (hpc : IsWord pc)
    (htarget : IsWord target) : 4 * branchDistance pc target = target - pc - 4 := by
  obtain ⟨-, -, hpc⟩ := hpc
  obtain ⟨-, -, htarget⟩ := htarget
  have hdvd : (4 : Int) ∣ target - pc - 4 := by omega
  rw [branchDistance, Int.mul_tdiv_cancel' hdvd]

/-- Whether an operation is a branch. -/
def Mnemonic.isBranch : Mnemonic → Bool
  | .branchPair _ | .branchSign _ => true
  | _ => false

/-- A branch names its last operand, and the field of that label is the low half of its word. -/
theorem SymbolicInstruction.exists_link_branch (table : SymbolTable) (pc : Int) {s : Statement}
    {i : SymbolicInstruction} (h : s.Reads i) (hbranch : s.mnemonic.isBranch = true) :
    ∃ (label : Text) (f : BitVec 16 → MachineInstruction), s.operands.getLast? = some label ∧
      i.link table pc = (branchField table pc label).map f ∧ ∀ d, (f d).encode.low = d := by
  have hlow : ∀ opcode rs rt d, (Word.ofImmediate opcode rs rt d).low = d := fun opcode rs rt d =>
    (Word.fields_ofImmediate opcode rs rt d).2.2.2
  cases h with
  | branchPair => exact ⟨_, .branchPair _ _ _, rfl, rfl, hlow _ _ _⟩
  | branchSign => exact ⟨_, .branchSign _ _, rfl, rfl, hlow _ _ _⟩
  | _ => cases hbranch

/-- The last operand of a branch is its label, and the low half of its word is the distance to the
label. -/
theorem low_of_branch {table : SymbolTable} {pc : Int} {line : Text} {w : Word}
    (h : encodeLine table pc line = .ok w) {s : Statement} (hs : Statement.parse line = .ok s)
    (hbranch : s.mnemonic.isBranch = true) :
    ∃ label target, s.operands.getLast? = some label ∧ table.address? label = some target ∧
      w.low.toInt = Address.branchDistance pc target := by
  obtain ⟨s', i, m, hs', hreads, hlink, rfl⟩ := encodeLine_eq_ok_iff.1 h
  obtain rfl : s = s' := Except.ok.inj (hs.symm.trans hs')
  obtain ⟨label, f, hlabel, hbranchLink, hlow⟩ :=
    SymbolicInstruction.exists_link_branch table pc hreads hbranch
  rw [hbranchLink] at hlink
  obtain ⟨d, hd, rfl⟩ := map_eq_ok.1 hlink
  obtain ⟨target, htarget, hdistance⟩ := SymbolicInstruction.branchField_eq_ok_iff.1 hd
  exact ⟨label, target, hlabel, htarget, by rw [hlow, hdistance]⟩

namespace Program

/-- In a program that assembles, a branch with index `k` names a label that is defined at one
position, and the low half of its word, times four, leads from behind the branch to the address of
that position. The distance that is cut off toward zero is a whole number of words. -/
theorem branch_lands {base : Int} (hb : Address.IsWord base) {p : Program} {image : Image}
    (h : p.assemble base = .ok image) {k : Nat} {l : SourceLine}
    (hl : p.instructionLines[k]? = some l) {s : Statement} (hs : Statement.parse l.text = .ok s)
    (hbranch : s.mnemonic.isBranch = true) :
    let pc := (base + 4 * k) % 2 ^ 32
    ∃ label w target i, s.operands.getLast? = some label ∧ image.words[k]? = some w ∧
      image.symbols.address? label = some target ∧
      pc + 4 + 4 * w.low.toInt = target ∧
      target = (base + 4 * p.instructionsBefore i) % 2 ^ 32 ∧
      (∀ j, p[j]?.bind (·.kind.label?) = some label ↔ j = i) ∧
      w.low.toInt = Int.tdiv (target - pc - 4) 4 ∧ (4 : Int) ∣ target - pc - 4 := by
  obtain ⟨hsymbols, -⟩ := assemble_eq_ok_iff.1 h
  obtain ⟨w, hw, hencode⟩ := exists_word_of_line hb h hl
  obtain ⟨label, target, hlabel, htarget, hlow⟩ := low_of_branch hencode hs hbranch
  obtain ⟨hword, i, hi, hunique⟩ := exists_position_of_address? hb hsymbols htarget
  have hexact := Address.four_mul_branchDistance (Address.isWord_ofIndex hb k) hword
  rw [← hlow, Address.ofIndex_eq] at hexact
  rw [Address.ofIndex_eq] at hlow hi
  exact ⟨label, w, target, i, hlabel, hw, htarget, by omega, hi, hunique, hlow,
    ⟨_, hexact.symm⟩⟩

/-- The branch at zero to the label in front of it: one word back from four. -/
theorem branch_lands_wrapping :
    wrappingImage.words[2]? = some 0x1022ffff ∧
      wrappingImage.symbols.address? "end".text = some 0 ∧
      (0 : Int) + 4 + 4 * (Word.low 0x1022ffff).toInt = 0 := by
  obtain ⟨label, w, target, i, hlabel, hw, htarget, hlands, -⟩ :=
    branch_lands (k := 2) (l := ⟨7, "beq $1, $2, end".text⟩)
      (s := ⟨.branchPair .equal, ["$1".text, "$2".text, "end".text]⟩)
      (by decide) assemble_wrapping rfl rfl rfl
  cases hlabel
  cases hw
  cases htarget
  exact ⟨rfl, rfl, hlands⟩

end Program

end Mips32
