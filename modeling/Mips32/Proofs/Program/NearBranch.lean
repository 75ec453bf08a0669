import Mips32.Proofs.Program.Verdict

/-!
# Branches to near labels

A branch reaches a label that is no more than 32768 instructions back or 32767 ahead of the
instruction behind it. Its distance is counted here on instruction lines, so that it does not depend
on where the program is; the branch itself takes it from two addresses, each of which has been
brought below the end of the address space by so many laps around it. The two counts differ by the
laps that lie between the branch and its label (`branchDistance_ofIndex`).

`near_branch` says what follows for every branch to a near label: if as many laps lie behind the
branch as behind its label, the branch has a word with that distance, and if not, it is refused as
too far away. So even a branch to the instruction behind it can be refused (`near_branch_refused`).
-/

namespace Mips32

/-! ## Laps -/

/-- How often the addresses of a program have gone around the address space at an index. -/
def Address.laps (base index : Int) : Int :=
  (base + 4 * index) / 2 ^ 32

/-- The distance between two instructions is the number of instructions between them, and a quarter
of the address space for each lap that the first is ahead. -/
theorem Address.branchDistance_ofIndex {base : Int} (hb : IsWord base) (i k : Int) :
    branchDistance (ofIndex i base) (ofIndex k base) =
      k - (i + 1) + 2 ^ 30 * (laps base i - laps base k) := by
  have hexact := four_mul_branchDistance (isWord_ofIndex hb i) (isWord_ofIndex hb k)
  have hlaps : ∀ n, ofIndex n base = base + 4 * n - 2 ^ 32 * laps base n := by
    intro n
    rw [ofIndex_eq, laps]
    omega
  rw [hlaps i, hlaps k] at hexact ⊢
  omega

/-! ## The word of a branch -/

namespace SymbolicInstruction

variable {table : SymbolTable} {pc : Int}

/-- The field of a branch to a label that is defined, or the fault that there is none. -/
theorem branchField_of_address? {label : Text} {target : Int}
    (h : table.address? label = some target) :
    branchField table pc label =
      if halfwordLow ≤ Address.branchDistance pc target ∧
          Address.branchDistance pc target ≤ halfwordHigh then
        .ok (BitVec.ofInt 16 (Address.branchDistance pc target))
      else .error (.branchRange label (Address.branchDistance pc target)) := by
  rw [branchField, resolve_eq_ok_iff.2 h]
  rfl

end SymbolicInstruction

/-- The low half of the word of a branch holds the distance to its label modulo `2 ^ 16`, and a
branch whose distance does not fit there has no word. -/
theorem encodeLine_branch {table : SymbolTable} (pc : Int) {line : Text} {s : Statement}
    {i : SymbolicInstruction} (hs : Statement.parse line = .ok s) (hreads : s.Reads i)
    (hbranch : s.mnemonic.isBranch = true) {label : Text}
    (hlabel : s.operands.getLast? = some label) {target : Int}
    (htarget : table.address? label = some target) :
    let distance := Address.branchDistance pc target
    (halfwordLow ≤ distance ∧ distance ≤ halfwordHigh →
      ∃ w, encodeLine table pc line = .ok w ∧ (w.low.toNat : Int) = distance % 2 ^ 16) ∧
    (¬(halfwordLow ≤ distance ∧ distance ≤ halfwordHigh) →
      encodeLine table pc line = .error (.fault (.branchRange label distance))) := by
  intro distance
  obtain ⟨label', f, hlabel', hlink, hlow⟩ :=
    SymbolicInstruction.exists_link_branch table pc hreads hbranch
  obtain rfl : label' = label := Option.some.inj (hlabel'.symm.trans hlabel)
  rw [encodeLine_of_reads hs hreads, hlink, SymbolicInstruction.branchField_of_address? htarget]
  constructor
  · intro hnear
    rw [if_pos hnear]
    refine ⟨_, rfl, ?_⟩
    rw [hlow, BitVec.toNat_ofInt]
    exact Int.toNat_of_nonneg (Int.emod_nonneg _ (by decide))
  · intro hfar
    rw [if_neg hfar]
    rfl

namespace Program

/-- A branch to a label that is near when counted in instructions has a word with the distance, if
the addresses have gone around the address space equally often at both; else it is refused. -/
theorem near_branch {base : Int} (hb : Address.IsWord base) {p : Program} (hnil : [] ∉ p.names)
    (hnodup : p.names.Nodup) {i : Nat} {l : SourceLine} (hl : p.instructionLines[i]? = some l)
    {s : Statement} {instruction : SymbolicInstruction} (hs : Statement.parse l.text = .ok s)
    (hreads : s.Reads instruction) (hbranch : s.mnemonic.isBranch = true) {label : Text}
    (hlabel : s.operands.getLast? = some label) {j k : Nat} (hj : p.DefinesAt j label)
    (hk : p.instructionsBefore j = k)
    (hnear : -32768 ≤ (k : Int) - (i + 1) ∧ (k : Int) - (i + 1) ≤ 32767) :
    let pc := (base + 4 * i) % 2 ^ 32
    let distance := (k : Int) - (i + 1)
    ∃ table, p.symbols base = .ok table ∧ (placedFrom base p)[i]? = some (l, pc) ∧
      (Address.laps base i = Address.laps base k →
        ∃ w, encodeLine table pc l.text = .ok w ∧ (w.low.toNat : Int) = distance % 2 ^ 16) ∧
      (Address.laps base i ≠ Address.laps base k →
        encodeLine table pc l.text = .error (.fault (.branchRange label
          (distance + 2 ^ 30 * (Address.laps base i - Address.laps base k))))) := by
  intro pc distance
  have hsymbols : p.symbols base = .ok (labelsFrom base p) :=
    symbols_eq_ok_iff.2 ⟨⟨hnil, hnodup⟩, rfl⟩
  have hplaced : (placedFrom base p)[i]? = some (l, pc) := by
    rw [getElem?_placedFrom hb, hl, Option.map_some, Address.ofIndex_eq]
  obtain ⟨m, hm, hname⟩ := definesAt_iff.1 hj
  have htarget : (labelsFrom base p).address? label = some (Address.ofIndex k base) :=
    (address?_eq_some_iff hb hsymbols).2 ⟨j, m, hm, hname, by rw [hk]⟩
  obtain ⟨hnearWord, hfar⟩ := encodeLine_branch pc hs hreads hbranch hlabel htarget
  have hdistance : Address.branchDistance pc (Address.ofIndex k base) =
      distance + 2 ^ 30 * (Address.laps base i - Address.laps base k) := by
    rw [← Address.branchDistance_ofIndex hb, Address.ofIndex_eq i]
  rw [hdistance] at hnearWord hfar
  refine ⟨_, hsymbols, hplaced, fun hlaps => ?_, fun hlaps => hfar ?_⟩
  · rw [hlaps, Int.sub_self, Int.mul_zero, Int.add_zero] at hnearWord
    exact hnearWord hnear
  · -- A lap is longer than a branch reaches, so the distance is far off.
    have hoff : Address.laps base i - Address.laps base k ≤ -1 ∨
        1 ≤ Address.laps base i - Address.laps base k := by omega
    simp only [halfwordLow, halfwordHigh, distance]
    omega

/-- The branch behind the wrap to the label behind the wrap: one word back from the next. -/
theorem near_branch_wrapping :
    [] ∉ wrapping.names ∧ wrapping.names.Nodup ∧ wrapping.DefinesAt 3 "end".text ∧
      wrapping.instructionsBefore 3 = 2 ∧ ∃ table w, wrapping.symbols wrappingBase = .ok table ∧
        encodeLine table 0 "beq $1, $2, end".text = .ok w ∧ (w.low.toNat : Int) = 65535 := by
  have hb : Address.IsWord wrappingBase := by decide
  obtain ⟨⟨hnil, hnodup⟩, -⟩ := symbols_eq_ok_iff.1 (assemble_eq_ok_iff.1 assemble_wrapping).1
  have hl : wrapping.instructionLines[2]? = some ⟨7, "beq $1, $2, end".text⟩ := by rfl
  have hs : Statement.parse "beq $1, $2, end".text =
      .ok ⟨.branchPair .equal, ["$1".text, "$2".text, "end".text]⟩ := by rfl
  have hreads : Statement.Reads ⟨.branchPair .equal, ["$1".text, "$2".text, "end".text]⟩
      (.branchPair .equal 1 2 "end".text) := .branchPair rfl rfl
  obtain ⟨table, hsymbols, -, hword, -⟩ := near_branch hb hnil hnodup hl hs hreads rfl rfl
    (j := 3) (k := 2) rfl rfl (by decide)
  obtain ⟨w, hw, hlow⟩ := hword (by decide)
  exact ⟨hnil, hnodup, rfl, rfl, table, w, hsymbols, hw, hlow⟩

/-- A branch to the next instruction, from the last word of the address space. -/
def branchAhead : Program :=
  counted ["beq $0, $0, L".text, "L:".text]

/-- A branch from the first word of the address space to the instruction in front of it. -/
def branchBack : Program :=
  counted ["L: add $0, $0, $0".text, "beq $0, $0, L".text]

set_option maxRecDepth 4000 in
/-- Two near branches that are refused: their labels are right behind them and right in front of
them, but the end of the address space lies between. -/
theorem near_branch_refused :
    Address.IsWord 0xFFFFFFFC ∧
    (branchAhead.symbols 0xFFFFFFFC = .ok [("L".text, 0)] ∧ branchAhead.instructionsBefore 1 = 1 ∧
      branchAhead.assemble 0xFFFFFFFC = .error (.fault
        ⟨.branchRange "L".text (-0x40000000), 1, "beq $0, $0, L".text⟩)) ∧
    (branchBack.symbols 0xFFFFFFFC = .ok [("L".text, 0xFFFFFFFC)] ∧
      branchBack.instructionsBefore 0 = 0 ∧
      branchBack.assemble 0xFFFFFFFC = .error (.fault
        ⟨.branchRange "L".text 0x3FFFFFFE, 2, "beq $0, $0, L".text⟩)) :=
  ⟨by decide, ⟨by rfl, by rfl, by rfl⟩, by rfl, by rfl, by rfl⟩

end Program

end Mips32
