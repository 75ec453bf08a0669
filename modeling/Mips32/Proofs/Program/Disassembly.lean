import Mathlib.Data.List.Nodup
import Mathlib.Tactic.Choose
import Mips32.Proofs.Program.Layout
import Mips32.Proofs.Source.Printing

/-!
# Disassembly

A list of words is written as source text: each position gets a label with its number, and behind it
stands the instruction of the word in print, which names the label of the position it leads to
(`disassemble?`). Which position that is, is left open: a jump index stands for more than one where
a program is long enough. `Resolves` says that a choice is right.

`assemble_disassemble` says that the text assembles to the very words it comes from, for every right
choice. Its proof goes through the text once for each pass: the labels are those of the positions at
their addresses (`labelsFrom_linesFrom`), and each instruction in print encodes to its word
(`encodeLine_withLabel`), since the label it names is at the address it leads to.
-/

namespace Mips32

/-! ## Labels of positions -/

/-- The label of a position. -/
def labelAt (k : Nat) : Text :=
  .char 'L' :: Numeral.digits 10 k

theorem plain_labelAt (k : Nat) : Plain (labelAt k) :=
  (plain_digits k).cons (.inl (by decide))

theorem labelAt_injective : Function.Injective labelAt :=
  fun _ _ h => Numeral.digits_injective (List.cons.inj h).2

namespace MachineInstruction

/-- The instruction with a label in the place of its target, if it has one. -/
def withLabel (label : Text) : MachineInstruction → SymbolicInstruction
  | .arith op rd rs rt => .arith op rd rs rt
  | .variableShift op rd rt rs => .variableShift op rd rt rs
  | .shift op rd rt amount => .shift op rd rt amount
  | .immediate op rt rs value => .immediate op rt rs value
  | .memory op rt base offset => .memory op rt base offset
  | .branchPair test rs rt _ => .branchPair test rs rt label
  | .branchSign test rs _ => .branchSign test rs label
  | .jump _ => .jump label

/-- Whether an instruction at position `i` of a program at `base` leads to position `k`: a branch by
its distance from the position behind it, a jump by its word index. An instruction without a target
does not mind. -/
def LeadsTo (base : Int) (i k : Nat) : MachineInstruction → Prop
  | .branchPair _ _ _ d => (k : Int) = i + 1 + d.toInt
  | .branchSign _ _ d => (k : Int) = i + 1 + d.toInt
  | .jump index => (index.toNat : Int) = (base + 4 * k) / 4 % 2 ^ 26
  | _ => True

instance (base : Int) (i k : Nat) : (m : MachineInstruction) → Decidable (m.LeadsTo base i k)
  | .branchPair .. | .branchSign .. | .jump _ => inferInstanceAs (Decidable (_ = _))
  | .arith .. | .variableShift .. | .shift .. | .immediate .. | .memory .. => isTrue trivial

theorem plain_operands_withLabel {label : Text} (h : Plain label) (m : MachineInstruction) :
    ∀ t ∈ (m.withLabel label).operands, Plain t := by
  have hregister := Register.plain_spelling
  cases m <;>
    simp [withLabel, SymbolicInstruction.operands, hregister, plain_decimal,
      Operand.plain_address, h]

/-- The label of the position that an instruction leads to gives it its target back. -/
theorem link_withLabel {table : SymbolTable} {base : Int} {i k : Nat} {m : MachineInstruction}
    (hlabel : table.address? (labelAt k) = some (base + 4 * k)) (h : m.LeadsTo base i k) :
    (m.withLabel (labelAt k)).link table (base + 4 * i) = .ok m := by
  have hbranch : ∀ {d : BitVec 16}, (k : Int) = i + 1 + d.toInt →
      SymbolicInstruction.branchField table (base + 4 * i) (labelAt k) = .ok d := by
    intro d hd
    have hbytes : base + 4 * k - (base + 4 * i) - 4 = 4 * d.toInt := by omega
    refine SymbolicInstruction.branchField_eq_ok_iff.2 ⟨_, hlabel, ?_⟩
    rw [Address.branchDistance, hbytes, Int.mul_tdiv_cancel_left _ (by decide)]
  cases m with
  | branchPair test rs rt d => exact map_eq_ok.2 ⟨d, hbranch h, rfl⟩
  | branchSign test rs d => exact map_eq_ok.2 ⟨d, hbranch h, rfl⟩
  | jump index =>
    have hindex : Address.jumpIndex (base + 4 * k) = index := by
      have hk : (index.toNat : Int) = (base + 4 * k) / 4 % 2 ^ 26 := h
      have hheld := Address.natCast_jumpIndex (base + 4 * k)
      apply BitVec.eq_of_toNat_eq
      omega
    have hresolve := SymbolicInstruction.resolve_eq_ok_iff.2 hlabel
    exact map_eq_ok.2 ⟨_, hresolve, congrArg _ hindex⟩
  | _ => rfl

/-- An instruction in print encodes to its word. -/
theorem encodeLine_withLabel {table : SymbolTable} {base : Int} {i k : Nat} {m : MachineInstruction}
    (hlabel : table.address? (labelAt k) = some (base + 4 * k)) (h : m.LeadsTo base i k) :
    encodeLine table (base + 4 * i) (m.withLabel (labelAt k)).text = .ok m.encode :=
  encodeLine_eq_ok_iff.2 ⟨_, _, m,
    SymbolicInstruction.parse_text (plain_operands_withLabel (plain_labelAt k) m),
    SymbolicInstruction.reads_statement _, link_withLabel hlabel h, rfl⟩

end MachineInstruction

namespace Program

/-! ## The text -/

/-- The lines of instructions that stand at the positions from `k` on, if the instruction at
position `i` leads to position `dest i`. The last line is the label of the position behind them. -/
def linesFrom (dest : Nat → Nat) (k : Nat) : List MachineInstruction → List Text
  | [] => [labelAt k ++ [.char ':']]
  | m :: ms =>
    (labelAt k ++ [.char ':']) :: (m.withLabel (labelAt (dest k))).text :: linesFrom dest (k + 1) ms

/-- The text of a list of words, if each of them is the word of an instruction. -/
def disassemble? (dest : Nat → Nat) (ws : List Word) : Option (List Text) :=
  (ws.mapM MachineInstruction.decode).map (linesFrom dest 0)

/-- Each word leads to the position that is chosen for it, and that is a position of the program or
the one behind it. -/
def Resolves (base : Int) (ws : List Word) (dest : Nat → Nat) : Prop :=
  ∀ i w m, ws[i]? = some w → MachineInstruction.decode w = some m →
    dest i ≤ ws.length ∧ m.LeadsTo base i (dest i)

/-- Words of instructions are decoded together, and are the words of what they are decoded to. -/
theorem exists_mapM_decode {ws : List Word}
    (h : ∀ w ∈ ws, ∃ m, MachineInstruction.decode w = some m) :
    ∃ ms, ws.mapM MachineInstruction.decode = some ms ∧ ms.map MachineInstruction.encode = ws := by
  induction ws with
  | nil => exact ⟨[], rfl, rfl⟩
  | cons w ws ih =>
    obtain ⟨⟨m, hm⟩, hws⟩ := List.forall_mem_cons.1 h
    obtain ⟨ms, hms, hencode⟩ := ih hws
    refine ⟨m :: ms, ?_, ?_⟩
    · rw [List.mapM_cons, hm, hms]
      rfl
    · rw [List.map_cons, MachineInstruction.encode_of_decode hm, hencode]

/-! ## The two passes over the text -/

theorem kind_of_text_label {l : SourceLine} {k : Nat} (h : l.text = labelAt k ++ [.char ':']) :
    l.kind = .label (labelAt k) := by
  rw [SourceLine.kind, h, (plain_labelAt k).classify_label]

theorem kind_of_text_instruction {l : SourceLine} {m : MachineInstruction} {k : Nat}
    (h : l.text = (m.withLabel (labelAt k)).text) : l.kind = .instruction none l.text := by
  rw [SourceLine.kind, h, SymbolicInstruction.classify_text
    (MachineInstruction.plain_operands_withLabel (plain_labelAt k) m)]

/-- The address moves on by four where no address wraps. -/
theorem after_of_isInstruction {base : Int} (hbase : 0 ≤ base) {k : Nat}
    (hend : base + 4 * (k + 1) < 2 ^ 32) {l : SourceLine} (h : l.kind.isInstruction = true) :
    l.after (base + 4 * k) = base + 4 * (k + 1 : Nat) := by
  rw [SourceLine.after, if_pos h, Address.next, Address.space]
  omega

/-- The text of instructions, cut at its first: a label line and an instruction line in front of the
text of the others. -/
theorem exists_of_map_text_eq {dest : Nat → Nat} {k : Nat} {m : MachineInstruction}
    {ms : List MachineInstruction} {p : Program}
    (h : p.map (·.text) = linesFrom dest k (m :: ms)) :
    ∃ l l' q, p = l :: l' :: q ∧ l.kind = .label (labelAt k) ∧
      l'.kind = .instruction none l'.text ∧ l'.text = (m.withLabel (labelAt (dest k))).text ∧
      q.map (·.text) = linesFrom dest (k + 1) ms := by
  obtain ⟨l, p', rfl, hl, hp'⟩ := List.map_eq_cons_iff.1 h
  obtain ⟨l', q, rfl, hl', hq⟩ := List.map_eq_cons_iff.1 hp'
  exact ⟨l, l', q, rfl, kind_of_text_label hl, kind_of_text_instruction hl', hl', hq⟩

/-- The labels of the text are those of the positions, at their addresses. -/
theorem labelsFrom_linesFrom {base : Int} (hbase : 0 ≤ base) {dest : Nat → Nat}
    {ms : List MachineInstruction} {k : Nat} {p : Program}
    (hp : p.map (·.text) = linesFrom dest k ms) (hend : base + 4 * (k + ms.length) < 2 ^ 32) :
    labelsFrom (base + 4 * k) p =
      (List.range' k (ms.length + 1)).map fun j : Nat => (labelAt j, base + 4 * j) := by
  induction ms generalizing k p with
  | nil =>
    obtain ⟨l, q, rfl, hl, hq⟩ := List.map_eq_cons_iff.1 hp
    obtain rfl := List.map_eq_nil_iff.1 hq
    simp [labelsFrom, kind_of_text_label hl, Line.label?]
  | cons m ms ih =>
    obtain ⟨l, l', q, rfl, hl, hl', -, hq⟩ := exists_of_map_text_eq hp
    rw [List.length_cons] at hend ⊢
    have hstay : l.after (base + 4 * k) = base + 4 * k := by
      rw [SourceLine.after, hl]
      rfl
    have hmove : l'.after (base + 4 * k) = base + 4 * (k + 1 : Nat) :=
      after_of_isInstruction hbase (by omega) (by rw [hl']; rfl)
    have hrest := ih hq (by omega)
    rw [labelsFrom, labelsFrom, hl, hl', hstay, hmove, hrest, List.range'_succ, List.map_cons]
    rfl

/-- If each instruction in print encodes at its position, the words of the text are those of the
instructions. -/
theorem wordsFrom_linesFrom {base : Int} (hbase : 0 ≤ base) {dest : Nat → Nat}
    {table : SymbolTable} {ms : List MachineInstruction} {k : Nat} {p : Program}
    (hp : p.map (·.text) = linesFrom dest k ms) (hend : base + 4 * (k + ms.length) < 2 ^ 32)
    (hms : ∀ i m, ms[i]? = some m →
      encodeLine table (base + 4 * (k + i : Nat)) (m.withLabel (labelAt (dest (k + i)))).text =
        .ok m.encode) :
    wordsFrom table (base + 4 * k) p = .ok (ms.map MachineInstruction.encode) := by
  induction ms generalizing k p with
  | nil =>
    obtain ⟨l, q, rfl, hl, hq⟩ := List.map_eq_cons_iff.1 hp
    obtain rfl := List.map_eq_nil_iff.1 hq
    rw [wordsFrom, kind_of_text_label hl]
    rfl
  | cons m ms ih =>
    obtain ⟨l, l', q, rfl, hl, hl', htext, hq⟩ := exists_of_map_text_eq hp
    rw [List.length_cons] at hend
    have hstay : l.after (base + 4 * k) = base + 4 * k := by
      rw [SourceLine.after, hl]
      rfl
    have hskip : l.kind.isInstruction = false := by rw [hl]; rfl
    have htake : l'.kind.isInstruction = true := by rw [hl']; rfl
    have hmove := after_of_isInstruction hbase (k := k) (by omega) htake
    have hfirst : encodeLine table (base + 4 * k) l'.text = .ok m.encode := by
      rw [htext]
      exact hms 0 m rfl
    have hrest : wordsFrom table (base + 4 * (k + 1 : Nat)) q =
        .ok (ms.map MachineInstruction.encode) := by
      refine ih hq (by omega) fun i n hn => ?_
      have := hms (i + 1) n hn
      rwa [← Nat.add_assoc, Nat.add_right_comm] at this
    rw [wordsFrom, if_neg (by simp [hskip]), hstay, wordsFrom, if_pos htake, hfirst, hmove, hrest]
    rfl

/-- The symbol table of the text of `n` instructions: each position, and the one behind them. -/
def positionTable (base : Int) (n : Nat) : SymbolTable :=
  (List.range (n + 1)).map fun k : Nat => (labelAt k, base + 4 * k)

theorem map_fst_positionTable (base : Int) (n : Nat) :
    (positionTable base n).map Prod.fst = (List.range (n + 1)).map labelAt := by
  rw [positionTable, List.map_map]
  rfl

theorem nodup_positionTable (base : Int) (n : Nat) :
    ((positionTable base n).map Prod.fst).Nodup := by
  rw [map_fst_positionTable]
  exact List.nodup_range.map labelAt_injective

theorem address?_positionTable (base : Int) {n k : Nat} (hk : k ≤ n) :
    (positionTable base n).address? (labelAt k) = some (base + 4 * k) := by
  rw [address?_eq_some_iff_mem (nodup_positionTable base n)]
  exact List.mem_map.2 ⟨k, List.mem_range.2 (by omega), rfl⟩

/-- The text of instructions that lead to positions of their program assembles to their words. -/
theorem assemble_linesFrom {base : Int} (hb : Address.IsWord base) {dest : Nat → Nat}
    {ms : List MachineInstruction} (hend : base + 4 * ms.length < 2 ^ 32)
    (hms : ∀ i m, ms[i]? = some m → dest i ≤ ms.length ∧ m.LeadsTo base i (dest i)) :
    (counted (linesFrom dest 0 ms)).assemble base =
      .ok ⟨positionTable base ms.length, ms.map MachineInstruction.encode⟩ := by
  obtain ⟨hbase, -, -⟩ := hb
  have htext := map_text_counted (linesFrom dest 0 ms)
  have hzero : base + 4 * (0 : Nat) = base := by omega
  have hlabels :
      labelsFrom base (counted (linesFrom dest 0 ms)) = positionTable base ms.length := by
    have h := labelsFrom_linesFrom hbase htext (by omega)
    rw [hzero, ← List.range_eq_range'] at h
    exact h
  have hnames :
      names (counted (linesFrom dest 0 ms)) = (List.range (ms.length + 1)).map labelAt := by
    rw [← map_fst_labelsFrom base, hlabels, map_fst_positionTable]
  refine assemble_eq_ok_iff.2 ⟨symbols_eq_ok_iff.2 ⟨⟨?_, ?_⟩, hlabels.symm⟩, ?_⟩
  · rw [hnames]
    simp [labelAt]
  · rw [hnames, ← map_fst_positionTable base]
    exact nodup_positionTable base ms.length
  · have hencode : ∀ i m, ms[i]? = some m → encodeLine (positionTable base ms.length)
        (base + 4 * (0 + i : Nat)) (m.withLabel (labelAt (dest (0 + i)))).text = .ok m.encode := by
      intro i m hm
      obtain ⟨hdest, hlead⟩ := hms i m hm
      rw [Nat.zero_add]
      exact MachineInstruction.encodeLine_withLabel (address?_positionTable base hdest) hlead
    have hwords := wordsFrom_linesFrom hbase htext (by omega) hencode
    rw [hzero] at hwords
    exact hwords

/-- Words that lead to positions of their program have a text, and every text of them assembles to
them again: the labels are at the addresses of the positions, and the words are what they were. -/
theorem assemble_disassemble {base : Int} (hb : Address.IsWord base) {ws : List Word}
    (hend : base + 4 * ws.length < 2 ^ 32)
    (hws : ∀ i w, ws[i]? = some w → ∃ m k, MachineInstruction.decode w = some m ∧
      k ≤ ws.length ∧ m.LeadsTo base i k) :
    (∃ dest, Resolves base ws dest) ∧
      ∀ dest, Resolves base ws dest → ∃ lines, disassemble? dest ws = some lines ∧
        (ofLines lines none).assemble base = .ok ⟨positionTable base ws.length, ws⟩ := by
  constructor
  · have hchoice : ∀ i, ∃ k, ∀ w m, ws[i]? = some w → MachineInstruction.decode w = some m →
        k ≤ ws.length ∧ m.LeadsTo base i k := by
      intro i
      cases hi : ws[i]? with
      | none => exact ⟨0, nofun⟩
      | some w =>
        obtain ⟨m, k, hm, hk, hlead⟩ := hws i w hi
        refine ⟨k, fun w' m' hw' hm' => ?_⟩
        cases hw'
        rw [hm] at hm'
        cases hm'
        exact ⟨hk, hlead⟩
    choose dest hdest using hchoice
    exact ⟨dest, hdest⟩
  · intro dest hdest
    have hdecode : ∀ w ∈ ws, ∃ m, MachineInstruction.decode w = some m := by
      intro w hw
      obtain ⟨i, hi⟩ := List.mem_iff_getElem?.1 hw
      obtain ⟨m, -, hm, -⟩ := hws i w hi
      exact ⟨m, hm⟩
    obtain ⟨ms, hms, rfl⟩ := exists_mapM_decode hdecode
    rw [List.length_map] at hend ⊢
    refine ⟨linesFrom dest 0 ms, by rw [disassemble?, hms, Option.map_some], ?_⟩
    refine assemble_linesFrom hb hend fun i m hm => ?_
    have hi : (ms.map MachineInstruction.encode)[i]? = some m.encode := by
      rw [List.getElem?_map, hm, Option.map_some]
    have hlead := hdest i _ m hi m.decode_encode
    rwa [List.length_map] at hlead

/-- A branch back, a load, a branch to the end, and a jump. -/
def loop : List Word :=
  [0x1022ffff, 0x8c41fffc, 0x1c600001, 0x08100002]

/-- The positions that the instructions of the loop lead to. -/
def loopTarget : Nat → Nat
  | 2 => 4
  | 3 => 2
  | _ => 0

theorem assemble_disassemble_loop :
    Address.IsWord Address.defaultBase ∧ Address.defaultBase + 4 * loop.length < 2 ^ 32 ∧
      Resolves Address.defaultBase loop loopTarget ∧
      disassemble? loopTarget loop = some (["L0:", "beq $1, $2, L0", "L1:", "lw $1, -4($2)", "L2:",
        "bgtz $3, L4", "L3:", "j L2", "L4:"].map String.text) ∧
      (ofLines (["L0:", "beq $1, $2, L0", "L1:", "lw $1, -4($2)", "L2:", "bgtz $3, L4", "L3:",
        "j L2", "L4:"].map String.text) none).assemble Address.defaultBase =
        .ok ⟨positionTable Address.defaultBase 4, loop⟩ := by
  have hb : Address.IsWord Address.defaultBase := by decide
  have hend : Address.defaultBase + 4 * loop.length < 2 ^ 32 := by decide
  have hloop : ∀ i w, loop[i]? = some w → ∃ m, MachineInstruction.decode w = some m ∧
      loopTarget i ≤ loop.length ∧ m.LeadsTo Address.defaultBase i (loopTarget i) := by
    intro i w hw
    match i, hw with
    | 0, hw | 1, hw | 2, hw | 3, hw =>
      cases hw
      exact ⟨_, rfl, by decide, by decide⟩
  have hresolves : Resolves Address.defaultBase loop loopTarget := by
    intro i w m hw hm
    obtain ⟨m', hm', hlead⟩ := hloop i w hw
    rw [hm] at hm'
    cases hm'
    exact hlead
  have htext := assemble_disassemble hb hend fun i w hw =>
    let ⟨m, hm, hlead⟩ := hloop i w hw
    ⟨m, loopTarget i, hm, hlead⟩
  obtain ⟨lines, hlines, hassemble⟩ := htext.2 loopTarget hresolves
  cases hlines
  exact ⟨hb, hend, hresolves, rfl, hassemble⟩

end Program

end Mips32
