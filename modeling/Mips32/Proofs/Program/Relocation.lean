import Mips32.Proofs.Isa.Fields
import Mips32.Proofs.Program.Layout

/-!
# Moving a program

A program that is assembled at another base address is the same program, moved: if it has room below
the end of the address space at both bases, then it fails at both with the same failure, or it has
the same labels at both, moved by the distance of the bases, and the same words, except that the
index of a jump is moved by that distance in words (`relocated_of_assemble`).

Each step of the two passes is shown to commute with moving. The address behind a line moves with
the address of the line because there is room (`HasRoom.after_add`). A branch subtracts two
addresses that move together (`branchField_moved`), and a jump holds one (`jumpIndex_add`). All that
is left are two inductions on the lines (`symbolsFrom_moved`, `wordsFrom_moved`), and no case of
them asks what an address is. Failures hold no address either, so they do not change.
-/

namespace Mips32

variable {δ : Int}

/-! ## Tables -/

/-- The table with all addresses moved. -/
def SymbolTable.moved (δ : Int) (table : SymbolTable) : SymbolTable :=
  table.map fun (name, a) => (name, a + δ)

namespace SymbolTable

theorem address?_moved (table : SymbolTable) (name : Text) :
    (table.moved δ).address? name = (table.address? name).map (· + δ) := by
  induction table with
  | nil => rfl
  | cons entry table ih =>
    obtain ⟨n, a⟩ := entry
    show List.lookup name ((n, a + δ) :: moved δ table) = (List.lookup name ((n, a) :: table)).map _
    rw [List.lookup_cons, List.lookup_cons]
    split
    · rfl
    · exact ih

theorem defines_moved (table : SymbolTable) (name : Text) :
    (table.moved δ).defines name = table.defines name := by
  rw [defines, defines, address?_moved, Option.isSome_map]

theorem moved_append (table : SymbolTable) (name : Text) (a : Int) :
    moved δ (table ++ [(name, a)]) = table.moved δ ++ [(name, a + δ)] := by
  rw [moved, List.map_append]
  rfl

end SymbolTable

/-! ## Instructions -/

/-- A machine instruction of a program that is moved. -/
def MachineInstruction.moved (δ : Int) : MachineInstruction → MachineInstruction
  | .jump index => .jump (index + BitVec.ofInt 26 (δ / 4))
  | m => m

/-- A word of a program that is moved. -/
def Word.moved (δ : Int) (w : Word) : Word :=
  match MachineInstruction.decode w with
  | some m => (m.moved δ).encode
  | none => w

theorem Word.moved_encode (m : MachineInstruction) :
    Word.moved δ m.encode = (m.moved δ).encode := by
  rw [moved, MachineInstruction.decode_encode]

/-- The index that a jump holds moves with its target, in words. -/
theorem Address.jumpIndex_add (hδ : (4 : Int) ∣ δ) (target : Int) :
    jumpIndex (target + δ) = jumpIndex target + BitVec.ofInt 26 (δ / 4) := by
  rw [jumpIndex, jumpIndex, Int.add_ediv_of_dvd_right hδ, BitVec.ofInt_add]

namespace SymbolicInstruction

variable {table : SymbolTable} {pc : Int}

theorem resolve_moved (label : Text) :
    resolve (table.moved δ) label = (resolve table label).map (· + δ) := by
  rw [resolve, resolve, SymbolTable.address?_moved]
  cases table.address? label <;> rfl

/-- The distance of a branch does not change, and neither does its fault. -/
theorem branchField_moved (label : Text) :
    branchField (table.moved δ) (pc + δ) label = branchField table pc label := by
  rw [branchField, branchField, resolve_moved]
  cases resolve table label with
  | error fault => rfl
  | ok target =>
    have hdistance : Address.branchDistance (pc + δ) (target + δ) =
        Address.branchDistance pc target := by
      rw [Address.branchDistance, Address.branchDistance, Int.add_sub_add_right]
    show (if halfwordLow ≤ Address.branchDistance (pc + δ) (target + δ) ∧ _ then _ else _) = _
    rw [hdistance]
    rfl

theorem link_moved (hδ : (4 : Int) ∣ δ) (i : SymbolicInstruction) :
    i.link (table.moved δ) (pc + δ) = (i.link table pc).map (MachineInstruction.moved δ) := by
  cases i with
  | branchPair test rs rt label =>
    rw [link, link, branchField_moved]
    cases branchField table pc label <;> rfl
  | branchSign test rs label =>
    rw [link, link, branchField_moved]
    cases branchField table pc label <;> rfl
  | jump label =>
    rw [link, link, resolve_moved]
    cases resolve table label with
    | error fault => rfl
    | ok target =>
      exact congrArg (Except.ok <| Instruction.jump ·) (Address.jumpIndex_add hδ target)
  | _ => rfl

end SymbolicInstruction

/-- The word of a line that is moved, or its failure, which does not change. -/
theorem encodeLine_moved (hδ : (4 : Int) ∣ δ) (table : SymbolTable) (pc : Int) (line : Text) :
    encodeLine (table.moved δ) (pc + δ) line = (encodeLine table pc line).map (Word.moved δ) := by
  cases hs : Statement.parse line with
  | error fault =>
    rw [encodeLine, encodeLine, hs]
    rfl
  | ok s =>
    cases hi : s.instruction with
    | error e =>
      rw [encodeLine, encodeLine, hs]
      show s.instruction >>= _ = (s.instruction >>= _).map _
      rw [hi]
      rfl
    | ok i =>
      have hreads := Statement.instruction_eq_ok_iff.1 hi
      rw [encodeLine_of_reads hs hreads, encodeLine_of_reads hs hreads,
        SymbolicInstruction.link_moved hδ]
      cases i.link table pc with
      | error fault => rfl
      | ok m => exact congrArg Except.ok (Word.moved_encode m).symm

/-- The word of a line keeps its operation when it is moved, and all of it unless it is a jump. -/
theorem Word.moved_of_encodeLine {table : SymbolTable} {pc : Int} {line : Text} {w : Word}
    (h : encodeLine table pc line = .ok w) {s : Statement} (hs : Statement.parse line = .ok s) :
    (s.mnemonic ≠ .jump → w.moved δ = w) ∧
      (s.mnemonic = .jump → (w.moved δ).opcode = w.opcode ∧
        ((w.moved δ).index.toNat : Int) = (w.index.toNat + δ / 4) % 2 ^ 26) := by
  obtain ⟨s', m, hs', -, hmnemonic, rfl⟩ := exists_instruction_of_encodeLine h
  obtain rfl : s = s' := Except.ok.inj (hs.symm.trans hs')
  rw [moved_encode, ← hmnemonic]
  cases m with
  | jump index =>
    refine ⟨fun hno => absurd rfl hno, fun _ => ?_⟩
    obtain ⟨hopcode, hindex⟩ := fields_ofIndex jumpOpcode index
    obtain ⟨hopcode', hindex'⟩ := fields_ofIndex jumpOpcode (index + BitVec.ofInt 26 (δ / 4))
    refine ⟨hopcode'.trans hopcode.symm, ?_⟩
    rw [MachineInstruction.moved, MachineInstruction.encode, MachineInstruction.encode, hindex,
      hindex', BitVec.toNat_add, BitVec.toNat_ofInt]
    omega
  | _ =>
    refine ⟨fun _ => rfl, fun hjump => ?_⟩
    cases hjump

/-! ## The two passes -/

namespace Program

/-- A program at an address of which no line is beyond the end of the address space, nor what stands
behind the last. -/
structure HasRoom (a : Int) (p : Program) : Prop where
  nonneg : 0 ≤ a
  lt : a + 4 * p.instructionLines.length < 2 ^ 32

namespace HasRoom

variable {a : Int} {l : SourceLine} {p : Program}

/-- With room for a line, the address behind it does not wrap. -/
theorem after_eq (h : HasRoom a (l :: p)) :
    l.after a = if l.kind.isInstruction then a + 4 else a := by
  have hlt := h.lt
  have hnonneg := h.nonneg
  rw [instructionLines_cons] at hlt
  rw [SourceLine.after]
  split
  case isTrue hl =>
    rw [if_pos hl, List.length_cons] at hlt
    rw [Address.next, Address.space]
    omega
  case isFalse => rfl

theorem tail (h : HasRoom a (l :: p)) : HasRoom (l.after a) p := by
  have hlt := h.lt
  have hnonneg := h.nonneg
  rw [instructionLines_cons] at hlt
  rw [h.after_eq]
  split
  case isTrue hl =>
    rw [if_pos hl, List.length_cons] at hlt
    exact ⟨by omega, by omega⟩
  case isFalse hl =>
    rw [if_neg hl] at hlt
    exact ⟨hnonneg, hlt⟩

/-- With room for a line at two addresses, the address behind it moves with its own. -/
theorem after_add (h : HasRoom a (l :: p)) (h' : HasRoom (a + δ) (l :: p)) :
    l.after (a + δ) = l.after a + δ := by
  rw [h.after_eq, h'.after_eq]
  split
  · omega
  · rfl

end HasRoom

theorem define_moved (l : SourceLine) (a : Int) (table : SymbolTable) :
    l.define (a + δ) (table.moved δ) = (l.define a table).map (SymbolTable.moved δ) := by
  rw [SourceLine.define, SourceLine.define]
  cases l.kind.label? with
  | none => rfl
  | some name =>
    simp only [SymbolTable.defines_moved]
    split
    · rfl
    · split
      · rfl
      · exact congrArg Except.ok (SymbolTable.moved_append table name a).symm

theorem symbolsFrom_moved {a : Int} {table : SymbolTable} {p : Program} (h : HasRoom a p)
    (h' : HasRoom (a + δ) p) :
    symbolsFrom (a + δ) (table.moved δ) p =
      (symbolsFrom a table p).map (SymbolTable.moved δ) := by
  induction p generalizing a table with
  | nil => rfl
  | cons l p ih =>
    rw [symbolsFrom, symbolsFrom, define_moved, h.after_add h']
    cases l.define a table with
    | error d => rfl
    | ok table => exact ih h.tail (h.after_add h' ▸ h'.tail)

theorem wordsFrom_moved (hδ : (4 : Int) ∣ δ) {a : Int} {table : SymbolTable} {p : Program}
    (h : HasRoom a p) (h' : HasRoom (a + δ) p) :
    wordsFrom (table.moved δ) (a + δ) p =
      (wordsFrom table a p).map (List.map (Word.moved δ)) := by
  induction p generalizing a with
  | nil => rfl
  | cons l p ih =>
    have hrest := ih h.tail (h.after_add h' ▸ h'.tail)
    rw [wordsFrom, wordsFrom, encodeLine_moved hδ, h.after_add h', hrest]
    split
    · cases encodeLine table a l.text with
      | error e => rfl
      | ok w => cases wordsFrom table (l.after a) p <;> rfl
    · rfl

/-- The image of a program that is moved. -/
def Image.moved (δ : Int) (image : Image) : Image :=
  ⟨image.symbols.moved δ, image.words.map (Word.moved δ)⟩

/-- A run at another base address has the image that is moved there, or the same failure. -/
theorem assemble_moved (hδ : (4 : Int) ∣ δ) {base : Int} {p : Program} (h : HasRoom base p)
    (h' : HasRoom (base + δ) p) :
    p.assemble (base + δ) = (p.assemble base).map (Image.moved δ) := by
  have hsymbols : p.symbols (base + δ) = (p.symbols base).map (SymbolTable.moved δ) := by
    show symbolsFrom (base + δ) (SymbolTable.moved δ []) p = _
    exact symbolsFrom_moved h h'
  rw [assemble, assemble, hsymbols]
  cases p.symbols base with
  | error d => rfl
  | ok table =>
    show p.words (table.moved δ) (base + δ) >>= _ = (p.words table base >>= _).map _
    rw [words, words, wordsFrom_moved hδ h h']
    cases wordsFrom table base p <;> rfl

/-! ## Two runs -/

/-- The images of a program at two bases that are `δ` apart: the labels are the same and their
addresses are `δ` apart, and the words are the same up to the indices of jumps. -/
structure Relocated (δ : Int) (p : Program) (image image' : Image) : Prop where
  symbols : image'.symbols = image.symbols.map fun (name, a) => (name, a + δ)
  length_words : image.words.length = p.instructionLines.length
  length_words' : image'.words.length = p.instructionLines.length
  /-- Each instruction line has one word in either image. -/
  word : ∀ (k : Nat) l, p.instructionLines[k]? = some l → ∃ s w w',
    Statement.parse l.text = .ok s ∧ image.words[k]? = some w ∧ image'.words[k]? = some w' ∧
      (s.mnemonic ≠ .jump → w' = w) ∧
      (s.mnemonic = .jump → w'.opcode = w.opcode ∧
        (w'.index.toNat : Int) = (w.index.toNat + δ / 4) % 2 ^ 26)

theorem relocated_moved {base : Int} (hb : Address.IsWord base) {p : Program} {image : Image}
    (h : p.assemble base = .ok image) : Relocated δ p image (image.moved δ) := by
  have hlength := length_words (assemble_eq_ok_iff.1 h).2
  refine ⟨rfl, hlength, by rw [Image.moved, List.length_map, hlength], fun k l hl => ?_⟩
  obtain ⟨w, hw, hencode⟩ := exists_word_of_line hb h hl
  obtain ⟨s, -, -, hs, -⟩ := encodeLine_eq_ok_iff.1 hencode
  refine ⟨s, w, w.moved δ, hs, hw, ?_, Word.moved_of_encodeLine hencode hs⟩
  rw [Image.moved, List.getElem?_map, hw]
  rfl

/-- A program with room at two bases fails at both with the same failure or assembles at both, and
then its labels and its jumps are moved by the distance of the bases, and nothing else changes. -/
theorem relocated_of_assemble {base base' : Int} (hb : Address.IsWord base)
    (hb' : Address.IsWord base') {p : Program}
    (hroom : base + 4 * p.instructionLines.length < 2 ^ 32)
    (hroom' : base' + 4 * p.instructionLines.length < 2 ^ 32) :
    ((∃ image, p.assemble base = .ok image) ↔ ∃ image', p.assemble base' = .ok image') ∧
      (∀ e, p.assemble base = .error e ↔ p.assemble base' = .error e) ∧
      ∀ image image', p.assemble base = .ok image → p.assemble base' = .ok image' →
        Relocated (base' - base) p image image' := by
  have hbase' : base + (base' - base) = base' := by omega
  have hdvd : (4 : Int) ∣ base' - base := by
    have halign := hb.2.2
    have halign' := hb'.2.2
    omega
  have hmoved := assemble_moved hdvd ⟨hb.1, hroom⟩ (hbase'.symm ▸ ⟨hb'.1, hroom'⟩)
  rw [hbase'] at hmoved
  rw [hmoved]
  cases h : p.assemble base with
  | error e => exact ⟨iff_of_false nofun nofun, fun _ => Iff.rfl, nofun⟩
  | ok image =>
    refine ⟨iff_of_true ⟨image, rfl⟩ ⟨_, rfl⟩, fun _ => iff_of_false nofun nofun, ?_⟩
    rintro _ _ ⟨⟩ ⟨⟩
    exact relocated_moved hb h

set_option maxRecDepth 4000 in
/-- A program at zero and at the default base: only the jump at its front changes. -/
theorem relocated_wrapping :
    wrapping.assemble 0 =
      .ok ⟨[("start".text, 0), ("end".text, 8)], [0x08000002, 0x2001fffb, 0x1022ffff]⟩ ∧
    wrapping.assemble Address.defaultBase = .ok ⟨[("start".text, 0x00400000),
      ("end".text, 0x00400008)], [0x08100002, 0x2001fffb, 0x1022ffff]⟩ ∧
    Relocated (Address.defaultBase - 0) wrapping
      ⟨[("start".text, 0), ("end".text, 8)], [0x08000002, 0x2001fffb, 0x1022ffff]⟩
      ⟨[("start".text, 0x00400000), ("end".text, 0x00400008)],
        [0x08100002, 0x2001fffb, 0x1022ffff]⟩ := by
  have hzero : wrapping.assemble 0 = .ok ⟨[("start".text, 0), ("end".text, 8)],
    [0x08000002, 0x2001fffb, 0x1022ffff]⟩ := by rfl
  have hbase : wrapping.assemble Address.defaultBase = .ok ⟨[("start".text, 0x00400000),
    ("end".text, 0x00400008)], [0x08100002, 0x2001fffb, 0x1022ffff]⟩ := by rfl
  have hlength : wrapping.instructionLines.length = 3 := by rfl
  obtain ⟨-, -, h⟩ := relocated_of_assemble (p := wrapping) (by decide : Address.IsWord 0)
    (by decide : Address.IsWord Address.defaultBase) (by rw [hlength]; decide)
    (by rw [hlength]; decide)
  exact ⟨hzero, hbase, h _ _ hzero hbase⟩

end Program

end Mips32
