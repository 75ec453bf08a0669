import Mathlib.Algebra.Group.Nat.Defs
import Mips32.Program.Log
import Mips32.Proofs.Program.Branch

/-!
# Where jumps land, and what a run says about it

A jump holds 26 bits of the index of a word. The machine takes the high bits of the destination from
the address of the instruction behind the jump (`Address.jumpDestination`), so the jump arrives
exactly if its target is in the region of that instruction (`destination_eq_iff`). A run warns by
the region of the jump itself; `jumpWarning?` finds the warning about a jump in a log, and
`jumpWarning?_events` says which one it is.

The two rules part ways in the last word of a region, where the next instruction is in another
region already. `jump_warning_iff` states for every jump of every program that assembles when a
warning and a wrong destination go together, and `jump_warning_misleads` has one program for each of
the two ways in which they do not.
-/

namespace Mips32

namespace Address

/-- Where the jump at `pc` with a word index leads: the highest four bits of the address behind it,
then the index, then two zeros. -/
def jumpDestination (pc : Int) (index : BitVec 26) : BitVec 32 :=
  (BitVec.ofInt 32 (pc + 4) &&& 0xF0000000#32) ||| (index.setWidth 32 <<< 2)

/-- Masking the highest four bits keeps the number of the region. -/
theorem toNat_and_regionMask (x : BitVec 32) :
    (x &&& 0xF0000000#32).toNat = (x.toNat / 2 ^ 28) <<< 28 := by
  have hmask : x &&& 0xF0000000#32 = (x >>> 28) <<< 28 := by
    have hones : 0xF0000000#32 = BitVec.allOnes 32 <<< 28 := by rfl
    rw [hones]
    apply BitVec.eq_of_getLsbD_eq
    intro i hi
    simp only [BitVec.getLsbD_and, BitVec.getLsbD_shiftLeft, BitVec.getLsbD_allOnes,
      BitVec.getLsbD_ushiftRight]
    by_cases hlow : i < 28
    · simp [hlow]
    · have hback : 28 + (i - 28) = i := by omega
      simp [hlow, hi, hback]
      omega
  have hx := x.isLt
  rw [hmask, BitVec.toNat_shiftLeft, BitVec.toNat_ushiftRight, Nat.shiftRight_eq_div_pow,
    Nat.mod_eq_of_lt]
  rw [Nat.shiftLeft_eq]
  omega

/-- The destination as a number: the start of the region behind the jump, and four for each word. -/
theorem toNat_jumpDestination (pc : Int) (index : BitVec 26) :
    ((jumpDestination pc index).toNat : Int) = region (next pc) * 2 ^ 28 + 4 * index.toNat := by
  have hlt := index.isLt
  have hindex : (index.setWidth 32 <<< 2).toNat = 4 * index.toNat := by
    simp [Nat.shiftLeft_eq]
    omega
  -- The index stays below the region, so the two are put together without a carry.
  rw [jumpDestination, BitVec.toNat_or, toNat_and_regionMask, hindex,
    ← Nat.shiftLeft_add_eq_or_of_lt (by omega), Nat.shiftLeft_eq, BitVec.toNat_ofInt]
  simp only [region, next, space]
  omega

/-- The index that a jump holds is the place of its target in a region. -/
theorem toNat_jumpIndex {target : Int} (h : IsWord target) :
    4 * ((jumpIndex target).toNat : Int) = target % 2 ^ 28 := by
  obtain ⟨-, -, halign⟩ := h
  rw [natCast_jumpIndex]
  omega

/-- A jump leads to its target exactly if the target is in the region behind the jump. -/
theorem destination_eq_iff {pc target : Int} (htarget : IsWord target) :
    ((jumpDestination pc (jumpIndex target)).toNat : Int) = target ↔
      region (next pc) = region target := by
  rw [toNat_jumpDestination, toNat_jumpIndex htarget]
  obtain ⟨hlow, hhigh, -⟩ := htarget
  simp only [region, space] at *
  omega

/-- The instruction behind a jump is in the region of the jump unless it is the first one of its
own. -/
theorem region_next_eq_iff {pc : Int} (hpc : IsWord pc) :
    region (next pc) = region pc ↔ next pc % 2 ^ 28 ≠ 0 := by
  obtain ⟨hlow, hhigh, halign⟩ := hpc
  simp only [region, next, space] at *
  omega

/-- The region of a jump and the one behind it give the same verdict on a target, except where they
differ and the target is in one of them. -/
theorem region_verdicts_iff {pc : Int} (hpc : IsWord pc) (target : Int) :
    (region pc ≠ region target ↔ region (next pc) ≠ region target) ↔
      ¬(next pc % 2 ^ 28 = 0 ∧ (region target = region pc ∨ region target = region (next pc))) := by
  have hnext := region_next_eq_iff hpc
  by_cases hlast : next pc % 2 ^ 28 = 0
  · have hne : region (next pc) ≠ region pc := fun heq => hnext.1 heq hlast
    grind
  · rw [hnext.2 hlast]
    exact iff_of_true Iff.rfl fun h => hlast h.1

end Address

/-! ## Warnings in a log -/

namespace Event

/-- Whether an event tells that an instruction is encoded. -/
def isEncoded : Event → Bool
  | .encoded .. => true
  | _ => false

/-- Whether an event warns of a jump. -/
def isJumpWarning : Event → Bool
  | .jumpLeavesRegion .. => true
  | _ => false

/-- The warning in a log about the instruction with an index: the one that stands behind the
encoding of the instruction before it and in front of its own. -/
def jumpWarning? : List Event → Nat → Option Event
  | [], _ => none
  | .encoded .. :: _, 0 => none
  | .encoded .. :: rest, k + 1 => jumpWarning? rest k
  | .jumpLeavesRegion line target pc :: _, 0 => some (.jumpLeavesRegion line target pc)
  | _ :: rest, k => jumpWarning? rest k

/-- Events that neither encode nor warn can be skipped. -/
theorem jumpWarning?_append {front : List Event}
    (h : ∀ e ∈ front, e.isEncoded = false ∧ e.isJumpWarning = false) (rest : List Event) (k : Nat) :
    jumpWarning? (front ++ rest) k = jumpWarning? rest k := by
  induction front with
  | nil => rfl
  | cons e front ih =>
    obtain ⟨⟨hencoded, hwarning⟩, hfront⟩ := List.forall_mem_cons.1 h
    rw [← ih hfront]
    cases e with
    | encoded => cases hencoded
    | jumpLeavesRegion => cases hwarning
    | _ => rfl

/-- The warning about the first instruction stands in front of its encoding. -/
theorem jumpWarning?_zero {front : List Event} (h : ∀ e ∈ front, e.isEncoded = false)
    (word : Word) (l : SourceLine) (pc : Int) (rest : List Event) :
    jumpWarning? (front ++ .encoded word l pc :: rest) 0 = front.find? isJumpWarning := by
  induction front with
  | nil => rfl
  | cons e front ih =>
    obtain ⟨hencoded, hfront⟩ := List.forall_mem_cons.1 h
    cases e with
    | encoded => cases hencoded
    | jumpLeavesRegion => rfl
    | _ => exact ih hfront

/-- Behind the encoding of the first instruction the others are counted from zero again. -/
theorem jumpWarning?_succ {front : List Event} (h : ∀ e ∈ front, e.isEncoded = false)
    (word : Word) (l : SourceLine) (pc : Int) (rest : List Event) (k : Nat) :
    jumpWarning? (front ++ .encoded word l pc :: rest) (k + 1) = jumpWarning? rest k := by
  induction front with
  | nil => rfl
  | cons e front ih =>
    obtain ⟨hencoded, hfront⟩ := List.forall_mem_cons.1 h
    rw [← ih hfront]
    cases e with
    | encoded => cases hencoded
    | _ => rfl

end Event

theorem SymbolicInstruction.isEncoded_of_mem_linkEvents {table : SymbolTable} {pc line : Int}
    {i : SymbolicInstruction} {e : Event} (h : e ∈ i.linkEvents table pc line) :
    e.isEncoded = false := by
  cases e with
  | encoded =>
    unfold linkEvents at h
    grind
  | _ => rfl

/-- What encoding a line tells comes from linking its instruction. -/
theorem encodeEvents_of_reads {table : SymbolTable} {pc number : Int} {line : Text} {w : Word}
    (h : encodeLine table pc line = .ok w) {s : Statement} (hs : Statement.parse line = .ok s)
    {i : SymbolicInstruction} (hi : s.Reads i) :
    encodeEvents table pc number line = i.linkEvents table pc number := by
  simp only [encodeEvents, h, hs, Statement.instruction_eq_ok_iff.2 hi]

theorem isEncoded_of_mem_encodeEvents {table : SymbolTable} {pc number : Int} {line : Text}
    {w : Word} (h : encodeLine table pc line = .ok w) {e : Event}
    (he : e ∈ encodeEvents table pc number line) : e.isEncoded = false := by
  obtain ⟨s, i, -, hs, hi, -, -⟩ := encodeLine_eq_ok_iff.1 h
  rw [encodeEvents_of_reads h hs hi] at he
  exact i.isEncoded_of_mem_linkEvents he

/-- The one operand of a jump is its label. The word holds the index of the label's address, and
encoding warns of nothing but another region there. -/
theorem index_of_jump {table : SymbolTable} {pc : Int} {line : Text} {w : Word}
    (h : encodeLine table pc line = .ok w) {s : Statement} (hs : Statement.parse line = .ok s)
    (hjump : s.mnemonic = .jump) :
    ∃ label target, s.operands = [label] ∧ table.address? label = some target ∧
      w.index = Address.jumpIndex target ∧
      ∀ number, encodeEvents table pc number line =
        if Address.region pc = Address.region target then []
        else [.jumpLeavesRegion number target pc] := by
  obtain ⟨s', i, m, hs', hreads, hlink, rfl⟩ := encodeLine_eq_ok_iff.1 h
  obtain rfl : s = s' := Except.ok.inj (hs.symm.trans hs')
  have hevents : ∀ number, encodeEvents table pc number line = i.linkEvents table pc number :=
    fun _ => encodeEvents_of_reads h hs hreads
  cases hreads with
  | @jump label =>
    obtain ⟨target, htarget, rfl⟩ := map_eq_ok.1 hlink
    rw [SymbolicInstruction.resolve_eq_ok_iff] at htarget
    refine ⟨label, target, rfl, htarget, (Word.fields_ofIndex ..).2, fun number => ?_⟩
    rw [hevents, SymbolicInstruction.linkEvents, htarget]
    simp only [Address.sameRegion, decide_eq_true_eq]
  | _ => cases hjump

namespace Program

/-- Collecting symbols neither encodes nor warns of jumps. -/
theorem quiet_of_mem_symbolEventsFrom {p : Program} {a : Int} {table : SymbolTable} {e : Event}
    (h : e ∈ symbolEventsFrom a table p) : e.isEncoded = false ∧ e.isJumpWarning = false := by
  induction p generalizing a table with
  | nil =>
    rw [symbolEventsFrom, List.mem_singleton] at h
    exact h ▸ ⟨rfl, rfl⟩
  | cons l p ih =>
    rw [symbolEventsFrom] at h
    split at h
    · cases h
    · rcases List.mem_append.1 h with h | h
      · unfold SourceLine.defineEvents at h
        cases e with
        | encoded => grind
        | jumpLeavesRegion => grind
        | _ => exact ⟨rfl, rfl⟩
      · exact ih h

/-- The second pass warns of an instruction line as encoding that line alone does. -/
theorem jumpWarning?_wordEventsFrom {table : SymbolTable} {p : Program} {a : Int} {ws : List Word}
    (h : wordsFrom table a p = .ok ws) {k : Nat} {l : SourceLine} {pc : Int}
    (hk : (placedFrom a p)[k]? = some (l, pc)) :
    Event.jumpWarning? (wordEventsFrom table a p) k =
      (encodeEvents table pc l.number l.text).find? Event.isJumpWarning := by
  -- The placed lines and the log step together: one line, and what it tells up to its encoding.
  induction p generalizing a ws k with
  | nil => simp [placedFrom] at hk
  | cons m p ih =>
    rw [placedFrom] at hk
    rw [wordsFrom] at h
    rw [wordEventsFrom]
    split at h
    case isTrue hm =>
      obtain ⟨w, hw, ws', hrest, -⟩ : ∃ w, encodeLine table a m.text = .ok w ∧
          ∃ ws', wordsFrom table (m.after a) p = .ok ws' ∧ w :: ws' = ws := by
        simpa only [bind_eq_ok, mapError_eq_ok, pure_eq_ok] using h
      rw [if_pos hm] at hk ⊢
      have hfront : ∀ e ∈ encodeEvents table a m.number m.text, e.isEncoded = false :=
        fun _ he => isEncoded_of_mem_encodeEvents hw he
      rw [hw]
      cases k with
      | zero =>
        cases hk
        exact Event.jumpWarning?_zero hfront ..
      | succ k =>
        rw [List.getElem?_cons_succ] at hk
        rw [← ih hrest hk]
        exact Event.jumpWarning?_succ hfront ..
    case isFalse hm =>
      rw [if_neg hm] at hk ⊢
      exact ih h hk

/-- In the log of a run that succeeds, the warning about an instruction line is that of encoding the
line at its address. -/
theorem jumpWarning?_events {base : Int} (hb : Address.IsWord base) {p : Program} {image : Image}
    (h : p.assemble base = .ok image) {k : Nat} {l : SourceLine}
    (hl : p.instructionLines[k]? = some l) :
    Event.jumpWarning? (p.events base) k =
      (encodeEvents image.symbols (Address.ofIndex k base) l.number l.text).find?
        Event.isJumpWarning := by
  obtain ⟨hsymbols, hwords⟩ := assemble_eq_ok_iff.1 h
  have hplaced : (placedFrom base p)[k]? = some (l, Address.ofIndex k base) := by
    rw [getElem?_placedFrom hb, hl]
    rfl
  have hfirst : ∀ e ∈ p.symbolEvents base, e.isEncoded = false ∧ e.isJumpWarning = false := by
    intro e he
    rcases List.mem_cons.1 he with rfl | he
    · exact ⟨rfl, rfl⟩
    · exact quiet_of_mem_symbolEventsFrom he
  rw [events, Event.jumpWarning?_append hfirst, hsymbols,
    ← jumpWarning?_wordEventsFrom hwords hplaced]
  rfl

/-! ## The two rules -/

/-- In a program that assembles, the run warns of a jump with index `k` if its label is outside the
region of the jump, and the jump arrives if its label is inside the region behind the jump. So a
warning and a wrong destination go together except where the address behind the jump begins a region
and the label is in that region or in the one of the jump. -/
theorem jump_warning_iff {base : Int} (hb : Address.IsWord base) {p : Program} {image : Image}
    (h : p.assemble base = .ok image) {k : Nat} {l : SourceLine}
    (hl : p.instructionLines[k]? = some l) {s : Statement} (hs : Statement.parse l.text = .ok s)
    (hjump : s.mnemonic = .jump) :
    let pc := (base + 4 * k) % 2 ^ 32
    let warning? := Event.jumpWarning? (p.events base) k
    ∃ label w target, s.operands = [label] ∧ image.words[k]? = some w ∧
      image.symbols.address? label = some target ∧
      (warning? = if Address.region pc = Address.region target then none
        else some (.jumpLeavesRegion l.number target pc)) ∧
      ((Address.jumpDestination pc w.index).toNat = target ↔
        Address.region (Address.next pc) = Address.region target) ∧
      ((warning?.isSome ↔ (Address.jumpDestination pc w.index).toNat ≠ target) ↔
        ¬(Address.next pc % 2 ^ 28 = 0 ∧ (Address.region target = Address.region pc ∨
          Address.region target = Address.region (Address.next pc)))) := by
  intro pc warning?
  obtain ⟨hsymbols, -⟩ := assemble_eq_ok_iff.1 h
  obtain ⟨w, hw, hencode⟩ := exists_word_of_line hb h hl
  obtain ⟨label, target, hlabel, htarget, hindex, hevents⟩ := index_of_jump hencode hs hjump
  obtain ⟨hword, -⟩ := exists_position_of_address? hb hsymbols htarget
  have hpc : Address.ofIndex k base = pc := Address.ofIndex_eq ..
  have hpcWord : Address.IsWord pc := hpc ▸ Address.isWord_ofIndex hb k
  have hwarning : warning? = if Address.region pc = Address.region target then none
      else some (.jumpLeavesRegion l.number target pc) := by
    show Event.jumpWarning? (p.events base) k = _
    rw [jumpWarning?_events hb h hl, hevents, hpc]
    split <;> rfl
  have harrives : (Address.jumpDestination pc (Address.jumpIndex target)).toNat = target ↔
      Address.region (Address.next pc) = Address.region target := Address.destination_eq_iff hword
  have hsome : warning?.isSome ↔ Address.region pc ≠ Address.region target := by
    rw [hwarning]
    split <;> simp_all
  refine ⟨label, w, target, hlabel, hw, htarget, hwarning, hindex ▸ harrives, ?_⟩
  have hmisses := not_congr harrives
  rw [hsome, hindex, Ne, Ne, hmisses]
  exact Address.region_verdicts_iff hpcWord target

/-- The jump to the first word from the last region is warned of, and goes elsewhere. -/
theorem jump_warning_wrapping :
    Event.jumpWarning? (wrapping.events wrappingBase) 0 = some (.jumpLeavesRegion 3 0 0xFFFFFFF8) ∧
      (Address.jumpDestination 0xFFFFFFF8 (Word.index 0x08000000)).toNat ≠ (0 : Int) := by
  obtain ⟨label, w, target, hlabel, hw, htarget, hwarning, -, hverdict⟩ :=
    jump_warning_iff (k := 0) (l := ⟨3, "start: j end".text⟩) (s := ⟨.jump, ["end".text]⟩)
      (by decide) assemble_wrapping rfl rfl rfl
  cases hlabel
  cases hw
  cases htarget
  have hwarned := hwarning.trans (if_neg (by decide))
  refine ⟨hwarned, (hverdict.2 (by decide)).1 ?_⟩
  rw [hwarned]
  rfl

/-- A jump to itself from the last word of a region. -/
def selfJump : Program :=
  counted ["L: j L".text]

/-- A jump to the instruction behind it. -/
def nextJump : Program :=
  counted ["j L".text, "L:".text]

set_option maxRecDepth 4000 in
/-- In the last word of a region, the jump to itself is not warned of and ends in the next region,
and the jump to the instruction behind it is warned of and arrives. -/
theorem jump_warning_misleads :
    (selfJump.assemble 0x0FFFFFFC = .ok ⟨[("L".text, 0x0FFFFFFC)], [0x0BFFFFFF]⟩ ∧
      Event.jumpWarning? (selfJump.events 0x0FFFFFFC) 0 = none ∧
      Address.jumpDestination 0x0FFFFFFC (Word.index 0x0BFFFFFF) = 0x1FFFFFFC) ∧
    (nextJump.assemble 0x0FFFFFFC = .ok ⟨[("L".text, 0x10000000)], [0x08000000]⟩ ∧
      Event.jumpWarning? (nextJump.events 0x0FFFFFFC) 0 =
        some (.jumpLeavesRegion 1 0x10000000 0x0FFFFFFC) ∧
      Address.jumpDestination 0x0FFFFFFC (Word.index 0x08000000) = 0x10000000) :=
  ⟨⟨by rfl, by rfl, by rfl⟩, by rfl, by rfl, by rfl⟩

end Program

end Mips32
