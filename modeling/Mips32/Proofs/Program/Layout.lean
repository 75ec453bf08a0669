import Mathlib.Algebra.Group.Int.Defs
import Mathlib.Data.List.Forall2
import Mips32.Program.Words
import Mips32.Proofs.Outcome

/-!
# Where the lines of a program stand

Both passes go through the same lines and carry an address along. This module says once, without
either pass, where a line stands: `instructionsBefore` counts the instruction lines in front of a
position, and the address of the position is the base and four times that count, wrapped
(`Address.ofIndex`). The two passes are then brought to two plain lists:

* `labelsFrom` lists the labels with the address of their line; collecting symbols succeeds exactly
  if the labels are new and not empty, and then appends that list (`symbolsFrom_eq_ok_iff`);
* `placedFrom` lists the instruction lines with their addresses; encoding succeeds exactly if each
  of them encodes where it is placed (`wordsFrom_eq_ok_iff`).

That the carried address of either list is the counted one is an induction on the lines, with the
address in front of them generalised: `mem_labelsFrom_iff` and `getElem?_placedFrom`.
-/

namespace Mips32

namespace Address

/-- The address with an index, written out. -/
theorem ofIndex_eq (index base : Int) : ofIndex index base = (base + 4 * index) % 2 ^ 32 := by
  rw [ofIndex, space, Int.mul_comm]
  rfl

/-- Counting from the next address is counting one further. -/
theorem ofIndex_next (index a : Int) : ofIndex index (next a) = ofIndex (index + 1) a := by
  simp only [next, ofIndex, space]
  omega

theorem isWord_next {a : Int} (h : IsWord a) : IsWord (next a) := by
  simp only [IsWord, next, space] at h ⊢
  omega

/-- Every instruction of a program at a word address is at a word address, wrapped or not. -/
theorem isWord_ofIndex {base : Int} (h : IsWord base) (index : Int) :
    IsWord (ofIndex index base) := by
  simp only [IsWord, ofIndex, space] at h ⊢
  omega

end Address

namespace SourceLine

theorem isWord_after {a : Int} (l : SourceLine) (h : Address.IsWord a) :
    Address.IsWord (l.after a) := by
  unfold after
  split
  · exact Address.isWord_next h
  · exact h

end SourceLine

namespace Program

theorem map_text_counted (lines : List Text) : (counted lines).map (·.text) = lines := by
  rw [counted, List.map_map]
  exact List.zipIdx_map_fst 1 lines

/-- How many instruction lines stand in front of a position. -/
def instructionsBefore (p : Program) (i : Nat) : Nat :=
  (instructionLines (p.take i)).length

/-- The labels that the lines of a program bear, in line order. -/
def names (p : Program) : List Text :=
  p.filterMap (·.kind.label?)

/-- The labels of lines that start at address `a`, each with the address of its line. -/
def labelsFrom (a : Int) : Program → SymbolTable
  | [] => []
  | l :: rest => l.kind.label?.toList.map (·, a) ++ labelsFrom (l.after a) rest

/-- The instruction lines of lines that start at address `a`, each with its address. -/
def placedFrom (a : Int) : Program → List (SourceLine × Int)
  | [] => []
  | l :: rest =>
    if l.kind.isInstruction then (l, a) :: placedFrom (l.after a) rest
    else placedFrom (l.after a) rest

@[simp] theorem names_nil : names [] = [] := rfl

theorem names_cons (l : SourceLine) (p : Program) :
    names (l :: p) = l.kind.label?.toList ++ names p := by
  cases h : l.kind.label? <;> simp [names, h]

theorem names_append (p q : Program) : names (p ++ q) = names p ++ names q :=
  List.filterMap_append

theorem mem_names_iff {p : Program} {name : Text} :
    name ∈ names p ↔ ∃ l ∈ p, l.kind.label? = some name :=
  List.mem_filterMap

@[simp] theorem instructionLines_nil : instructionLines [] = [] := rfl

theorem instructionLines_cons (l : SourceLine) (p : Program) :
    instructionLines (l :: p) =
      if l.kind.isInstruction then l :: instructionLines p else instructionLines p :=
  List.filter_cons

@[simp] theorem instructionsBefore_zero (p : Program) : p.instructionsBefore 0 = 0 := by
  simp [instructionsBefore]

/-- A position behind the first line stands after the first line. -/
theorem ofIndex_instructionsBefore_succ {a : Int} (l : SourceLine) (p : Program) (i : Nat) :
    Address.ofIndex (instructionsBefore (l :: p) (i + 1)) a =
      Address.ofIndex (p.instructionsBefore i) (l.after a) := by
  unfold instructionsBefore SourceLine.after
  rw [List.take_succ_cons, instructionLines_cons]
  split
  · rw [Address.ofIndex_next, List.length_cons, Int.natCast_succ]
  · rfl

/-! ## The labels -/

@[simp] theorem map_fst_labelsFrom (a : Int) (p : Program) :
    (labelsFrom a p).map Prod.fst = p.names := by
  induction p generalizing a with
  | nil => rfl
  | cons l p ih =>
    rw [labelsFrom, List.map_append, ih, names_cons, List.map_map]
    exact congrArg (· ++ names p) (List.map_id _)

/-- A label has the address of the position of its line. -/
theorem mem_labelsFrom_iff {a : Int} (ha : Address.IsWord a) {p : Program} {name : Text} {v : Int} :
    (name, v) ∈ labelsFrom a p ↔
      ∃ i l, p[i]? = some l ∧ l.kind.label? = some name ∧
        v = Address.ofIndex (p.instructionsBefore i) a := by
  induction p generalizing a with
  | nil => simp [labelsFrom]
  | cons l p ih =>
    have hhead : (name, v) ∈ l.kind.label?.toList.map (·, a) ↔
        l.kind.label? = some name ∧ v = a := by
      cases l.kind.label? <;> simp [eq_comm]
    have hzero : Address.ofIndex (instructionsBefore (l :: p) 0) a = a := by
      rw [instructionsBefore_zero]
      exact Address.ofIndex_zero ha
    rw [labelsFrom, List.mem_append, hhead, ih (l.isWord_after ha)]
    -- Position zero is the first line; every other position is one of the rest, one further on.
    constructor
    · rintro (⟨hl, rfl⟩ | ⟨i, m, hm, hname, rfl⟩)
      · exact ⟨0, l, rfl, hl, by rw [hzero]⟩
      · exact ⟨i + 1, m, hm, hname, (ofIndex_instructionsBefore_succ l p i).symm⟩
    · rintro ⟨i, m, hm, hname, rfl⟩
      cases i with
      | zero =>
        cases hm
        exact .inl ⟨hname, hzero⟩
      | succ i => exact .inr ⟨i, m, hm, hname, ofIndex_instructionsBefore_succ l p i⟩

/-! ## The placed instruction lines -/

@[simp] theorem map_fst_placedFrom (a : Int) (p : Program) :
    (placedFrom a p).map Prod.fst = p.instructionLines := by
  induction p generalizing a with
  | nil => rfl
  | cons l p ih =>
    rw [placedFrom, instructionLines_cons]
    split <;> simp [ih]

@[simp] theorem length_placedFrom (a : Int) (p : Program) :
    (placedFrom a p).length = p.instructionLines.length := by
  rw [← map_fst_placedFrom a, List.length_map]

/-- The instruction line with index `k` is placed at the address of index `k`. -/
theorem getElem?_placedFrom {a : Int} (ha : Address.IsWord a) (p : Program) (k : Nat) :
    (placedFrom a p)[k]? = p.instructionLines[k]?.map (·, Address.ofIndex k a) := by
  induction p generalizing a k with
  | nil => simp [placedFrom]
  | cons l p ih =>
    rw [placedFrom, instructionLines_cons]
    split
    case isTrue hl =>
      cases k with
      | zero => simp [Address.ofIndex_zero ha]
      | succ k =>
        have hafter : l.after a = Address.next a := if_pos hl
        rw [List.getElem?_cons_succ, List.getElem?_cons_succ, ih (l.isWord_after ha), hafter,
          Address.ofIndex_next, Int.natCast_succ]
    case isFalse hl =>
      have hafter : l.after a = a := if_neg hl
      rw [ih (l.isWord_after ha), hafter]

/-! ## The first pass -/

/-- Labels that a table can take up: none is empty, none is defined already, no two are equal. -/
structure Fresh (table : SymbolTable) (labels : List Text) : Prop where
  ne_nil : ∀ name ∈ labels, name ≠ []
  undefined : ∀ name ∈ labels, table.defines name = false
  nodup : labels.Nodup

theorem defines_eq_false_iff {table : SymbolTable} {name : Text} :
    table.defines name = false ↔ name ∉ table.map Prod.fst := by
  simp only [SymbolTable.defines, SymbolTable.address?, Option.isSome_eq_false_iff,
    Option.isNone_iff_eq_none, List.lookup_eq_none_iff, List.mem_map]
  grind

theorem fresh_nil_right (table : SymbolTable) : Fresh table [] :=
  ⟨by simp, by simp, List.nodup_nil⟩

/-- Labels are taken up one after the other: the first by the table, the others by the table with
the first in it. -/
theorem fresh_cons_iff {table : SymbolTable} {name : Text} {labels : List Text} (a : Int) :
    Fresh table (name :: labels) ↔
      (name ≠ [] ∧ table.defines name = false) ∧ Fresh (table ++ [(name, a)]) labels := by
  have hdefines : ∀ n, (table ++ [(name, a)]).defines n = false ↔
      table.defines n = false ∧ n ≠ name := by
    intro n
    simp [defines_eq_false_iff]
  constructor
  · rintro ⟨hne, hundef, hnodup⟩
    obtain ⟨hname, hlabels⟩ := List.nodup_cons.1 hnodup
    refine ⟨⟨hne _ (.head _), hundef _ (.head _)⟩, ?_, ?_, hlabels⟩
    · exact fun n hn => hne n (.tail _ hn)
    · exact fun n hn => (hdefines n).2 ⟨hundef n (.tail _ hn), fun h => hname (h ▸ hn)⟩
  · rintro ⟨⟨hname, htable⟩, hne, hundef, hnodup⟩
    refine ⟨?_, ?_, List.nodup_cons.2 ⟨fun h => ((hdefines _).1 (hundef _ h)).2 rfl, hnodup⟩⟩
    · exact List.forall_mem_cons.2 ⟨hname, hne⟩
    · exact List.forall_mem_cons.2 ⟨htable, fun n hn => ((hdefines n).1 (hundef n hn)).1⟩

/-- The first pass over lines that start at `a` succeeds exactly if the table can take up their
labels, and then appends them with their addresses. -/
theorem symbolsFrom_eq_ok_iff {a : Int} {table table' : SymbolTable} {p : Program} :
    symbolsFrom a table p = .ok table' ↔
      Fresh table p.names ∧ table' = table ++ labelsFrom a p := by
  induction p generalizing a table with
  | nil => simp [symbolsFrom, labelsFrom, fresh_nil_right, eq_comm]
  | cons l p ih =>
    rw [symbolsFrom, bind_eq_ok, names_cons, labelsFrom]
    -- Only a line with a label changes the table, and what it needs is what `Fresh` says of the
    -- first label.
    cases hl : l.kind.label? with
    | none => simp [SourceLine.define, hl, ih]
    | some name =>
      have hdefine : ∀ t, l.define a table = .ok t ↔
          (name ≠ [] ∧ table.defines name = false) ∧ table ++ [(name, a)] = t := by
        intro t
        simp only [SourceLine.define, hl]
        split <;> [skip; split] <;> simp_all
      simp only [hdefine, ih, Option.toList_some, List.singleton_append, fresh_cons_iff a]
      constructor
      · rintro ⟨_, ⟨hname, rfl⟩, hfresh, rfl⟩
        exact ⟨⟨hname, hfresh⟩, by simp⟩
      · rintro ⟨⟨hname, hfresh⟩, rfl⟩
        exact ⟨_, ⟨hname, rfl⟩, hfresh, by simp⟩

/-- A program has a symbol table exactly if its labels are distinct and not empty. -/
theorem symbols_eq_ok_iff {base : Int} {p : Program} {table : SymbolTable} :
    p.symbols base = .ok table ↔
      ([] ∉ p.names ∧ p.names.Nodup) ∧ table = labelsFrom base p := by
  rw [symbols, symbolsFrom_eq_ok_iff, List.nil_append]
  refine and_congr_left fun _ => ⟨fun h => ⟨fun hnil => h.ne_nil _ hnil rfl, h.nodup⟩, ?_⟩
  rintro ⟨hnil, hnodup⟩
  exact ⟨fun name hname h => hnil (h ▸ hname), fun _ _ => rfl, hnodup⟩

/-- In a table that names each label once, an address is looked up where it is listed. -/
theorem address?_eq_some_iff_mem {table : SymbolTable} (h : (table.map Prod.fst).Nodup)
    {name : Text} {v : Int} : table.address? name = some v ↔ (name, v) ∈ table := by
  rw [SymbolTable.address?, List.lookup_eq_some_iff]
  constructor
  · rintro ⟨front, rest, rfl, -⟩
    simp
  · intro hmem
    obtain ⟨front, rest, rfl⟩ := List.append_of_mem hmem
    refine ⟨front, rest, rfl, fun x hx => ?_⟩
    rw [List.map_append, List.nodup_append] at h
    simpa using (h.2.2 x.1 (List.mem_map_of_mem hx) name (by simp)).symm

/-- In the symbol table of a program each label has the address of the position of its line. -/
theorem address?_eq_some_iff {base : Int} (hb : Address.IsWord base) {p : Program}
    {table : SymbolTable} (h : p.symbols base = .ok table) {name : Text} {v : Int} :
    table.address? name = some v ↔
      ∃ i l, p[i]? = some l ∧ l.kind.label? = some name ∧
        v = Address.ofIndex (p.instructionsBefore i) base := by
  obtain ⟨⟨-, hnodup⟩, rfl⟩ := symbols_eq_ok_iff.1 h
  rw [address?_eq_some_iff_mem (by rwa [map_fst_labelsFrom]), mem_labelsFrom_iff hb]

/-- Where no two labels are equal, a label stands at one position only. -/
theorem eq_of_label?_eq {p : Program} (h : p.names.Nodup) {i j : Nat} {l m : SourceLine}
    {name : Text} (hi : p[i]? = some l) (hl : l.kind.label? = some name) (hj : p[j]? = some m)
    (hm : m.kind.label? = some name) : i = j := by
  induction p generalizing i j with
  | nil => simp at hi
  | cons n p ih =>
    rw [names_cons, List.nodup_append] at h
    obtain ⟨-, hrest, hdisjoint⟩ := h
    -- A label of the rest is not that of the first line.
    have hfirst : ∀ {k : Nat} {x : SourceLine}, p[k]? = some x → x.kind.label? = some name →
        n.kind.label? ≠ some name := by
      intro k x hx hname hn
      exact hdisjoint name (by simp [hn]) name
        (mem_names_iff.2 ⟨x, List.mem_of_getElem? hx, hname⟩) rfl
    cases i with
    | zero =>
      cases hi
      cases j with
      | zero => rfl
      | succ j => exact absurd hl (hfirst hj hm)
    | succ i =>
      cases j with
      | zero =>
        cases hj
        exact absurd hm (hfirst hi hl)
      | succ j => rw [ih hrest hi hj]

/-! ## The second pass -/

/-- The second pass over lines that start at `a` succeeds exactly if each instruction line encodes
where it is placed. -/
theorem wordsFrom_eq_ok_iff {table : SymbolTable} {a : Int} {p : Program} {ws : List Word} :
    wordsFrom table a p = .ok ws ↔
      List.Forall₂ (fun x w => encodeLine table x.2 x.1.text = .ok w) (placedFrom a p) ws := by
  induction p generalizing a ws with
  | nil => simp [wordsFrom, placedFrom, eq_comm]
  | cons l p ih =>
    rw [wordsFrom, placedFrom]
    split
    · simp only [bind_eq_ok, mapError_eq_ok, pure_eq_ok, ih, List.forall₂_cons_left_iff]
      grind
    · exact ih

/-- There are as many words as instruction lines. -/
theorem length_words {base : Int} {p : Program} {table : SymbolTable} {ws : List Word}
    (h : p.words table base = .ok ws) : ws.length = p.instructionLines.length := by
  rw [← (wordsFrom_eq_ok_iff.1 h).length_eq, length_placedFrom]

/-- The word with index `k` is the encoding of the instruction line with that index, at the address
with that index. -/
theorem encodeLine_of_words {base : Int} (hb : Address.IsWord base) {p : Program}
    {table : SymbolTable} {ws : List Word} (h : p.words table base = .ok ws) {k : Nat}
    {l : SourceLine} {w : Word} (hl : p.instructionLines[k]? = some l) (hw : ws[k]? = some w) :
    encodeLine table (Address.ofIndex k base) l.text = .ok w := by
  have hall := wordsFrom_eq_ok_iff.1 h
  have hplaced : (placedFrom base p)[k]? = some (l, Address.ofIndex k base) := by
    rw [getElem?_placedFrom hb, hl]
    rfl
  obtain ⟨hk, hx⟩ := List.getElem?_eq_some_iff.1 hplaced
  obtain ⟨hk', hw⟩ := List.getElem?_eq_some_iff.1 hw
  have := hall.get hk hk'
  simpa [hx, hw] using this

/-- A run succeeds exactly if both passes do. -/
theorem assemble_eq_ok_iff {base : Int} {p : Program} {image : Image} :
    p.assemble base = .ok image ↔
      p.symbols base = .ok image.symbols ∧ p.words image.symbols base = .ok image.words := by
  simp only [assemble, bind_eq_ok, mapError_eq_ok, pure_eq_ok]
  constructor
  · rintro ⟨symbols, hsymbols, words, hwords, rfl⟩
    exact ⟨hsymbols, hwords⟩
  · rintro ⟨hsymbols, hwords⟩
    exact ⟨_, hsymbols, _, hwords, rfl⟩

/-- A label in the symbol table of a program is defined at one position, and has the address of that
position. -/
theorem exists_position_of_address? {base : Int} (hb : Address.IsWord base) {p : Program}
    {table : SymbolTable} (h : p.symbols base = .ok table) {label : Text} {target : Int}
    (htarget : table.address? label = some target) :
    Address.IsWord target ∧ ∃ i, target = Address.ofIndex (p.instructionsBefore i) base ∧
      ∀ j, p[j]?.bind (·.kind.label?) = some label ↔ j = i := by
  obtain ⟨i, l, hi, hl, rfl⟩ := (address?_eq_some_iff hb h).1 htarget
  obtain ⟨⟨-, hnodup⟩, -⟩ := symbols_eq_ok_iff.1 h
  refine ⟨Address.isWord_ofIndex hb _, i, rfl, fun j => ⟨fun hj => ?_, ?_⟩⟩
  · obtain ⟨m, hm, hname⟩ := Option.bind_eq_some_iff.1 hj
    exact eq_of_label?_eq hnodup hm hname hi hl
  · rintro rfl
    rw [hi, Option.bind_some, hl]

/-- Behind every instruction line of a program that assembles there is a word: the encoding of the
line at its address. -/
theorem exists_word_of_line {base : Int} (hb : Address.IsWord base) {p : Program} {image : Image}
    (h : p.assemble base = .ok image) {k : Nat} {l : SourceLine}
    (hl : p.instructionLines[k]? = some l) :
    ∃ w, image.words[k]? = some w ∧
      encodeLine image.symbols (Address.ofIndex k base) l.text = .ok w := by
  obtain ⟨-, hwords⟩ := assemble_eq_ok_iff.1 h
  have hk : k < image.words.length := by
    rw [length_words hwords]
    exact (List.getElem?_eq_some_iff.1 hl).1
  have hw : image.words[k]? = some image.words[k] := List.getElem?_eq_getElem hk
  exact ⟨_, hw, encodeLine_of_words hb hwords hl hw⟩

/-! ## A program across the end of the address space -/

/-- A program whose second instruction is in the last word of the address space if it starts at
`wrappingBase`. The last line has no number, so it is left out. -/
def wrapping : Program :=
  ofLines
    (["start: j end", ".text", "addi $1, $0, -5", "end:", "beq $1, $2, end", "end:"].map
      String.text)
    (some [3, 4, 6, 7, 7])

/-- Two words below the end of the address space. -/
def wrappingBase : Int := 0xFFFFFFF8

/-- The label behind the wrap is at zero. -/
def wrappingImage : Image where
  symbols := [("start".text, 0xFFFFFFF8), ("end".text, 0)]
  words := [0x08000000, 0x2001fffb, 0x1022ffff]

set_option maxRecDepth 4000 in
theorem assemble_wrapping : wrapping.assemble wrappingBase = .ok wrappingImage := by rfl

end Program

end Mips32
