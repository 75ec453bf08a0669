import Mips32.Proofs.Program.Layout
import Mips32.Report

/-!
# One address for every line

Four computations tell where something stands in a program: the first pass for labels, the second
pass for the instructions it links, the listing and the report for the words they print. `Agrees`
says that they tell the same address, and `agrees_of_assemble` that they do so for every program
that assembles, wherever its addresses wrap.
-/

namespace Mips32

namespace Listing

theorem getElem?_rowsFrom (base : Int) (index : Nat) (words : List Int) (k : Nat) :
    (rowsFrom base index words)[k]? = words[k]?.map (row base (index + k)) := by
  induction words generalizing index k with
  | nil => rfl
  | cons word rest ih =>
    cases k with
    | zero => rfl
    | succ k =>
      rw [rowsFrom, List.getElem?_cons_succ, List.getElem?_cons_succ, ih]
      congr 2
      omega

/-- Behind the header a listing has one row for each word, in order. -/
theorem getElem?_lines (words : List Int) (base : Int) (k : Nat) :
    (lines words base)[k + 1]? = words[k]?.map (row base k) := by
  rw [lines, List.getElem?_cons_succ, getElem?_rowsFrom, Nat.zero_add]

end Listing

namespace Report

/-- The report of a text that assembles is the report of its image. -/
theorem ofText_of_assemble {base : Int} {source : Text} {image : Program.Image}
    (h : (Program.ofText source).assemble base = .ok image) :
    ofText base source = .ok (ofImage base image) := by
  rw [ofText, h]

theorem getElem?_entries_ofImage (base : Int) (image : Program.Image) (k : Nat) :
    (ofImage base image).entries[k]? = image.words[k]?.map (Entry.ofWord base k) := by
  rw [ofImage, ofRun, List.getElem?_map, List.getElem?_zipIdx, Option.map_map, Nat.zero_add]
  rfl

end Report

namespace Program

/-- An image in which labels, words, listing and report agree on the addresses of a program. -/
structure Agrees (base : Int) (p : Program) (image : Image) : Prop where
  /-- The table holds the labels of the lines, in line order. -/
  names : image.symbols.map Prod.fst = p.names
  nodup : p.names.Nodup
  /-- A label has the address behind the instruction lines in front of it. -/
  label : ∀ i l name, p[i]? = some l → l.kind.label? = some name →
    image.symbols.address? name = some ((base + 4 * p.instructionsBefore i) % 2 ^ 32)
  length_words : image.words.length = p.instructionLines.length
  /-- Each instruction line is encoded at the address behind those in front of it. -/
  word : ∀ (k : Nat) l w, p.instructionLines[k]? = some l → image.words[k]? = some w →
    encodeLine image.symbols ((base + 4 * k) % 2 ^ 32) l.text = .ok w
  index : ∀ k : Nat, (base + 4 * k) % 2 ^ 32 = Address.ofIndex k base
  /-- The listing prints that address beside the word. -/
  row : ∀ (k : Nat) (w : Word), image.words[k]? = some w →
    (Listing.lines (image.words.map fun w => (w.toNat : Int)) base)[k + 1]? =
      some (Listing.hexWord ((base + 4 * k) % 2 ^ 32) ++ .char ' ' :: Listing.hexWord w.toNat)
  /-- If the lines are those of a source text, its report prints that address too. -/
  entry : ∀ source, ofText source = p → ∃ report, Report.ofText base source = .ok report ∧
    report.entries.length = image.words.length ∧
    ∀ (k : Nat) e, report.entries[k]? = some e →
      e.address = Listing.hexWord ((base + 4 * k) % 2 ^ 32)
  /-- A new label in front of an instruction line gets the address of that line. -/
  inserted : ∀ (front : Program) (l m : SourceLine) rest name, p = front ++ l :: rest →
    l.kind.isInstruction = true → m.kind.label? = some name → m.kind.isInstruction = false →
    name ≠ [] → name ∉ p.names →
    ∃ table, Program.symbols base (front ++ m :: l :: rest) = .ok table ∧
      table.address? name = some ((base + 4 * (instructionLines front).length) % 2 ^ 32)

/-- A label on a line of its own can be put in front of any line, and gets the address of the
position. -/
theorem address?_of_insert {base : Int} (hb : Address.IsWord base) {front rest : Program}
    {table : SymbolTable} (h : symbols base (front ++ rest) = .ok table) {m : SourceLine}
    {name : Text} (hm : m.kind.label? = some name) (hne : name ≠ [])
    (hnew : name ∉ names (front ++ rest)) :
    ∃ table', symbols base (front ++ m :: rest) = .ok table' ∧
      table'.address? name = some (Address.ofIndex (instructionLines front).length base) := by
  obtain ⟨⟨hnil, hnodup⟩, -⟩ := symbols_eq_ok_iff.1 h
  -- The labels are those of the program and the new one, in another order.
  have hnames : (names (front ++ m :: rest)).Perm (name :: names (front ++ rest)) := by
    rw [names_append, names_append, names_cons, hm]
    exact List.perm_middle
  have hok : symbols base (front ++ m :: rest) = .ok (labelsFrom base (front ++ m :: rest)) := by
    refine symbols_eq_ok_iff.2 ⟨⟨fun hmem => ?_, ?_⟩, rfl⟩
    · rcases List.mem_cons.1 (hnames.mem_iff.1 hmem) with h | h
      · exact hne h.symm
      · exact hnil h
    · exact hnames.nodup_iff.2 (List.nodup_cons.2 ⟨hnew, hnodup⟩)
  refine ⟨_, hok, (address?_eq_some_iff hb hok).2 ⟨front.length, m, by simp, hm, ?_⟩⟩
  rw [instructionsBefore, List.take_left]

/-- In every program that assembles, labels, words, listing and report agree on the addresses. -/
theorem agrees_of_assemble {base : Int} (hb : Address.IsWord base) {p : Program} {image : Image}
    (h : p.assemble base = .ok image) : Agrees base p image := by
  obtain ⟨hsymbols, hwords⟩ := assemble_eq_ok_iff.1 h
  obtain ⟨⟨-, hnodup⟩, htable⟩ := symbols_eq_ok_iff.1 hsymbols
  refine ⟨?names, hnodup, ?label, length_words hwords, ?word, ?index, ?row, ?entry, ?inserted⟩
  case names => rw [htable, map_fst_labelsFrom]
  case label =>
    intro i l name hl hname
    rw [← Address.ofIndex_eq]
    exact (address?_eq_some_iff hb hsymbols).2 ⟨i, l, hl, hname, rfl⟩
  case word =>
    intro k l w hl hw
    rw [← Address.ofIndex_eq]
    exact encodeLine_of_words hb hwords hl hw
  case index => exact fun k => (Address.ofIndex_eq k base).symm
  case row =>
    intro k w hw
    rw [Listing.getElem?_lines, List.getElem?_map, hw, ← Address.ofIndex_eq]
    rfl
  case entry =>
    rintro source rfl
    refine ⟨_, Report.ofText_of_assemble h, by simp [Report.ofImage, Report.ofRun],
      fun k e he => ?_⟩
    rw [Report.getElem?_entries_ofImage, Option.map_eq_some_iff] at he
    obtain ⟨w, -, rfl⟩ := he
    rw [← Address.ofIndex_eq]
    rfl
  case inserted =>
    rintro front l m rest name rfl - hm - hne hnew
    rw [← Address.ofIndex_eq]
    exact address?_of_insert hb hsymbols hm hne hnew

theorem agrees_wrapping : Address.IsWord wrappingBase ∧
    wrapping.assemble wrappingBase = .ok wrappingImage ∧
    Agrees wrappingBase wrapping wrappingImage :=
  have hb : Address.IsWord wrappingBase := by decide
  ⟨hb, assemble_wrapping, agrees_of_assemble hb assemble_wrapping⟩

end Program

end Mips32
