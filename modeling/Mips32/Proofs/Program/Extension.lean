import Mips32.Proofs.Program.Contribution
import Mips32.Proofs.Report.Editing

/-!
# Code that is appended

If a program assembles, and still does with more lines behind it, then nothing of what was there
changes: its symbols and its words are in front of those of the longer program, and what follows
them are the symbols and the words of the new lines alone, counted from the address behind the last
old word (`extends_of_assemble`).

The symbols of lines put together are those of the first and then those of the second
(`labelsFrom_append`), so the longer table gives every label of the shorter one the address it had
(`SymbolTable.keeps_append`). The old words are encoded with the longer table all the same, and that
is where assembling the old lines alone is used: whatever label they name is in the shorter table,
and a line that has a word keeps it in every table that keeps its labels (`encodeLine_of_keeps`).
-/

namespace Mips32

/-! ## Tables that keep their labels -/

/-- Every label of a table has its address in the other one too. -/
def SymbolTable.Keeps (table table' : SymbolTable) : Prop :=
  ∀ name a, table.address? name = some a → table'.address? name = some a

/-- What is appended to a table hides none of its labels. -/
theorem SymbolTable.keeps_append (table rest : SymbolTable) : table.Keeps (table ++ rest) := by
  intro name a h
  obtain ⟨front, behind, rfl, hfirst⟩ := List.lookup_eq_some_iff.1 h
  exact List.lookup_eq_some_iff.2 ⟨front, behind ++ rest, by simp, hfirst⟩

namespace SymbolicInstruction

variable {table table' : SymbolTable} {pc : Int}

theorem branchField_of_keeps (hkeeps : table.Keeps table') {label : Text} {d : BitVec 16}
    (h : branchField table pc label = .ok d) : branchField table' pc label = .ok d := by
  obtain ⟨target, htarget, hd⟩ := branchField_eq_ok_iff.1 h
  exact branchField_eq_ok_iff.2 ⟨target, hkeeps _ _ htarget, hd⟩

theorem link_of_keeps (hkeeps : table.Keeps table') {i : SymbolicInstruction}
    {m : MachineInstruction} (h : i.link table pc = .ok m) : i.link table' pc = .ok m := by
  cases i with
  | branchPair test rs rt label =>
    obtain ⟨d, hd, rfl⟩ := map_eq_ok.1 h
    exact map_eq_ok.2 ⟨d, branchField_of_keeps hkeeps hd, rfl⟩
  | branchSign test rs label =>
    obtain ⟨d, hd, rfl⟩ := map_eq_ok.1 h
    exact map_eq_ok.2 ⟨d, branchField_of_keeps hkeeps hd, rfl⟩
  | jump label =>
    obtain ⟨target, htarget, rfl⟩ := map_eq_ok.1 h
    have haddress := hkeeps _ _ (resolve_eq_ok_iff.1 htarget)
    exact map_eq_ok.2 ⟨target, resolve_eq_ok_iff.2 haddress, rfl⟩
  | _ => exact h

end SymbolicInstruction

/-- A line that has a word has the same word in every table that keeps the labels. -/
theorem encodeLine_of_keeps {table table' : SymbolTable} (hkeeps : table.Keeps table') {pc : Int}
    {line : Text} {w : Word} (h : encodeLine table pc line = .ok w) :
    encodeLine table' pc line = .ok w := by
  obtain ⟨s, i, m, hs, hreads, hlink, hw⟩ := encodeLine_eq_ok_iff.1 h
  have hlink' := SymbolicInstruction.link_of_keeps hkeeps hlink
  exact encodeLine_eq_ok_iff.2 ⟨s, i, m, hs, hreads, hlink', hw⟩

namespace Program

/-- Lines that have words have the same words in every table that keeps the labels. -/
theorem words_of_keeps {table table' : SymbolTable} (hkeeps : table.Keeps table') {base : Int}
    {p : Program} {ws : List Word} (h : p.words table base = .ok ws) :
    p.words table' base = .ok ws :=
  wordsFrom_eq_ok_iff.2
    ((wordsFrom_eq_ok_iff.1 h).imp fun _ _ => encodeLine_of_keeps hkeeps)

/-! ## Lines put together -/

/-- The labels of lines put together are those of the first and then those of the second, which
start behind the first. -/
theorem labelsFrom_append {a : Int} (ha : Address.IsWord a) (p q : Program) :
    labelsFrom a (p ++ q) =
      labelsFrom a p ++ labelsFrom (Address.ofIndex p.instructionLines.length a) q := by
  induction p generalizing a with
  | nil =>
    rw [List.nil_append, instructionLines_nil, List.length_nil, Int.natCast_zero,
      Address.ofIndex_zero ha]
    rfl
  | cons l p ih =>
    rw [List.cons_append, labelsFrom, labelsFrom, ih (l.isWord_after ha), List.append_assoc,
      ofIndex_instructionLines_cons]

/-- An image that goes on with lines behind those of another image: the symbols and the words of the
other one are in front of its own, and then come those of the new lines, which start behind the last
old word. Their words are made with all symbols, old and new. -/
structure Extends (base : Int) (rest : Program) (image whole : Image) : Prop where
  isWord : Address.IsWord ((base + 4 * image.words.length) % 2 ^ 32)
  symbols : ∃ symbols, whole.symbols = image.symbols ++ symbols ∧
    rest.symbols ((base + 4 * image.words.length) % 2 ^ 32) = .ok symbols
  words : ∃ words, whole.words = image.words ++ words ∧
    rest.words whole.symbols ((base + 4 * image.words.length) % 2 ^ 32) = .ok words

/-- Lines that assemble keep their symbols and their words when more lines assemble behind them. -/
theorem extends_append {base : Int} (hb : Address.IsWord base) {p q : Program}
    {image whole : Image} (h : p.assemble base = .ok image)
    (hwhole : (p ++ q).assemble base = .ok whole) : Extends base q image whole := by
  obtain ⟨hsymbols, hwords⟩ := assemble_eq_ok_iff.1 h
  obtain ⟨hsymbols', hwords'⟩ := assemble_eq_ok_iff.1 hwhole
  obtain ⟨⟨hnil, hnodup⟩, htable⟩ := symbols_eq_ok_iff.1 hsymbols'
  have htable' : whole.symbols =
      image.symbols ++ labelsFrom (Address.ofIndex image.words.length base) q := by
    rw [htable, labelsFrom_append hb, length_words hwords, (symbols_eq_ok_iff.1 hsymbols).2]
  obtain ⟨before, behind, hbefore, hbehind, heq⟩ := (wordsFrom_append_eq_ok_iff hb).1 hwords'
  -- The words in front are encoded with the longer table, and are the old ones all the same.
  have hkept : p.words whole.symbols base = .ok image.words :=
    words_of_keeps (htable' ▸ SymbolTable.keeps_append _ _) hwords
  obtain rfl : before = image.words := Except.ok.inj (hbefore.symm.trans hkept)
  rw [← length_words hwords] at hbehind
  rw [names_append] at hnil hnodup
  refine ⟨?_, ⟨_, htable', ?_⟩, ⟨behind, heq, ?_⟩⟩
  · rw [← Address.ofIndex_eq]
    exact Address.isWord_ofIndex hb _
  · rw [← Address.ofIndex_eq]
    exact symbols_eq_ok_iff.2
      ⟨⟨fun h => hnil (List.mem_append_right _ h), (List.nodup_append.1 hnodup).2.1⟩, rfl⟩
  · rw [← Address.ofIndex_eq]
    exact hbehind

/-- Lines that assemble keep their symbols and their words when more lines assemble behind them, all
counted from one. -/
theorem extends_of_assemble {base : Int} (hb : Address.IsWord base) {front rest : List Text}
    {image whole : Image} (h : (counted front).assemble base = .ok image)
    (hwhole : (counted (front ++ rest)).assemble base = .ok whole) :
    Extends base (counted rest) image whole := by
  have htexts : (counted (front ++ rest)).map (·.text) =
      (counted front ++ counted rest).map (·.text) := by
    rw [List.map_append, map_text_counted, map_text_counted, map_text_counted]
  have hsame := assemble_of_map_text_eq htexts base
  rw [hwhole] at hsame
  exact extends_append hb h (mapError_eq_ok.1 hsame.symm)

/-- Two lines that fill the address space to its end. -/
def lastLines : List Text :=
  ["start: j start".text, "end:".text]

/-- Lines behind them: a jump back to the first of them, and a branch to a label of their own. -/
def furtherLines : List Text :=
  ["j start".text, "blez $1, last".text, "last:".text]

/-- The image of the last lines in the last word of the address space. -/
def lastImage : Image where
  symbols := [("start".text, 0xFFFFFFFC), ("end".text, 0)]
  words := [0x0BFFFFFF]

/-- The image with the further lines, which start at zero. -/
def furtherImage : Image where
  symbols := lastImage.symbols ++ [("last".text, 8)]
  words := lastImage.words ++ [0x0BFFFFFF, 0x18200000]

set_option maxRecDepth 4000 in
theorem extends_lastLines : Address.IsWord 0xFFFFFFFC ∧
    (counted lastLines).assemble 0xFFFFFFFC = .ok lastImage ∧
    (counted (lastLines ++ furtherLines)).assemble 0xFFFFFFFC = .ok furtherImage ∧
    Extends 0xFFFFFFFC (counted furtherLines) lastImage furtherImage := by
  have hb : Address.IsWord 0xFFFFFFFC := by decide
  have hlast : (counted lastLines).assemble 0xFFFFFFFC = .ok lastImage := by rfl
  have hfurther : (counted (lastLines ++ furtherLines)).assemble 0xFFFFFFFC = .ok furtherImage := by
    rfl
  exact ⟨hb, hlast, hfurther, extends_of_assemble hb hlast hfurther⟩

end Program

end Mips32
