import Mips32.Proofs.Program.Verdict
import Mips32.Proofs.Text.Lines
import Mips32.Report

/-!
# Every source text has a report

A source text is reported on as a whole or, if it is faulty, by its first fault. `answers_ofText`
says that there is a report for every text whose numerals can be converted, and that a fault in it
is blamed on the physical line it stands in: the number counts from one, and the text is what is
left of the line without its comment and the blanks around it.

The number of a line is fixed when the text is cut (`mem_ofText_iff`), and both passes hand it
through. That there is a report at all is what the verdict on a program says, once the lines of the
program have short numerals; they do since each of them is a stretch of the text (`lines_spec`).
-/

namespace Mips32

/-! ## Physical lines -/

/-- The first physical line begins the text, and each of them is a stretch of it. -/
theorem Text.lines_spec (s : Text) :
    (∀ l, (lines s).head? = some l → l <+: s) ∧ ∀ l ∈ lines s, l <:+: s := by
  fun_induction lines s with
  | case1 => simp
  | case2 r ih =>
    refine ⟨fun l hl => ?_, List.forall_mem_cons.2 ⟨List.nil_infix, fun l hl => ?_⟩⟩
    · cases hl
      exact List.nil_prefix
    · exact (ih.2 l hl).trans
        (List.suffix_append [CodePoint.char '\r', CodePoint.char '\n'] r).isInfix
  | case3 c r _ hc ih =>
    refine ⟨fun l hl => ?_, List.forall_mem_cons.2 ⟨List.nil_infix, fun l hl => ?_⟩⟩
    · cases hl
      exact List.nil_prefix
    · exact (ih.2 l hl).trans (List.suffix_cons c r).isInfix
  | case4 c r _ hc hr ih =>
    have hfront : [c] <+: c :: r := List.cons_prefix_cons.2 ⟨rfl, List.nil_prefix⟩
    refine ⟨fun l hl => ?_, List.forall_mem_cons.2 ⟨hfront.isInfix, nofun⟩⟩
    cases hl
    exact hfront
  | case5 c r _ hc first others hr ih =>
    rw [hr] at ih
    -- The character joins the first line of the rest, which begins the rest.
    have hfront : c :: first <+: c :: r := List.cons_prefix_cons.2 ⟨rfl, ih.1 first rfl⟩
    refine ⟨fun l hl => ?_, List.forall_mem_cons.2 ⟨hfront.isInfix, fun l hl => ?_⟩⟩
    · cases hl
      exact hfront
    · exact (ih.2 l (.tail _ hl)).trans (List.suffix_cons c r).isInfix

/-- A text has at most as many lines as characters. -/
theorem Text.length_lines_le (s : Text) : (lines s).length ≤ s.length := by
  fun_induction lines s with
  | case1 => simp
  | case2 r ih =>
    simp only [List.length_cons]
    omega
  | case3 c r _ hc ih =>
    simp only [List.length_cons]
    omega
  | case4 c r _ hc hr ih =>
    simp only [List.length_cons, List.length_nil]
    omega
  | case5 c r _ hc first others hr ih =>
    simp only [hr, List.length_cons] at ih ⊢
    omega

namespace Program

theorem significant_isInfix (line : Text) : significant line <:+: line :=
  (Text.trim_isInfix _).trans (List.takeWhile_prefix _).isInfix

/-- The lines of a source text are its physical lines in which something is left, under the numbers
that they have when they are counted from one. -/
theorem mem_ofText_iff {source : Text} {l : SourceLine} :
    l ∈ ofText source ↔ ∃ (n : Nat) (line : Text), (Text.lines source)[n]? = some line ∧
      significant line ≠ [] ∧ l = ⟨n + 1, significant line⟩ := by
  simp only [ofText, counted, List.map_map, List.mem_filter, List.mem_map, Prod.exists,
    List.mem_zipIdx_iff_le_and_getElem?_sub, Function.comp_apply]
  constructor
  · rintro ⟨⟨line, n, ⟨hn, hline⟩, rfl⟩, hne⟩
    refine ⟨n - 1, line, hline, by simpa using hne, ?_⟩
    have hnumber : ((n - 1 : Nat) : Int) + 1 = n := by omega
    rw [hnumber]
  · rintro ⟨n, line, hline, hne, rfl⟩
    exact ⟨⟨line, n + 1, ⟨by omega, hline⟩, rfl⟩, by simpa using hne⟩

/-- The numerals of a line are those of its text. -/
theorem short_of_mem_ofText {source : Text} (h : Numeral.Short source) {l : SourceLine}
    (hl : l ∈ ofText source) : Numeral.Short l.text := by
  obtain ⟨n, line, hline, -, rfl⟩ := mem_ofText_iff.1 hl
  have hinside := (Text.lines_spec source).2 line (List.mem_of_getElem? hline)
  exact h.of_isInfix ((significant_isInfix line).trans hinside)

end Program

/-! ## Directives -/

theorem Line.head?_of_classify {line : Text} {name? : Option Text} {body : Text}
    (h : classify line = .directive name? body) : body.head? = some (.char '.') := by
  have hofBody : ∀ {name?' text}, ofBody name?' text = .directive name? body →
      body.head? = some (.char '.') := by
    intro name?' text h
    unfold ofBody at h
    split at h
    case isTrue hdot =>
      cases h
      exact hdot
    case isFalse => cases h
  unfold classify at h
  simp only at h
  split at h
  · cases h
  · split at h
    · cases h
    · split at h
      · exact hofBody h
      · exact hofBody h

/-- A directive has a name: its text has a first word. -/
theorem Line.words_ne_nil_of_classify {line : Text} {name? : Option Text} {body : Text}
    (h : classify line = .directive name? body) : Text.words body ≠ [] := by
  have hdot := head?_of_classify h
  intro hnil
  have hblank := Text.runs_eq_nil_iff.1 hnil '.' (List.mem_of_head? hdot)
  cases hblank

/-! ## Reports -/

/-- The classes that faults are reported under. -/
def Fault.classes : List Text :=
  ["UnsupportedInstruction", "MalformedOperand", "UndefinedLabel", "OperandOutOfRange",
    "DuplicateLabel"].map String.text

theorem Fault.name_mem_classes (fault : Fault) : fault.kind.name ∈ classes := by
  cases fault.kind <;> decide

namespace Report

/-- A report of a source text: that of the image of the text, without a fault, or one fault and
nothing else, and then the fault is that of a physical line. -/
inductive Answers (base : Int) (source : Text) : Report → Prop
  | image {report : Report} {image : Program.Image} (hfaults : report.faults = [])
      (himage : (Program.ofText source).assemble base = .ok image)
      (hreport : report = ofImage base image) : Answers base source report
  | fault {report : Report} {d : Diagnostic} {n : Nat} {line : Text}
      (hfaults : report.faults = [d]) (hclass : d.fault.kind.name ∈ Fault.classes)
      (hline : (Text.lines source)[n]? = some line) (hnumber : d.line = n + 1)
      (htext : d.text = Text.trim (line.takeWhile (· != .char '#')))
      (hentries : report.entries = [])
      (hsymbols : report.symbols = []) (hlisting : report.listing = []) :
      Answers base source report

/-- A fault at a line of the program is reported at the physical line. -/
theorem answers_ofFault (base : Int) {source : Text} {l : SourceLine}
    (hl : l ∈ Program.ofText source) (fault : Fault) :
    Answers base source (ofFault (l.diagnose fault)) := by
  obtain ⟨n, line, hline, -, rfl⟩ := Program.mem_ofText_iff.1 hl
  exact .fault rfl fault.name_mem_classes hline rfl rfl rfl rfl rfl

/-- Every source text whose numerals can be converted has a report. On the way there nothing is
looked up that is missing: a directive has a name, and a statement whose operands are read has all
fields that its word takes, but for the second register of a comparison with zero. -/
theorem answers_ofText {base : Int} (hb : Address.IsWord base) {source : Text}
    (hshort : Numeral.Short source) :
    (∃ report, ofText base source = .ok report ∧ Answers base source report) ∧
      (∀ l ∈ Program.ofText source, ∀ name? body, l.kind = .directive name? body →
        Text.words body ≠ []) ∧
      ∀ l ∈ Program.ofText source, ∀ s table pc fields, Statement.parse l.text = .ok s →
        s.fields table pc = .ok fields → fields.map Prod.fst = s.mnemonic.used ∧
          ∀ f, s.mnemonic.Takes f ↔
            f ∈ fields.map Prod.fst ∨ f = .rt ∧ ∃ test, s.mnemonic = .branchSign test := by
  refine ⟨?_, fun l _ name? body h => Line.words_ne_nil_of_classify h, ?fields⟩
  case fields =>
    intro l _ s table pc fields _ h
    have hset := Statement.map_fst_of_fields h
    exact ⟨hset, fun f => hset ▸ Mnemonic.takes_iff⟩
  rw [ofText]
  cases h : (Program.ofText source).assemble base with
  | ok image => exact ⟨_, rfl, .image rfl h rfl⟩
  | error e =>
    obtain ⟨i, l, fault, hi, -, rfl⟩ :=
      Program.firstFault_of_assemble hb (fun _ => Program.short_of_mem_ofText hshort) h
    exact ⟨_, rfl, answers_ofFault base (List.mem_of_getElem? hi) fault⟩

/-- A text with a fault in its third line, between line breaks of three kinds. -/
def faulty : Text :=
  "\n.text # here\r\n\t foo $1 # there\x0bj x".text

set_option maxRecDepth 4000 in
/-- The third line is blamed, with what is left of it. -/
theorem answers_faulty :
    Numeral.Short faulty ∧ ofText Address.defaultBase faulty =
        .ok (ofFault ⟨.unsupported "foo".text, 3, "foo $1".text⟩) ∧
      Answers Address.defaultBase faulty
        (ofFault ⟨.unsupported "foo".text, 3, "foo $1".text⟩) := by
  have hshort : Numeral.Short faulty := Numeral.short_of_length_le (by decide)
  have hreport : ofText Address.defaultBase faulty =
      .ok (ofFault ⟨.unsupported "foo".text, 3, "foo $1".text⟩) := by rfl
  obtain ⟨⟨report, hok, hanswers⟩, -⟩ :=
    answers_ofText (by decide : Address.IsWord Address.defaultBase) hshort
  obtain rfl := Except.ok.inj (hreport.symm.trans hok)
  exact ⟨hshort, hreport, hanswers⟩

end Report

end Mips32
