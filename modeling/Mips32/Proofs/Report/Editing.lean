import Mips32.Proofs.Source.WellFormed
import Mips32.Proofs.Text.Lines
import Mips32.Report

/-!
# Edits that a report does not see

Blank lines, comments, unlabelled directives, the blanks around a line and the choice of line breaks
are up to the author. `Edits` collects the ways of changing a source text in them, any number of
them one behind the other, together with where a line goes. The report on the edited text is the
report on the text, except that a fault is reported under the new number of its line
(`ofText_of_edits`).

Two facts carry this. Assembling looks at a line only if it has a label or is an instruction
(`assemble_filter`), and at the number of a line only to report it (`assemble_renumbered`). So what
counts of a text are its active lines up to their numbers, and one edit changes nothing but the
numbers (`active_of_edit`).
-/

namespace Mips32

/-! ## Numbers of lines -/

/-- A fault under the new number of its line. -/
def Diagnostic.renumbered (f : Int → Int) (d : Diagnostic) : Diagnostic :=
  { d with line := f d.line }

/-- A report with the faults under the new numbers of their lines. -/
def Report.renumbered (f : Int → Int) (r : Report) : Report :=
  { r with faults := r.faults.map (·.renumbered f) }

/-- A line under a new number. -/
def SourceLine.renumbered (f : Int → Int) (l : SourceLine) : SourceLine :=
  { l with number := f l.number }

/-- A program with new numbers. -/
def Program.renumbered (f : Int → Int) (p : Program) : Program :=
  p.map (·.renumbered f)

theorem SourceLine.define_renumbered (f : Int → Int) (l : SourceLine) (a : Int)
    (table : SymbolTable) :
    (l.renumbered f).define a table = (l.define a table).mapError (Diagnostic.renumbered f) := by
  have hkind : (l.renumbered f).kind = l.kind := rfl
  rw [define, define, hkind]
  cases l.kind.label? with
  | none => rfl
  | some name =>
    simp only
    split
    · rfl
    · split <;> rfl

namespace Program

variable {f g : Int → Int} {p : Program}

theorem renumbered_append (p q : Program) :
    (p ++ q).renumbered f = p.renumbered f ++ q.renumbered f :=
  List.map_append

theorem renumbered_comp (p : Program) : p.renumbered (g ∘ f) = (p.renumbered f).renumbered g := by
  rw [renumbered, renumbered, renumbered, List.map_map]
  rfl

theorem renumbered_id (p : Program) : p.renumbered id = p :=
  List.map_id p

theorem symbolsFrom_renumbered (a : Int) (table : SymbolTable) (p : Program) :
    symbolsFrom a table (p.renumbered f) =
      (symbolsFrom a table p).mapError (Diagnostic.renumbered f) := by
  induction p generalizing a table with
  | nil => rfl
  | cons l p ih =>
    show (l.renumbered f).define a table >>= _ = _
    rw [SourceLine.define_renumbered, symbolsFrom]
    cases l.define a table with
    | error d => rfl
    | ok table => exact ih (l.after a) table

theorem wordsFrom_renumbered (table : SymbolTable) (pc : Int) (p : Program) :
    wordsFrom table pc (p.renumbered f) =
      (wordsFrom table pc p).mapError (Failure.map (Diagnostic.renumbered f)) := by
  induction p generalizing pc with
  | nil => rfl
  | cons l p ih =>
    have hrest := ih (l.after pc)
    rw [wordsFrom]
    show (if l.kind.isInstruction then
      (encodeLine table pc l.text).mapError (Failure.locate (f l.number) l.text) >>= fun w =>
        wordsFrom table (l.after pc) (renumbered f p) >>= fun ws => pure (w :: ws)
      else wordsFrom table (l.after pc) (renumbered f p)) = _
    rw [hrest]
    split
    · cases encodeLine table pc l.text with
      | error e => cases e <;> rfl
      | ok w => cases wordsFrom table (l.after pc) p <;> rfl
    · rfl

/-- Assembling looks at the number of a line only to report it. -/
theorem assemble_renumbered (base : Int) (p : Program) :
    (p.renumbered f).assemble base =
      (p.assemble base).mapError (Failure.map (Diagnostic.renumbered f)) := by
  rw [assemble, symbols, symbolsFrom_renumbered, assemble, symbols]
  cases symbolsFrom base [] p with
  | error d => rfl
  | ok table =>
    show words table base (p.renumbered f) >>= _ = (words table base p >>= _).mapError _
    rw [words, wordsFrom_renumbered, words]
    cases wordsFrom table base p <;> rfl

/-- Programs with the same texts have the same image, or failures that differ in lines only. -/
theorem assemble_of_map_text_eq {p q : Program} (h : p.map (·.text) = q.map (·.text)) (base : Int) :
    (p.assemble base).mapError (Failure.map Diagnostic.fault) =
      (q.assemble base).mapError (Failure.map Diagnostic.fault) := by
  have hunnumbered : ∀ r : Program, (r.assemble base).mapError (Failure.map Diagnostic.fault) =
      ((r.renumbered fun _ => 0).assemble base).mapError (Failure.map Diagnostic.fault) := by
    intro r
    rw [assemble_renumbered]
    cases r.assemble base with
    | ok image => rfl
    | error e => cases e <;> rfl
  have htexts : ∀ r : Program, (r.renumbered fun _ => 0) = (r.map (·.text)).map (SourceLine.mk 0) :=
    fun r => (List.map_map ..).symm
  rw [hunnumbered p, hunnumbered q, htexts, htexts, h]

end Program

/-! ## Lines that count -/

/-- Whether a line has a label or is an instruction. -/
def SourceLine.isActive (l : SourceLine) : Bool :=
  l.kind.label?.isSome || l.kind.isInstruction

theorem SourceLine.not_isActive_iff {l : SourceLine} :
    l.isActive = false ↔ l.kind.label? = none ∧ l.kind.isInstruction = false := by
  rw [isActive, Bool.or_eq_false_iff, Option.isSome_eq_false_iff, Option.isNone_iff_eq_none]

namespace Program

variable {l : SourceLine} {p : Program}

theorem symbolsFrom_of_not_active (h : l.isActive = false) (a : Int) (table : SymbolTable) :
    symbolsFrom a table (l :: p) = symbolsFrom a table p := by
  obtain ⟨hlabel, hskip⟩ := SourceLine.not_isActive_iff.1 h
  rw [symbolsFrom, SourceLine.define, hlabel, SourceLine.after, hskip]
  rfl

theorem wordsFrom_of_not_active (h : l.isActive = false) (table : SymbolTable) (pc : Int) :
    wordsFrom table pc (l :: p) = wordsFrom table pc p := by
  obtain ⟨-, hskip⟩ := SourceLine.not_isActive_iff.1 h
  rw [wordsFrom, SourceLine.after, hskip]
  rfl

theorem symbolsFrom_filter (a : Int) (table : SymbolTable) (p : Program) :
    symbolsFrom a table (p.filter (·.isActive)) = symbolsFrom a table p := by
  induction p generalizing a table with
  | nil => rfl
  | cons l p ih =>
    cases h : l.isActive with
    | false => rw [List.filter_cons_of_neg (by simp [h]), ih, symbolsFrom_of_not_active h]
    | true =>
      rw [List.filter_cons_of_pos h, symbolsFrom, symbolsFrom]
      exact congrArg (l.define a table >>= ·) (funext fun _ => ih _ _)

theorem wordsFrom_filter (table : SymbolTable) (pc : Int) (p : Program) :
    wordsFrom table pc (p.filter (·.isActive)) = wordsFrom table pc p := by
  induction p generalizing pc with
  | nil => rfl
  | cons l p ih =>
    cases h : l.isActive with
    | false => rw [List.filter_cons_of_neg (by simp [h]), ih, wordsFrom_of_not_active h]
    | true => rw [List.filter_cons_of_pos h, wordsFrom, wordsFrom, ih]

/-- Assembling looks at a line only if it has a label or is an instruction. -/
theorem assemble_filter (base : Int) (p : Program) :
    assemble base (p.filter (·.isActive)) = p.assemble base := by
  rw [assemble, assemble, symbols, symbols, symbolsFrom_filter]
  simp only [words, wordsFrom_filter]

end Program

/-! ## Edits -/

namespace Text

/-- A physical line drawn differently: with blanks in front or behind, with a comment behind, or
with another ending. A line break among the blanks or in the comment would end the line there, so in
the lines of a text there is none. -/
inductive PhysicalLine.Redrawn : PhysicalLine → PhysicalLine → Prop
  | indented (l : PhysicalLine) (blanks : Text) (h : ∀ c ∈ blanks, isBlank c = true) :
      Redrawn l { l with text := blanks ++ l.text }
  | padded (l : PhysicalLine) (blanks : Text) (h : ∀ c ∈ blanks, isBlank c = true) :
      Redrawn l { l with text := l.text ++ blanks }
  | commented (l : PhysicalLine) (note : Text) :
      Redrawn l { l with text := l.text ++ .char '#' :: note }
  | ended (l : PhysicalLine) (ending : Text) : Redrawn l { l with ending := ending }

/-- A line that holds nothing to assemble: it is blank or a comment, so that nothing is left of it,
or what is left is a directive without a label. -/
def IsIdle (line : Text) : Prop :=
  let left := Program.significant line
  left = [] ∨ left.head? = some (.char '.') ∧ left.getLast? ≠ some (.char ':')

/-- Where the lines of a text go if a line is inserted behind the first `k` of them. -/
def insertedBehind (k : Nat) (n : Int) : Int :=
  if n ≤ k then n else n + 1

/-- One edit of a text, with where it takes the numbers of the lines. Both texts are given by their
physical lines with the endings, so an edit that merges two lines is none. -/
inductive Edit : Text → Text → (Int → Int) → Prop
  | redraw {s t : Text} (front : List PhysicalLine) {rest : List PhysicalLine}
      {l l' : PhysicalLine} (hs : physicalLines s = front ++ l :: rest)
      (ht : physicalLines t = front ++ l' :: rest) (h : l.Redrawn l') : Edit s t id
  | insert {s t : Text} (front : List PhysicalLine) (l : PhysicalLine) {rest : List PhysicalLine}
      (hs : physicalLines s = front ++ rest) (ht : physicalLines t = front ++ l :: rest)
      (h : IsIdle l.text) : Edit s t (insertedBehind front.length)

/-- Any number of edits, one behind the other. -/
inductive Edits : Text → Text → (Int → Int) → Prop
  | none (s : Text) : Edits s s id
  | more {s t u : Text} {f g : Int → Int} (hedits : Edits s t f) (hedit : Edit t u g) :
      Edits s u (g ∘ f)

end Text

/-! ## What an edit changes -/

namespace Program

variable {f : Int → Int} {n m : Nat}

/-- Nothing is left of what stands behind a line if only blanks are in front of its comment. -/
theorem significant_append {back : Text}
    (h : ∀ c ∈ back.takeWhile (· != .char '#'), Text.isBlank c = true) (line : Text) :
    significant (line ++ back) = significant line := by
  rw [significant, significant, List.takeWhile_append]
  split
  case isTrue hlength =>
    -- The line has no comment of its own.
    rw [(List.takeWhile_prefix _).eq_of_length hlength, Text.trim_append_right h]
  case isFalse => rfl

theorem significant_append_left {blanks : Text} (h : ∀ c ∈ blanks, Text.isBlank c = true)
    (line : Text) : significant (blanks ++ line) = significant line := by
  have hkept : ∀ c ∈ blanks, (c != '#') = true := fun c hc => by
    have hblank := h c hc
    rw [bne_iff_ne]
    rintro rfl
    cases hblank
  rw [significant, List.takeWhile_append_of_pos hkept, Text.trim_append_left h]
  rfl

/-- What is left of a line that is drawn differently is the same. -/
theorem significant_of_redrawn {l l' : Text.PhysicalLine} (h : l.Redrawn l') :
    significant l'.text = significant l.text := by
  cases h with
  | indented _ h => exact significant_append_left h l.text
  | padded _ h =>
    exact significant_append (fun c hc => h c ((List.takeWhile_prefix _).subset hc)) l.text
  | commented note =>
    have hnone : (.char '#' :: note).takeWhile (· != .char '#') = [] := rfl
    exact significant_append (hnone ▸ nofun) l.text
  | ended => rfl

/-- The lines with these texts, counted from `n`. -/
def numberedFrom (n : Nat) (texts : List Text) : Program :=
  (texts.zipIdx n).map fun (text, n) => ⟨n, text⟩

/-- The active ones among the lines with these texts, counted from `n`. -/
def activeFrom (n : Nat) (texts : List Text) : Program :=
  (numberedFrom n texts).filter (·.isActive)

theorem activeFrom_append (texts texts' : List Text) :
    activeFrom n (texts ++ texts') = activeFrom n texts ++
      activeFrom (n + texts.length) texts' := by
  rw [activeFrom, numberedFrom, List.zipIdx_append, List.map_append, List.filter_append]
  rfl

/-- The active lines of a source text. -/
theorem filter_ofText (source : Text) :
    (ofText source).filter (·.isActive) = activeFrom 1 ((Text.lines source).map significant) := by
  have hactive : ∀ l : SourceLine, (l.isActive && !l.text.isEmpty) = l.isActive := by
    rintro ⟨number, text⟩
    cases text with
    | nil => rfl
    | cons c text => exact Bool.and_true _
  rw [ofText, List.filter_filter, counted, List.map_map, activeFrom, numberedFrom, List.zipIdx_map,
    List.map_map]
  exact List.filter_congr fun l _ => hactive l

/-- Lines that are counted from elsewhere. -/
theorem renumbered_activeFrom {texts : List Text}
    (h : ∀ i < texts.length, f ((n + i : Nat) : Int) = (m + i : Nat)) :
    (activeFrom n texts).renumbered f = activeFrom m texts := by
  have hnumbered : (numberedFrom n texts).renumbered f = numberedFrom m texts := by
    induction texts generalizing n m with
    | nil => rfl
    | cons text texts ih =>
      have hhead : f n = m := h 0 (Nat.zero_lt_succ _)
      have htail : (numberedFrom (n + 1) texts).renumbered f = numberedFrom (m + 1) texts :=
        ih fun i hi => by
          have hi' := h (i + 1) (Nat.succ_lt_succ hi)
          rwa [Nat.add_right_comm, Nat.add_right_comm m, Nat.add_assoc, Nat.add_assoc m]
      show ⟨f n, text⟩ :: (numberedFrom (n + 1) texts).renumbered f = _
      rw [hhead, htail]
      rfl
  rw [activeFrom, activeFrom, ← hnumbered, renumbered, renumbered, List.filter_map]
  rfl

/-- No label is in front of a text that begins as no name does. -/
theorem splitLabel?_eq_none {s : Text} (h : s.head?.any Line.isNameStart = false) :
    Line.splitLabel? s = none := by
  unfold Line.splitLabel?
  split
  · simp only [h, Bool.false_and]
    rfl
  · rfl

/-- A directive without a label is not active, and neither is a line of which nothing is left. -/
theorem isActive_of_isIdle {line : Text} (h : Text.IsIdle line) (n : Int) :
    SourceLine.isActive ⟨n, significant line⟩ = false := by
  have htrim : Text.trim (significant line) = significant line := Text.trim_trim _
  have hkind : Line.classify (significant line) = .blank ∨
      Line.classify (significant line) = .directive none (significant line) := by
    rcases h with hnil | ⟨hdot, hcolon⟩
    · exact .inl (by rw [hnil]; rfl)
    · right
      have hsplit : Line.splitLabel? (significant line) = none :=
        splitLabel?_eq_none (by rw [hdot]; rfl)
      rw [Line.classify_eq_ofBody, Statement.bodyOf, htrim, hsplit]
      · exact if_pos hdot
      · rw [htrim]
        rintro hnil
        rw [hnil] at hdot
        cases hdot
      · rw [htrim, hdot]
        nofun
      · rwa [htrim]
  rw [SourceLine.not_isActive_iff, SourceLine.kind]
  rcases hkind with hkind | hkind
  · rw [hkind]
    exact ⟨rfl, rfl⟩
  · rw [hkind]
    exact ⟨rfl, rfl⟩

theorem activeFrom_cons_of_isIdle {line : Text} (h : Text.IsIdle line) (texts : List Text) :
    activeFrom n (significant line :: texts) = activeFrom (n + 1) texts :=
  List.filter_cons_of_neg (by rw [isActive_of_isIdle h]; decide)

/-- The active lines of an edited text are those of the text, under their new numbers. -/
theorem active_of_edit {s t : Text} (h : Text.Edit s t f) :
    (ofText t).filter (·.isActive) = renumbered f ((ofText s).filter (·.isActive)) := by
  simp only [filter_ofText, ← Text.map_text_physicalLines]
  cases h with
  | redraw _ hs ht h =>
    rw [hs, ht, renumbered_id]
    simp only [List.map_append, List.map_cons, significant_of_redrawn h]
  | insert front l hs ht h =>
    rw [hs, ht]
    simp only [List.map_append, List.map_cons, activeFrom_append, renumbered_append,
      activeFrom_cons_of_isIdle h]
    refine congrArg₂ (· ++ ·) (renumbered_activeFrom fun i hi => ?_).symm
      (renumbered_activeFrom fun i hi => ?_).symm
    · -- The lines in front of the new one keep their numbers.
      simp only [List.length_map] at hi
      rw [Text.insertedBehind, if_pos (by omega)]
    · simp only [List.length_map] at hi ⊢
      rw [Text.insertedBehind, if_neg (by omega)]
      omega

end Program

/-! ## Edited texts have one report -/

namespace Report

/-- The report on an edited text is the report on the text, with the faults under the new numbers of
their lines. -/
theorem ofText_of_edits {s t : Text} {f : Int → Int} (h : Text.Edits s t f) (base : Int) :
    ofText base t = (ofText base s).map (Report.renumbered f) := by
  have hactive : (Program.ofText t).filter (·.isActive) =
      Program.renumbered f ((Program.ofText s).filter (·.isActive)) := by
    induction h with
    | none => exact (Program.renumbered_id _).symm
    | more _ hedit ih => rw [Program.active_of_edit hedit, ih, Program.renumbered_comp]
  have hassemble : (Program.ofText t).assemble base =
      ((Program.ofText s).assemble base).mapError (Failure.map (Diagnostic.renumbered f)) := by
    rw [← Program.assemble_filter, hactive, Program.assemble_renumbered, Program.assemble_filter]
  rw [ofText, ofText, hassemble]
  cases (Program.ofText s).assemble base with
  | ok image => rfl
  | error e => cases e <;> rfl

/-- Two lines, the second of them faulty. -/
def bare : Text :=
  "L: j L\r\nfoo".text

/-- The two lines with a comment line in front, a directive between them, and in the first of them
blanks, a comment and another break. -/
def annotated : Text :=
  "# head\n  L: j L# jumps\x0b.text\u2028foo".text

/-- The fault of the second line is that of the fourth. -/
theorem ofText_annotated :
    Text.Edits bare annotated
        (Text.insertedBehind 2 ∘ id ∘ id ∘ id ∘ Text.insertedBehind 0 ∘ id) ∧
      ofText 0 bare = .ok (ofFault ⟨.unsupported "foo".text, 2, "foo".text⟩) ∧
      ofText 0 annotated = .ok (ofFault ⟨.unsupported "foo".text, 4, "foo".text⟩) := by
  have hhead : Text.Edit bare "# head\nL: j L\r\nfoo".text (Text.insertedBehind 0) :=
    .insert [] ⟨"# head".text, ['\n']⟩ rfl rfl (.inl rfl)
  have hblanks : Text.Edit "# head\nL: j L\r\nfoo".text "# head\n  L: j L\r\nfoo".text id :=
    .redraw [⟨"# head".text, ['\n']⟩] rfl rfl
      (.indented _ "  ".text (by decide))
  have hcomment : Text.Edit "# head\n  L: j L\r\nfoo".text
      "# head\n  L: j L# jumps\r\nfoo".text id :=
    .redraw [⟨"# head".text, ['\n']⟩] rfl rfl (.commented _ " jumps".text)
  have hbreak : Text.Edit "# head\n  L: j L# jumps\r\nfoo".text
      "# head\n  L: j L# jumps\x0bfoo".text id :=
    .redraw [⟨"# head".text, ['\n']⟩] rfl rfl (.ended _ ['\x0b'])
  have hdirective : Text.Edit "# head\n  L: j L# jumps\x0bfoo".text annotated
      (Text.insertedBehind 2) :=
    .insert [⟨"# head".text, ['\n']⟩, ⟨"  L: j L# jumps".text, ['\x0b']⟩]
      ⟨".text".text, ['\u2028']⟩ rfl rfl (.inr ⟨rfl, by decide⟩)
  have hedits := (((((Text.Edits.none bare).more hhead).more hblanks).more hcomment).more
    hbreak).more hdirective
  have hbare : ofText 0 bare = .ok (ofFault ⟨.unsupported "foo".text, 2, "foo".text⟩) := by rfl
  refine ⟨hedits, hbare, ?_⟩
  rw [ofText_of_edits hedits, hbare]
  rfl

end Report

end Mips32
