import Mips32.Proofs.Program.Layout
import Mips32.Proofs.Report.Editing
import Mips32.Proofs.Source.Identifier

/-!
# A label in front of a statement

A label can stand on a line of its own or in front of the instruction or directive behind it. The
two are read by different code, and the label is split off once by each pass.
`sameOutcome_inlineLabel` says that it makes no difference: wherever such a line stands in a
program, putting the label on a line of its own gives the same image, or the same fault.

A line and the two lines that take its place are `Alike`: from every address and every table the
passes get the same from them. That is kept when lines are put in front (`Alike.append`), and what
lines are numbered does not matter for it.
-/

namespace Mips32

/-! ## Lines that the passes do not tell apart -/

/-- Two outcomes of assembling that differ in nothing but the place of a fault: the same image, or
the same fault, and with it the same class and the same wording. -/
inductive Program.SameOutcome :
    Except (Failure Diagnostic) Image → Except (Failure Diagnostic) Image → Prop
  | image (image : Image) : SameOutcome (.ok image) (.ok image)
  | fault {d d' : Diagnostic} (h : d.fault = d'.fault) :
      SameOutcome (.error (.fault d)) (.error (.fault d'))
  | tooManyDigits (count : Nat) :
      SameOutcome (.error (.tooManyDigits count)) (.error (.tooManyDigits count))

/-- Lines that mean the same wherever they stand: from every table and address they give the same
symbols and words, or the same fault. -/
structure Program.Alike (p q : Program) : Prop where
  symbols : ∀ a table, (symbolsFrom a table p).mapError Diagnostic.fault =
    (symbolsFrom a table q).mapError Diagnostic.fault
  words : ∀ table a, (wordsFrom table a p).mapError (Failure.map Diagnostic.fault) =
    (wordsFrom table a q).mapError (Failure.map Diagnostic.fault)

namespace Program

theorem sameOutcome_of_mapError_eq {x y : Except (Failure Diagnostic) Image}
    (h : x.mapError (Failure.map Diagnostic.fault) = y.mapError (Failure.map Diagnostic.fault)) :
    SameOutcome x y := by
  have hid : y.mapError (Failure.map Diagnostic.fault) =
      (x.map id).mapError (Failure.map Diagnostic.fault) := by rw [Except.map_id, id, h]
  obtain ⟨image, rfl, rfl⟩ | ⟨d, d', rfl, rfl, hfault⟩ | ⟨count, rfl, rfl⟩ :=
    cases_of_mapError_eq_map hid
  · exact .image image
  · exact .fault hfault.symm
  · exact .tooManyDigits count

namespace Alike

variable {p q : Program}

theorem cons (l : SourceLine) (h : Alike p q) : Alike (l :: p) (l :: q) where
  symbols a table := mapError_bind_congr rfl fun table => h.symbols (l.after a) table
  words table a := by
    rw [wordsFrom, wordsFrom]
    split
    · exact mapError_bind_congr rfl fun w =>
        mapError_bind_congr (h.words table (l.after a)) fun _ => rfl
    · exact h.words table (l.after a)

/-- Lines that mean the same still do behind other lines. -/
theorem append (front : Program) (h : Alike p q) : Alike (front ++ p) (front ++ q) := by
  induction front with
  | nil => exact h
  | cons l front ih => exact ih.cons l

/-- Lines that mean the same have the same image or the same fault. -/
theorem assemble_eq (h : Alike p q) (base : Int) :
    (p.assemble base).mapError (Failure.map Diagnostic.fault) =
      (q.assemble base).mapError (Failure.map Diagnostic.fault) := by
  have hsymbols :
      ((p.symbols base).mapError Failure.fault).mapError (Failure.map Diagnostic.fault) =
      ((q.symbols base).mapError Failure.fault).mapError (Failure.map Diagnostic.fault) := by
    rw [mapError_fault_map, mapError_fault_map]
    exact congrArg (Except.mapError Failure.fault) (h.symbols base [])
  exact mapError_bind_congr hsymbols fun table =>
    mapError_bind_congr (h.words table base) fun _ => rfl

end Alike

/-! ## A label on a line of its own -/

/-- What defining a label comes to depends on nothing else of the line. -/
theorem define_of_label?_eq {l l' : SourceLine} (h : l.kind.label? = l'.kind.label?) (a : Int)
    (table : SymbolTable) : (l.define a table).mapError Diagnostic.fault =
      (l'.define a table).mapError Diagnostic.fault := by
  rw [SourceLine.define, SourceLine.define, h]
  cases l'.kind.label? with
  | none => rfl
  | some name =>
    simp only
    split
    · rfl
    · split <;> rfl

/-- A line with a label, and the label alone in front of the line without it. -/
theorem alike_of_split {l label bare : SourceLine} {name : Text} (hl : l.kind.label? = some name)
    (hlabel : label.kind = .label name) (hbare : bare.kind.label? = none)
    (hinstruction : bare.kind.isInstruction = l.kind.isInstruction)
    (hparse : Statement.parse bare.text = Statement.parse l.text) (rest : Program) :
    Alike (l :: rest) (label :: bare :: rest) where
  symbols a table := by
    have hname : l.kind.label? = label.kind.label? := by
      rw [hl, hlabel]
      rfl
    have hafter : bare.after (label.after a) = l.after a := by
      simp only [SourceLine.after, hlabel, hinstruction]
      rfl
    refine mapError_bind_congr (define_of_label?_eq hname a table) fun table => ?_
    rw [symbolsFrom, SourceLine.define, hbare, hafter]
    rfl
  words table a := by
    have hlabelAfter : label.after a = a := by
      rw [SourceLine.after, hlabel]
      rfl
    have hafter : bare.after a = l.after a := by
      rw [SourceLine.after, SourceLine.after, hinstruction]
    have hencode : encodeLine table a bare.text = encodeLine table a l.text := by
      rw [encodeLine, encodeLine, hparse]
    have hskip : wordsFrom table a (label :: bare :: rest) = wordsFrom table a (bare :: rest) := by
      rw [wordsFrom, hlabel, hlabelAfter]
      rfl
    rw [hskip, wordsFrom, wordsFrom, hinstruction, hafter, hencode]
    split
    · refine mapError_bind_congr ?_ fun _ => rfl
      cases encodeLine table a l.text with
      | ok w => rfl
      | error e => cases e <;> rfl
    · rfl

end Program

/-- A trimmed text that is an instruction or a directive without a label is no label line and has no
label split off. -/
theorem Line.ofBody_of_classify {body text : Text} (htrim : Text.trim body = body)
    (h : classify body = .instruction none text ∨ classify body = .directive none text) :
    body ≠ [] ∧ body.getLast? ≠ some (.char ':') ∧ splitLabel? body = none ∧
      classify body = ofBody none body := by
  have hlabel : (classify body).label? = none := by
    rcases h with h | h <;> rw [h] <;> rfl
  unfold classify at h hlabel ⊢
  simp only [htrim] at h hlabel ⊢
  split at hlabel
  case isTrue hblank =>
    rw [if_pos hblank] at h
    rcases h with h | h <;> cases h
  case isFalse hsome =>
    rw [if_neg hsome] at h ⊢
    split at hlabel
    case isTrue hcolon => cases hlabel
    case isFalse hcolon =>
      rw [if_neg hcolon]
      cases hsplit : splitLabel? body with
      | none => exact ⟨fun hnil => hsome (.inl hnil), hcolon, rfl, rfl⟩
      | some split =>
        rw [hsplit, label?_ofBody] at hlabel
        cases hlabel

namespace Program

/-- An identifier with a colon in front of an instruction or a directive, and the identifier with
the colon on a line of its own. -/
theorem alike_inlineLabel (name : Identifier) {blanks body text : Text}
    (hblanks : ∀ c ∈ blanks, Text.isBlank c = true) (htrim : Text.trim body = body)
    (hline : .char '\n' ∉ body)
    (hbody : Line.classify body = .instruction none text ∨
      Line.classify body = .directive none text) (n : Int) (rest : Program) :
    Alike (⟨n, name.text ++ .char ':' :: (blanks ++ body)⟩ :: rest)
      (⟨n, name.text ++ [.char ':']⟩ :: ⟨n, body⟩ :: rest) := by
  have hnone : ∀ c ∈ ([] : Text), Text.isBlank c = true := List.forall_mem_nil _
  obtain ⟨hne, hcolon, hsplit, hbare⟩ := Line.ofBody_of_classify htrim hbody
  have hrest : Text.trim (blanks ++ body) = body := by rw [Text.trim_append_left hblanks, htrim]
  have hkind : Line.classify (name.text ++ .char ':' :: (blanks ++ body)) =
      Line.ofBody (some name.text) body := by
    have hlabelled := name.classify_labelled hnone (r := blanks ++ body)
    rw [hrest] at hlabelled
    exact hlabelled hne hcolon hline
  have hlabelLine : SourceLine.kind ⟨n, name.text ++ [.char ':']⟩ = .label name.text :=
    name.classify_labelLine hnone hnone hnone
  have hparse : Statement.parse body =
      Statement.parse (name.text ++ .char ':' :: (blanks ++ body)) := by
    have hbodyOf := Statement.bodyOf_label hnone name.start name.char (r := blanks ++ body)
    rw [hrest] at hbodyOf
    have hown : Statement.bodyOf body = body := by
      unfold Statement.bodyOf
      simp only [htrim, hsplit]
    have hlabelled : Statement.bodyOf (name.text ++ .char ':' :: (blanks ++ body)) = body :=
      hbodyOf hne hline
    rw [Statement.parse, Statement.parse, hown, hlabelled]
  refine alike_of_split ?_ hlabelLine ?_ ?_ hparse rest
  · rw [SourceLine.kind, hkind, Line.label?_ofBody]
  · rw [SourceLine.kind, hbare, Line.label?_ofBody]
  · rw [SourceLine.kind, SourceLine.kind, hbare, hkind, Line.isInstruction_ofBody,
      Line.isInstruction_ofBody]

/-- An identifier with a colon in front of an instruction or a directive means the same as a line of
its own in front of it: programs that differ in this have the same image or the same fault. -/
theorem sameOutcome_inlineLabel (base : Int) (name : Identifier) {blanks body : Text}
    (hblanks : ∀ c ∈ blanks, Text.isBlank c = true) (htrim : Text.trim body = body)
    (hline : .char '\n' ∉ body)
    (hbody : ∃ text, Line.classify body = .instruction none text ∨
      Line.classify body = .directive none text) (front rest : List Text) :
    SameOutcome
      ((counted (front ++ [name.text ++ .char ':' :: (blanks ++ body)] ++ rest)).assemble base)
      ((counted (front ++ [name.text ++ [.char ':'], body] ++ rest)).assemble base) := by
  obtain ⟨text, htext⟩ := hbody
  -- The two programs number the lines behind the label differently, which only a fault would show.
  let unnumbered (lines : List Text) : Program := lines.map (SourceLine.mk 0)
  have hunnumbered : ∀ lines : List Text,
      ((counted lines).assemble base).mapError (Failure.map Diagnostic.fault) =
        ((unnumbered lines).assemble base).mapError (Failure.map Diagnostic.fault) := by
    intro lines
    refine assemble_of_map_text_eq ?_ base
    rw [map_text_counted, List.map_map]
    exact (List.map_id _).symm
  have halike := (alike_inlineLabel name hblanks htrim hline htext 0 (unnumbered rest)).append
    (unnumbered front)
  have hjoined : ∀ middle : List Text, unnumbered (front ++ middle ++ rest) =
      unnumbered front ++ (unnumbered middle ++ unnumbered rest) := by
    intro middle
    simp [unnumbered]
  refine sameOutcome_of_mapError_eq ?_
  rw [hunnumbered, hunnumbered, hjoined, hjoined]
  exact halike.assemble_eq base

/-- The label of a loop, with a line feed and a tab between it and the branch back to it. -/
def loopLabel : Identifier :=
  ⟨"loop.1".text, rfl, by decide⟩

set_option maxRecDepth 4000 in
theorem sameOutcome_loop : (∀ c ∈ [.char '\n', .char '\t'], Text.isBlank c = true) ∧
    SameOutcome
      ((counted ["j end".text, "loop.1:\n\tblez $1, loop.1".text, "end:".text]).assemble 0)
      ((counted ["j end".text, "loop.1:".text, "blez $1, loop.1".text,
        "end:".text]).assemble 0) ∧
    (counted ["j end".text, "loop.1:\n\tblez $1, loop.1".text, "end:".text]).assemble 0 =
      .ok ⟨[("loop.1".text, 4), ("end".text, 8)], [0x08000002, 0x1820FFFF]⟩ := by
  have hblanks : ∀ c ∈ [.char '\n', .char '\t'], Text.isBlank c = true := by decide
  have htrim : Text.trim "blez $1, loop.1".text = "blez $1, loop.1".text := by rfl
  have hsame := sameOutcome_inlineLabel 0 loopLabel hblanks htrim (by decide) ⟨_, .inl rfl⟩
    ["j end".text] ["end:".text]
  exact ⟨hblanks, hsame, by rfl⟩

end Program

end Mips32
