import Mips32.Proofs.Program.Layout
import Mips32.Proofs.Source.Label

/-!
# What a line contributes

The words of a program are those of its lines, one line after the other
(`wordsFrom_append_eq_ok_iff`), so every line has its own stretch of them. A line that reads like an
instruction, behind a label or not (`Statement.AppearsIn`), can lose its word only by its
classification, which looks at the ends of the text before anything is cut into tokens.

`contributes_of_assemble` says that this happens in exactly two cases: the line ends in a colon, so
that it is a label line, or there is a dot where its instruction would begin, so that it is a
directive. In every other line the statement that is encoded is the one that the tokens show, since
a colon is in no name of an operation and so cannot get past the first token
(`parse_eq_of_appearsIn`).
-/

namespace Mips32

namespace Statement

/-- The tokens of a text are the name of an operation, in any letter case, and operands; one token
that ends in a colon may stand in front of them. -/
def AppearsIn (text : Text) (s : Statement) : Prop :=
  ∃ front token, (front = [] ∨ ∃ t : Text, front = [t] ∧ t.getLast? = some (.char ':')) ∧
    Text.runs isSeparator text = front ++ token :: s.operands ∧
    Text.lower token = s.mnemonic.name

/-- A statement that a line is cut into is the one that its tokens show. -/
theorem parse_eq_of_appearsIn {line : Text} {s s' : Statement} (h : s.AppearsIn line)
    (h' : parse line = .ok s') : s' = s := by
  obtain ⟨front, token, hfront, hruns, hname⟩ := h
  obtain ⟨token', hruns', hname'⟩ := parse_eq_ok_iff.1 h'
  have htoken := Mnemonic.colon_not_mem hname
  have htoken' := Mnemonic.colon_not_mem hname'
  -- Where the tokens agree, so do the statements.
  have heq : token :: s.operands = token' :: s'.operands → s' = s := by
    intro h
    obtain ⟨rfl, hoperands⟩ := List.cons.inj h
    have hmnemonic : s'.mnemonic = s.mnemonic := by
      have := Mnemonic.ofName?_name s.mnemonic
      rw [← hname, hname', Mnemonic.ofName?_name] at this
      exact Option.some.inj this
    obtain ⟨m, operands⟩ := s
    obtain ⟨m', operands'⟩ := s'
    simp_all
  rcases runs_eq_of_bodyOf line with hbody | ⟨name, hbody | ⟨t, ts, ht, hbody⟩⟩
  · rw [hbody, hruns'] at hruns
    rcases hfront with rfl | ⟨u, rfl, hu⟩
    · exact heq hruns.symm
    · -- The first token ends in a colon, and is a name.
      obtain ⟨rfl, -⟩ := List.cons.inj hruns
      exact absurd (List.mem_of_getLast? hu) htoken'
  · rw [hbody, hruns'] at hruns
    rcases hfront with rfl | ⟨u, rfl, hu⟩
    · obtain ⟨rfl, -⟩ := List.cons.inj hruns
      simp at htoken
    · exact heq (List.cons.inj hruns).2.symm
  · rw [hruns'] at ht
    obtain ⟨rfl, rfl⟩ := List.cons.inj ht
    rw [hbody] at hruns
    rcases hfront with rfl | ⟨u, rfl, hu⟩
    · obtain ⟨rfl, -⟩ := List.cons.inj hruns
      simp at htoken
    · -- The first token ends as the name does that is joined to its colon.
      obtain ⟨rfl, -⟩ := List.cons.inj hruns
      have hmem : token' ∈ Text.runs isSeparator (bodyOf line) := hruns' ▸ List.mem_cons_self
      have hlast : name ++ .char ':' :: token' = (name ++ [.char ':']) ++ token' := by simp
      rw [hlast, List.getLast?_append_of_ne_nil _ (Text.ne_nil_of_mem_runs hmem)] at hu
      exact absurd (List.mem_of_getLast? hu) htoken'

end Statement

/-! ## The words of a line -/

/-- What a line at `pc` adds to the words of its program if its tokens show a statement: nothing if
it ends in a colon, nothing if there is a dot behind its label, and else the word of that
statement. -/
inductive Contributes (table : SymbolTable) (pc : Int) (line : Text) (s : Statement) :
    List Word → Prop
  | label {name} (hcolon : (Text.trim line).getLast? = some (.char ':'))
      (hkind : Line.classify line = .label name) : Contributes table pc line s []
  | directive {name?} (hcolon : (Text.trim line).getLast? ≠ some (.char ':'))
      (hdot : (Statement.bodyOf line).head? = some (.char '.'))
      (hkind : Line.classify line = .directive name? (Statement.bodyOf line)) :
      Contributes table pc line s []
  | word {w} (hcolon : (Text.trim line).getLast? ≠ some (.char ':'))
      (hdot : (Statement.bodyOf line).head? ≠ some (.char '.'))
      (hparse : Statement.parse line = .ok s)
      (hword : encodeLine table pc line = .ok w) : Contributes table pc line s [w]

namespace Program

/-- The address behind lines that begin with `l` is counted from the address behind `l`. -/
theorem ofIndex_instructionLines_cons (l : SourceLine) (p : Program) (a : Int) :
    Address.ofIndex (instructionLines (l :: p)).length a =
      Address.ofIndex (instructionLines p).length (l.after a) := by
  have h := ofIndex_instructionsBefore_succ (a := a) l p p.length
  rwa [instructionsBefore, instructionsBefore, List.take_succ_cons, List.take_length] at h

/-- The words of lines put together are those of the first and then those of the second, which start
behind the first. -/
theorem wordsFrom_append_eq_ok_iff {table : SymbolTable} {a : Int} (ha : Address.IsWord a)
    {p q : Program} {ws : List Word} :
    wordsFrom table a (p ++ q) = .ok ws ↔ ∃ before behind, wordsFrom table a p = .ok before ∧
      wordsFrom table (Address.ofIndex p.instructionLines.length a) q = .ok behind ∧
      ws = before ++ behind := by
  induction p generalizing a ws with
  | nil =>
    rw [List.nil_append, instructionLines_nil, List.length_nil, Int.natCast_zero,
      Address.ofIndex_zero ha]
    simp [wordsFrom, eq_comm]
  | cons l p ih =>
    rw [List.cons_append, wordsFrom, wordsFrom, ofIndex_instructionLines_cons]
    split
    case isFalse => exact ih (l.isWord_after ha)
    case isTrue =>
      simp only [bind_eq_ok, pure_eq_ok, ih (l.isWord_after ha)]
      constructor
      · rintro ⟨w, hw, _, ⟨before, behind, hbefore, hbehind, rfl⟩, rfl⟩
        exact ⟨w :: before, behind, ⟨w, hw, before, hbefore, rfl⟩, hbehind, rfl⟩
      · rintro ⟨_, behind, ⟨w, hw, before, hbefore, rfl⟩, hbehind, rfl⟩
        exact ⟨w, hw, _, ⟨before, behind, hbefore, hbehind, rfl⟩, rfl⟩

/-- The words of a single line, whose tokens show a statement. -/
theorem contributes_of_wordsFrom {table : SymbolTable} {pc : Int} {l : SourceLine} {ws : List Word}
    (h : wordsFrom table pc [l] = .ok ws) (hhash : .char '#' ∉ l.text) {s : Statement}
    (hs : s.AppearsIn l.text) : Contributes table pc l.text s ws := by
  have hne : Text.trim l.text ≠ [] := by
    intro hnil
    obtain ⟨front, token, -, hruns, -⟩ := hs
    have hblank : ∀ c, Text.isBlank c = true → Statement.isSeparator c = true := fun _ =>
      Statement.isSeparator_of_isBlank
    rw [← Text.runs_trim hblank, hnil] at hruns
    simp [Text.runs] at hruns
  have hcomment : (Text.trim l.text).head? ≠ some (.char '#') := by
    intro h
    exact hhash ((Text.trim_isInfix l.text).subset (List.mem_of_head? h))
  by_cases hcolon : (Text.trim l.text).getLast? = some (.char ':')
  · have hkind := Line.classify_eq_label hne hcomment hcolon
    have hskip : l.kind.isInstruction = false := by rw [SourceLine.kind, hkind]; rfl
    rw [wordsFrom, if_neg (by simp [hskip])] at h
    cases h
    exact .label hcolon hkind
  have hkind := Line.classify_eq_ofBody hne hcomment hcolon
  by_cases hdot : (Statement.bodyOf l.text).head? = some (.char '.')
  · rw [Line.ofBody, if_pos hdot] at hkind
    have hskip : l.kind.isInstruction = false := by rw [SourceLine.kind, hkind]; rfl
    rw [wordsFrom, if_neg (by simp [hskip])] at h
    cases h
    exact .directive hcolon hdot hkind
  · rw [Line.ofBody, if_neg hdot] at hkind
    have htake : l.kind.isInstruction = true := by rw [SourceLine.kind, hkind]; rfl
    rw [wordsFrom, if_pos htake] at h
    simp only [bind_eq_ok, mapError_eq_ok, pure_eq_ok, wordsFrom, Except.ok.injEq] at h
    obtain ⟨w, hw, _, rfl, rfl⟩ := h
    obtain ⟨s', i, m, hparse, -, -, -⟩ := encodeLine_eq_ok_iff.1 hw
    rw [Statement.parse_eq_of_appearsIn hs hparse] at hparse
    exact .word hcolon hdot hparse hw

/-- In a program that assembles, a line whose tokens show a statement adds the word of that
statement to the words of the lines in front of it and behind it, unless the line ends in a colon or
there is a dot behind its label. -/
theorem contributes_of_assemble {base : Int} (hb : Address.IsWord base) {p : Program}
    {image : Image} (h : p.assemble base = .ok image) {front rest : Program} {l : SourceLine}
    (hp : p = front ++ l :: rest) (hhash : .char '#' ∉ l.text) {s : Statement}
    (hs : s.AppearsIn l.text) :
    let pc := (base + 4 * front.instructionLines.length) % 2 ^ 32
    ∃ before own behind, image.words = before ++ (own ++ behind) ∧
      front.words image.symbols base = .ok before ∧
      Contributes image.symbols pc l.text s own ∧
      rest.words image.symbols (l.after pc) = .ok behind := by
  obtain ⟨-, hwords⟩ := assemble_eq_ok_iff.1 h
  subst hp
  obtain ⟨before, others, hbefore, hothers, heq⟩ := (wordsFrom_append_eq_ok_iff hb).1 hwords
  have hpc := Address.isWord_ofIndex hb front.instructionLines.length
  rw [← List.singleton_append, wordsFrom_append_eq_ok_iff hpc] at hothers
  obtain ⟨own, behind, hown, hbehind, rfl⟩ := hothers
  rw [ofIndex_instructionLines_cons, instructionLines_nil, List.length_nil, Int.natCast_zero,
    Address.ofIndex_zero (l.isWord_after hpc), Address.ofIndex_eq] at hbehind
  rw [Address.ofIndex_eq] at hown
  exact ⟨before, own, behind, heq, hbefore, contributes_of_wordsFrom hown hhash hs, hbehind⟩

/-- The line with the label adds the jump, and no other word. -/
theorem contributes_wrapping :
    (⟨.jump, ["end".text]⟩ : Statement).AppearsIn "start: j end".text ∧
      ∃ behind, wrappingImage.words = [] ++ ([0x08000000] ++ behind) ∧
        Contributes wrappingImage.symbols 0xFFFFFFF8 "start: j end".text
          ⟨.jump, ["end".text]⟩ [0x08000000] := by
  have hp : wrapping = [] ++ (⟨3, "start: j end".text⟩ : SourceLine) :: wrapping.tail := rfl
  have hs : (⟨.jump, ["end".text]⟩ : Statement).AppearsIn "start: j end".text :=
    ⟨["start:".text], "j".text, .inr ⟨_, rfl, rfl⟩, rfl, rfl⟩
  obtain ⟨before, own, behind, hwords, hbefore, hown, -⟩ :=
    contributes_of_assemble (by decide) assemble_wrapping hp (by decide) hs
  cases hbefore
  refine ⟨hs, behind, ?_⟩
  cases hown with
  | label hcolon => cases hcolon
  | directive _ hdot => cases hdot
  | word hcolon hdot hparse hword =>
    cases hword
    exact ⟨hwords, .word hcolon hdot hparse rfl⟩

/-- A label with a dot in front and an instruction behind it is a directive, and an instruction with
a colon at its end is a label: both lines are accepted, and neither has a word. -/
theorem instruction_dropped :
    Address.IsWord Address.defaultBase ∧
      (counted [".x: add $1, $2, $3".text]).assemble Address.defaultBase = .ok ⟨[], []⟩ ∧
      .char '#' ∉ ".x: add $1, $2, $3".text ∧
      (⟨.arith .add, ["$1", "$2", "$3"].map String.text⟩ : Statement).AppearsIn
        ".x: add $1, $2, $3".text ∧
      (counted ["add $1, $2, $3:".text]).assemble Address.defaultBase =
        .ok ⟨[("add $1, $2, $3".text, 0x00400000)], []⟩ ∧
      .char '#' ∉ "add $1, $2, $3:".text ∧
      (⟨.arith .add, ["$1", "$2", "$3:"].map String.text⟩ : Statement).AppearsIn
        "add $1, $2, $3:".text ∧
      (Mnemonic.arith .add).arity = 3 :=
  ⟨by decide, rfl, by decide, ⟨[".x:".text], "add".text, .inr ⟨_, rfl, rfl⟩, rfl, rfl⟩, rfl,
    by decide, ⟨[], "add".text, .inl rfl, rfl, rfl⟩, rfl⟩

end Program

end Mips32
