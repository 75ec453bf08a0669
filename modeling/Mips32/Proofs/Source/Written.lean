import Mips32.Proofs.Source.Identifier
import Mips32.Proofs.Source.Spelling

/-!
# Lines as they are written

A line that means something is an identifier with a colon, or an operation with operand tokens and
perhaps an identifier with a colon in front. `WrittenLine` is the type of these lines with all that
an author is free to choose, blanks and separators included, so that a change to a line is a change
to its parts and not to its characters.

`StatementLine` says for the second kind what the line is and what it is cut into. The operands can
be any tokens, of the wrong number and the wrong kind; only a line whose last token ends in a colon
is left out, which is a label line with more than an identifier in it. A label in front is not seen
if there is a line feed behind it among the tokens (`StatementLine.label?`); then the line has no
label and its first token is no operation (`StatementLine.parse_text_of_ne`).
-/

namespace Mips32

/-- A stretch of blanks, which may be empty. -/
abbrev Blanks := { s : Text // ∀ c ∈ s, Text.isBlank c = true }

/-- A stretch of blanks and commas, which may be empty. -/
abbrev Separators := { s : Text // ∀ c ∈ s, Statement.isSeparator c = true }

/-! ## Tokens in a row -/

/-- A token with the separators in front of it. -/
structure SpacedToken where
  gap : Separators
  token : Text
  gap_ne_nil : gap.val ≠ []
  isRun : Statement.IsRun token

namespace SpacedToken

/-- A token and the tokens behind it, as they stand on a line. -/
def row (token : Text) : List SpacedToken → Text
  | [] => token
  | t :: rest => token ++ (t.gap.val ++ row t.token rest)

/-- The last token of a row. -/
def last (token : Text) : List SpacedToken → Text
  | [] => token
  | t :: rest => last t.token rest

variable {token : Text} {ts : List SpacedToken}

theorem isRun_last (h : Statement.IsRun token) : Statement.IsRun (last token ts) := by
  induction ts generalizing token with
  | nil => exact h
  | cons t ts ih => exact ih t.isRun

theorem row_ne_nil (h : Statement.IsRun token) : row token ts ≠ [] := by
  cases ts with
  | nil => exact h.ne_nil
  | cons t ts => simp [row, h.ne_nil]

theorem head?_row (h : Statement.IsRun token) : (row token ts).head? = token.head? := by
  cases ts with
  | nil => rfl
  | cons t ts => exact List.head?_append_of_ne_nil _ h.ne_nil

theorem getLast?_row (h : Statement.IsRun token) :
    (row token ts).getLast? = (last token ts).getLast? := by
  induction ts generalizing token with
  | nil => rfl
  | cons t ts ih =>
    have hne : row t.token ts ≠ [] := row_ne_nil t.isRun
    rw [row, List.getLast?_append_of_ne_nil _ (by simp [hne]), List.getLast?_append_of_ne_nil _ hne,
      ih t.isRun, last]

/-- The tokens of a row, with separators behind it, are those that it is made of. -/
theorem runs_row (h : Statement.IsRun token) {behind : Text}
    (hbehind : ∀ c ∈ behind, Statement.isSeparator c = true) :
    Text.runs Statement.isSeparator (row token ts ++ behind) =
      token :: ts.map (·.token) := by
  rw [Text.runs_append_right hbehind]
  induction ts generalizing token with
  | nil => exact Text.runs_of_run h.ne_nil h.not_separator
  | cons t ts ih =>
    rw [row, Text.runs_append_gap h.ne_nil h.not_separator t.gap_ne_nil t.gap.property,
      ih t.isRun]
    rfl

/-- A line feed of a row is in one of the gaps. -/
theorem newline_mem_row_iff (h : Statement.IsRun token) :
    .char '\n' ∈ row token ts ↔ ∃ gap ∈ ts.map (·.gap), .char '\n' ∈ gap.val := by
  have htoken : ∀ {token}, Statement.IsRun token → .char '\n' ∉ token := fun h hc =>
    absurd (h.not_separator _ hc) (by decide)
  induction ts generalizing token with
  | nil => simp [row, htoken h]
  | cons t ts ih => simp [row, htoken h, ih t.isRun]

end SpacedToken

/-! ## Lines -/

/-- An identifier with a colon, and blanks around the two. -/
structure LabelLine where
  before : Blanks
  name : Identifier
  between : Blanks
  behind : Blanks

/-- An operation with its operands, and perhaps an identifier with a colon in front. -/
structure StatementLine where
  before : Blanks
  name? : Option Identifier
  gap : Separators
  mnemonic : Mnemonic
  token : Text
  operands : List SpacedToken
  behind : Separators
  isRun : Statement.IsRun token
  lower_token : Text.lower token = mnemonic.name
  /-- A colon at the very end would make a label line of the whole. -/
  colon : (∀ c ∈ behind.val, Text.isBlank c = true) →
    (SpacedToken.last token operands).getLast? ≠ some (.char ':')

/-- A line that an author writes. -/
inductive WrittenLine where
  | label (line : LabelLine)
  | statement (line : StatementLine)

def LabelLine.text (l : LabelLine) : Text :=
  l.before.val ++ (l.name.text ++ (l.between.val ++ .char ':' :: l.behind.val))

theorem LabelLine.classify_text (l : LabelLine) : Line.classify l.text = .label l.name.text :=
  l.name.classify_labelLine l.before.property l.between.property l.behind.property

namespace StatementLine

variable (l : StatementLine)

/-- What stands behind the label, or behind the blanks in front if there is none. -/
def rest : Text :=
  l.gap.val ++ (SpacedToken.row l.token l.operands ++ l.behind.val)

def text : Text :=
  match l.name? with
  | none => l.before.val ++ l.rest
  | some name => l.before.val ++ (name.text ++ .char ':' :: l.rest)

/-- The statement on the line. -/
def statement : Statement :=
  ⟨l.mnemonic, l.operands.map (·.token)⟩

/-- The label that is seen in front: none if a line feed is among the tokens behind it. -/
def label? : Option Identifier :=
  if .char '\n' ∈ Text.trim l.rest then none else l.name?

theorem text_of_none (h : l.name? = none) : l.text = l.before.val ++ l.rest := by
  rw [text, h]

theorem text_of_some {name : Identifier} (h : l.name? = some name) :
    l.text = l.before.val ++ (name.text ++ .char ':' :: l.rest) := by
  rw [text, h]

theorem trim_rest : Text.trim l.rest = Text.trimStart l.gap.val ++
    (SpacedToken.row l.token l.operands ++ Text.trimEnd l.behind.val) := by
  have hblank : ∀ {token}, Statement.IsRun token → ∀ c ∈ token, Text.isBlank c = false := by
    intro token h c hc
    have hsep := h.not_separator c hc
    rw [Statement.isSeparator, Bool.or_eq_false_iff] at hsep
    exact hsep.1
  refine Text.trim_append_append (SpacedToken.row_ne_nil l.isRun) ?_ ?_ _ _
  · intro c hc
    rw [SpacedToken.head?_row l.isRun] at hc
    exact hblank l.isRun c (List.mem_of_head? hc)
  · intro c hc
    rw [SpacedToken.getLast?_row l.isRun] at hc
    exact hblank (SpacedToken.isRun_last l.isRun) c (List.mem_of_getLast? hc)

theorem trim_rest_ne_nil : Text.trim l.rest ≠ [] := by
  simp [trim_rest, SpacedToken.row_ne_nil l.isRun]

/-- The tokens of the line, without its label, are the operation and the operands. -/
theorem runs_trim_rest : Text.runs Statement.isSeparator (Text.trim l.rest) =
    l.token :: l.statement.operands := by
  rw [Text.runs_trim fun _ => Statement.isSeparator_of_isBlank, rest,
    Text.runs_append_left l.gap.property, SpacedToken.runs_row l.isRun l.behind.property]
  rfl

/-- The line begins, without its label, with a separator or a letter of the operation. -/
theorem head?_trim_rest_ne {c : CodePoint} (hsep : Statement.isSeparator c = false)
    (hascii : c.toNat < 128) (hcase : c.toLower = c) (hletter : c.isLower = false) :
    (Text.trim l.rest).head? ≠ some c := by
  intro h
  rw [trim_rest] at h
  cases hgap : Text.trimStart l.gap.val with
  | nil =>
    have hrow : (SpacedToken.row l.token l.operands ++ Text.trimEnd l.behind.val).head? =
        l.token.head? := by
      rw [List.head?_append_of_ne_nil _ (SpacedToken.row_ne_nil l.isRun),
        SpacedToken.head?_row l.isRun]
    rw [hgap, List.nil_append, hrow] at h
    exact Mnemonic.not_mem_of_lower l.lower_token hascii hcase hletter (List.mem_of_head? h)
  | cons d gap =>
    rw [hgap] at h
    obtain rfl : d = c := Option.some.inj h
    have hmem : d ∈ l.gap.val := (List.dropWhile_suffix _).subset (hgap ▸ List.mem_cons_self)
    simp [l.gap.property d hmem] at hsep

/-- The line does not end in a colon. -/
theorem getLast?_trim_rest : (Text.trim l.rest).getLast? ≠ some (.char ':') := by
  rw [trim_rest, List.getLast?_append_of_ne_nil _ (by simp [SpacedToken.row_ne_nil l.isRun])]
  obtain ⟨blanks, hsplit, hblanks⟩ := Text.exists_eq_trimEnd l.behind.val
  by_cases hend : Text.trimEnd l.behind.val = []
  · rw [hend, List.nil_append] at hsplit
    rw [hend, List.append_nil, SpacedToken.getLast?_row l.isRun]
    exact l.colon (hsplit ▸ hblanks)
  · -- What is left of the separators ends in one of them.
    rw [List.getLast?_append_of_ne_nil _ hend]
    intro h
    have hmem : .char ':' ∈ l.behind.val := hsplit ▸ List.mem_append_left _ (List.mem_of_getLast? h)
    exact absurd (l.behind.property _ hmem) (by decide)

theorem splitLabel?_trim_rest : Line.splitLabel? (Text.trim l.rest) = none :=
  Statement.splitLabel?_of_runs l.runs_trim_rest (Mnemonic.colon_not_mem l.lower_token)

/-! ### What the line is -/

/-- The body of a line whose label is seen, if it has one, is what stands behind it. -/
theorem bodyOf_text (h : l.label? = l.name?) : Statement.bodyOf l.text = Text.trim l.rest := by
  cases hname : l.name? with
  | none =>
    unfold Statement.bodyOf
    simp only [l.text_of_none hname, Text.trim_append_left l.before.property,
      l.splitLabel?_trim_rest]
  | some name =>
    have hline : .char '\n' ∉ Text.trim l.rest := by
      intro hline
      rw [label?, if_pos hline, hname] at h
      cases h
    rw [l.text_of_some hname, Statement.bodyOf_label l.before.property name.start name.char
      l.trim_rest_ne_nil hline]

/-- The line is an instruction line with the label that is seen. -/
theorem classify_text : ∃ body, Line.classify l.text =
    .instruction (l.label?.map (·.text)) body := by
  have hdot : (Text.trim l.rest).head? ≠ some (.char '.') :=
    l.head?_trim_rest_ne (by decide) (by decide) (by decide) (by decide)
  cases hname : l.name? with
  | none =>
    have hlabel : l.label? = none := by
      rw [label?, hname]
      split <;> rfl
    have htrim : Text.trim l.text = Text.trim l.rest := by
      rw [l.text_of_none hname, Text.trim_append_left l.before.property]
    refine ⟨Text.trim l.rest, ?_⟩
    rw [Line.classify_eq_ofBody, htrim, l.splitLabel?_trim_rest, hlabel,
      l.bodyOf_text (hlabel.trans hname.symm)]
    · exact if_neg hdot
    · rw [htrim]
      exact l.trim_rest_ne_nil
    · rw [htrim]
      exact l.head?_trim_rest_ne (by decide) (by decide) (by decide) (by decide)
    · rw [htrim]
      exact l.getLast?_trim_rest
  | some name =>
    rw [l.text_of_some hname, label?, hname]
    split
    case isTrue hline =>
      exact ⟨_, name.classify_labelled_of_newline l.before.property l.trim_rest_ne_nil
        l.getLast?_trim_rest hline⟩
    case isFalse hline =>
      refine ⟨Text.trim l.rest, ?_⟩
      rw [name.classify_labelled l.before.property l.trim_rest_ne_nil l.getLast?_trim_rest hline]
      exact if_neg hdot

/-- A line whose label is seen, if it has one, is cut into its operation and its operands. -/
theorem parse_text (h : l.label? = l.name?) : Statement.parse l.text = .ok l.statement :=
  Statement.parse_eq_ok_iff.2 ⟨l.token, by rw [l.bodyOf_text h, l.runs_trim_rest], l.lower_token⟩

/-- Otherwise its first token, which begins with the label and its colon, is no operation. -/
theorem parse_text_of_ne (h : l.label? ≠ l.name?) :
    ∃ token, Statement.parse l.text = .error (.unsupported token) := by
  have hline : .char '\n' ∈ Text.trim l.rest := by
    by_contra hline
    exact h (if_neg hline)
  obtain ⟨name, hname⟩ : ∃ name, l.name? = some name := by
    rw [← Option.ne_none_iff_exists']
    intro hname
    rw [label?, if_pos hline, hname] at h
    exact h rfl
  rw [l.text_of_some hname, Statement.parse,
    name.bodyOf_labelled_of_newline l.before.property l.trim_rest_ne_nil hline]
  rcases Statement.runs_label name.char (Text.trimEnd l.rest) with hruns | ⟨t, ts, -, hruns⟩
  · exact ⟨_, by rw [hruns, Statement.ofTokens_of_colon (by simp)]⟩
  · exact ⟨_, by rw [hruns, Statement.ofTokens_of_colon (by simp)]⟩

end StatementLine

def WrittenLine.text : WrittenLine → Text
  | label l => l.text
  | statement l => l.text

end Mips32
