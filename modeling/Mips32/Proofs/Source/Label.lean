import Mathlib.Data.List.TakeWhile
import Mips32.Proofs.Source.WellFormed

/-!
# The label in front of a statement

A statement starts behind the label of its line, and that label is told from the text alone: name
characters up to a colon at the very start. No name of an operation has a colon in it
(`Mnemonic.colon_not_mem`), so the colon of a label cannot be mistaken for a part of the statement.

* `runs_eq_of_bodyOf`: a label takes at most one token off a line, or joins the first one.
* `runs_bodyOf_label`: an identifier, a colon and anything in one line behind it is a label with its
  statement.
-/

namespace Mips32

/-! ## Names of operations -/

/-- An ASCII character without letter case stays where it is when a text is lower-cased. -/
theorem Text.mem_lowerAfter {before : List CodePoint} {t : Text} {c : CodePoint}
    (hascii : c.toNat < 128)
    (hcase : c.toLower = c) (h : c ∈ t) : c ∈ lowerAfter before t := by
  induction t generalizing before with
  | nil => cases h
  | cons d t ih =>
    rw [lowerAfter, List.mem_append]
    rcases List.mem_cons.1 h with rfl | h
    · have hchar : lowerChar before c t = [c] := by rw [lowerChar, if_pos hascii, hcase]
      exact .inl (by rw [hchar]; exact .head _)
    · exact .inr (ih h)

/-- A name of an operation consists of letters, in whatever letter case it is written. -/
theorem Mnemonic.not_mem_of_lower {token : Text} {m : Mnemonic} (h : Text.lower token = m.name)
    {c : CodePoint} (hascii : c.toNat < 128) (hcase : c.toLower = c) (hletter : c.isLower = false) :
    c ∉ token := by
  have hnames : ∀ m ∈ all, ∀ c ∈ m.name, c.isLower = true := by decide
  intro hc
  have hmem : c ∈ m.name := h ▸ Text.mem_lowerAfter hascii hcase hc
  simp [hnames m (mem_all m) c hmem] at hletter

/-- No name of an operation has a colon in it. -/
theorem Mnemonic.colon_not_mem {token : Text} {m : Mnemonic} (h : Text.lower token = m.name) :
    .char ':' ∉ token :=
  not_mem_of_lower h (by decide) (by decide) (by decide)

/-! ## Splitting a label off -/

/-- An identifier in front of a colon is split off exactly if something stands behind it and there
is no line feed in that. -/
theorem Line.splitLabel?_append {name : Text} (hstart : name.head?.any isNameStart = true)
    (hname : ∀ c ∈ name, isNameChar c = true) (r : Text) :
    splitLabel? (name ++ .char ':' :: r) =
      if Text.trimStart r ≠ [] ∧ .char '\n' ∉ Text.trimStart r then some (name, Text.trimStart r)
      else none := by
  have hcolon : isNameChar ':' = false := by decide
  have hhead : (name ++ .char ':' :: r).head?.any isNameStart = true := by
    cases name with
    | nil => cases hstart
    | cons c name => exact hstart
  have htake : (name ++ .char ':' :: r).takeWhile isNameChar = name := by
    rw [List.takeWhile_append_of_pos hname, List.takeWhile_cons_of_neg (by simp [hcolon]),
      List.append_nil]
  have hdrop : (name ++ .char ':' :: r).dropWhile isNameChar = .char ':' :: r := by
    rw [List.dropWhile_append_of_pos hname, List.dropWhile_cons_of_neg (by simp [hcolon])]
  unfold splitLabel?
  rw [hdrop]
  simp only [htake, hhead]
  simp

/-- Blanks around a line with an identifier and a colon in front are trimmed away behind them, and
so are the blanks in front of them. -/
theorem Line.trim_label {front name r : Text} (hfront : ∀ c ∈ front, Text.isBlank c = true)
    (hstart : name.head?.any isNameStart = true) (hname : ∀ c ∈ name, isNameChar c = true)
    (hr : Text.trim r ≠ []) :
    Text.trim (front ++ (name ++ .char ':' :: r)) = name ++ .char ':' :: Text.trimEnd r := by
  have hhead : Text.trimStart (name ++ .char ':' :: r) = name ++ .char ':' :: r := by
    cases name with
    | nil => cases hstart
    | cons d name =>
      have hd : Text.isBlank d = false := by
        rw [Bool.eq_false_iff]
        intro hd
        have := Statement.isSeparator_of_isBlank hd
        simp [Statement.not_isSeparator_of_isNameChar (hname d (.head _))] at this
      exact List.dropWhile_cons_of_neg (by simp [hd])
  have hend : Text.trimEnd r ≠ [] := by
    intro hnil
    rw [← Text.trimStart_trimEnd, hnil] at hr
    exact hr rfl
  have hcolon : ∀ s : Text, name ++ .char ':' :: s = (name ++ [.char ':']) ++ s := by simp
  rw [Text.trim, Text.trimStart, List.dropWhile_append_of_pos hfront, ← Text.trimStart, hhead,
    hcolon r, Text.trimEnd_append hend, ← hcolon]

/-- Of a line with an identifier and a colon in front of something, the label is split off unless
there is a line feed in the rest. -/
theorem Line.splitLabel?_trim_label {front name r : Text}
    (hfront : ∀ c ∈ front, Text.isBlank c = true) (hstart : name.head?.any isNameStart = true)
    (hname : ∀ c ∈ name, isNameChar c = true) (hr : Text.trim r ≠ []) :
    splitLabel? (Text.trim (front ++ (name ++ .char ':' :: r))) =
      if .char '\n' ∈ Text.trim r then none else some (name, Text.trim r) := by
  rw [trim_label hfront hstart hname hr, splitLabel?_append hstart hname, Text.trimStart_trimEnd]
  simp [hr]

/-- A text without blanks and a colon, with blanks anywhere around the two, is a label line. -/
theorem Line.classify_label {before name between behind : Text}
    (hbefore : ∀ c ∈ before, Text.isBlank c = true) (hne : name ≠ [])
    (hname : ∀ c ∈ name, Text.isBlank c = false) (hhash : name.head? ≠ some (.char '#'))
    (hbetween : ∀ c ∈ between, Text.isBlank c = true)
    (hbehind : ∀ c ∈ behind, Text.isBlank c = true) :
    classify (before ++ (name ++ (between ++ .char ':' :: behind))) = .label name := by
  have hfirst : ∀ c, name.head? = some c → Text.isBlank c = false := fun c hc =>
    hname c (List.mem_of_head? hc)
  have hhead : (name ++ (between ++ [CodePoint.char ':'])).head? = name.head? :=
    List.head?_append_of_ne_nil _ hne
  have hlast : (name ++ (between ++ [CodePoint.char ':'])).getLast? = some (.char ':') := by
    rw [← List.append_assoc, List.getLast?_concat]
  have htrim : Text.trim (before ++ (name ++ (between ++ .char ':' :: behind))) =
      name ++ (between ++ [.char ':']) := by
    have hsplit : name ++ (between ++ .char ':' :: behind) =
        name ++ (between ++ [.char ':']) ++ behind := by
      simp
    rw [Text.trim_append_left hbefore, hsplit, Text.trim_append_right hbehind]
    refine Text.trim_eq_self (hhead ▸ hfirst) fun c hc => ?_
    obtain rfl : CodePoint.char ':' = c := Option.some.inj (hlast.symm.trans hc)
    decide
  have hlabel : Text.trim (name ++ (between ++ [CodePoint.char ':'])).dropLast = name := by
    rw [← List.append_assoc, List.dropLast_concat, Text.trim_append_right hbetween]
    exact Text.trim_eq_self hfirst fun c hc => hname c (List.mem_of_getLast? hc)
  rw [classify_eq_label, htrim, hlabel]
  · rw [htrim]
    simp
  · rw [htrim, hhead]
    exact hhash
  · rw [htrim, hlast]

namespace Statement

/-- Name characters and a colon are a token of their own in front of the others, or are joined to
the first of them. -/
theorem runs_label {name : Text} (hname : ∀ c ∈ name, Line.isNameChar c = true) (r : Text) :
    Text.runs isSeparator (name ++ .char ':' :: r) =
      (name ++ [.char ':']) :: Text.runs isSeparator r ∨
      ∃ t ts, Text.runs isSeparator r = t :: ts ∧
        Text.runs isSeparator (name ++ .char ':' :: r) = (name ++ .char ':' :: t) :: ts := by
  have hfront : ∀ c ∈ name ++ [.char ':'], isSeparator c = false :=
    List.forall_mem_append.2 ⟨fun c hc => not_isSeparator_of_isNameChar (hname c hc), by decide⟩
  have hcolon : name ++ .char ':' :: r = (name ++ [.char ':']) ++ r := by simp
  rw [hcolon]
  by_cases hr : r.head?.all isSeparator = true
  · exact .inl (Text.runs_append_of_run (by simp) hfront hr)
  · have hhead : r.head?.any (!isSeparator ·) = true := by
      cases r with
      | nil => exact absurd rfl hr
      | cons c r => simpa using hr
    obtain ⟨t, ts, hts, hjoined⟩ := Text.runs_append_of_not_sep hfront hhead
    exact .inr ⟨t, ts, hts, by rw [hjoined]; simp⟩

/-- The tokens of a line are those behind its label, and in front of them, or joined to the first of
them, one that holds the colon of the label. -/
theorem runs_eq_of_bodyOf (line : Text) :
    Text.runs isSeparator line = Text.runs isSeparator (bodyOf line) ∨
      ∃ name, Text.runs isSeparator line =
        (name ++ [.char ':']) :: Text.runs isSeparator (bodyOf line) ∨
        ∃ t ts, Text.runs isSeparator (bodyOf line) = t :: ts ∧
          Text.runs isSeparator line = (name ++ .char ':' :: t) :: ts := by
  have hblank : ∀ c, Text.isBlank c = true → isSeparator c = true := fun _ =>
    isSeparator_of_isBlank
  rw [← Text.runs_trim hblank line]
  unfold bodyOf
  simp only
  split
  case h_2 => exact .inl rfl
  case h_1 name body h =>
    obtain ⟨r, hline, rfl, hname⟩ := exists_of_splitLabel? h
    rw [hline, Text.runs_trimStart hblank]
    exact .inr ⟨name, runs_label hname r⟩

/-- No label is split off a text whose first token has no colon in it. -/
theorem splitLabel?_of_runs {s token : Text} {tokens : List Text}
    (hruns : Text.runs isSeparator s = token :: tokens) (hcolon : .char ':' ∉ token) :
    Line.splitLabel? s = none := by
  rw [Option.eq_none_iff_forall_ne_some]
  rintro ⟨name, body⟩ h
  obtain ⟨r, rfl, -, hname⟩ := exists_of_splitLabel? h
  rcases runs_label hname r with hlabel | ⟨t, ts, -, hlabel⟩
  · obtain ⟨rfl, -⟩ := List.cons.inj (hlabel.symm.trans hruns)
    exact hcolon (by simp)
  · obtain ⟨rfl, -⟩ := List.cons.inj (hlabel.symm.trans hruns)
    exact hcolon (by simp)

/-- A token with a colon in it is no operation. -/
theorem ofTokens_of_colon {token : Text} (h : .char ':' ∈ token) (tokens : List Text) :
    ofTokens (token :: tokens) = .error (.unsupported token) := by
  rw [ofTokens]
  split
  case h_1 m hm => exact absurd h (Mnemonic.colon_not_mem (Mnemonic.name_of_ofName? hm).symm)
  case h_2 => rfl

/-- The body of a line with an identifier and a colon in front is what follows them, if that is
something in one line. -/
theorem bodyOf_label {front name r : Text} (hfront : ∀ c ∈ front, Text.isBlank c = true)
    (hstart : name.head?.any Line.isNameStart = true)
    (hname : ∀ c ∈ name, Line.isNameChar c = true) (hr : Text.trim r ≠ [])
    (hline : .char '\n' ∉ Text.trim r) :
    bodyOf (front ++ (name ++ .char ':' :: r)) = Text.trim r := by
  unfold bodyOf
  simp only [Line.splitLabel?_trim_label hfront hstart hname hr, if_neg hline]

/-- Behind an identifier and a colon, with blanks in front of them, the tokens of the statement are
those of what follows, if that is something in one line. -/
theorem runs_bodyOf_label {front name r : Text} (hfront : ∀ c ∈ front, Text.isBlank c = true)
    (hstart : name.head?.any Line.isNameStart = true)
    (hname : ∀ c ∈ name, Line.isNameChar c = true) (hr : ∃ c ∈ r, Text.isBlank c = false)
    (hline : .char '\n' ∉ r) :
    Text.runs isSeparator (bodyOf (front ++ (name ++ .char ':' :: r))) =
      Text.runs isSeparator r := by
  obtain ⟨c, hc, hcblank⟩ := hr
  have hsome := Text.trim_ne_nil hc hcblank
  have hfeed : .char '\n' ∉ Text.trim r := fun h => hline ((Text.trim_isInfix r).subset h)
  rw [bodyOf_label hfront hstart hname hsome hfeed, Text.runs_trim fun _ => isSeparator_of_isBlank]

end Statement

end Mips32
