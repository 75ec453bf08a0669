import Mips32.Proofs.Source.Printing

/-!
# Identifiers as labels

A label that an author writes is an identifier. In front of a colon it is a label whether something
follows on the line or not, but the two cases are told by different means: a line that ends in a
colon is a label line as a whole (`classify_labelLine`), while in front of something the label is
split off, which fails if there is a line feed behind it (`classify_labelled`,
`classify_labelled_of_newline`). What is split off is told by `Line.splitLabel?_eq_some_iff`.
-/

namespace Mips32

/-- An identifier: a letter or an underscore, and behind it letters, digits, underscores and
dots. -/
@[ext]
structure Identifier where
  text : Text
  start : text.head?.any Line.isNameStart = true
  char : ∀ c ∈ text, Line.isNameChar c = true
  deriving DecidableEq

/-- A label that is split off is an identifier in front of a colon, and what is left are the
characters behind the colon, without blanks in front, if they are something in one line. -/
theorem Line.splitLabel?_eq_some_iff {s name body : Text} :
    splitLabel? s = some (name, body) ↔ ∃ (n : Identifier) (r : Text), n.text = name ∧
      s = n.text ++ .char ':' :: r ∧ Text.trimStart r = body ∧ body ≠ [] ∧ .char '\n' ∉ body := by
  constructor
  · intro h
    unfold splitLabel? at h
    split at h
    case h_1 r hr =>
      simp only at h
      split at h
      case isTrue hlabel =>
        simp only [Bool.and_eq_true, Bool.not_eq_true', List.isEmpty_eq_false_iff,
          List.contains_eq_mem, decide_eq_false_iff_not] at hlabel
        obtain ⟨⟨hstart, hne⟩, hline⟩ := hlabel
        cases h
        have hs : s.takeWhile isNameChar ++ .char ':' :: r = s := by
          rw [← hr, List.takeWhile_append_dropWhile]
        have hstart' : (s.takeWhile isNameChar).head?.any isNameStart = true := by
          cases hname : s.takeWhile isNameChar with
          | nil =>
            -- The text would begin with its colon.
            rw [← hs, hname] at hstart
            have hcolon : isNameStart ':' = true := hstart
            exact absurd hcolon (by decide)
          | cons c name =>
            rw [← hs, hname] at hstart
            exact hstart
        exact ⟨⟨_, hstart', List.all_eq_true.1 List.all_takeWhile⟩, r, rfl, hs.symm, rfl, hne,
          hline⟩
      case isFalse => cases h
    case h_2 => cases h
  · rintro ⟨n, r, rfl, rfl, rfl, hne, hline⟩
    rw [splitLabel?_append n.start n.char, if_pos ⟨hne, hline⟩]

namespace Identifier

variable (n : Identifier)

theorem head?_ne {c : CodePoint} (hc : Line.isNameStart c = false) : n.text.head? ≠ some c := by
  intro h
  have hstart := n.start
  rw [h, Option.any_some, hc] at hstart
  cases hstart

theorem plain : Plain n.text where
  ne_nil := by
    intro h
    have hstart := n.start
    rw [h] at hstart
    cases hstart
  char c hc := .inl (n.char c hc)

/-- An identifier and a colon, with blanks anywhere around the two, are a label line. -/
theorem classify_labelLine {before between behind : Text}
    (hbefore : ∀ c ∈ before, Text.isBlank c = true)
    (hbetween : ∀ c ∈ between, Text.isBlank c = true)
    (hbehind : ∀ c ∈ behind, Text.isBlank c = true) :
    Line.classify (before ++ (n.text ++ (between ++ .char ':' :: behind))) = .label n.text :=
  Line.classify_label hbefore n.plain.ne_nil n.plain.not_blank (n.head?_ne (by decide)) hbetween
    hbehind

variable {front r : Text} (hfront : ∀ c ∈ front, Text.isBlank c = true) (hr : Text.trim r ≠ [])
  (hcolon : (Text.trim r).getLast? ≠ some (.char ':'))

include hfront hr hcolon in
/-- An identifier and a colon in front of something that does not end in a colon are no comment and
no label line. -/
theorem classify_labelled_eq_ofBody :
    Line.classify (front ++ (n.text ++ .char ':' :: r)) =
      Line.ofBody
        ((Line.splitLabel? (Text.trim (front ++ (n.text ++ .char ':' :: r)))).map Prod.fst)
        (Statement.bodyOf (front ++ (n.text ++ .char ':' :: r))) := by
  have htrim := Line.trim_label hfront n.start n.char hr
  refine Line.classify_eq_ofBody ?_ ?_ ?_ <;> rw [htrim]
  · simp
  · rw [List.head?_append_of_ne_nil _ n.plain.ne_nil]
    exact n.head?_ne (by decide)
  · -- The last character is that of what follows the label.
    obtain ⟨blanks, hblanks⟩ : Text.trim r <:+ Text.trimEnd r := by
      rw [← Text.trimStart_trimEnd]
      exact List.dropWhile_suffix _
    have hsplit : n.text ++ .char ':' :: Text.trimEnd r =
        n.text ++ .char ':' :: blanks ++ Text.trim r := by
      simp [← hblanks]
    rwa [hsplit, List.getLast?_append_of_ne_nil _ hr]

include hfront hr hcolon in
/-- An identifier and a colon in front of something in one line are its label. -/
theorem classify_labelled (hline : .char '\n' ∉ Text.trim r) :
    Line.classify (front ++ (n.text ++ .char ':' :: r)) =
      Line.ofBody (some n.text) (Text.trim r) := by
  rw [n.classify_labelled_eq_ofBody hfront hr hcolon,
    Line.splitLabel?_trim_label hfront n.start n.char hr, if_neg hline,
    Statement.bodyOf_label hfront n.start n.char hr hline]
  rfl

include hfront hr in
/-- If there is a line feed behind them they are taken for a part of the statement. -/
theorem bodyOf_labelled_of_newline (hline : .char '\n' ∈ Text.trim r) :
    Statement.bodyOf (front ++ (n.text ++ .char ':' :: r)) =
      n.text ++ .char ':' :: Text.trimEnd r := by
  have hsplit := Line.splitLabel?_trim_label hfront n.start n.char hr
  rw [if_pos hline] at hsplit
  unfold Statement.bodyOf
  simp only [hsplit]
  exact Line.trim_label hfront n.start n.char hr

include hfront hr hcolon in
theorem classify_labelled_of_newline (hline : .char '\n' ∈ Text.trim r) :
    Line.classify (front ++ (n.text ++ .char ':' :: r)) =
      .instruction none (n.text ++ .char ':' :: Text.trimEnd r) := by
  have hdot : (n.text ++ .char ':' :: Text.trimEnd r).head? ≠ some (.char '.') := by
    rw [List.head?_append_of_ne_nil _ n.plain.ne_nil]
    exact n.head?_ne (by decide)
  rw [n.classify_labelled_eq_ofBody hfront hr hcolon,
    Line.splitLabel?_trim_label hfront n.start n.char hr, if_pos hline,
    n.bodyOf_labelled_of_newline hfront hr hline]
  exact if_neg hdot

end Identifier

end Mips32
