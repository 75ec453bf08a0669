import Mathlib.Data.List.TakeWhile
import Mips32.Proofs.Report

/-!
# What is left of a source text

Both passes work on what is left of a source text: the physical lines with something in front of
their comments, under the numbers that they have in the text. `Cleans` says of a program that it is
what is left of a text, that neither pass will find a blank line, a comment or a line break in it,
and that nothing more can be taken off: written one below the other, the lines are a source text of
which they are left. `cleans_ofText` says that the program of every text is like that.

The lines of a program come from physical lines, which are free of line breaks, by cutting and
trimming. What such a line must be like for a second cut to leave it alone is `IsSignificant`, and
that is also all that is needed of lines for `ofText_intercalate`.
-/

namespace Mips32

/-- Only nothing at all and a comment are blank lines. -/
theorem Line.classify_ne_blank {line : Text} (hne : Text.trim line ≠ [])
    (hhash : (Text.trim line).head? ≠ some (.char '#')) : classify line ≠ .blank := by
  have hofBody : ∀ name? text, ofBody name? text ≠ .blank := by
    intro name? text
    unfold ofBody
    split <;> nofun
  unfold classify
  simp only
  split
  case isTrue h => exact absurd h (by simp [hne, hhash])
  case isFalse =>
    split
    · nofun
    · split
      · exact hofBody _ _
      · exact hofBody _ _

namespace Program

/-! ## Significant texts -/

/-- A text that is all of its line: there is something in it, no blank at either end, and neither a
comment nor a line break inside. -/
structure IsSignificant (text : Text) : Prop where
  nonempty : text ≠ []
  head : ∀ c, text.head? = some c → Text.isBlank c = false
  last : ∀ c, text.getLast? = some c → Text.isBlank c = false
  uncommented : .char '#' ∉ text
  plain : ∀ c ∈ text, Text.isLineBreak c = false

theorem significant_ne_nil_iff {line : Text} :
    significant line ≠ [] ↔ ∃ c ∈ line.takeWhile (· != .char '#'), Text.isBlank c = false := by
  constructor
  · intro hne
    obtain ⟨c, r, hcons⟩ := List.exists_cons_of_ne_nil hne
    have hhead : (significant line).head? = some c := by rw [hcons, List.head?_cons]
    exact ⟨c, (Text.trim_isInfix _).subset (List.mem_of_head? hhead),
      Text.not_isBlank_of_head?_trim hhead⟩
  · rintro ⟨c, hc, hblank⟩
    exact Text.trim_ne_nil hc hblank

/-- What is left of a line is significant. -/
theorem isSignificant_significant {line : Text} (hplain : ∀ c ∈ line, Text.isLineBreak c = false)
    (hne : significant line ≠ []) : IsSignificant (significant line) where
  nonempty := hne
  head := fun _ => Text.not_isBlank_of_head?_trim
  last := fun _ => Text.not_isBlank_of_getLast?_trimEnd
  uncommented := fun h => by
    have hkept := List.all_eq_true.1 List.all_takeWhile _ ((Text.trim_isInfix _).subset h)
    simp at hkept
  plain := fun c hc => hplain c ((significant_isInfix line).subset hc)

theorem IsSignificant.significant_eq {text : Text} (h : IsSignificant text) :
    significant text = text := by
  have hcut : text.takeWhile (· != .char '#') = text := by
    refine List.takeWhile_eq_self_iff.2 fun c hc => ?_
    rw [bne_iff_ne]
    rintro rfl
    exact h.uncommented hc
  rw [significant, hcut, Text.trim_eq_self h.head h.last]

/-- A significant text is no blank line. -/
theorem IsSignificant.classify_ne_blank {text : Text} (h : IsSignificant text) :
    Line.classify text ≠ .blank := by
  have htrim : Text.trim text = text := Text.trim_eq_self h.head h.last
  refine Line.classify_ne_blank (htrim.symm ▸ h.nonempty) ?_
  rw [htrim]
  exact fun hhead => h.uncommented (List.mem_of_head? hhead)

theorem isSignificant_of_mem_ofText {source : Text} {l : SourceLine} (hl : l ∈ ofText source) :
    IsSignificant l.text := by
  obtain ⟨n, line, hline, hne, rfl⟩ := mem_ofText_iff.1 hl
  exact isSignificant_significant
    (Text.not_isLineBreak_of_mem_lines (List.mem_of_getElem? hline)) hne

/-! ## Numbers -/

theorem pairwise_number_counted (texts : List Text) :
    (counted texts).Pairwise fun l m => l.number < m.number := by
  have hnumbers := List.pairwise_lt_range' (s := 1) (n := texts.length) 1
  rw [← List.zipIdx_map_snd, List.pairwise_map] at hnumbers
  exact List.pairwise_map.2 (hnumbers.imp fun h => Int.ofNat_lt.2 h)

/-- Dropping lines and cutting them keeps the numbers in order. -/
theorem pairwise_number_ofText (source : Text) :
    (ofText source).Pairwise fun l m => l.number < m.number :=
  List.Pairwise.filter _ (List.pairwise_map.2 (pairwise_number_counted _))

/-! ## Cleaning once more -/

/-- Significant texts written one below the other are the program of that text, counted from one. -/
theorem ofText_intercalate {texts : List Text} (h : ∀ t ∈ texts, IsSignificant t) :
    ofText ("\n".text.intercalate texts) = counted texts := by
  have hlines : Text.lines ("\n".text.intercalate texts) = texts :=
    Text.lines_intercalate_newline fun t ht => ⟨(h t ht).nonempty, (h t ht).plain⟩
  have hmem : ∀ l ∈ counted texts, IsSignificant l.text := fun l hl =>
    h l.text (map_text_counted texts ▸ List.mem_map_of_mem hl)
  have hsame : (counted texts).map (fun l => ⟨l.number, significant l.text⟩) = counted texts := by
    refine (List.map_congr_left fun l hl => ?_).trans (List.map_id _)
    rw [(hmem l hl).significant_eq]
    rfl
  rw [ofText, hlines, hsame]
  refine List.filter_eq_self.2 fun l hl => ?_
  simpa using (hmem l hl).nonempty

/-! ## What is left of a text -/

/-- A program that is what is left of a source text, and of which nothing more can be taken off. -/
structure Cleans (source : Text) (p : Program) : Prop where
  increasing : p.Pairwise fun l m => l.number < m.number
  /-- The numbers are those of physical lines, counted from one. -/
  bounds : ∀ l ∈ p, 1 ≤ l.number ∧ l.number ≤ (Text.lines source).length
  /-- A physical line is kept exactly if something that is no blank stands before its comment. -/
  kept : ∀ (n : Nat) line, (Text.lines source)[n]? = some line →
    ((∃ l ∈ p, l.number = n + 1) ↔ ∃ c ∈ line.takeWhile (· != .char '#'), Text.isBlank c = false)
  text : ∀ (n : Nat) line, (Text.lines source)[n]? = some line → ∀ l ∈ p, l.number = n + 1 →
    l.text = Text.trim (line.takeWhile (· != .char '#'))
  significant : ∀ l ∈ p, IsSignificant l.text
  kind : ∀ l ∈ p, l.kind ≠ .blank
  /-- The lines written one below the other are left of that text, counted from one. -/
  again : ofText ("\n".text.intercalate (p.map (·.text))) = counted (p.map (·.text))

/-- The program of every source text is what is left of it. -/
theorem cleans_ofText (source : Text) : Cleans source (ofText source) := by
  -- Lines of one number are one physical line.
  have hphysical : ∀ (n : Nat) line, (Text.lines source)[n]? = some line → ∀ l ∈ ofText source,
      l.number = n + 1 → Program.significant line ≠ [] ∧ l.text = Program.significant line := by
    intro n line hline l hl hnumber
    obtain ⟨m, line', hline', hne, rfl⟩ := mem_ofText_iff.1 hl
    have hindex : (m : Int) + 1 = n + 1 := hnumber
    obtain rfl : m = n := by omega
    obtain rfl := Option.some.inj (hline.symm.trans hline')
    exact ⟨hne, rfl⟩
  refine ⟨pairwise_number_ofText source, ?bounds, ?kept, ?text,
    fun l => isSignificant_of_mem_ofText, ?kind, ?again⟩
  case bounds =>
    intro l hl
    obtain ⟨n, line, hline, -, rfl⟩ := mem_ofText_iff.1 hl
    obtain ⟨hn, -⟩ := List.getElem?_eq_some_iff.1 hline
    simp only
    omega
  case kept =>
    intro n line hline
    rw [← significant_ne_nil_iff]
    constructor
    · rintro ⟨l, hl, hnumber⟩
      exact (hphysical n line hline l hl hnumber).1
    · exact fun hne => ⟨_, mem_ofText_iff.2 ⟨n, line, hline, hne, rfl⟩, rfl⟩
  case text => exact fun n line hline l hl hnumber => (hphysical n line hline l hl hnumber).2
  case kind => exact fun l hl => (isSignificant_of_mem_ofText hl).classify_ne_blank
  case again =>
    refine ofText_intercalate fun t ht => ?_
    obtain ⟨l, hl, rfl⟩ := List.mem_map.1 ht
    exact isSignificant_of_mem_ofText hl

example : (ofText "\n a # b\r\n\t#\x1cc".text).map (fun l => (l.number, l.text)) =
    [(2, "a".text), (4, "c".text)] := by decide

end Program

end Mips32
