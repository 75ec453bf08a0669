import Mips32.Text.Lines

/-!
# Physical lines and their breaks

`lines` forgets which break ends a line. `physicalLines` keeps it: each line comes with its ending,
and only the last line of a text may have none. They are the one way to write the text as lines
(`physicalLines_eq_iff`), and without the endings they are those of `lines`
(`map_text_physicalLines`), so whatever goes by lines alone does not depend on which breaks are
used. That holds of unified newlines at once (`lines_unifyNewlines`).
-/

namespace Mips32.Text

/-! ## Lines from the front of a text -/

variable {c : CodePoint} {r : Text}

/-- A line break that is no carriage return in front of a line feed ends a line by itself. -/
theorem lines_cons_of_isLineBreak (hc : isLineBreak c = true)
    (hpair : ∀ r', c = '\r' → r = .char '\n' :: r' → False) : lines (c :: r) = [] :: lines r := by
  rw [lines.eq_3 c r hpair, if_pos hc]

theorem lines_newline (r : Text) : lines (.char '\n' :: r) = [] :: lines r :=
  lines_cons_of_isLineBreak rfl fun _ h => absurd h (by decide)

/-- Unifying the newlines of a text does not change its lines. -/
theorem lines_unifyNewlines (s : Text) : lines (unifyNewlines s) = lines s := by
  fun_induction unifyNewlines s with
  | case1 => rfl
  | case2 r ih => rw [lines_newline, lines, ih]
  | case3 c r hpair ih =>
    by_cases hreturn : c = '\r'
    · subst hreturn
      rw [if_pos rfl, lines_newline, ih, lines_cons_of_isLineBreak rfl hpair]
    · have hpair' : ∀ r', c = '\r' → unifyNewlines r = .char '\n' :: r' → False :=
        fun _ h => absurd h hreturn
      rw [if_neg hreturn, lines.eq_3 c r hpair, lines.eq_3 c _ hpair', ih]

/-! ## Lines with their endings -/

/-- A physical line and the break that ends it, if there is one. -/
structure PhysicalLine where
  text : Text
  ending : Text
  deriving DecidableEq, Repr

/-- The line as it stands in a text. -/
def PhysicalLine.written (l : PhysicalLine) : Text :=
  l.text ++ l.ending

/-- The physical lines of a text with their endings. -/
def physicalLines : Text → List PhysicalLine
  | [] => []
  | '\r' :: '\n' :: r => ⟨[], ['\r', '\n']⟩ :: physicalLines r
  | c :: r =>
    if isLineBreak c then ⟨[], [c]⟩ :: physicalLines r
    else
      match physicalLines r with
      | [] => [⟨[c], []⟩]
      | l :: ls => { l with text := c :: l.text } :: ls

/-- Without their endings the physical lines are the lines. -/
theorem map_text_physicalLines (s : Text) :
    (physicalLines s).map PhysicalLine.text = lines s := by
  fun_induction physicalLines s with
  | case1 => rfl
  | case2 r ih => rw [List.map_cons, ih, lines]
  | case3 c r hpair hc ih => rw [List.map_cons, ih, lines_cons_of_isLineBreak hc hpair]
  | case4 c r hpair hc hr ih =>
    rw [hr, List.map_nil] at ih
    rw [lines.eq_3 c r hpair, if_neg hc, ← ih]
    rfl
  | case5 c r hpair hc l ls hr ih =>
    rw [hr, List.map_cons] at ih
    rw [lines.eq_3 c r hpair, if_neg hc, ← ih]
    rfl

/-- A text is its physical lines as they are written. -/
theorem flatMap_physicalLines (s : Text) :
    (physicalLines s).flatMap PhysicalLine.written = s := by
  fun_induction physicalLines s with
  | case1 => rfl
  | case2 r ih => rw [List.flatMap_cons, ih, PhysicalLine.written]; rfl
  | case3 c r hpair hc ih => rw [List.flatMap_cons, ih, PhysicalLine.written]; rfl
  | case4 c r hpair hc hr ih =>
    rw [hr, List.flatMap_nil] at ih
    rw [← ih]
    rfl
  | case5 c r hpair hc l ls hr ih =>
    rw [hr] at ih
    rw [← ih]
    rfl

/-- Physical lines that stand as such in a text: each of them is free of line breaks, and all but
the last have an ending, which does not merge with what stands behind. -/
inductive Lined : List PhysicalLine → Prop
  | nil : Lined []
  | last {text : Text} (hne : text ≠ []) (hplain : ∀ c ∈ text, isLineBreak c = false) :
      Lined [⟨text, []⟩]
  | pair {text : Text} {ls : List PhysicalLine} (hplain : ∀ c ∈ text, isLineBreak c = false)
      (hrest : Lined ls) : Lined (⟨text, ['\r', '\n']⟩ :: ls)
  | single {text : Text} {c : CodePoint} {ls : List PhysicalLine}
      (hplain : ∀ c ∈ text, isLineBreak c = false) (hc : isLineBreak c = true)
      (hapart : c = '\r' → (ls.flatMap PhysicalLine.written).head? ≠ some (.char '\n'))
      (hrest : Lined ls) : Lined (⟨text, [c]⟩ :: ls)

theorem physicalLines_cons_of_not_isLineBreak (hc : isLineBreak c = false) (r : Text) :
    physicalLines (c :: r) =
      match physicalLines r with
      | [] => [⟨[c], []⟩]
      | l :: ls => { l with text := c :: l.text } :: ls := by
  have hpair : ∀ r', c = '\r' → r = .char '\n' :: r' → False := by
    rintro _ rfl
    cases hc
  rw [physicalLines.eq_3 c r hpair, if_neg (by simp [hc])]

theorem physicalLines_cons_of_isLineBreak (hc : isLineBreak c = true)
    (hapart : c = '\r' → r.head? ≠ some (.char '\n')) :
    physicalLines (c :: r) = ⟨[], [c]⟩ :: physicalLines r := by
  have hpair : ∀ r', c = '\r' → r = .char '\n' :: r' → False := by
    rintro r' hreturn rfl
    exact hapart hreturn rfl
  rw [physicalLines.eq_3 c r hpair, if_pos hc]

/-- A stretch without line breaks joins the first line behind it. -/
theorem physicalLines_append {text : Text} (hplain : ∀ c ∈ text, isLineBreak c = false)
    {l : PhysicalLine} {ls : List PhysicalLine} (h : physicalLines r = l :: ls) :
    physicalLines (text ++ r) = { l with text := text ++ l.text } :: ls := by
  induction text with
  | nil => exact h
  | cons c text ih =>
    obtain ⟨hc, htext⟩ := List.forall_mem_cons.1 hplain
    rw [List.cons_append, physicalLines_cons_of_not_isLineBreak hc, ih htext]
    rfl

theorem physicalLines_of_plain {text : Text} (hne : text ≠ [])
    (hplain : ∀ c ∈ text, isLineBreak c = false) : physicalLines text = [⟨text, []⟩] := by
  induction text with
  | nil => exact absurd rfl hne
  | cons c text ih =>
    obtain ⟨hc, htext⟩ := List.forall_mem_cons.1 hplain
    rw [physicalLines_cons_of_not_isLineBreak hc]
    cases text with
    | nil => rfl
    | cons d text => rw [ih (by simp) htext]

theorem lined_physicalLines (s : Text) : Lined (physicalLines s) := by
  fun_induction physicalLines s with
  | case1 => exact .nil
  | case2 r ih => exact .pair nofun ih
  | case3 c r hpair hc ih =>
    refine .single nofun hc (fun hreturn hhead => ?_) ih
    rw [flatMap_physicalLines] at hhead
    obtain ⟨r', rfl⟩ := List.head?_eq_some_iff.1 hhead
    exact hpair r' hreturn rfl
  | case4 c r hpair hc hr ih =>
    exact .last (by simp) (by simpa using hc)
  | case5 c r hpair hc l ls hr ih =>
    rw [hr] at ih
    have hc' : isLineBreak c = false := by simpa using hc
    cases ih with
    | last hne hplain => exact .last (by simp) (List.forall_mem_cons.2 ⟨hc', hplain⟩)
    | pair hplain hrest => exact .pair (List.forall_mem_cons.2 ⟨hc', hplain⟩) hrest
    | single hplain hbreak hapart hrest =>
      exact .single (List.forall_mem_cons.2 ⟨hc', hplain⟩) hbreak hapart hrest

/-- The physical lines of a text are the one way to write it as lines. -/
theorem physicalLines_eq_iff {s : Text} {ls : List PhysicalLine} :
    physicalLines s = ls ↔ Lined ls ∧ ls.flatMap PhysicalLine.written = s := by
  constructor
  · rintro rfl
    exact ⟨lined_physicalLines s, flatMap_physicalLines s⟩
  · rintro ⟨hlined, rfl⟩
    induction hlined with
    | nil => rfl
    | last hne hplain =>
      rw [List.flatMap_singleton, PhysicalLine.written, List.append_nil]
      exact physicalLines_of_plain hne hplain
    | @pair text ls hplain _ ih =>
      rw [List.flatMap_cons, PhysicalLine.written, List.append_assoc]
      have hending : physicalLines ([.char '\r', .char '\n'] ++ ls.flatMap PhysicalLine.written) =
          ⟨[], ['\r', '\n']⟩ :: ls := congrArg _ ih
      rw [physicalLines_append hplain hending, List.append_nil]
    | @single text c ls hplain hc hapart _ ih =>
      rw [List.flatMap_cons, PhysicalLine.written, List.append_assoc]
      have hending : physicalLines ([c] ++ ls.flatMap PhysicalLine.written) = ⟨[], [c]⟩ :: ls :=
        (physicalLines_cons_of_isLineBreak hc hapart).trans (congrArg _ ih)
      rw [physicalLines_append hplain hending, List.append_nil]

/-! ## Texts that are put together from lines -/

theorem Lined.plain {ls : List PhysicalLine} (h : Lined ls) :
    ∀ l ∈ ls, ∀ c ∈ l.text, isLineBreak c = false := by
  induction h with
  | nil => nofun
  | last _ hplain => exact List.forall_mem_cons.2 ⟨hplain, nofun⟩
  | pair hplain _ ih => exact List.forall_mem_cons.2 ⟨hplain, ih⟩
  | single hplain _ _ _ ih => exact List.forall_mem_cons.2 ⟨hplain, ih⟩

/-- No line of a text has a line break in it. -/
theorem not_isLineBreak_of_mem_lines {s l : Text} (h : l ∈ lines s) :
    ∀ c ∈ l, isLineBreak c = false := by
  rw [← map_text_physicalLines] at h
  obtain ⟨p, hp, rfl⟩ := List.mem_map.1 h
  exact (lined_physicalLines s).plain p hp

/-- A stretch without line breaks and a line feed behind it are a line of their own. -/
theorem lines_append_newline {text : Text} (hplain : ∀ c ∈ text, isLineBreak c = false)
    (r : Text) : lines (text ++ .char '\n' :: r) = text :: lines r := by
  have hbreak : physicalLines (.char '\n' :: r) = ⟨[], ['\n']⟩ :: physicalLines r :=
    physicalLines_cons_of_isLineBreak rfl fun h => absurd h (by decide)
  rw [← map_text_physicalLines, physicalLines_append hplain hbreak, List.map_cons,
    map_text_physicalLines, List.append_nil]

/-- Lines with line feeds between them are the lines of the text if there is something in each. -/
theorem lines_intercalate_newline {ls : List Text}
    (h : ∀ l ∈ ls, l ≠ [] ∧ ∀ c ∈ l, isLineBreak c = false) :
    lines ([.char '\n'].intercalate ls) = ls := by
  induction ls with
  | nil => rfl
  | cons l ls ih =>
    obtain ⟨⟨hne, hl⟩, hls⟩ := List.forall_mem_cons.1 h
    cases ls with
    | nil =>
      rw [List.intercalate_singleton, ← map_text_physicalLines, physicalLines_of_plain hne hl]
      rfl
    | cons m ms =>
      rw [List.intercalate_cons_cons, List.append_assoc, List.singleton_append,
        lines_append_newline hl, ih hls]

end Mips32.Text
