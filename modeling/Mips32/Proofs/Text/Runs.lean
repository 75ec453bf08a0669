import Mips32.Text.Basic

/-!
# Runs of a text that is put together

How trimming and cutting into runs act on a text made of pieces: blanks at the ends do not count, a
run in front of a separator is a run of its own, and a stretch without separators joins the run
behind it. So the tokens of a line can be told from the pieces it is written with, and no proof
about a line goes through its characters.

* `exists_eq_trim`: trimming takes blanks off both ends and nothing else.
* `trim_append_left`, `trim_append_right`: blanks at either end are trimmed away.
* `runs_trim`: a trimmed text has the same runs.
* `runs_append_of_run`: a run, and behind it a separator or the end.
* `runs_append_gap`: a run, separators behind it, and what stands behind these.
* `runs_append_of_not_sep`: a stretch without separators in front of a run.
* `runs_intercalate`: runs with separators between them.

`Cut` tells the runs of a text without cutting it, and `cut_iff` that there is one way to do so.
-/

namespace Mips32.Text

/-! ## Trimming -/

/-- No blank is among the printable characters of ASCII. -/
theorem not_isBlank_of_toNat {c : CodePoint} (hlow : 33 ≤ c.toNat) (hhigh : c.toNat ≤ 126) :
    isBlank c = false := by
  rw [Bool.eq_false_iff]
  simp only [isBlank, ne_eq, Bool.or_eq_true, Bool.and_eq_true, decide_eq_true_eq, beq_iff_eq]
  omega

theorem exists_eq_trimEnd (s : Text) :
    ∃ back, s = trimEnd s ++ back ∧ ∀ c ∈ back, isBlank c = true := by
  fun_induction trimEnd s with
  | case1 => exact ⟨[], rfl, by simp⟩
  | case2 c r hr hc ih =>
    obtain ⟨back, hback, hblank⟩ := ih
    refine ⟨c :: back, ?_, List.forall_mem_cons.2 ⟨hc, hblank⟩⟩
    rw [hback, hr]
    rfl
  | case3 c r hr hc ih =>
    obtain ⟨back, hback, hblank⟩ := ih
    refine ⟨back, ?_, hblank⟩
    rw [hback, hr]
    rfl
  | case4 c r d kept hr ih =>
    obtain ⟨back, hback, hblank⟩ := ih
    refine ⟨back, ?_, hblank⟩
    rw [hback, hr]
    rfl

/-- If something is left of what stands behind, trimming takes nothing off what stands in front. -/
theorem trimEnd_append {s : Text} (h : trimEnd s ≠ []) (front : Text) :
    trimEnd (front ++ s) = front ++ trimEnd s := by
  induction front with
  | nil => rfl
  | cons c front ih =>
    rw [List.cons_append, trimEnd, ih]
    cases hkept : front ++ trimEnd s with
    | nil => exact absurd (List.append_eq_nil_iff.1 hkept).2 h
    | cons d kept => simp [hkept]

/-- Trimming takes blanks off both ends and nothing else. -/
theorem exists_eq_trim (s : Text) :
    ∃ front back, s = front ++ trim s ++ back ∧
      (∀ c ∈ front, isBlank c = true) ∧ ∀ c ∈ back, isBlank c = true := by
  obtain ⟨back, hback, hblank⟩ := exists_eq_trimEnd (trimStart s)
  refine ⟨s.takeWhile isBlank, back, ?_,
    fun c hc => List.all_eq_true.1 List.all_takeWhile c hc, hblank⟩
  have hs : s = s.takeWhile isBlank ++ trimStart s := List.takeWhile_append_dropWhile.symm
  rw [List.append_assoc, trim, ← hback]
  exact hs

/-- Something is left of a text in which something is no blank. -/
theorem trim_ne_nil {s : Text} {c : CodePoint} (hc : c ∈ s) (h : isBlank c = false) :
    trim s ≠ [] := by
  obtain ⟨front, back, hs, hfront, hback⟩ := exists_eq_trim s
  intro hnil
  rw [hnil, List.append_nil] at hs
  rcases List.mem_append.1 (hs ▸ hc) with hc | hc
  · simp [hfront c hc] at h
  · simp [hback c hc] at h

theorem trim_isInfix (s : Text) : trim s <:+: s := by
  obtain ⟨front, back, hs, -, -⟩ := exists_eq_trim s
  exact ⟨front, back, hs.symm⟩

theorem trimEnd_eq_self {s : Text} (h : ∀ c, s.getLast? = some c → isBlank c = false) :
    trimEnd s = s := by
  obtain ⟨back, hback, hblank⟩ := exists_eq_trimEnd s
  -- A last character that was taken off would be a blank.
  cases hlast : back.getLast? with
  | none =>
    rw [List.getLast?_eq_none_iff] at hlast
    rw [hlast, List.append_nil] at hback
    exact hback.symm
  | some c =>
    have hc : s.getLast? = some c := by rw [hback, List.getLast?_append, hlast, Option.some_or]
    have := h c hc
    simp [hblank c (List.mem_of_getLast? hlast)] at this

theorem trimStart_eq_self {s : Text} (h : ∀ c, s.head? = some c → isBlank c = false) :
    trimStart s = s := by
  cases s with
  | nil => rfl
  | cons c r => exact List.dropWhile_cons_of_neg (by simp [h c rfl])

/-- A text with no blank at either end stays what it is. -/
theorem trim_eq_self {s : Text} (hhead : ∀ c, s.head? = some c → isBlank c = false)
    (hlast : ∀ c, s.getLast? = some c → isBlank c = false) : trim s = s := by
  rw [trim, trimStart_eq_self hhead, trimEnd_eq_self hlast]

/-- Both ends can be trimmed in either order. -/
theorem trimStart_trimEnd (s : Text) : trimStart (trimEnd s) = trim s := by
  induction s with
  | nil => rfl
  | cons c r ih =>
    by_cases hc : isBlank c = true
    · -- A blank in front is gone at once, or with all the rest.
      have hstart : trimStart (c :: r) = trimStart r := List.dropWhile_cons_of_pos hc
      rw [trim, hstart, ← trim, ← ih, trimEnd]
      cases trimEnd r with
      | nil => simp [hc]
      | cons d kept => exact List.dropWhile_cons_of_pos hc
    · have hstart : ∀ s, trimStart (c :: s) = c :: s := fun s => List.dropWhile_cons_of_neg hc
      rw [trim, hstart, trimEnd]
      cases trimEnd r with
      | nil => simp [hc, hstart]
      | cons d kept => exact hstart _

/-- Trimming leaves no blank in front. -/
theorem not_isBlank_of_head?_trim {s : Text} {c : CodePoint} (h : (trim s).head? = some c) :
    isBlank c = false := by
  -- What is kept at the end begins as the text without the blanks in front.
  obtain ⟨back, hback, -⟩ := exists_eq_trimEnd (trimStart s)
  have hhead : (trimStart s).head? = some c := by rw [hback, List.head?_append, ← trim, h]; rfl
  have hnot := List.head?_dropWhile_not isBlank s
  rw [← trimStart, hhead] at hnot
  simpa using hnot

theorem trim_trim (s : Text) : trim (trim s) = trim s :=
  trim_eq_self (fun _ => not_isBlank_of_head?_trim) fun _ => not_isBlank_of_getLast?_trimEnd

/-- No stretch at the end of a trimmed text ends in a blank. -/
theorem not_isBlank_of_trim_eq_append {s front rest : Text} (h : trim s = front ++ rest)
    {c : CodePoint}
    (hc : rest.getLast? = some c) : isBlank c = false := by
  refine not_isBlank_of_getLast?_trimEnd (s := trimStart s) ?_
  rw [← trim, h, List.getLast?_append, hc, Option.some_or]

/-- Blanks in front of a text are trimmed away. -/
theorem trim_append_left {front : Text} (h : ∀ c ∈ front, isBlank c = true) (s : Text) :
    trim (front ++ s) = trim s := by
  rw [trim, trimStart, List.dropWhile_append_of_pos h]
  rfl

theorem trimEnd_append_right {back : Text} (h : ∀ c ∈ back, isBlank c = true) (s : Text) :
    trimEnd (s ++ back) = trimEnd s := by
  have hback : trimEnd back = [] := by
    cases hlast : (trimEnd back).getLast? with
    | none => exact List.getLast?_eq_none_iff.1 hlast
    | some c =>
      -- A last character that is kept would be no blank.
      obtain ⟨cut, hcut, -⟩ := exists_eq_trimEnd back
      have hblank := not_isBlank_of_getLast?_trimEnd hlast
      have hc : c ∈ back := hcut ▸ List.mem_append_left cut (List.mem_of_getLast? hlast)
      simp [h c hc] at hblank
  induction s with
  | nil => exact hback
  | cons c s ih => rw [List.cons_append, trimEnd, trimEnd, ih]

/-- Blanks behind a text are trimmed away. -/
theorem trim_append_right {back : Text} (h : ∀ c ∈ back, isBlank c = true) (s : Text) :
    trim (s ++ back) = trim s := by
  rw [trim, trim, trimStart, trimStart, List.dropWhile_append]
  split
  case isTrue hnil =>
    -- Nothing but blanks is left, so there is nothing left to trim.
    rw [List.isEmpty_iff.1 hnil, ← List.append_nil back, List.dropWhile_append_of_pos h]
    rfl
  case isFalse => exact trimEnd_append_right h _

/-- Trimming stops at what is no blank, on both sides. -/
theorem trim_append_append {core : Text} (hne : core ≠ [])
    (hhead : ∀ c, core.head? = some c → isBlank c = false)
    (hlast : ∀ c, core.getLast? = some c → isBlank c = false) (front back : Text) :
    trim (front ++ (core ++ back)) = trimStart front ++ (core ++ trimEnd back) := by
  have hstart : trimStart (front ++ (core ++ back)) = trimStart front ++ (core ++ back) := by
    have hcore : trimStart (core ++ back) = core ++ back := by
      refine trimStart_eq_self fun c hc => hhead c ?_
      cases core with
      | nil => exact absurd rfl hne
      | cons d core => exact hc
    rw [trimStart, List.dropWhile_append]
    split
    case isTrue hnil => rw [← trimStart, hcore, trimStart, List.isEmpty_iff.1 hnil, List.nil_append]
    case isFalse => rfl
  have hend : trimEnd (core ++ back) = core ++ trimEnd back := by
    by_cases hback : trimEnd back = []
    · obtain ⟨blanks, hblanks, hblank⟩ := exists_eq_trimEnd back
      rw [hback, List.nil_append] at hblanks
      rw [hback, hblanks, trimEnd_append_right hblank, trimEnd_eq_self hlast, List.append_nil]
    · exact trimEnd_append hback core
  rw [trim, hstart, trimEnd_append (by rw [hend]; simp [hne]), hend]

/-! ## Runs -/

variable {sep : CodePoint → Bool}

/-- Separators in front of a text do not count. -/
theorem runs_append_left {front : Text} (h : ∀ c ∈ front, sep c = true) (s : Text) :
    runs sep (front ++ s) = runs sep s := by
  induction front with
  | nil => rfl
  | cons c front ih =>
    obtain ⟨hc, hfront⟩ := List.forall_mem_cons.1 h
    rw [List.cons_append, runs, if_pos hc, ih hfront]

/-- A text has no runs exactly if it consists of separators. -/
theorem runs_eq_nil_iff {s : Text} : runs sep s = [] ↔ ∀ c ∈ s, sep c = true := by
  constructor
  · intro h
    fun_induction runs sep s with
    | case1 => simp
    | case2 c r hc ih => exact List.forall_mem_cons.2 ⟨hc, ih h⟩
    | case3 => cases h
    | case4 c r hc hr ih =>
      -- The rest begins with a character of a run, so it has a run for `c` to join.
      obtain ⟨d, r', rfl, hd⟩ : ∃ d r', r = d :: r' ∧ sep d = false := by
        cases r <;> simp_all
      have hnil : runs sep (d :: r') = [] := by simpa using h
      simp [ih hnil d (.head _)] at hd
  · intro h
    have := runs_append_left h []
    rwa [List.append_nil] at this

/-- A run, and behind it a separator or the end. -/
theorem runs_append_of_run {t : Text} (hne : t ≠ []) (h : ∀ c ∈ t, sep c = false) {rest : Text}
    (hrest : rest.head?.all sep = true) : runs sep (t ++ rest) = t :: runs sep rest := by
  induction t with
  | nil => exact absurd rfl hne
  | cons c t ih =>
    obtain ⟨hc, ht⟩ := List.forall_mem_cons.1 h
    cases t with
    | nil => simp [runs, hc, hrest]
    | cons d t =>
      have hd : sep d = false := ht d (.head _)
      rw [List.cons_append, runs, ih (by simp) ht]
      simp [hc, hd]

/-- A text that is one run. -/
theorem runs_of_run {t : Text} (hne : t ≠ []) (h : ∀ c ∈ t, sep c = false) :
    runs sep t = [t] := by
  have hend : ([] : Text).head?.all sep = true := rfl
  have := runs_append_of_run hne h hend
  rwa [List.append_nil] at this

/-- A run, separators behind it, and what stands behind these. -/
theorem runs_append_gap {t gap : Text} (hne : t ≠ []) (h : ∀ c ∈ t, sep c = false)
    (hgap : gap ≠ []) (hsep : ∀ c ∈ gap, sep c = true) (rest : Text) :
    runs sep (t ++ (gap ++ rest)) = t :: runs sep rest := by
  have hhead : (gap ++ rest).head?.all sep = true := by
    cases gap with
    | nil => exact absurd rfl hgap
    | cons c gap => exact hsep c (.head _)
  rw [runs_append_of_run hne h hhead, runs_append_left hsep]

/-- The first run of a text: it ends where a separator or the end is, and only separators stand in
front of it. -/
theorem exists_of_runs_eq_cons {s t : Text} {ts : List Text} (h : runs sep s = t :: ts) :
    ∃ front rest, s = front ++ (t ++ rest) ∧ (∀ c ∈ front, sep c = true) ∧
      rest.head?.all sep = true ∧ runs sep rest = ts := by
  fun_induction runs sep s generalizing t with
  | case1 => cases h
  | case2 c r hc ih =>
    obtain ⟨front, rest, rfl, hfront, hrest⟩ := ih h
    exact ⟨c :: front, rest, rfl, List.forall_mem_cons.2 ⟨hc, hfront⟩, hrest⟩
  | case3 c r hc hr ih =>
    cases h
    exact ⟨[], r, rfl, by simp, hr, rfl⟩
  | case4 c r hc hr ih =>
    obtain ⟨u, us, hu⟩ : ∃ u us, runs sep r = u :: us := by
      cases hrs : runs sep r with
      | nil => simp [hrs] at h
      | cons u us => exact ⟨u, us, rfl⟩
    rw [hu, List.modifyHead_cons] at h
    cases h
    obtain ⟨front, rest, rfl, hfront, hrest⟩ := ih hu
    -- The rest does not begin with a separator, so its first run begins it.
    cases front with
    | nil => exact ⟨[], rest, rfl, by simp, hrest⟩
    | cons d front => simp [hfront d (.head _)] at hr

/-- Every run is a stretch of the text. -/
theorem isInfix_of_mem_runs {s t : Text} (h : t ∈ runs sep s) : t <:+: s := by
  generalize hts : runs sep s = ts at h
  induction ts generalizing s with
  | nil => cases h
  | cons u us ih =>
    obtain ⟨front, rest, rfl, -, -, hrest⟩ := exists_of_runs_eq_cons hts
    rcases List.mem_cons.1 h with rfl | h
    · exact ⟨front, rest, by simp⟩
    · have hsuffix : rest <:+ front ++ (u ++ rest) := ⟨front ++ u, by simp⟩
      exact (ih hrest h).trans hsuffix.isInfix

/-- Separators behind a text do not count. -/
theorem runs_append_right {back : Text} (h : ∀ c ∈ back, sep c = true) (s : Text) :
    runs sep (s ++ back) = runs sep s := by
  generalize hts : runs sep s = ts
  induction ts generalizing s with
  | nil =>
    rw [runs_append_left (runs_eq_nil_iff.1 hts)]
    exact runs_eq_nil_iff.2 h
  | cons t ts ih =>
    have hne : t ≠ [] := ne_nil_of_mem_runs (hts ▸ List.mem_cons_self)
    have ht := not_sep_of_mem_runs (hts ▸ List.mem_cons_self : t ∈ runs sep s)
    obtain ⟨front, rest, rfl, hfront, hhead, hrest⟩ := exists_of_runs_eq_cons hts
    have hhead' : (rest ++ back).head?.all sep = true := by
      cases rest with
      | nil => cases back <;> simp_all
      | cons c rest => exact hhead
    rw [List.append_assoc, List.append_assoc, runs_append_left hfront,
      runs_append_of_run hne ht hhead', ih rest hrest]

/-- If blanks are separators, a trimmed text has the same runs. -/
theorem runs_trim (hblank : ∀ c, isBlank c = true → sep c = true) (s : Text) :
    runs sep (trim s) = runs sep s := by
  obtain ⟨front, back, hs, hfront, hback⟩ := exists_eq_trim s
  calc runs sep (trim s) = runs sep (front ++ trim s) :=
        (runs_append_left (fun c hc => hblank c (hfront c hc)) _).symm
    _ = runs sep (front ++ trim s ++ back) :=
        (runs_append_right (fun c hc => hblank c (hback c hc)) _).symm
    _ = runs sep s := by rw [← hs]

/-- If blanks are separators, blanks in front do not count. -/
theorem runs_trimStart (hblank : ∀ c, isBlank c = true → sep c = true) (s : Text) :
    runs sep (trimStart s) = runs sep s := by
  have hs : s.takeWhile isBlank ++ trimStart s = s := List.takeWhile_append_dropWhile
  have hfront : ∀ c ∈ s.takeWhile isBlank, sep c = true := fun c hc =>
    hblank c (List.all_eq_true.1 List.all_takeWhile c hc)
  rw [← runs_append_left hfront (trimStart s), hs]

/-- A stretch without separators in front of a run joins it. -/
theorem runs_append_of_not_sep {u : Text} (h : ∀ c ∈ u, sep c = false) {s : Text}
    (hs : s.head?.any (!sep ·) = true) :
    ∃ t ts, runs sep s = t :: ts ∧ runs sep (u ++ s) = (u ++ t) :: ts := by
  obtain ⟨c, r, rfl, hc⟩ : ∃ c r, s = c :: r ∧ sep c = false := by
    cases s <;> simp_all
  cases hts : runs sep (c :: r) with
  | nil => simp [runs_eq_nil_iff.1 hts c (.head _)] at hc
  | cons t ts =>
    have ht := not_sep_of_mem_runs (hts ▸ List.mem_cons_self : t ∈ runs sep (c :: r))
    have hne : t ≠ [] := ne_nil_of_mem_runs (hts ▸ List.mem_cons_self)
    obtain ⟨front, rest, hcr, hfront, hhead, hrest⟩ := exists_of_runs_eq_cons hts
    refine ⟨t, ts, rfl, ?_⟩
    cases front with
    | nil =>
      rw [hcr, List.nil_append, ← List.append_assoc,
        runs_append_of_run (by simp [hne]) (List.forall_mem_append.2 ⟨h, ht⟩) hhead, hrest]
    | cons d front =>
      obtain ⟨rfl, -⟩ := List.cons.inj hcr
      simp [hfront c (.head _)] at hc

/-- Runs that are put together with separators between them. -/
theorem runs_intercalate {glue : Text} (hne : glue ≠ []) (hglue : ∀ c ∈ glue, sep c = true)
    {ts : List Text} (h : ∀ t ∈ ts, t ≠ [] ∧ ∀ c ∈ t, sep c = false) :
    runs sep (List.intercalate glue ts) = ts := by
  induction ts with
  | nil => rfl
  | cons t ts ih =>
    obtain ⟨⟨htne, ht⟩, hts⟩ := List.forall_mem_cons.1 h
    cases ts with
    | nil => rw [List.intercalate_singleton, runs_of_run htne ht]
    | cons u us =>
      rw [List.intercalate_cons_cons, List.append_assoc, runs_append_gap htne ht hne hglue, ih hts]

/-- A text and the longest stretches without separators in it, in order. Only separators stand in
front of a stretch, it goes on up to the next separator or the end, and only separators stand behind
the last one. -/
inductive Cut (sep : CodePoint → Bool) : Text → List Text → Prop
  | nil {gap : Text} (hgap : ∀ c ∈ gap, sep c = true) : Cut sep gap []
  | cons {gap t rest : Text} {ts : List Text} (hgap : ∀ c ∈ gap, sep c = true) (hne : t ≠ [])
      (hfree : ∀ c ∈ t, sep c = false) (hend : rest.head?.all sep = true)
      (hrest : Cut sep rest ts) : Cut sep (gap ++ (t ++ rest)) (t :: ts)

/-- The runs are the longest stretches without separators, and nothing else is. -/
theorem cut_iff {s : Text} {ts : List Text} : Cut sep s ts ↔ runs sep s = ts := by
  constructor
  · intro h
    induction h with
    | nil hgap => exact runs_eq_nil_iff.2 hgap
    | cons hgap hne hfree hend _ ih =>
      rw [runs_append_left hgap, runs_append_of_run hne hfree hend, ih]
  · intro h
    induction ts generalizing s with
    | nil => exact .nil (runs_eq_nil_iff.1 h)
    | cons t ts ih =>
      have hmem : t ∈ runs sep s := h ▸ List.mem_cons_self
      obtain ⟨front, rest, rfl, hfront, hend, hrest⟩ := exists_of_runs_eq_cons h
      exact .cons hfront (ne_nil_of_mem_runs hmem) (not_sep_of_mem_runs hmem) hend (ih hrest)

end Mips32.Text
