import Mips32.Text.CodePoint

/-!
# Text as a list of code points

All of the library reads and writes `Text`, a list of code points, so that a law about text is an
induction on a list. Here are the blanks, trimming, and the maximal runs between separators.

`runs` is the one splitter of the library: a line is split into words at blanks, and a statement
into tokens at blanks and commas. Neither ever yields an empty piece.
-/

namespace Mips32

/-- A text is its code points in order. -/
abbrev Text := List CodePoint

namespace Text

/-- The white space of Unicode, with the four information separators counted in: 29 characters. -/
def isBlank (c : CodePoint) : Bool :=
  let n := c.toNat
  (9 ≤ n && n ≤ 13) || (28 ≤ n && n ≤ 32) || n == 0x85 || n == 0xA0 || n == 0x1680 ||
    (0x2000 ≤ n && n ≤ 0x200A) || n == 0x2028 || n == 0x2029 || n == 0x202F || n == 0x205F ||
    n == 0x3000

/-- The blanks below 128 that a memory operand may hold between its parentheses. -/
def isNarrowBlank (c : CodePoint) : Bool :=
  (9 ≤ c.toNat && c.toNat ≤ 13) || c == ' '

/-- Drops the blanks in front. -/
def trimStart (s : Text) : Text :=
  s.dropWhile isBlank

/-- Drops the blanks behind: a character stays if it is no blank or if one that stays follows. -/
def trimEnd : Text → Text
  | [] => []
  | c :: r =>
    match trimEnd r with
    | [] => if isBlank c then [] else [c]
    | d :: kept => c :: d :: kept

/-- Drops the blanks at both ends. -/
def trim (s : Text) : Text :=
  trimEnd (trimStart s)

/-- The maximal non-empty stretches of `s` that are free of separators, in order. -/
def runs (sep : CodePoint → Bool) : Text → List Text
  | [] => []
  | c :: r =>
    if sep c then runs sep r
    else if r.head?.all sep then [c] :: runs sep r
    else (runs sep r).modifyHead (c :: ·)

/-- The words of a text are its runs between blanks. -/
def words (s : Text) : List Text :=
  runs isBlank s

/-- Whether `p` begins `s`; the rest of `s` behind it. -/
def dropPrefix? : (p s : Text) → Option Text
  | [], s => some s
  | _ :: _, [] => none
  | a :: p, b :: s => if a = b then dropPrefix? p s else none

/-- What stands before the last of some characters and what stands behind it; all of a text without
one stands behind. -/
def splitLast (c : CodePoint) (s : Text) : Text × Text :=
  ((s.reverse.dropWhile (· != c)).tail.reverse, (s.reverse.takeWhile (· != c)).reverse)

/-- The text without `p` at its end. -/
def dropEnding (p s : Text) : Text :=
  if p.isSuffixOf s then s.take (s.length - p.length) else s

/-- The text without one last line feed, if it ends in one. -/
def dropFinalNewline : Text → Text
  | [] => []
  | ['\n'] => []
  | c :: r => c :: dropFinalNewline r

/-- Whether all characters of a text have a property is found by going through the text. -/
instance decidableForallMem (s : Text) (p : CodePoint → Prop) [DecidablePred p] :
    Decidable (∀ c ∈ s, p c) :=
  List.decidableBAll p s

/-- Every run is non-empty. -/
theorem ne_nil_of_mem_runs {sep : CodePoint → Bool} {s t : Text} (h : t ∈ runs sep s) : t ≠ [] := by
  fun_induction runs sep s with
  | case1 => simp at h
  | case2 c r hc ih => exact ih h
  | case3 c r hc hr ih =>
    rcases List.mem_cons.1 h with rfl | h
    · simp
    · exact ih h
  | case4 c r hc hr ih =>
    cases hs : runs sep r with
    | nil => simp [hs] at h
    | cons u us =>
      rw [hs] at h ih
      rcases List.mem_cons.1 (by simpa using h) with rfl | h
      · simp
      · exact ih (List.mem_cons_of_mem _ h)

/-- No run holds a separator. -/
theorem not_sep_of_mem_runs {sep : CodePoint → Bool} {s t : Text} (h : t ∈ runs sep s) :
    ∀ c ∈ t, sep c = false := by
  fun_induction runs sep s generalizing t with
  | case1 => simp at h
  | case2 c r hc ih => exact ih h
  | case3 c r hc hr ih =>
    rcases List.mem_cons.1 h with rfl | h
    · simpa using hc
    · exact ih h
  | case4 c r hc hr ih =>
    cases hs : runs sep r with
    | nil => simp [hs] at h
    | cons u us =>
      rw [hs] at h ih
      rcases List.mem_cons.1 (by simpa using h) with rfl | h
      · intro d hd
        rcases List.mem_cons.1 hd with rfl | hd
        · simpa using hc
        · exact ih (List.mem_cons_self ..) d hd
      · exact ih (List.mem_cons_of_mem _ h)

/-- Trimming at the end leaves no blank there. -/
theorem not_isBlank_of_getLast?_trimEnd {s : Text} {c : CodePoint}
    (h : (trimEnd s).getLast? = some c) : isBlank c = false := by
  fun_induction trimEnd s with
  | case1 => simp at h
  | case2 c r hr hc ih => simp at h
  | case3 d r hr hd ih =>
    simp only [List.getLast?_singleton, Option.some.injEq] at h
    simpa [← h] using hd
  | case4 d r e kept hr ih =>
    rw [hr] at ih
    exact ih (by simpa using h)

end Text

end Mips32
