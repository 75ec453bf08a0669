import Mips32.Text.CodeRange
import Mips32.Text.CaseTable

/-!
# Lower case

Lower-casing is that of Unicode with its two exceptions to "one character for one character": a
capital sigma that ends a word becomes the final form, and the dotted capital I becomes two
characters. Below 128 it is the ASCII map, and that branch stands first, so that a proof about ASCII
text never looks into the table.
-/

namespace Mips32.Text

/-- Whether the nearest character of `context` that is not passed over is a cased letter. -/
def meetsLetter (context : List CodePoint) : Bool :=
  (context.dropWhile (inRanges caseIgnorable)).head?.any (inRanges cased)

/-- The lower case of `c` between the reversed text `before` it and the text `after` it. -/
def lowerChar (before : List CodePoint) (c : CodePoint) (after : Text) : Text :=
  if c.toNat < 128 then [c.toLower]
  else if c = 'Σ' then [if meetsLetter before && !meetsLetter after then 'ς' else 'σ']
  else if c = 'İ' then ['i', '\u0307']
  else
    match caseShifts.find? fun s =>
        s.first ≤ c.toNat && c.toNat ≤ s.last && (c.toNat - s.first) % s.step == 0 with
    | some s => [.ofNat (c.toNat + s.shift).toNat]
    | none => [c]

/-- Lower-cases a text that stands behind the reversed text `before`. -/
def lowerAfter (before : List CodePoint) : Text → Text
  | [] => []
  | c :: r => lowerChar before c r ++ lowerAfter (c :: before) r

/-- The lower case of a text. -/
def lower (s : Text) : Text :=
  lowerAfter [] s

/-- On ASCII text lower-casing works character by character. -/
theorem lowerAfter_of_ascii (before : List CodePoint) {s : Text} (h : ∀ c ∈ s, c.toNat < 128) :
    lowerAfter before s = s.map CodePoint.toLower := by
  induction s generalizing before with
  | nil => rfl
  | cons c r ih =>
    have hc : c.toNat < 128 := h c (List.mem_cons_self ..)
    have hr := ih (c :: before) fun d hd => h d (List.mem_cons_of_mem _ hd)
    simp [lowerAfter, lowerChar, hc, hr]

/-- On ASCII text lower-casing works character by character. -/
theorem lower_of_ascii {s : Text} (h : ∀ c ∈ s, c.toNat < 128) :
    lower s = s.map CodePoint.toLower :=
  lowerAfter_of_ascii [] h

end Mips32.Text
