import Mips32.Text.Lines

/-!
# Programs

A program is a list of numbered lines. It comes from source text, whose significant lines keep their
physical numbers, or from lines that are given with numbers or are counted from one.
-/

namespace Mips32

/-- A line of a program with the number it is reported under. -/
structure SourceLine where
  number : Int
  text : Text
  deriving DecidableEq, Repr

/-- A program is its lines. -/
abbrev Program := List SourceLine

namespace Program

/-- Lines counted from one. -/
def counted (lines : List Text) : Program :=
  (lines.zipIdx 1).map fun (text, n) => ⟨n, text⟩

/-- Lines with numbers of their own. A line without a number is left out, and so is a number without
a line; with no list of numbers the lines are counted from one. -/
def ofLines (lines : List Text) : Option (List Int) → Program
  | none => counted lines
  | some numbers => List.zipWith SourceLine.mk numbers lines

/-- What is left of a physical line without its comment and the blanks around it. -/
def significant (line : Text) : Text :=
  Text.trim (line.takeWhile (· != .char '#'))

/-- The significant lines of a source text under their physical numbers. Lines of which nothing is
left are dropped. -/
def ofText (source : Text) : Program :=
  ((counted (Text.lines source)).map fun l => ⟨l.number, significant l.text⟩).filter
    fun l => !l.text.isEmpty

end Program

end Mips32
