import Mips32.Text.Basic

/-!
# Physical lines

A physical line ends at a line break: one of ten characters, or a carriage return with the line
feed behind it, which count as one. The break belongs to no line, and a break at the very end of a
text starts no further line.

`unifyNewlines` is what reading a file as text does to it: the two newline forms that begin with a
carriage return become a single line feed. It changes no line of the result.
-/

namespace Mips32.Text

/-- The ten characters at which a line ends. -/
def isLineBreak (c : CodePoint) : Bool :=
  let n := c.toNat
  (10 ≤ n && n ≤ 13) || (0x1C ≤ n && n ≤ 0x1E) || n == 0x85 || n == 0x2028 || n == 0x2029

/-- The physical lines of a text, without their breaks. -/
def lines : Text → List Text
  | [] => []
  | '\r' :: '\n' :: r => [] :: lines r
  | c :: r =>
    if isLineBreak c then [] :: lines r
    else
      match lines r with
      | [] => [[c]]
      | l :: ls => (c :: l) :: ls

/-- Writes each carriage return, and each carriage return with the line feed behind it, as one
line feed. -/
def unifyNewlines : Text → Text
  | [] => []
  | '\r' :: '\n' :: r => .char '\n' :: unifyNewlines r
  | c :: r => (if c = '\r' then '\n' else c) :: unifyNewlines r

end Mips32.Text
