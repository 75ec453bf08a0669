import Mips32.Text.CodeRange
import Mips32.Text.PrintTable
import Mips32.Numeral.Digits

/-!
# Quoted text

Messages show foreign text between quotes on one line. The quote is the single one, unless the text
holds a single quote and no double one. The backslash, the quote in use and every code point that
does not print are written as escapes, among them all surrogates; an escape of a code point is as
long as the code point needs: two, four or eight hexadecimal digits.
-/

namespace Mips32

namespace Text

/-- Whether a character is written as itself between quotes. -/
def isPrintable (c : CodePoint) : Bool :=
  !inRanges unprintable c

/-- The quote that stands around `s`. -/
def quoteFor (s : Text) : CodePoint :=
  if s.contains '\'' && !s.contains '"' then '"' else '\''

/-- One character between quotes `q`. -/
def escapeChar (q c : CodePoint) : Text :=
  if c = q ∨ c = '\\' then ['\\', c]
  else if c = '\t' then ['\\', 't']
  else if c = '\n' then ['\\', 'n']
  else if c = '\r' then ['\\', 'r']
  else if isPrintable c then [c]
  else if c.toNat < 0x100 then .char '\\' :: .char 'x' :: Numeral.lowDigits 16 2 c.toNat
  else if c.toNat < 0x10000 then .char '\\' :: .char 'u' :: Numeral.lowDigits 16 4 c.toNat
  else .char '\\' :: .char 'U' :: Numeral.lowDigits 16 8 c.toNat

/-- The text between quotes, with escapes. -/
def quoted (s : Text) : Text :=
  let q := quoteFor s
  q :: s.flatMap (escapeChar q) ++ [q]

end Text

end Mips32
