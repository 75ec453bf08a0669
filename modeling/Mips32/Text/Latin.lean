import Mips32.Text.Basic

/-!
# Latin letters and their other forms

The forms that some characters have in the Latin letters from A to Z. To capitalise a text is to
write the capitals of each character, to fold it is to write the small letters that stand for it
where letter case does not count. A ligature has a form of several letters. Characters without such
a form stay as they are, so the two functions tell whether a text is a word of Latin letters but for
its letter case, and say nothing about the letter case of other scripts.
-/

namespace Mips32.Text

/-- Two or three Latin letters that are written as one character, in small letters. -/
def ligature? (c : CodePoint) : Option Text :=
  match c with
  | '\ufb00' => some "ff".text
  | '\ufb01' => some "fi".text
  | '\ufb02' => some "fl".text
  | '\ufb03' => some "ffi".text
  | '\ufb04' => some "ffl".text
  | '\ufb05' => some "st".text
  | '\ufb06' => some "st".text
  | '\u00df' => some "ss".text
  | _ => none

/-- The capitals of a character. -/
def capitals (c : CodePoint) : Text :=
  match ligature? c with
  | some letters => letters.map CodePoint.toUpper
  | none =>
    if c = '\u0131' then ['I']
    else if c = '\u017f' then ['S']
    else [c.toUpper]

/-- The small letters that a character stands for where letter case does not count. -/
def foldChar (c : CodePoint) : Text :=
  match ligature? c with
  | some letters => letters
  | none =>
    if c = '\u1e9e' then ['s', 's']
    else if c = '\u017f' then ['s']
    else if c = '\u212a' then ['k']
    else [c.toLower]

/-- The character below 128 that a blank or a character of full width is a form of. -/
def plain (c : CodePoint) : CodePoint :=
  let n := c.toNat
  if 0xFF01 ≤ n && n ≤ 0xFF5E then .ofNat (n - 0xFEE0)
  else if (0x2000 ≤ n && n ≤ 0x200A) || [0xA0, 0x202F, 0x205F, 0x3000].contains n then ' '
  else c

/-- A text in capitals. -/
def capitalised (s : Text) : Text :=
  s.flatMap capitals

/-- A text with letter case taken off. -/
def folded (s : Text) : Text :=
  s.flatMap foldChar

end Mips32.Text
