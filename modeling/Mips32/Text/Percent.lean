import Mips32.Text.Utf8

/-!
# Percent encoding

In a path a percent sign and two hexadecimal digits spell an octet, and the octets spell the path. A
percent sign without two digits behind it stands for itself.
-/

namespace Mips32.Text.Percent

/-- A text in which only some characters stand for themselves and all others for their octets. -/
def encode (isKept : CodePoint → Bool) (s : Text) : Text :=
  s.flatMap fun c =>
    if isKept c then [c]
    else (Utf8.encodePoint c).flatMap fun b =>
      CodePoint.char '%' :: (Numeral.lowDigits 16 2 b.toNat).map CodePoint.toUpper

/-- The octets of a text, with each percent sign and two hexadecimal digits as the octet they spell.
-/
def octets : Text → List UInt8
  | [] => []
  | '%' :: a :: b :: r =>
    if Numeral.isDigit 16 a && Numeral.isDigit 16 b then
      (Numeral.ofDigits 16 [a, b]).toUInt8 :: octets r
    else Utf8.encodePoint '%' ++ octets (a :: b :: r)
  | c :: r => Utf8.encodePoint c ++ octets r

/-- The text that a text spells, with the replacement character where it spells none. -/
def decode (s : Text) : Text :=
  Utf8.decodeLossy (octets s)

end Mips32.Text.Percent
