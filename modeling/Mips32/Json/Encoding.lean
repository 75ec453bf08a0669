import Mips32.Json.Reader
import Mips32.Text.Utf8

/-!
# JSON as octets

A JSON text begins with characters below 128, so the first octets tell the encoding it comes in:
either a byte order mark stands there, or the places of the zero octets give the width of a unit and
which end of it comes first. Without mark and zeros the encoding is UTF-8.
The wide encodings may hold surrogates on their own.
-/

namespace Mips32.Json

/-- An encoding; of the wide ones it is told whether the high end of a unit comes first. -/
inductive Encoding where
  | utf8
  | utf16 (highFirst : Bool)
  | utf32 (highFirst : Bool)
  deriving DecidableEq, Repr

namespace Encoding

/-- The byte order marks, each in front of those that begin it. -/
def marks : List (List UInt8 × Encoding) :=
  [([0x00, 0x00, 0xFE, 0xFF], .utf32 true), ([0xFF, 0xFE, 0x00, 0x00], .utf32 false),
   ([0xFE, 0xFF], .utf16 true), ([0xFF, 0xFE], .utf16 false), ([0xEF, 0xBB, 0xBF], .utf8)]

/-- The encoding of octets that begin with no mark. -/
def ofZeros : List UInt8 → Encoding
  | [a, b] => if a = 0 then .utf16 true else if b = 0 then .utf16 false else .utf8
  | a :: b :: c :: d :: _ =>
    if a = 0 then (if b = 0 then .utf32 true else .utf16 true)
    else if b = 0 then (if c = 0 ∧ d = 0 then .utf32 false else .utf16 false)
    else .utf8
  | _ => .utf8

/-- The encoding of some octets, and the octets behind its mark. -/
def detect (bytes : List UInt8) : Encoding × List UInt8 :=
  match marks.find? fun m => m.1.isPrefixOf bytes with
  | some (mark, encoding) => (encoding, bytes.drop mark.length)
  | none => (ofZeros bytes, bytes)

/-- The units of two octets. -/
def units16 (highFirst : Bool) : List UInt8 → Option (List Nat)
  | [] => some []
  | [_] => none
  | a :: b :: r =>
    let unit := if highFirst then a.toNat * 256 + b.toNat else b.toNat * 256 + a.toNat
    (units16 highFirst r).map (unit :: ·)

/-- The code points in four octets each. -/
def codePoints32 (highFirst : Bool) : List UInt8 → Option Text
  | [] => some []
  | a :: b :: c :: d :: r =>
    let digits := if highFirst then [a, b, c, d] else [d, c, b, a]
    let number := digits.foldl (fun n (x : UInt8) => n * 256 + x.toNat) 0
    if number < 0x110000 then (codePoints32 highFirst r).map (.ofNat number :: ·) else none
  | _ => none

/-- The text that octets spell in an encoding. -/
def decode? (bytes : List UInt8) : Encoding → Option Text
  | .utf8 => (Text.Utf8.decode bytes).toOption
  | .utf16 highFirst => (units16 highFirst bytes).map CodePoint.ofUnits
  | .utf32 highFirst => codePoints32 highFirst bytes

end Encoding

/-- Reads the value that octets spell from end to end. -/
def readOctets (depth : Nat) (bytes : List UInt8) : Except ReadError Json :=
  let (encoding, text) := Encoding.detect bytes
  match encoding.decode? text with
  | some s => Json.read depth s
  | none => .error .malformed

end Mips32.Json
