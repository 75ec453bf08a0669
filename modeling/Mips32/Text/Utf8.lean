import Mips32.Numeral.Digits

/-!
# UTF-8

Strict decoding of octets, and what is wrong when it fails. The decoder is a machine over the
octets: between characters it waits for a first octet, and inside a character it knows how many
continuation octets are owed and between which bounds the next one has to lie. The bounds of the
second octet exclude overlong forms, surrogates and what lies beyond the last code point.

A failure names the stretch of octets that were read of the broken character: up to the octet that
does not fit, or up to the end of the data. Lossy decoding goes on behind such a stretch instead,
with the replacement character in its place.

Strict encoding fails at surrogates, and names the stretch of them that it meets.
-/

namespace Mips32.Text.Utf8

/-- Why octets are no UTF-8. -/
inductive Reason where
  /-- No character starts with this octet. -/
  | invalidStart
  /-- The octet behind the stretch does not continue the character. -/
  | invalidContinuation
  /-- The data end inside a character. -/
  | unexpectedEnd
  deriving DecidableEq, Repr

/-- A decoding failure: the reason, the first octet of the broken character, and the half-open
stretch of positions it was read from. -/
structure Error where
  reason : Reason
  octet : UInt8
  start : Nat
  stop : Nat
  deriving DecidableEq, Repr

/-- A character that has begun: the octets still owed (one more than `owed`), the bounds of the next
one, the bits so far, and where and with which octet it began. -/
structure Pending where
  owed : Nat
  low : UInt8
  high : UInt8
  bits : Nat
  octet : UInt8
  start : Nat

/-- What the first octet of a longer character at position `pos` demands of the others. -/
def begin? (b : UInt8) (pos : Nat) : Option Pending :=
  if 0xC2 ≤ b ∧ b ≤ 0xDF then some ⟨0, 0x80, 0xBF, b.toNat % 32, b, pos⟩
  else if b = 0xE0 then some ⟨1, 0xA0, 0xBF, 0, b, pos⟩
  else if b = 0xED then some ⟨1, 0x80, 0x9F, 13, b, pos⟩
  else if 0xE1 ≤ b ∧ b ≤ 0xEF then some ⟨1, 0x80, 0xBF, b.toNat % 16, b, pos⟩
  else if b = 0xF0 then some ⟨2, 0x90, 0xBF, 0, b, pos⟩
  else if 0xF1 ≤ b ∧ b ≤ 0xF3 then some ⟨2, 0x80, 0xBF, b.toNat % 8, b, pos⟩
  else if b = 0xF4 then some ⟨2, 0x80, 0x8F, 4, b, pos⟩
  else none

/-- Decodes the octets from position `pos` on, inside the pending character or between two. -/
def decodeFrom (pos : Nat) : Option Pending → List UInt8 → Except Error Text
  | none, [] => .ok []
  | some p, [] => .error ⟨.unexpectedEnd, p.octet, p.start, pos⟩
  | none, b :: r =>
    if b < 0x80 then (decodeFrom (pos + 1) none r).map (.ofNat b.toNat :: ·)
    else
      match begin? b pos with
      | none => .error ⟨.invalidStart, b, pos, pos + 1⟩
      | some p => decodeFrom (pos + 1) (some p) r
  | some p, b :: r =>
    if p.low ≤ b ∧ b ≤ p.high then
      let bits := p.bits * 64 + b.toNat % 64
      match p.owed with
      | 0 => (decodeFrom (pos + 1) none r).map (.ofNat bits :: ·)
      | owed + 1 =>
        decodeFrom (pos + 1)
          (some { p with owed := owed, low := 0x80, high := 0xBF, bits := bits }) r
    else .error ⟨.invalidContinuation, p.octet, p.start, pos⟩

/-- The text that the octets spell. -/
def decode (bytes : List UInt8) : Except Error Text :=
  decodeFrom 0 none bytes

/-- Decodes the octets inside the pending character or between two, with the replacement character
for each stretch that is none. -/
def decodeLossyFrom (pending : Option Pending) (bytes : List UInt8) : Text :=
  match pending, bytes with
  | none, [] => []
  | some _, [] => ['\ufffd']
  | none, b :: r =>
    if b < 0x80 then .ofNat b.toNat :: decodeLossyFrom none r
    else
      match begin? b 0 with
      | none => .char '\ufffd' :: decodeLossyFrom none r
      | some p => decodeLossyFrom (some p) r
  | some p, b :: r =>
    if p.low ≤ b ∧ b ≤ p.high then
      let bits := p.bits * 64 + b.toNat % 64
      match p.owed with
      | 0 => .ofNat bits :: decodeLossyFrom none r
      | owed + 1 =>
        decodeLossyFrom (some { p with owed := owed, low := 0x80, high := 0xBF, bits := bits }) r
    else .char '\ufffd' :: decodeLossyFrom none (b :: r)
  termination_by 2 * bytes.length + if pending.isSome then 1 else 0
  decreasing_by all_goals simp <;> omega

/-- The text that the octets spell, with the replacement character where they spell none. -/
def decodeLossy (bytes : List UInt8) : Text :=
  decodeLossyFrom none bytes

/-- The octets of a code point. Those of a surrogate are formed like those of a character, but
decoding refuses them. -/
def encodePoint : CodePoint → List UInt8
  | .char c => String.utf8EncodeChar c
  | .surrogate offset =>
    [0xED, 0xA0 + (offset.val / 64).toUInt8, 0x80 + (offset.val % 64).toUInt8]

/-- The octets of a text. -/
def encode (s : Text) : List UInt8 :=
  s.flatMap encodePoint

def Reason.message : Reason → Text
  | .invalidStart => "invalid start byte".text
  | .invalidContinuation => "invalid continuation byte".text
  | .unexpectedEnd => "unexpected end of data".text

/-- A stretch of one octet is shown by the octet, a longer one by its first and last position. -/
def Error.message (e : Error) : Text :=
  if e.stop = e.start + 1 then
    "'utf-8' codec can't decode byte 0x".text ++ Numeral.lowDigits 16 2 e.octet.toNat ++
      " in position ".text ++ Numeral.decimal e.start ++ ": ".text ++ e.reason.message
  else
    "'utf-8' codec can't decode bytes in position ".text ++ Numeral.decimal e.start ++
      "-".text ++ Numeral.decimal (e.stop - 1) ++ ": ".text ++ e.reason.message

/-! ## Failures of encoding -/

/-- An encoding failure: the code point that is met first of a half-open stretch of positions. -/
structure EncodeError where
  first : CodePoint
  start : Nat
  stop : Nat
  deriving DecidableEq, Repr

/-- The failure at the first code point of a text that an encoding refuses, if there is one. The
stretch goes on over all surrogates that follow. -/
def EncodeError.find? (refused : CodePoint → Bool) (s : Text) : Option EncodeError :=
  let start := (s.takeWhile (!refused ·)).length
  match s.dropWhile (!refused ·) with
  | [] => none
  | c :: r => some ⟨c, start, start + 1 + (r.takeWhile CodePoint.isSurrogate).length⟩

/-- A stretch of one code point is shown by it, a longer one by its first and last position. -/
def EncodeError.message (e : EncodeError) : Text :=
  if e.stop = e.start + 1 then
    "'utf-8' codec can't encode character '\\u".text ++ Numeral.lowDigits 16 4 e.first.toNat ++
      "' in position ".text ++ Numeral.decimal e.start ++ ": surrogates not allowed".text
  else
    "'utf-8' codec can't encode characters in position ".text ++ Numeral.decimal e.start ++
      "-".text ++ Numeral.decimal (e.stop - 1) ++ ": surrogates not allowed".text

end Mips32.Text.Utf8
