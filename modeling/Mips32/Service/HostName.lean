import Mips32.Text.Case
import Mips32.Text.DirectionTable
import Mips32.Text.Latin
import Mips32.Text.Punycode
import Mips32.Text.Quoted

/-!
# Host names

A host name is a row of labels with dots between them, each of 1 to 63 characters below 128; behind
the last dot there may be nothing. A label in other characters is prepared and written in Punycode
behind a mark. To prepare it is to leave out what cannot be seen and to take width and letter case
off; after that some characters may not stand in it, and letters written from right to left only if
the first and the last are such letters and none is written from left to right.

A name is shown to a reader with its marked labels decoded. Such a label has to be the one that what
it stands for is encoded as.
-/

namespace Mips32.Service.HostName

/-- Why a text is no host name. -/
inductive Error where
  /-- A label is empty or too long. -/
  | labelLength
  /-- The last label of a name below 128 is too long. -/
  | lastLabelLength
  /-- A label in other characters begins with the mark. -/
  | marked
  /-- A character may not stand in a label. -/
  | character (c : CodePoint)
  /-- A label has letters of both directions. -/
  | mixedDirections
  /-- A label with letters written from right to left begins or ends with something else. -/
  | openDirection
  deriving DecidableEq, Repr

/-- Why a marked label cannot be shown. -/
inductive ShowError where
  /-- What follows the mark is no Punycode. -/
  | punycode (error : Text.Punycode.Error)
  /-- The label stands for what is no label. -/
  | label (error : Error)
  /-- The label stands for what is encoded in another way. -/
  | otherwise (given encoded : Text)
  deriving DecidableEq, Repr

/-! ## Messages -/

/-- What is wrong with a label. -/
def Error.reason : Error → Text
  | .labelLength => "label empty or too long".text
  | .lastLabelLength => "label too long".text
  | .marked => "Label starts with ACE prefix".text
  | .character c => "Invalid character ".text ++ Text.quoted [c]
  | .mixedDirections => "Violation of BIDI requirement 2".text
  | .openDirection => "Violation of BIDI requirement 3".text

/-- The message that a step in a format failed for a reason. -/
def failed (step format : String) (reason : Text) : Text :=
  step.text ++ " with '".text ++ format.text ++ "' codec failed (UnicodeError: ".text ++
    reason ++ [.char ')']

/-- What is said of a text that is no host name. -/
def Error.message (e : Error) : Text :=
  failed "encoding" "idna" e.reason

/-- What is said of a host name that cannot be shown. -/
def ShowError.message : ShowError → Text
  | .punycode e => failed "decoding" "idna" (failed "decoding" "punycode" e.message)
  | .label e => failed "decoding" "idna" e.reason
  | .otherwise given encoded =>
    "('IDNA does not round-trip', b".text ++ Text.quoted given ++ ", b".text ++
      Text.quoted encoded ++ [.char ')']

/-! ## Labels -/

/-- The characters that a label is prepared without. -/
def invisible : List (Nat × Nat) :=
  [(0xAD, 0xAD), (0x34F, 0x34F), (0x1806, 0x1806), (0x180B, 0x180D), (0x200B, 0x200D),
   (0x2060, 0x2060), (0xFE00, 0xFE0F), (0xFEFF, 0xFEFF)]

/-- The characters from 128 on that may not stand in a label. -/
def forbidden : List (Nat × Nat) :=
  [(0x80, 0x9F), (0x6DD, 0x6DD), (0x70F, 0x70F), (0x1680, 0x1680), (0x180E, 0x180E),
   (0x200E, 0x200F), (0x2028, 0x202E), (0x2061, 0x2063), (0x206A, 0x206F), (0x2FF0, 0x2FFB),
   (0xD800, 0xF8FF), (0xFDD0, 0xFDEF), (0xFFF9, 0xFFFF), (0x1D173, 0x1D17A),
   (0x1FFFE, 0x1FFFF), (0x2FFFE, 0x2FFFF), (0x3FFFE, 0x3FFFF), (0x4FFFE, 0x4FFFF),
   (0x5FFFE, 0x5FFFF), (0x6FFFE, 0x6FFFF), (0x7FFFE, 0x7FFFF), (0x8FFFE, 0x8FFFF),
   (0x9FFFE, 0x9FFFF), (0xAFFFE, 0xAFFFF), (0xBFFFE, 0xBFFFF), (0xCFFFE, 0xCFFFF),
   (0xDFFFE, 0xDFFFF), (0xE0001, 0xE0001), (0xE0020, 0xE007F), (0xEFFFE, 0x10FFFF)]

/-- Whether all of a text is below 128. -/
def isAscii (s : Text) : Bool :=
  s.all (·.toNat < 128)

/-- Whether a label has a proper length. -/
def isLabel (s : Text) : Bool :=
  !s.isEmpty && s.length < 64

/-- Accepts a label of a proper length. -/
def checkLabel (s : Text) : Except Error Text :=
  if isLabel s then .ok s else .error .labelLength

/-- The mark of a label in Punycode. -/
def mark : Text :=
  "xn--".text

/-- The Greek letters that are prepared as others: those that end a word and those that are symbols.
-/
def variants : List (CodePoint × CodePoint) :=
  [('µ', 'μ'), ('\u0345', 'ι'), ('ς', 'σ'), ('ϐ', 'β'), ('ϑ', 'θ'), ('ϒ', 'υ'), ('ϕ', 'φ'),
   ('ϖ', 'π'), ('ϰ', 'κ'), ('ϱ', 'ρ'), ('ϲ', 'σ'), ('ϵ', 'ε'), ('\u1fbe', 'ι')]

/-- The characters that are prepared as the separators they look like. -/
def lookalikes : List (CodePoint × String) :=
  [('\u2047', "??"), ('\u2048', "?!"), ('\u2049', "!?"), ('\u2100', "a/c"), ('\u2101', "a/s"),
   ('\u2105', "c/o"), ('\u2106', "c/u"), ('\u2a74', "::="), ('\ufe55', ":"), ('\ufe56', "?"),
   ('\ufe5f', "#"), ('\ufe6b', "@")]

/-- A visible character as it is prepared. -/
def prepareChar (c : CodePoint) : Text :=
  match lookalikes.lookup c with
  | some s => s.text
  | none =>
    Text.folded ((Text.lowerChar [] (Text.plain c) []).map fun l => (variants.lookup l).getD l)

/-- A label as it is prepared. -/
def prepare (label : Text) : Text :=
  (label.filter fun c => !Text.inRanges invisible c).flatMap prepareChar

/-- Accepts a prepared label by its characters. -/
def checkCharacters (label : Text) : Except Error Unit :=
  let isRight (c : CodePoint) : Bool := Text.inRanges Text.rightToLeft c
  match label.find? (Text.inRanges forbidden) with
  | some c => .error (.character c)
  | none =>
    if !label.any isRight then .ok ()
    else if label.any (Text.inRanges Text.leftToRight) then .error .mixedDirections
    else if label.head?.all isRight && label.getLast?.all isRight then .ok ()
    else .error .openDirection

/-- A label in characters below 128. -/
def encodeLabel (label : Text) : Except Error Text :=
  if isAscii label then checkLabel label
  else do
    let prepared := prepare label
    checkCharacters prepared
    if isAscii prepared then checkLabel prepared
    else if mark.isPrefixOf prepared then throw .marked
    else checkLabel (mark ++ Text.Punycode.encode prepared)

/-- A label below 128 as it is shown to a reader. -/
def decodeLabel (label : Text) : Except ShowError Text :=
  match Text.dropPrefix? mark label with
  | none => .ok label
  | some marked => do
    let shown ← (Text.Punycode.decode marked).mapError .punycode
    let encoded ← (encodeLabel shown).mapError .label
    if Text.lower label = encoded then return shown else throw (.otherwise label encoded)

/-! ## Names -/

/-- Whether a character stands between two labels. -/
def isDot (c : CodePoint) : Bool :=
  c == '.' || c == '\u3002' || c == '\uff0e' || c == '\uff61'

/-- The labels of a name, with an empty one wherever dots follow each other or stand at an end. -/
def labels : Text → List Text
  | [] => [[]]
  | c :: r => if isDot c then [] :: labels r else (labels r).modifyHead (c :: ·)

/-- A host name in characters below 128. A name that has no others stays as it is. -/
def encode (name : Text) : Except Error Text :=
  let all := labels name
  let final := all.getLast?.getD []
  if name = [] then .ok []
  else if isAscii name then
    if !all.dropLast.all isLabel then .error .labelLength
    else if final.length < 64 then .ok name
    else .error .lastLabelLength
  else
    let named := if final = [] then all.dropLast else all
    (named.mapM encodeLabel).map fun encoded =>
      [.char '.'].intercalate encoded ++ if final = [] then [.char '.'] else []

/-- A host name below 128 as it is shown to a reader. -/
def decode (name : Text) : Except ShowError Text :=
  ((labels name).mapM decodeLabel).map [.char '.'].intercalate

end Mips32.Service.HostName
