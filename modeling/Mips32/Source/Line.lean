import Mips32.Text.Basic

/-!
# Lines of source text

A line is blank, a label alone, a directive, or an instruction; the last two may carry a label in
front. The classification looks at the trimmed line in this order: comment or nothing, colon at the
very end, label in front, dot at the start of what remains.

A label in front of something is an identifier directly followed by a colon. A label alone may be
any text before its colon. So a line that ends in a colon is a label line, whatever stands in it.
-/

namespace Mips32

/-- What a line is. -/
inductive Line where
  | blank
  | label (name : Text)
  | directive (label : Option Text) (body : Text)
  | instruction (label : Option Text) (body : Text)
  deriving DecidableEq, Repr

namespace Line

/-- The characters an identifier starts with. -/
def isNameStart (c : CodePoint) : Bool :=
  c.isAlpha || c == '_'

/-- The characters an identifier consists of. -/
def isNameChar (c : CodePoint) : Bool :=
  c.isAlphanum || c == '_' || c == '.'

/-- Splits a trimmed line into the label in front and what stands behind it. There has to be
something behind the colon and the blanks after it, and no line feed in it. -/
def splitLabel? (s : Text) : Option (Text × Text) :=
  match s.dropWhile isNameChar with
  | ':' :: r =>
    let body := Text.trimStart r
    if s.head?.any isNameStart && !body.isEmpty && !body.contains '\n' then
      some (s.takeWhile isNameChar, body)
    else none
  | _ => none

/-- What the text behind a label is. -/
def ofBody (name? : Option Text) (text : Text) : Line :=
  if text.head? = some (.char '.') then .directive name? text else .instruction name? text

/-- Classifies a line. -/
def classify (line : Text) : Line :=
  let s := Text.trim line
  if s = [] ∨ s.head? = some (.char '#') then .blank
  else if s.getLast? = some (.char ':') then .label (Text.trim s.dropLast)
  else
    match splitLabel? s with
    | some (name, body) => ofBody (some name) body
    | none => ofBody none s

/-- The label that a line defines. -/
def label? : Line → Option Text
  | .blank => none
  | .label name => some name
  | .directive name? _ => name?
  | .instruction name? _ => name?

/-- Whether a line occupies a word. -/
def isInstruction : Line → Bool
  | .instruction .. => true
  | _ => false

/-- What stands behind the label. -/
def body : Line → Text
  | .blank | .label _ => []
  | .directive _ text => text
  | .instruction _ text => text

/-- The directives that are known, all of which reserve no space. -/
def directives : List Text :=
  [".data", ".text", ".globl", ".extern", ".word", ".byte", ".half", ".space", ".asciiz",
   ".ascii", ".align"].map String.text

end Line

end Mips32
