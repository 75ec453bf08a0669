import Mips32.Binary64.Shortest
import Mips32.Json.Basic
import Mips32.Numeral.Digits

/-!
# Printing JSON

Values are printed without blanks. In strings the quote, the backslash and the control characters
are escaped, and so are surrogates; all other characters stand for themselves.
-/

namespace Mips32.Json

/-- A code point between quotes. -/
def printCodePoint : CodePoint → Text
  | .char c =>
    if c = '"' ∨ c = '\\' then ['\\', c]
    else if c.toNat < 0x20 then .char '\\' :: .char 'u' :: Numeral.lowDigits 16 4 c.toNat
    else [c]
  | c => .char '\\' :: .char 'u' :: Numeral.lowDigits 16 4 c.toNat

/-- A string between quotes. -/
def printString (s : Text) : Text :=
  .char '"' :: s.flatMap printCodePoint ++ [.char '"']

/-- A floating-point value; those that are no numbers have the names of the constants. -/
def printFloat : Binary64 → Text
  | .nan => "NaN".text
  | .infinite negative => if negative then "-Infinity".text else "Infinity".text
  | x => Binary64.format x

mutual

/-- Prints a value. -/
def print : Json → Text
  | .null => "null".text
  | .bool b => if b then "true".text else "false".text
  | .int n => Numeral.decimal n
  | .float x => printFloat x
  | .str s => printString s
  | .arr items => .char '[' :: printItems items ++ [.char ']']
  | .obj members => .char '\x7b' :: printMembers members ++ [.char '\x7d']

/-- Prints values with commas between them. -/
def printItems : List Json → Text
  | [] => []
  | [v] => print v
  | v :: rest => print v ++ .char ',' :: printItems rest

/-- Prints members with commas between them. -/
def printMembers : List (Text × Json) → Text
  | [] => []
  | [(name, v)] => printString name ++ .char ':' :: print v
  | (name, v) :: rest => printString name ++ .char ':' :: print v ++ .char ',' :: printMembers rest

end

end Mips32.Json
