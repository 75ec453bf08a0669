import Mips32.Binary64.Shortest
import Mips32.Json.Basic
import Mips32.Text.Quoted

/-!
# JSON values in messages

A message shows a value on one line: constants capitalised, strings quoted, brackets as in JSON. The
plain text of a value is the same but for a string, which stands as it is.
-/

namespace Mips32.Json

mutual

/-- The value as a message shows it. -/
def display : Json → Text
  | .null => "None".text
  | .bool b => if b then "True".text else "False".text
  | .int n => Numeral.decimal n
  | .float x => Binary64.format x
  | .str s => Text.quoted s
  | .arr items => .char '[' :: displayItems items ++ [.char ']']
  | .obj members => .char '\x7b' :: displayMembers members ++ [.char '\x7d']

/-- Values with commas between them. -/
def displayItems : List Json → Text
  | [] => []
  | [v] => display v
  | v :: rest => display v ++ [.char ',', .char ' '] ++ displayItems rest

/-- Members with commas between them. -/
def displayMembers : List (Text × Json) → Text
  | [] => []
  | [(name, v)] => Text.quoted name ++ [.char ':', .char ' '] ++ display v
  | (name, v) :: rest =>
    Text.quoted name ++ [.char ':', .char ' '] ++ display v ++ [.char ',', .char ' '] ++
      displayMembers rest

end

/-- The value as text. -/
def plain : Json → Text
  | .str s => s
  | v => display v

/-- Whether a value counts as absent where it may be left out: null, false, zero, or empty. -/
def isVacuous : Json → Bool
  | .null => true
  | .bool b => !b
  | .int n => n == 0
  | .float x => x.isZero
  | .str s => s.isEmpty
  | .arr items => items.isEmpty
  | .obj members => members.isEmpty

end Mips32.Json
