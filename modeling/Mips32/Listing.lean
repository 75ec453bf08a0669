import Mips32.Address
import Mips32.Isa.Word
import Mips32.Program.Words

/-!
# Listings

A listing has two columns: a header, and for each word a row with its address and the word, both as
eight hexadecimal digits. A listing file is named after the source file, with its extension
replaced.
-/

namespace Mips32.Listing

/-- An integer as a word: its lowest 32 bits in hexadecimal. -/
def hexWord (n : Int) : Text :=
  .char '0' :: .char 'x' :: Numeral.lowDigits 16 8 (BitVec.ofInt 32 n).toNat

/-- The header of the two columns. -/
def header : Text :=
  "Address     Code".text

/-- The row of a word at its index. -/
def row (base : Int) (index : Nat) (word : Int) : Text :=
  hexWord (Address.ofIndex index base) ++ .char ' ' :: hexWord word

/-- The rows of words of which the first has a given index. -/
def rowsFrom (base : Int) (index : Nat) : List Int → List Text
  | [] => []
  | word :: rest => row base index word :: rowsFrom base (index + 1) rest

/-- The lines of a listing. -/
def lines (words : List Int) (base : Int) : List Text :=
  header :: rowsFrom base 0 words

/-- The text of a listing: every line ends in a line feed. -/
def render (words : List Int) (base : Int) : Text :=
  (lines words base).flatMap (· ++ [.char '\n'])

/-- The listing of assembled words. -/
def ofWords (words : List Word) (base : Int) : Text :=
  render (words.map fun w => (w.toNat : Int)) base

/-! ## File names -/

/-- The last component of a path. -/
def baseName (path : Text) : Text :=
  (path.reverse.takeWhile (· != .char '/')).reverse

/-- A file name without its extension: what stands before its last dot, unless only dots stand
there. -/
def stem (name : Text) : Text :=
  match (name.reverse.dropWhile (· != .char '.')).drop 1 with
  | [] => name
  | front => if front.all (· == .char '.') then name else front.reverse

/-- The path of the listing of a source file. -/
def pathFor (path : Text) : Text :=
  let name := baseName path
  path.take (path.length - name.length) ++ stem name ++ ".obj".text

end Mips32.Listing
