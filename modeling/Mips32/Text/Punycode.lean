import Mips32.Numeral.Digits

/-!
# Punycode

A text in letters, digits and hyphens below 128. The characters that are below 128 already come
first, behind them a hyphen, and then, in ascending order, the others: each by the count of steps
from the one before, where a step goes on by one place in the text, and behind its end by one code
point. Counts are written in digits from 0 to 35, lowest first, and the place values adapt to the
counts so far.

Reading takes letters of either case for digits. It can come upon numbers of surrogates.
-/

namespace Mips32.Text.Punycode

/-! ## Digits and places -/

/-- The character of a digit: letters first. -/
def digit (d : Nat) : CodePoint :=
  if d < 26 then .ofNat (0x61 + d) else .ofNat (0x30 + (d - 26))

/-- The worth of a digit. -/
def digit? (c : CodePoint) : Option Nat :=
  if c.isAlpha then some (c.toLower.toNat - 0x61)
  else if c.isDigit then some (c.toNat - 0x30 + 26)
  else none

/-- The least digit at a place, counted from one, behind which another place follows. -/
def threshold (bias place : Nat) : Nat :=
  max 1 (min 26 (36 * place - bias))

theorem threshold_pos (bias place : Nat) : 1 ≤ threshold bias place :=
  Nat.le_max_left ..

/-- The digits of a count from a place on. -/
def digits (bias place n : Nat) : Text :=
  let t := threshold bias place
  if n < t then [digit n]
  else digit (t + (n - t) % (36 - t)) :: digits bias (place + 1) ((n - t) / (36 - t))
  termination_by n
  decreasing_by
    have h := threshold_pos bias place
    exact Nat.lt_of_le_of_lt (Nat.div_le_self ..) (by omega)

/-- The bias that a scaled count leads to. -/
def settle (bias delta : Nat) : Nat :=
  if 455 < delta then settle (bias + 36) (delta / 35) else bias + 36 * delta / (delta + 38)
  termination_by delta
  decreasing_by omega

/-- The bias behind a count, when so many characters are written. -/
def adapt (delta written : Nat) (isFirst : Bool) : Nat :=
  let scaled := if isFirst then delta / 700 else delta / 2
  settle 0 (scaled + scaled / written)

/-! ## Writing -/

/-- How far the writing has come: the digits, the steps since the last character, the bias, and the
count of characters that are written. -/
structure Progress where
  out : Text
  delta : Nat
  bias : Nat
  written : Nat
  isFirst : Bool

/-- Passes a place of the text while the characters with number `m` are written. -/
def Progress.pass (m : Nat) (p : Progress) (c : CodePoint) : Progress :=
  if c.toNat < m then { p with delta := p.delta + 1 }
  else if c.toNat = m then
    ⟨p.out ++ digits p.bias 1 p.delta, 0, adapt p.delta (p.written + 1) p.isFirst, p.written + 1,
      false⟩
  else p

/-- Writes the characters of `s` with the numbers in an ascending list, the first of which is `n` or
more. -/
def write (s : Text) (n : Nat) : List Nat → Progress → Progress
  | [], p => p
  | m :: rest, p =>
    let p := s.foldl (Progress.pass m) { p with delta := p.delta + (m - n) * (p.written + 1) }
    write s (m + 1) rest { p with delta := p.delta + 1 }

/-- The text in Punycode. -/
def encode (s : Text) : Text :=
  let basic := s.filter (·.toNat < 128)
  let others := ((s.map CodePoint.toNat).filter (128 ≤ ·)).mergeSort.eraseDups
  let p := write s 128 others ⟨[], 0, 72, basic.length, true⟩
  (if basic = [] then [] else basic ++ [.char '-']) ++ p.out

/-! ## Reading -/

/-- Why a text is no Punycode. -/
inductive Error where
  /-- The text ends within a count. -/
  | incomplete
  /-- A character of a count is no digit. -/
  | digit (c : CodePoint)
  /-- A count leads beyond the last code point. -/
  | tooLarge (n : Nat)
  deriving DecidableEq, Repr

def Error.message : Error → Text
  | .incomplete => "incomplete punicode string".text
  | .digit c => "Invalid extended code point '".text ++ [c.toUpper] ++ [.char '\'']
  | .tooLarge n => "Invalid character U+".text ++ Numeral.digits 16 n

/-- Reads a count from a place on, and tells what follows it. -/
def readCount (bias place : Nat) :
    (s : Text) → Except Error (Nat × { rest : Text // rest.length < s.length })
  | [] => .error .incomplete
  | c :: r =>
    match digit? c with
    | none => .error (.digit c)
    | some d =>
      let t := threshold bias place
      if d < t then .ok (d, ⟨r, Nat.lt_succ_self _⟩)
      else
        match readCount bias (place + 1) r with
        | .error e => .error e
        | .ok (n, rest) => .ok (d + (36 - t) * n, ⟨rest.1, Nat.lt_succ_of_lt rest.2⟩)

/-- Puts the code points that the counts in a text tell into another, from a place and a number of a
character on. -/
def insertAll (out : Text) (place number bias : Nat) (isFirst : Bool) :
    Text → Except Error Text
  | [] => .ok out
  | c :: r =>
    match readCount bias 1 (c :: r) with
    | .error e => .error e
    | .ok (n, rest) =>
      let written := out.length + 1
      let next := number + (place + n) / written
      let here := (place + n) % written
      if 0x10FFFF < next then .error (.tooLarge next)
      else
        insertAll (out.insertIdx here (.ofNat next)) (here + 1) next (adapt n written isFirst) false
          rest.1
  termination_by s => s.length
  decreasing_by exact rest.2

/-- The text that a text in Punycode spells. -/
def decode (s : Text) : Except Error Text :=
  let (basic, counts) := splitLast '-' s
  insertAll basic 0 128 72 true counts

end Mips32.Text.Punycode
