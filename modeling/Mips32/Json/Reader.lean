import Mips32.Json.Basic
import Mips32.Numeral.Literal

/-!
# Reading JSON

The grammar is that of JSON with three constants more, `NaN`, `Infinity` and `-Infinity`. Control
characters may not stand in a string, the last of several members of one name counts, and an integer
beyond the digit limit is refused. Escapes of two surrogates in a row give one character; a
surrogate on its own stays what it is.

Arrays and objects may stand in each other to a depth that the reader is given. What goes deeper is
refused on its own account, as soon as the bracket beyond the limit is met and whatever follows it.

The recursion of the reader goes down on `fuel`, which is computed from the length of the text:
every call but the ones between a bracket and the first value behind it consumes a character.
-/

namespace Mips32.Json

/-- Why a text has no value. -/
inductive ReadError where
  /-- The text is not JSON. -/
  | malformed
  /-- Too many brackets are open at once. -/
  | tooDeep
  deriving DecidableEq, Repr

/-- Drops the blanks of JSON. -/
def skip (s : Text) : Text :=
  s.dropWhile fun c => c == ' ' || c == '\t' || c == '\n' || c == '\r'

/-! ## Strings -/

/-- The character of an escape of one letter. -/
def escaped? : CodePoint → Option CodePoint
  | '"' => some (.char '"')
  | '\\' => some (.char '\\')
  | '/' => some (.char '/')
  | 'b' => some (.char '\x08')
  | 'f' => some (.char '\x0c')
  | 'n' => some (.char '\n')
  | 'r' => some (.char '\r')
  | 't' => some (.char '\t')
  | _ => none

/-- The numbers that a string spells up to its closing quote, and the text behind it. A number is
that of a character or of a surrogate. -/
def readUnits : Text → Option (List Nat × Text)
  | [] => none
  | '"' :: r => some ([], r)
  | '\\' :: 'u' :: a :: b :: c :: d :: r =>
    if [a, b, c, d].all (Numeral.isDigit 16) then
      (readUnits r).map fun (us, rest) => (Numeral.ofDigits 16 [a, b, c, d] :: us, rest)
    else none
  | '\\' :: e :: r =>
    match escaped? e with
    | some c => (readUnits r).map fun (us, rest) => (c.toNat :: us, rest)
    | none => none
  | c :: r =>
    if c.toNat < 0x20 ∨ c = '\\' then none
    else (readUnits r).map fun (us, rest) => (c.toNat :: us, rest)

/-- Reads a string behind its opening quote. -/
def readString (s : Text) : Except ReadError (Text × Text) :=
  match readUnits s with
  | some (us, rest) => .ok (CodePoint.ofUnits us, rest)
  | none => .error .malformed

/-! ## Numbers -/

/-- Splits the digits at the front of a text off. -/
def splitDigits (s : Text) : Text × Text :=
  (s.takeWhile (Numeral.isDigit 10), s.dropWhile (Numeral.isDigit 10))

/-- The digits of a fraction, if one begins here. -/
def fraction? : Text → Option (Text × Text)
  | '.' :: r =>
    match splitDigits r with
    | ([], _) => none
    | (ds, rest) => some (ds, rest)
  | _ => none

/-- The value of an exponent, if one begins here. -/
def exponent? : Text → Option (Int × Text)
  | e :: r =>
    if e = 'e' ∨ e = 'E' then
      let (negative, body) := Numeral.splitSign r
      match splitDigits body with
      | ([], _) => none
      | (ds, rest) => some (Numeral.withSign negative (Numeral.ofDigits 10 ds), rest)
    else none
  | [] => none

/-- Reads a number behind its sign. -/
def readNumber (negative : Bool) (s : Text) : Option (Json × Text) :=
  let (whole, rest) :=
    match s with
    | '0' :: r => (['0'], r)
    | s => splitDigits s
  if whole = [] then none
  else
    let (fraction, rest') := (fraction? rest).getD ([], rest)
    let (exponent, rest'') := (exponent? rest').getD (0, rest')
    if (fraction? rest).isNone ∧ (exponent? rest').isNone then
      if Numeral.digitLimit < whole.length then none
      else some (.int (Numeral.withSign negative (Numeral.ofDigits 10 whole)), rest)
    else
      let mantissa := Numeral.ofDigits 10 (whole ++ fraction)
      some (.float (Binary64.ofDecimal negative mantissa (exponent - fraction.length)), rest'')

/-! ## Values -/

/-- Reads one of the constants, which are tried in order. -/
def readConstant (s : Text) : List (String × Json) → Option (Json × Text)
  | [] => none
  | (name, v) :: more =>
    match Text.dropPrefix? name.text s with
    | some rest => some (v, rest)
    | none => readConstant s more

/-- The constants with their values. -/
def constants : List (String × Json) :=
  [("null", .null), ("true", .bool true), ("false", .bool false), ("NaN", .float .nan),
   ("Infinity", .float (.infinite false)), ("-Infinity", .float (.infinite true))]

/-- Reads a constant or a number. -/
def readScalar (s : Text) : Except ReadError (Json × Text) :=
  let scalar? :=
    match readConstant s constants, s with
    | some r, _ => some r
    | none, '-' :: r => readNumber true r
    | none, s => readNumber false s
  match scalar? with
  | some r => .ok r
  | none => .error .malformed

mutual

/-- Reads a value at the front of a text, in which `level` more brackets may be open. -/
def readValue : (fuel level : Nat) → Text → Except ReadError (Json × Text)
  | 0, _, _ => .error .malformed
  | fuel + 1, level, s =>
    match s, level with
    | '"' :: r, _ => (readString r).map fun (t, rest) => (.str t, rest)
    | '[' :: _, 0 => .error .tooDeep
    | '\x7b' :: _, 0 => .error .tooDeep
    | '[' :: r, level + 1 =>
      match skip r with
      | ']' :: rest => .ok (.arr [], rest)
      | r => (readItems fuel level r).map fun (items, rest) => (.arr items, rest)
    | '\x7b' :: r, level + 1 =>
      match skip r with
      | '\x7d' :: rest => .ok (.obj [], rest)
      | r => (readMembers fuel level [] r).map fun (members, rest) => (.obj members, rest)
    | s, _ => readScalar s

/-- Reads the values of an array up to its closing bracket. -/
def readItems : (fuel level : Nat) → Text → Except ReadError (List Json × Text)
  | 0, _, _ => .error .malformed
  | fuel + 1, level, s => do
    let (v, r) ← readValue fuel level s
    match skip r with
    | ']' :: rest => return ([v], rest)
    | ',' :: r =>
      let (items, rest) ← readItems fuel level (skip r)
      return (v :: items, rest)
    | _ => throw .malformed

/-- Reads the members of an object up to its closing brace, behind those that are known. -/
def readMembers : (fuel level : Nat) → List (Text × Json) → Text →
    Except ReadError (List (Text × Json) × Text)
  | 0, _, _, _ => .error .malformed
  | fuel + 1, level, known, s =>
    match s with
    | '"' :: r => do
      let (name, r) ← readString r
      match skip r with
      | ':' :: r =>
        let (v, r) ← readValue fuel level (skip r)
        match skip r with
        | '\x7d' :: rest => return (setMember name v known, rest)
        | ',' :: r => readMembers fuel level (setMember name v known) (skip r)
        | _ => throw .malformed
      | _ => throw .malformed
    | _ => .error .malformed

end

/-- Reads the value that a text spells from end to end, if no more than `depth` brackets are open at
once. -/
def read (depth : Nat) (s : Text) : Except ReadError Json := do
  let (v, rest) ← readValue (2 * s.length + 2) depth (skip s)
  if skip rest = [] then return v else throw .malformed

/-- The value that a text spells, if it is JSON from end to end. -/
def parse (depth : Nat) (s : Text) : Option Json :=
  (read depth s).toOption

end Mips32.Json
