import Mips32.Numeral.Digits

/-!
# Hosts in numbers

The texts that spell the address of a host: four decimal numbers with dots between them, or groups
of hexadecimal digits with colons. Of the eight groups a run may be left out where two colons follow
each other, once, and the last two may be written as four decimal numbers.
-/

namespace Mips32.Service.NumericHost

/-- Splits a text at each separator. -/
def pieces (separator : CodePoint) : Text → List Text
  | [] => [[]]
  | c :: r =>
    if c = separator then [] :: pieces separator r
    else (pieces separator r).modifyHead (c :: ·)

/-- Whether a text is a number up to 255 without zeros in front. -/
def isOctet (s : Text) : Bool :=
  !s.isEmpty && s.length ≤ 3 && s.all (Numeral.isDigit 10) &&
    (s.length == 1 || s.head? != some (.char '0')) && Numeral.ofDigits 10 s ≤ 255

/-- Whether a text is four numbers with dots between them. -/
def isFour (s : Text) : Bool :=
  let ps := pieces '.' s
  ps.length == 4 && ps.all isOctet

/-- Whether a text is a group of hexadecimal digits. -/
def isGroup (s : Text) : Bool :=
  !s.isEmpty && s.length ≤ 4 && s.all (Numeral.isDigit 16)

/-- How many groups some texts stand for, of which the last may be four numbers. -/
def groupCount? : List Text → Option Nat
  | [] => some 0
  | [s] => if isGroup s then some 1 else if isFour s then some 2 else none
  | s :: rest => if isGroup s then (groupCount? rest).map (· + 1) else none

/-- Splits a text at the first two colons in a row. -/
def splitGap : Text → Option (Text × Text)
  | ':' :: ':' :: r => some ([], r)
  | c :: r => (splitGap r).map fun (before, behind) => (c :: before, behind)
  | [] => none

/-- The groups of a text on one side of the gap; there may be none. -/
def side (s : Text) : List Text :=
  if s = [] then [] else pieces ':' s

/-- Whether a text is groups with colons between them. -/
def isGroups (s : Text) : Bool :=
  match splitGap s with
  | none => groupCount? (pieces ':' s) == some 8
  | some (before, behind) =>
    (side before).all isGroup && (groupCount? (side behind)).any ((side before).length + · < 8)

/-- Whether a text is groups, behind which a zone may be named. -/
def isGroupsInZone (s : Text) : Bool :=
  let zone := s.dropWhile (· != .char '%')
  isGroups (s.takeWhile (· != .char '%')) &&
    (zone.isEmpty || (zone.length ≠ 1 && !zone.tail.contains '%'))

/-- Whether a text has the form that is kept for addresses to come: `v`, hexadecimal digits, a dot
and more. -/
def isFuture (s : Text) : Bool :=
  let version := s.tail.takeWhile (Numeral.isDigit 16)
  s.head? == some (.char 'v') && !version.isEmpty &&
    match s.tail.dropWhile (Numeral.isDigit 16) with
    | '.' :: _ :: _ => true
    | _ => false

end Mips32.Service.NumericHost
