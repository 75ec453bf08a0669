import Mips32.Numeral.Literal
import Mips32.Service.HostName
import Mips32.Service.NumericHost
import Mips32.Text.Percent

/-!
# Authorities

The authority of a reference names a user with a password, a host and a number behind a colon. A
host in square brackets is an address in numbers. Some authorities are refused as soon as they are
read, for their brackets or their characters; the others when they are brought into the usual form
or into the form for readers, for their host name or their number.
-/

namespace Mips32.Service

/-- An authority in its parts; what it does not name is empty. -/
structure Authority where
  user : Text
  password : Text
  host : Text
  number : Text
  deriving DecidableEq, Repr

namespace Authority

/-- Why an authority is refused. -/
inductive Error where
  /-- Square brackets that do not pair up or do not stand around the host. -/
  | brackets
  /-- A host in brackets that is no address. -/
  | notNumeric (host : Text)
  /-- A host in brackets that is an address of four numbers. -/
  | fourInBrackets
  /-- A host in brackets that begins like an address to come and is none. -/
  | future
  /-- An authority with a character that looks like a separator. -/
  | confusable (authority : Text)
  /-- A host name that is none. -/
  | hostName (error : HostName.Error)
  /-- A host name that cannot be shown. -/
  | shownName (error : HostName.ShowError)
  /-- A text behind the colon that is no number. -/
  | number (s : Text)
  /-- A number of too many digits. -/
  | tooManyDigits (count : Nat)
  /-- A number that is too large. -/
  | numberRange
  deriving DecidableEq, Repr

def Error.message : Error → Text
  | .brackets => "Invalid IPv6 URL".text
  | .notNumeric host =>
    Text.quoted host ++ " does not appear to be an IPv4 or IPv6 address".text
  | .fourInBrackets => "An IPv4 address cannot be in brackets".text
  | .future => "IPvFuture address is invalid".text
  | .confusable authority =>
    "netloc '".text ++ authority ++
      "' contains invalid characters under NFKC normalization".text
  | .hostName error => error.message
  | .shownName error => error.message
  | .number s => "Port could not be cast to integer value as ".text ++ Text.quoted s
  | .tooManyDigits count => Numeral.tooManyDigitsMessage count
  | .numberRange => "Port out of range 0-65535".text

/-! ## Reading -/

/-- What stands behind the first of some characters. -/
def behind (c : CodePoint) (s : Text) : Text :=
  (s.dropWhile (· != c)).tail

/-- Reads an authority. -/
def ofText (s : Text) : Authority :=
  let (account, place) := Text.splitLast '@' s
  let (host, rest) :=
    if place.contains '[' then
      ((behind '[' place).takeWhile (· != .char ']'), behind ']' (behind '[' place))
    else (place.takeWhile (· != .char ':'), place.dropWhile (· != .char ':'))
  ⟨account.takeWhile (· != .char ':'), behind ':' account, host, behind ':' rest⟩

/-- Accepts a host in brackets. -/
def checkNumeric (host : Text) : Except Error Unit :=
  if host.head? = some (.char 'v') then
    if NumericHost.isFuture host then .ok () else .error .future
  else if NumericHost.isFour host then .error .fourInBrackets
  else if NumericHost.isGroupsInZone host then .ok ()
  else .error (.notNumeric host)

/-- Accepts an authority with square brackets in it. In front of them there may be an account, and
behind them a colon with a number. -/
def checkBrackets (s : Text) : Except Error Unit :=
  let place := (Text.splitLast '@' s).2
  let rest := behind ']' (behind '[' place)
  if place.contains '[' ∧
      (place.head? ≠ some (.char '[') ∨ (rest ≠ [] ∧ rest.head? ≠ some (.char ':'))) then
    .error .brackets
  else checkNumeric (ofText s).host

/-- The characters that are written like `/`, `?`, `#`, `@` or `:`, or with one of them. -/
def confusables : List (Nat × Nat) :=
  [(0x2047, 0x2049), (0x2100, 0x2101), (0x2105, 0x2106), (0x2A74, 0x2A74), (0xFE13, 0xFE13),
   (0xFE16, 0xFE16), (0xFE55, 0xFE56), (0xFE5F, 0xFE5F), (0xFE6B, 0xFE6B), (0xFF03, 0xFF03),
   (0xFF0F, 0xFF0F), (0xFF1A, 0xFF1A), (0xFF1F, 0xFF20)]

/-- Accepts an authority by its brackets and its characters. -/
def check (s : Text) : Except Error Unit := do
  if s.contains '[' ≠ s.contains ']' then throw .brackets
  if s.contains '[' then checkBrackets s
  if s.any (Text.inRanges confusables) then throw (.confusable s)

/-! ## Plain authorities -/

/-- Whether a text is a colon with a number that does not begin with zero, or nothing. -/
def isNumberPart : Text → Bool
  | [] => true
  | c :: number =>
    c == ':' && number.head?.any (· != .char '0') && number.all (Numeral.isDigit 10)

/-- Whether the text between square brackets is one of hexadecimal digits, dots and colons, with a
colon behind the first digits that is not the end. -/
def isBracketed (host : Text) : Bool :=
  let rest := host.dropWhile (Numeral.isDigit 16)
  let isInner (c : CodePoint) : Bool := Numeral.isDigit 16 c || c == '.' || c == ':'
  rest.head? == some (.char ':') && !rest.tail.isEmpty && rest.tail.all isInner

/-- Whether a text is a host in plain characters, in brackets or not, with or without a number. -/
def isPlain : Text → Bool
  | '[' :: r =>
    isBracketed (r.takeWhile (· != .char ']')) && r.contains ']' && isNumberPart (behind ']' r)
  | s =>
    let host := s.takeWhile (· != .char ':')
    !host.isEmpty && host.all (fun c => c.isAlphanum || c == '.' || c == '-') &&
      isNumberPart (s.dropWhile (· != .char ':'))

/-! ## The usual form and the form for readers -/

/-- Whether a character of an account is not percent-encoded. -/
def isAccountChar (c : CodePoint) : Bool :=
  c.isAlphanum || "_.-~%!$&'()*+,;=".text.contains c

/-- The value of the number, if there is one. -/
def number? (s : Text) : Except Error (Option Nat) :=
  if s = [] then .ok none
  else if !s.all (Numeral.isDigit 10) then .error (.number s)
  else
    match Numeral.ofDecimal s with
    | .ok n => if n < 65536 then .ok (some n) else .error .numberRange
    | .error _ => .error (.tooManyDigits s.length)

/-- The host in lower case; the zone of an address keeps its letter case. -/
def lowerHost (host : Text) : Text :=
  Text.lower (host.takeWhile (· != .char '%')) ++ host.dropWhile (· != .char '%')

/-- The account in front of the host. -/
def renderAccount (a : Authority) : Text :=
  let encoded := Text.Percent.encode isAccountChar
  if a.user = [] then []
  else
    encoded a.user ++ (if a.password = [] then [] else .char ':' :: encoded a.password) ++
      [.char '@']

/-- The form of an authority with a form of the host name. The number zero is left out. -/
def renderWith (name : Text → Except Error Text) (a : Authority) : Except Error Text := do
  let host ← name (lowerHost a.host)
  let shown := if host.contains ':' then .char '[' :: host ++ [.char ']'] else host
  let number ← number? a.number
  let suffix :=
    match number with
    | none | some 0 => []
    | some n => .char ':' :: Numeral.decimal n
  return a.renderAccount ++ shown ++ suffix

/-- The usual form of an authority. -/
def render (a : Authority) : Except Error Text :=
  a.renderWith fun host => (HostName.encode host).mapError .hostName

/-- The form for readers of an authority without an account. -/
def renderShown (a : Authority) : Except Error Text :=
  a.renderWith fun host => (HostName.decode host).mapError .shownName

end Authority

end Mips32.Service
