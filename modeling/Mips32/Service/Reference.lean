import Mips32.Service.Authority

/-!
# References

A reference may name a scheme and an authority in front of the path, and a query and a fragment
behind it, which nothing looks at. Blanks and controls in front of a reference and newlines in it do
not count.
-/

namespace Mips32.Service

/-- A reference without query and fragment; what it does not name is empty. -/
structure Reference where
  scheme : Text
  authority : Text
  path : Text
  deriving DecidableEq, Repr

namespace Reference

/-- Whether a character can stand in a scheme. -/
def isSchemeChar (c : CodePoint) : Bool :=
  c.isAlphanum || c == '+' || c == '-' || c == '.'

/-- Drops the blanks and controls in front, and the tabs and newlines everywhere. -/
def clean (s : Text) : Text :=
  (s.dropWhile fun c => c.toNat ≤ 0x20).filter fun c => c != '\t' && c != '\r' && c != '\n'

/-- Splits a scheme off, in small letters. -/
def splitScheme (s : Text) : Text × Text :=
  let name := s.takeWhile (· != .char ':')
  match s.dropWhile (· != .char ':') with
  | _ :: rest =>
    if name.head?.any CodePoint.isAlpha && name.all isSchemeChar then
      (name.map CodePoint.toLower, rest)
    else ([], s)
  | [] => ([], s)

/-- Whether a character ends an authority. -/
def endsAuthority (c : CodePoint) : Bool :=
  c == '/' || c == '?' || c == '#'

/-- Splits an authority off. -/
def splitAuthority : Text → Text × Text
  | '/' :: '/' :: r => (r.takeWhile (!endsAuthority ·), r.dropWhile (!endsAuthority ·))
  | s => ([], s)

/-- Reads a reference. -/
def ofText (s : Text) : Except Authority.Error Reference := do
  let (scheme, rest) := splitScheme (clean s)
  let (authority, rest) := splitAuthority rest
  Authority.check authority
  return ⟨scheme, authority, rest.takeWhile fun c => c != '?' && c != '#'⟩

/-- The usual form of a reference. -/
def render (r : Reference) : Except Authority.Error Text := do
  let authority ← (Authority.ofText r.authority).render
  return (if r.scheme = [] then [] else r.scheme ++ [.char ':']) ++
    (if authority = [] then [] else .char '/' :: .char '/' :: authority) ++ r.path

end Reference

end Mips32.Service
