import Mips32.Service.Reference

/-!
# Request targets

A target is written as a reference, and its path is read as a reference once more, so that a path
which names a scheme or an authority again loses it. What is left is brought into the usual form of
a reference and then decoded. The host of a target is the authority of the first reading in its
usual form, which has to be an authority again: a host of the form kept for later loses its brackets
there.
-/

namespace Mips32.Service

/-- A request target: the scheme and the host it names, and its path, decoded. -/
structure Target where
  scheme : Text
  host : Text
  path : Text
  deriving DecidableEq, Repr

namespace Target

/-- The host that is meant if none is named. -/
def defaultHost : Text :=
  "localhost".text

/-- Reads a target. Of several faults that of the path is told of first, unless the first reading
fails. -/
def ofText (s : Text) : Except Authority.Error Target := do
  let outer ← Reference.ofText s
  let inner ← Reference.ofText outer.path
  let path ← (← Reference.ofText inner.path).render
  let host ←
    (Authority.ofText (if outer.authority = [] then defaultHost else outer.authority)).render
  Authority.check host
  return ⟨outer.scheme, host, Text.Percent.decode path⟩

/-- The path with exactly one slash in front. -/
def rooted (t : Target) : Text :=
  .char '/' :: t.path.dropWhile (· == .char '/')

end Target

end Mips32.Service
