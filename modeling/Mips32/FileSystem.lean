import Mips32.Text.Quoted
import Mips32.Text.Utf8

/-!
# File systems

A file system is a finite set of places, each a list of names from the root, with a directory, a
file or a device at each; there are no links between places. Names and paths are octets, and texts
that spell the same octets are the same path. Paths are walked name by name from the root or from
the working directory; every name but the last has to lead to a directory.

Reading and writing a file are the two operations. Writing creates a file where there is none, in a
directory that exists, and replaces the octets of one that is there. `node?_write_of_ne` is the
frame rule: writing at one place changes the node at no other.
-/

namespace Mips32

/-- A name in a directory. -/
abbrev Name := List UInt8

/-- A place is the list of names that leads there from the root. -/
abbrev Place := List Name

/-- A path, as the operating system is given it. -/
abbrev Path := List UInt8

/-! ## Paths in text -/

/-- Why a text is no path. -/
inductive PathError where
  /-- A surrogate that stands for no octet. -/
  | unencodable (error : Text.Utf8.EncodeError)
  /-- A null character. -/
  | null
  deriving DecidableEq, Repr

def PathError.message : PathError → Text
  | .unencodable error => error.message
  | .null => "embedded null byte".text

namespace Path

/-- Whether a code point cannot stand in a path. The surrogates from U+DC80 to U+DCFF stand for the
octets from 0x80 to 0xFF that are no UTF-8, and no other surrogate stands for anything. -/
def isRefused : CodePoint → Bool
  | .char _ => false
  | .surrogate offset => offset.val < 0x480 || 0x500 ≤ offset.val

/-- The octets of a code point that can stand in a path. -/
def encodePoint : CodePoint → List UInt8
  | .char c => String.utf8EncodeChar c
  | .surrogate offset => [(offset.val % 0x100).toUInt8]

/-- The path that a text spells. -/
def ofText (s : Text) : Except PathError Path :=
  match Text.Utf8.EncodeError.find? isRefused s with
  | some error => .error (.unencodable error)
  | none =>
    let octets := s.flatMap encodePoint
    if octets.contains 0 then .error .null else .ok octets

end Path

/-- A text of characters as a name. -/
def Name.ofString (s : String) : Name :=
  Text.Utf8.encode s.text

/-- A text of characters as a path. -/
def Path.ofString (s : String) : Path :=
  Text.Utf8.encode s.text

/-- What is at a place. -/
inductive Node where
  | directory
  | file (octets : List UInt8)
  /-- A device that is empty to readers and keeps nothing: it forgets what is written, or has no
  room for it. -/
  | device (hasRoom : Bool)
  deriving DecidableEq, Repr

/-- What the operating system says of an operation that it refuses. It names the path if it was the
path that it could not follow. -/
structure OsError where
  code : Nat
  reason : Text
  namesPath : Bool
  deriving DecidableEq, Repr

namespace OsError

def noEntry : OsError := ⟨2, "No such file or directory".text, true⟩
def notDirectory : OsError := ⟨20, "Not a directory".text, true⟩
def isDirectory : OsError := ⟨21, "Is a directory".text, true⟩
def nameTooLong : OsError := ⟨36, "File name too long".text, true⟩
def noSpace : OsError := ⟨28, "No space left on device".text, false⟩

/-- The error as it is shown for a path. -/
def message (e : OsError) (path : Text) : Text :=
  "[Errno ".text ++ Numeral.decimal e.code ++ "] ".text ++ e.reason ++
    if e.namesPath then ": ".text ++ Text.quoted path else []

end OsError

/-- A working directory, and the nodes at all places but the root, which is a directory. -/
structure FileSystem where
  working : Place
  nodes : List (Place × Node)
  deriving DecidableEq, Repr

namespace FileSystem

/-- What is at a place. -/
def node? (fs : FileSystem) (place : Place) : Option Node :=
  if place = [] then some .directory else fs.nodes.lookup place

/-- The longest name and the longest path, in octets. -/
def nameLimit : Nat := 255
def pathLimit : Nat := 4095

/-! ## Walking along paths -/

/-- The octets of a slash and of a dot. -/
def slash : UInt8 := 0x2F
def dot : UInt8 := 0x2E

/-- The names of a path, which slashes separate. -/
def names : Path → List Name
  | [] => [[]]
  | c :: r =>
    if c = slash then [] :: names r
    else
      match names r with
      | [] => [[c]]
      | n :: ns => (c :: n) :: ns

/-- Where a path starts. -/
def origin (fs : FileSystem) (path : Path) : Place :=
  if path.head? = some slash then [] else fs.working

/-- Refuses a place that holds no directory. -/
def requireDirectory (fs : FileSystem) (place : Place) : Except OsError Unit :=
  match fs.node? place with
  | none => .error .noEntry
  | some .directory => .ok ()
  | some _ => .error .notDirectory

/-- Goes one name on from a directory. The empty name and the dot stay, two dots go up. -/
def step (fs : FileSystem) (place : Place) (name : Name) : Except OsError Place := do
  fs.requireDirectory place
  if name = [] ∨ name = [dot] then .ok place
  else if name = [dot, dot] then .ok place.dropLast
  else if nameLimit < name.length then .error .nameTooLong
  else .ok (place ++ [name])

/-- Walks along names. -/
def walk (fs : FileSystem) (place : Place) : List Name → Except OsError Place
  | [] => .ok place
  | name :: rest => do
    let place ← fs.step place name
    fs.walk place rest

/-- Refuses the empty path and paths that are too long. -/
def checkPath (path : Path) : Except OsError Unit :=
  if path = [] then .error .noEntry
  else if pathLimit < path.length then .error .nameTooLong
  else .ok ()

/-! ## Reading -/

/-- The octets of the file that a path leads to. -/
def read (fs : FileSystem) (path : Path) : Except OsError (List UInt8) := do
  checkPath path
  let place ← fs.walk (fs.origin path) (names path)
  match fs.node? place with
  | none => .error .noEntry
  | some .directory => .error .isDirectory
  | some (.device _) => .ok []
  | some (.file octets) => .ok octets

/-! ## Writing -/

/-- Puts a node at a place: instead of the one that is there, or beside the others. -/
def put (place : Place) (node : Node) : List (Place × Node) → List (Place × Node)
  | [] => [(place, node)]
  | (p, n) :: rest => if p = place then (p, node) :: rest else (p, n) :: put place node rest

/-- The place of the file that a path names for writing. The last name has to be the name of a file:
neither empty, as behind a slash, nor dots. -/
def target (fs : FileSystem) (path : Path) : Except OsError Place := do
  checkPath path
  let all := names path
  let kept := (all.reverse.dropWhile (·.isEmpty)).reverse
  let directory ← fs.walk (fs.origin path) kept.dropLast
  fs.requireDirectory directory
  match kept.getLast? with
  | none => .error .isDirectory
  | some name =>
    if kept.length < all.length ∨ name = [dot] ∨ name = [dot, dot] then .error .isDirectory
    else fs.step directory name

/-- Writes octets to the file that a path names. -/
def write (fs : FileSystem) (path : Path) (octets : List UInt8) : Except OsError FileSystem := do
  let place ← fs.target path
  match fs.node? place with
  | some .directory => .error .isDirectory
  | some (.device hasRoom) => if hasRoom then .ok fs else .error .noSpace
  | _ => .ok { fs with nodes := put place (.file octets) fs.nodes }

/-! ## The frame rule -/

theorem lookup_put_self (place : Place) (node : Node) (nodes : List (Place × Node)) :
    (put place node nodes).lookup place = some node := by
  induction nodes with
  | nil => simp [put]
  | cons e rest ih =>
    obtain ⟨p, n⟩ := e
    by_cases h : p = place
    · simp [put, h]
    · have h' : (place == p) = false := by simpa using Ne.symm h
      simp [put, h, List.lookup_cons, h', ih]

theorem lookup_put_of_ne {place other : Place} (h : other ≠ place) (node : Node)
    (nodes : List (Place × Node)) : (put place node nodes).lookup other = nodes.lookup other := by
  induction nodes with
  | nil => simp [put, List.lookup_cons, beq_eq_false_iff_ne.2 h]
  | cons e rest ih =>
    obtain ⟨p, n⟩ := e
    by_cases hp : p = place
    · subst hp
      simp [put, List.lookup_cons, beq_eq_false_iff_ne.2 h]
    · simp [put, hp, List.lookup_cons, ih]

/-- Writing changes at most the node at the place that is written. -/
theorem node?_write_of_ne {fs fs' : FileSystem} {path : Path} {octets : List UInt8}
    {place other : Place} (hw : fs.write path octets = .ok fs') (ht : fs.target path = .ok place)
    (h : other ≠ place) :
    fs'.node? other = fs.node? other := by
  simp only [write, ht, bind, Except.bind] at hw
  split at hw
  · cases hw
  · split at hw
    · cases hw; rfl
    · cases hw
  · cases hw
    simp [node?, lookup_put_of_ne h]

end FileSystem

end Mips32
