import Mips32.Binary64.Basic
import Mips32.Text.Basic

/-!
# JSON values

An object keeps its members in the order in which their names first appear. Integers are exact and
of any size; a number written with a point or an exponent is a floating-point value.
-/

namespace Mips32

/-- A JSON value. -/
inductive Json where
  | null
  | bool (b : Bool)
  | int (n : Int)
  | float (x : Binary64)
  | str (s : Text)
  | arr (items : List Json)
  | obj (members : List (Text × Json))
  deriving Repr

namespace Json

/-- Sets a member: in place if the name is there, else at the end. -/
def setMember (name : Text) (value : Json) : List (Text × Json) → List (Text × Json)
  | [] => [(name, value)]
  | (n, v) :: rest => if n = name then (n, value) :: rest else (n, v) :: setMember name value rest

/-- The member of an object with a name. -/
def member? (name : Text) : Json → Option Json
  | .obj members => members.lookup name
  | _ => none

/-- The text of a string value. -/
def str? : Json → Option Text
  | .str s => some s
  | _ => none

theorem str?_eq_some_iff {value : Json} {s : Text} : value.str? = some s ↔ value = .str s := by
  cases value <;> simp [str?]

/-- An object made of members in order, whose names are known beforehand. -/
def record (members : List (String × Json)) : Json :=
  .obj (members.map fun (name, value) => (name.text, value))

end Json

end Mips32
