import Mips32.Text.Basic

/-!
# Symbol tables

A symbol table lists labels with their addresses in the order of definition. Tables that the passes
build hold each label once; a table from outside may name one twice, and then the later address
counts at the earlier place.
-/

namespace Mips32

/-- Labels with their addresses, in the order of definition. -/
abbrev SymbolTable := List (Text × Int)

namespace SymbolTable

/-- The address of a label. -/
def address? (table : SymbolTable) (name : Text) : Option Int :=
  table.lookup name

/-- Whether a label is defined. -/
def defines (table : SymbolTable) (name : Text) : Bool :=
  (table.address? name).isSome

/-- Sets the address of a label: in place if it is defined, else at the end. -/
def set (name : Text) (address : Int) : SymbolTable → SymbolTable
  | [] => [(name, address)]
  | (n, a) :: rest => if n = name then (n, address) :: rest else (n, a) :: set name address rest

/-- The table that a list of pairs makes, the last address of a label counting. -/
def ofPairs (pairs : List (Text × Int)) : SymbolTable :=
  pairs.foldl (fun table (name, address) => table.set name address) []

/-- The table in ascending order of addresses, labels of one address in order of definition. -/
def byAddress (table : SymbolTable) : SymbolTable :=
  table.mergeSort fun x y => x.2 ≤ y.2

end SymbolTable

end Mips32
