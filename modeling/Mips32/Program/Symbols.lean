import Mips32.Address
import Mips32.Fault
import Mips32.Program.Basic
import Mips32.Source.Line
import Mips32.SymbolTable

/-!
# The symbols of a program

Each label stands for the address of the first instruction at or behind it. Going through the lines,
the address moves on at instruction lines only. An empty label and a label defined twice are faults
of their line, and the first fault ends the computation.
-/

namespace Mips32

namespace SourceLine

/-- What the line is. -/
def kind (l : SourceLine) : Line :=
  Line.classify l.text

/-- A fault of this line. -/
def diagnose (l : SourceLine) (fault : Fault) : Diagnostic :=
  ⟨fault, l.number, l.text⟩

/-- The address behind the line, if the line is at `a`. -/
def after (l : SourceLine) (a : Int) : Int :=
  if l.kind.isInstruction then Address.next a else a

/-- Adds the label of the line, if it has one, at address `a`. -/
def define (l : SourceLine) (a : Int) (table : SymbolTable) : Except Diagnostic SymbolTable :=
  match l.kind.label? with
  | none => .ok table
  | some name =>
    if name = [] then .error (l.diagnose .emptyLabel)
    else if table.defines name then .error (l.diagnose (.duplicateLabel name))
    else .ok (table ++ [(name, a)])

end SourceLine

namespace Program

/-- Adds the labels of lines that start at address `a`. -/
def symbolsFrom (a : Int) (table : SymbolTable) : Program → Except Diagnostic SymbolTable
  | [] => .ok table
  | l :: rest => do
    let table ← l.define a table
    symbolsFrom (l.after a) table rest

/-- The symbol table of a program at a base address. -/
def symbols (base : Int) (p : Program) : Except Diagnostic SymbolTable :=
  symbolsFrom base [] p

/-- The instruction lines of a program. -/
def instructionLines (p : Program) : Program :=
  p.filter (·.kind.isInstruction)

end Program

end Mips32
