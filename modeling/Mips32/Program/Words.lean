import Mips32.Isa.Word
import Mips32.Program.Link
import Mips32.Program.Symbols
import Mips32.Source.Statement

/-!
# The words of a program

With the symbol table complete, each instruction line becomes one word: the line is cut into a
statement, its operands are read, it is linked at its address, and encoded. The first line that
fails ends the computation.
-/

namespace Mips32

/-- The word of an instruction line at address `pc`. -/
def encodeLine (table : SymbolTable) (pc : Int) (line : Text) : Except (Failure Fault) Word := do
  let statement ← (Statement.parse line).mapError .fault
  let instruction ← statement.instruction
  let linked ← (instruction.link table pc).mapError .fault
  return linked.encode

namespace Program

/-- The words of lines that start at address `pc`. -/
def wordsFrom (table : SymbolTable) (pc : Int) : Program → Except (Failure Diagnostic) (List Word)
  | [] => .ok []
  | l :: rest =>
    if l.kind.isInstruction then do
      let word ← (encodeLine table pc l.text).mapError (.locate l.number l.text)
      let words ← wordsFrom table (l.after pc) rest
      return word :: words
    else wordsFrom table (l.after pc) rest

/-- The words of a program at a base address. -/
def words (table : SymbolTable) (base : Int) (p : Program) :
    Except (Failure Diagnostic) (List Word) :=
  wordsFrom table base p

/-- An assembled program: its symbols and its words. -/
structure Image where
  symbols : SymbolTable
  words : List Word
  deriving DecidableEq, Repr

/-- The image of no program. -/
def Image.empty : Image :=
  ⟨[], []⟩

/-- Assembles a program at a base address. -/
def assemble (base : Int) (p : Program) : Except (Failure Diagnostic) Image := do
  let symbols ← (p.symbols base).mapError .fault
  let words ← p.words symbols base
  return ⟨symbols, words⟩

end Program

end Mips32
