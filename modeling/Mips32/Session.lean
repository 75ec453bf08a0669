import Mips32.Program.Passes
import Mips32.Report

/-!
# Sessions

A session is an assembler that is used again and again: it keeps the base address it was started
with and the image of its last run. A run clears the image before it begins and stores the new one
when both passes are done, so a run that is refused leaves the empty image behind. All other
commands leave the image alone, and only one of them looks at it: encoding lines without a symbol
table of their own.
-/

namespace Mips32

/-- The state of an assembler between commands. -/
structure Session where
  base : Int
  image : Program.Image
  deriving DecidableEq, Repr

/-- What an assembler can be asked. Line numbers are those that a fault is reported under. -/
inductive Command where
  | assemble (source : Text)
  | assembleLines (lines : List Text) (numbers : Option (List Int))
  | symbols (lines : List Text) (numbers : Option (List Int))
  | words (lines : List Text) (numbers : Option (List Int)) (table : Option SymbolTable)
  | encode (line : Text) (table : SymbolTable) (pc number : Int)
  | classify (line : Text)
  | parse (line : Text) (number : Int)
  | operands (statement : Statement) (table : SymbolTable) (number : Int) (line : Text)
  | register (operand : Text) (number : Int) (line : Text)
  | integer (operand : Text) (low high number : Int) (line : Text)
  | memory (operand : Text) (number : Int) (line : Text)
  | resolve (label : Text) (table : SymbolTable) (number : Int) (line : Text)

/-- What an assembler answers. -/
inductive Answer where
  | report (report : Report)
  | image (image : Program.Image)
  | symbols (table : SymbolTable)
  | words (words : List Word)
  | word (word : Word)
  | line (line : Line)
  | statement (statement : Statement)
  /-- An instruction, with the address of its label if it names one. -/
  | operands (instruction : SymbolicInstruction) (target : Option Int)
  | register (register : Register)
  | integer (n : Int)
  | memory (offset : Int) (base : Register)
  | address (a : Int)

/-- The program that a command runs, if it runs one. -/
def Command.program? : Command → Option Program
  | .assemble source => some (.ofText source)
  | .assembleLines lines numbers => some (.ofLines lines numbers)
  | _ => none

/-- Reads the operands of a statement, and looks its label up. -/
def Statement.operandsIn (table : SymbolTable) (s : Statement) :
    Except (Failure Fault) (SymbolicInstruction × Option Int) := do
  let i ← s.instruction
  match i.label? with
  | none => return (i, none)
  | some label =>
    let a ← (SymbolicInstruction.resolve table label).mapError .fault
    return (i, some a)

namespace Session

/-- A session before its first command. -/
def start (base : Int) : Session :=
  ⟨base, .empty⟩

/-- Starts a session at a base address from outside. -/
def ofJson (base : Json) : Except Address.Error Session :=
  (Address.ofJson base).map start

/-! ## Work on a session -/

/-- Work on a session. What it has changed before it is refused stays changed. -/
abbrev Work := ExceptT Refusal (StateM Session)

/-- Runs both passes over a program. -/
def assembleProgram (p : Program) : Work Program.Image := do
  modify fun s => { s with image := .empty }
  let symbols ← ofExcept (p.firstPass (← get).base)
  let words ← ofExcept (p.secondPass symbols (← get).base)
  modify fun s => { s with image := ⟨symbols, words⟩ }
  return ⟨symbols, words⟩

/-- Assembles a source text and reports on it. A fault is a part of the report, which is read off
what the run has left. -/
def assembleText (source : Text) : Work Report := do
  let faults ←
    tryCatch (do let _ ← assembleProgram (.ofText source); return []) fun
      | .failure (.fault d) => return [d]
      | refusal => throw refusal
  let s ← get
  return .ofRun s.base s.image faults

/-- The result of a computation over one line, which tells nothing but its fault. -/
def atLine {α : Type} (number : Int) (line : Text) (result : Except (Failure Fault) α) : Work α :=
  ofExcept (told [] (result.mapError (.locate number line)))

/-- Carries a command out. -/
def step : Command → Work Answer
  | .assemble source => do
    let report ← assembleText source
    return .report report
  | .assembleLines lines numbers => do
    let image ← assembleProgram (.ofLines lines numbers)
    return .image image
  | .symbols lines numbers => do
    let table ← ofExcept ((Program.ofLines lines numbers).firstPass (← get).base)
    return .symbols table
  | .words lines numbers table => do
    let s ← get
    let table := table.getD s.image.symbols
    let words ← ofExcept ((Program.ofLines lines numbers).secondPass table s.base)
    return .words words
  | .encode line table pc number => do
    let result := (encodeLine table pc line).mapError (.locate number line)
    let word ← ofExcept (told (encodeEvents table pc number line) result)
    return .word word
  | .classify line => return .line (Line.classify line)
  | .parse line number => do
    let statement ← atLine number line ((Statement.parse line).mapError .fault)
    return .statement statement
  | .operands statement table number line => do
    let (i, target) ← atLine number line (statement.operandsIn table)
    return .operands i target
  | .register operand number line => do
    let register ← atLine number line (Operand.register operand)
    return .register register
  | .integer operand low high number line => do
    let n ← atLine number line (Operand.integer low high operand)
    return .integer n
  | .memory operand number line => do
    let (offset, base) ← atLine number line (Operand.memory operand)
    return .memory offset base
  | .resolve label table number line => do
    let a ← atLine number line ((SymbolicInstruction.resolve table label).mapError .fault)
    return .address a

/-- The answer to a command. -/
def answer (s : Session) (c : Command) : Except Refusal Answer :=
  ((step c).run.run s).1

/-- The state after a command. -/
def next (s : Session) (c : Command) : Session :=
  ((step c).run.run s).2

/-- What carrying out a command tells, up to what cannot be told. -/
def events (s : Session) (c : Command) : List Event :=
  let all : List Event :=
    match c with
    | .assemble source => Report.events s.base source
    | .assembleLines lines numbers => (Program.ofLines lines numbers).events s.base
    | .symbols lines numbers => (Program.ofLines lines numbers).symbolEvents s.base
    | .words lines numbers table =>
      (Program.ofLines lines numbers).wordEvents (table.getD s.image.symbols) s.base
    | .encode line table pc number => encodeEvents table pc number line
    | _ => []
  all.takeWhile Event.isShown

/-- The answers to a list of commands, each with the state behind it. -/
def run (s : Session) : List Command → List (Except Refusal Answer × Session)
  | [] => []
  | c :: rest => (s.answer c, s.next c) :: run (s.next c) rest

end Session

end Mips32
