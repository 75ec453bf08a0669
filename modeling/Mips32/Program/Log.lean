import Mips32.Event

/-!
# What a run tells

The events of a run follow the lines as the computations of `Program.symbols` and `Program.words`
do, and stop where these stop: a line that fails tells nothing, and a computation that fails is
never told to be complete.
-/

namespace Mips32

namespace SymbolicInstruction

/-- What linking an instruction at `pc` tells: each branch, and each jump out of its region. -/
def linkEvents (table : SymbolTable) (pc line : Int) (i : SymbolicInstruction) : List Event :=
  let branch (label : Text) : List Event :=
    match table.address? label with
    | some target => [.branchLinked i.mnemonic label target pc]
    | none => []
  match i with
  | .branchPair _ _ _ label => branch label
  | .branchSign _ _ label => branch label
  | .jump label =>
    match table.address? label with
    | some target =>
      if Address.sameRegion pc target then [] else [.jumpLeavesRegion line target pc]
    | none => []
  | _ => []

end SymbolicInstruction

/-- What encoding a line at `pc` tells, if it succeeds. -/
def encodeEvents (table : SymbolTable) (pc number : Int) (line : Text) : List Event :=
  match encodeLine table pc line, Statement.parse line with
  | .ok _, .ok statement =>
    match statement.instruction with
    | .ok i => i.linkEvents table pc number
    | .error _ => []
  | _, _ => []

namespace SourceLine

/-- What the line tells while symbols are collected, if it is no fault. -/
def defineEvents (l : SourceLine) (a : Int) : List Event :=
  let label : List Event :=
    match l.kind.label? with
    | some name => [.labelDefined name a]
    | none => []
  let directive : List Event :=
    match l.kind with
    | .directive _ body =>
      let name := Text.lower ((Text.words body).headD [])
      if Line.directives.contains name then [] else [.unknownDirective l.number name]
    | _ => []
  label ++ directive

end SourceLine

namespace Program

/-- What collecting symbols tells from a line on. -/
def symbolEventsFrom (a : Int) (table : SymbolTable) : Program → List Event
  | [] => [.symbolsDone]
  | l :: rest =>
    match l.define a table with
    | .error _ => []
    | .ok table => l.defineEvents a ++ symbolEventsFrom (l.after a) table rest

/-- What collecting the symbols of a program tells. -/
def symbolEvents (base : Int) (p : Program) : List Event :=
  .symbolsBegun :: symbolEventsFrom base [] p

/-- What encoding tells from a line on. -/
def wordEventsFrom (table : SymbolTable) (pc : Int) : Program → List Event
  | [] => [.wordsDone]
  | l :: rest =>
    if l.kind.isInstruction then
      match encodeLine table pc l.text with
      | .error _ => []
      | .ok word =>
        encodeEvents table pc l.number l.text ++ .encoded word l pc ::
          wordEventsFrom table (l.after pc) rest
    else wordEventsFrom table (l.after pc) rest

/-- What encoding a program tells. -/
def wordEvents (table : SymbolTable) (base : Int) (p : Program) : List Event :=
  .wordsBegun :: wordEventsFrom table base p

/-- What assembling a program tells. -/
def events (base : Int) (p : Program) : List Event :=
  p.symbolEvents base ++
    match p.symbols base with
    | .error _ => []
    | .ok table => p.wordEvents table base

end Program

end Mips32
