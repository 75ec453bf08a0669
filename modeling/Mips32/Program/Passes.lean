import Mips32.Program.Log

/-!
# The passes as they are run

The computations of symbols and words do not look at the numbers of lines. What is told of them
does: an integer is converted to decimal text wherever an event or a fault shows it, and one of more
than `Numeral.digitLimit` digits is not converted. A pass ends there with a refusal, as it does at a
numeral in the source with too many digits; neither is a fault of the program.

Lines that are counted never have such numbers, but numbers and addresses can be given.
-/

namespace Mips32

/-! ## Integers that are shown -/

/-- Whether an integer is converted to decimal text: it has not too many digits. -/
def Numeral.isShown (n : Int) : Bool :=
  (digits 10 n.natAbs).length ≤ digitLimit

/-- Whether the wording of a fault can be made. Counts are those of lists and are shown. -/
def Fault.isShown : Fault → Bool
  | .integerRange _ low high => Numeral.isShown low && Numeral.isShown high
  | .branchRange _ distance => Numeral.isShown distance
  | _ => true

/-- Whether a fault can be told with its place. -/
def Diagnostic.isShown (d : Diagnostic) : Bool :=
  d.fault.isShown && Numeral.isShown d.line

/-- Whether the wording of an event can be made. -/
def Event.isShown : Event → Bool
  | .unknownDirective line _ => Numeral.isShown line
  | .branchLinked _ _ target pc => Numeral.isShown (Address.branchDistance pc target)
  | .jumpLeavesRegion line _ _ => Numeral.isShown line
  | .encoded _ line _ => Numeral.isShown line.number
  | .failed d => d.isShown
  | _ => true

/-! ## Refusals -/

/-- Why a command has no result: its computation fails, or meets an integer that is not shown. -/
inductive Refusal where
  | failure (cause : Failure Diagnostic)
  | overlong
  deriving DecidableEq, Repr

/-- What is said about an integer that is not shown. -/
def Refusal.overlongMessage : Text :=
  "Exceeds the limit (".text ++ Numeral.decimal Numeral.digitLimit ++
    " digits) for integer string conversion; use sys.set_int_max_str_digits() to increase ".text ++
    "the limit".text

/-- The refusal for a failure. A fault has to be told. -/
def Refusal.ofFailure : Failure Diagnostic → Refusal
  | .fault d => if d.isShown then .failure (.fault d) else .overlong
  | .tooManyDigits count => .failure (.tooManyDigits count)

/-- The result of a computation that tells events on its way. -/
def told {α : Type} (events : List Event) (result : Except (Failure Diagnostic) α) :
    Except Refusal α :=
  if events.all Event.isShown then result.mapError .ofFailure else .error .overlong

/-! ## Passes -/

namespace Program

/-- Collects the symbols of a program. -/
def firstPass (base : Int) (p : Program) : Except Refusal SymbolTable :=
  told (p.symbolEvents base) ((p.symbols base).mapError .fault)

/-- Encodes a program with a symbol table. -/
def secondPass (table : SymbolTable) (base : Int) (p : Program) : Except Refusal (List Word) :=
  told (p.wordEvents table base) (p.words table base)

end Program

end Mips32
