import Mips32.Program.Words
import Mips32.Listing

/-!
# Events of a run

A run tells what it does by events of three levels. Only warnings matter to a user who has not asked
for more: an unknown directive, a jump out of its region, a failed assembly. Where an
address is shown it is filled up to eight digits, whatever its size.
-/

namespace Mips32

/-- Something that a run tells. -/
inductive Event where
  | cleaned (count : Nat)
  | symbolsBegun
  | labelDefined (name : Text) (address : Int)
  | unknownDirective (line : Int) (directive : Text)
  | symbolsDone
  | wordsBegun
  | branchLinked (mnemonic : Mnemonic) (label : Text) (target pc : Int)
  | jumpLeavesRegion (line target pc : Int)
  | encoded (word : Word) (line : SourceLine) (pc : Int)
  | wordsDone
  | failed (diagnostic : Diagnostic)
  | written (count : Nat) (path : Text)
  deriving DecidableEq, Repr

namespace Event

/-- How important an event is. -/
inductive Level where
  | debug
  | info
  | warning
  deriving DecidableEq, Repr

def Level.name : Level → Text
  | .debug => "DEBUG".text
  | .info => "INFO".text
  | .warning => "WARNING".text

def level : Event → Level
  | .unknownDirective .. | .jumpLeavesRegion .. | .failed _ => .warning
  | .written .. => .info
  | _ => .debug

/-- The part of the program that tells the event. -/
def origin : Event → Text
  | .cleaned _ | .written .. => "mipsasm.mips_listing".text
  | _ => "mipsasm.mips_assembler".text

/-- An address after its mark. -/
def showAddress (a : Int) : Text :=
  .char '0' :: .char 'x' :: Numeral.hexadecimal 8 a

def message : Event → Text
  | .cleaned count =>
    "Source cleaned: ".text ++ Numeral.decimal count ++ " significant lines".text
  | .symbolsBegun => "--- Starting First Pass ---".text
  | .labelDefined name address =>
    "Pass 1: Label '".text ++ name ++ "' defined at address ".text ++ showAddress address
  | .unknownDirective line directive =>
    "Line ".text ++ Numeral.decimal line ++ ": unknown directive '".text ++ directive ++
      "' skipped".text
  | .symbolsDone => "--- First Pass Complete ---".text
  | .wordsBegun => "--- Starting Second Pass ---".text
  | .branchLinked mnemonic label target pc =>
    let distance := Address.branchDistance pc target
    "Branch '".text ++ mnemonic.name ++ "' to '".text ++ label ++ "' (".text ++
      showAddress target ++ ") from ".text ++ showAddress pc ++ ". Offset = ".text ++
      Numeral.decimal distance ++ ". Encoded imm = 0x".text ++
      Numeral.lowDigits 16 4 (BitVec.ofInt 16 distance).toNat
  | .jumpLeavesRegion line target pc =>
    "Warning line ".text ++ Numeral.decimal line ++ ": Jump target ".text ++
      showAddress target ++ " crosses 256MB boundary from ".text ++ showAddress pc ++ [.char '.']
  | .encoded word line pc =>
    "Pass 2: Assembled ".text ++ Listing.hexWord word.toNat ++ " for '".text ++ line.text ++
      "' at ".text ++ showAddress pc ++ " (from line ".text ++ Numeral.decimal line.number ++
      [.char ')']
  | .wordsDone => "--- Second Pass Complete ---".text
  | .failed d =>
    "Assembly failed: ".text ++ d.fault.message ++ " (line ".text ++ Numeral.decimal d.line ++
      [.char ')']
  | .written count path =>
    "Wrote ".text ++ Numeral.decimal count ++ " words to ".text ++ path

/-- The texts of the warnings among some events. -/
def warnings (events : List Event) : List Text :=
  (events.filter (·.level = .warning)).map message

end Event

end Mips32
