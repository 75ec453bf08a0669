import Mips32.Address

/-!
# The flags of the command line

Five flags, two of which take a value. Long spellings may be cut short as long as only one flag
begins so; short ones may be joined, and a value may follow its short flag directly. This module
holds the flags, the texts about them, and the errors of usage; `CommandLine.Options` reads
arguments.
-/

namespace Mips32.CommandLine

/-- A flag. -/
inductive Flag where
  | help
  | output
  | baseAddress
  | dumpLabels
  | verbose
  deriving DecidableEq, Repr

namespace Flag

/-- Whether a flag takes a value. -/
def takesValue : Flag → Bool
  | .output | .baseAddress => true
  | _ => false

/-- How errors name a flag. -/
def title : Flag → Text
  | .help => "-h/--help".text
  | .output => "-o/--output".text
  | .baseAddress => "--base-address".text
  | .dumpLabels => "--dump-labels".text
  | .verbose => "-v/--verbose".text

/-- All spellings, in the order in which they are tried. -/
def spellings : List (Text × Flag) :=
  [("-h".text, .help), ("--help".text, .help), ("-o".text, .output),
   ("--output".text, .output), ("--base-address".text, .baseAddress),
   ("--dump-labels".text, .dumpLabels), ("-v".text, .verbose), ("--verbose".text, .verbose)]

/-- The flag with a spelling. -/
def ofSpelling? (s : Text) : Option Flag :=
  spellings.lookup s

end Flag

/-- The name of the program. -/
def program : Text :=
  "mipsasm".text

/-- The short account of the usage. -/
def usage : Text :=
  ("usage: mipsasm [-h] [-o OUTPUT] [--base-address BASE_ADDRESS] [--dump-labels]\n" ++
   "               [-v]\n" ++
   "               input\n").text

/-- The long account of the usage. -/
def help : Text :=
  usage ++
  ("\nTwo-pass MIPS-32 subset assembler\n" ++
   "\npositional arguments:\n" ++
   "  input                 Input assembly file\n" ++
   "\noptions:\n" ++
   "  -h, --help            show this help message and exit\n" ++
   "  -o OUTPUT, --output OUTPUT\n" ++
   "                        Output listing file (default: INPUT with .obj\n" ++
   "                        extension)\n" ++
   "  --base-address BASE_ADDRESS\n" ++
   "                        Address of the first instruction (default: 0x00400000)\n" ++
   "  --dump-labels         Print label addresses after assembly\n" ++
   "  -v, --verbose         Debug logging\n").text

/-- What can be wrong with the arguments. -/
inductive UsageError where
  | ambiguous (argument : Text) (spellings : List Text)
  | ignoredValue (flag : Flag) (value : Text)
  | missingValue (flag : Flag)
  | badAddress (error : Address.Error)
  | missingInput
  | unrecognized (arguments : List Text)

/-- Texts with a separator between them. -/
def joinWith (separator : Text) : List Text → Text
  | [] => []
  | [s] => s
  | s :: rest => s ++ separator ++ joinWith separator rest

def UsageError.message : UsageError → Text
  | .ambiguous argument spellings =>
    "ambiguous option: ".text ++ argument ++ " could match ".text ++
      joinWith ", ".text spellings
  | .ignoredValue flag value =>
    "argument ".text ++ flag.title ++ ": ignored explicit argument ".text ++ Text.quoted value
  | .missingValue flag =>
    "argument ".text ++ flag.title ++ ": expected one argument".text
  | .badAddress error =>
    "argument ".text ++ Flag.baseAddress.title ++ ": ".text ++ error.message
  | .missingInput => "the following arguments are required: input".text
  | .unrecognized arguments =>
    "unrecognized arguments: ".text ++ joinWith [' '] arguments

/-- The usage and the error. -/
def UsageError.report (e : UsageError) : Text :=
  usage ++ program ++ ": error: ".text ++ e.message ++ [.char '\n']

end Mips32.CommandLine
