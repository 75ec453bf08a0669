import Mips32.CommandLine.Options
import Mips32.CommandLine.Script
import Mips32.Program.Log
import Mips32.Text.Lines

/-!
# The command line

Assembles one file into a listing file. The source is read as text, so that its newlines are unified
before its lines are told apart. Nothing is written before the whole program has been assembled; a
refusal by the operating system and a fault of the program end with status 1, wrong arguments with
status 2.
-/

namespace Mips32.CommandLine

/-- The lines of the log for some events: all of them if asked for, else the warnings. -/
def log (verbose : Bool) (events : List Event) : Text :=
  (events.filter fun e => verbose || e.level = .warning).flatMap fun e =>
    e.level.name ++ .char ' ' :: e.origin ++ .char ':' :: .char ' ' :: e.message ++ [.char '\n']

/-- A label with its address. -/
def labelLine (label : Text × Int) : Text :=
  label.1 ++ .char ':' :: .char ' ' :: Listing.hexWord label.2

/-- The labels with their addresses, a line each, in ascending order of addresses. -/
def labelLines (table : SymbolTable) : List Text :=
  table.byAddress.map fun label => labelLine label ++ [.char '\n']

/-- What is said when the listing of so many words is in the file at a path. -/
def summary (count : Nat) (path : Text) : Text :=
  "Assembled ".text ++ Numeral.decimal count ++ " instructions into ".text ++ path ++ [.char '\n']

/-- Ends with a status. -/
def exit (status : Nat) : Script :=
  .stop (.exit status)

/-- Prints a notice. Nothing answers for one that is refused. -/
def say (notice : Notice) (text : Text) (next : Script) : Script :=
  .print text fun
    | .ok () => next
    | .error words => .stop (.crash (.unprintable notice words))

/-- Prints notices of one kind, one after the other. -/
def sayAll (notice : Notice) : List Text → Script → Script
  | [], next => next
  | text :: rest, next => say notice text (sayAll notice rest next)

/-- Goes on with the path that a text spells. -/
def withPath (text : Text) (next : Path → Script) : Script :=
  match Path.ofText text with
  | .ok path => next path
  | .error e => .stop (.crash (.badPath e))

/-- Where the listing goes. -/
def Options.target (o : Options) : Text :=
  match o.output with
  | some path => if path = [] then Listing.pathFor o.input else path
  | none => Listing.pathFor o.input

/-- Writes the listing of an assembled program. -/
def writeListing (o : Options) (base : Int) (image : Program.Image) : Script :=
  withPath o.target fun path =>
    .write path (Text.Utf8.encode (Listing.ofWords image.words base)) fun
      | .error e =>
        .report ("Error: cannot write ".text ++ o.target ++ ": ".text ++ e.message o.target ++
          [.char '\n']) <| exit 1
      | .ok () =>
        .report (log o.verbose [.written image.words.length o.target]) <|
          if o.verbose then say .summary (summary image.words.length o.target) <| exit 0
          else exit 0

/-- Assembles a program and writes its listing. -/
def assemble (o : Options) (base : Int) (p : Program) : Script :=
  .report (log o.verbose (p.events base)) <|
    match p.assemble base with
    | .error (.tooManyDigits count) => .stop (.crash (.tooManyDigits count))
    | .error (.fault d) =>
      .report ("Assembler error: ".text ++ d.message ++ [.char '\n']) <| exit 1
    | .ok image =>
      if o.dumpLabels then sayAll .label (labelLines image.symbols) (writeListing o base image)
      else writeListing o base image

/-- Assembles a program that has been read, for which a base address is needed. -/
def assembleRead (o : Options) (p : Program) : Script :=
  .report (log o.verbose [.cleaned p.length]) <|
    match o.base with
    | none => .stop (.crash .missingBase)
    | some base => assemble o base p

/-- The text of a source file. -/
def sourceText (octets : List UInt8) : Except Text.Utf8.Error Text :=
  (Text.Utf8.decode octets).map Text.unifyNewlines

/-- Carries out what the arguments ask for. -/
def run (o : Options) : Script :=
  withPath o.input fun path =>
    .read path fun
      | .error e =>
        .report ("Error: cannot read ".text ++ o.input ++ ": ".text ++ e.message o.input ++
          [.char '\n']) <| exit 1
      | .ok octets =>
        match sourceText octets with
        | .error e => .stop (.crash (.undecodable e))
        | .ok source => assembleRead o (.ofText source)

/-- What the program does for some arguments. -/
def script (arguments : List Text) : Script :=
  match Options.parse arguments with
  | .ok o => run o
  | .error .help => say .help help <| exit 0
  | .error (.usage e) => .report e.report <| exit 2

end Mips32.CommandLine
