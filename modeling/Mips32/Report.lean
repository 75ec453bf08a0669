import Mips32.Program.Log

/-!
# Reports

A report is the full account of assembling a source text: every word in three notations beside its
address, the symbols, the listing, and the fault if there is one. A faulty program has a report too,
with the fault and nothing else in it. Only a numeral beyond the digit limit leaves no report.
-/

namespace Mips32

/-- A word in a report. -/
structure Report.Entry where
  address : Text
  hex : Text
  bin : Text
  dec : Text
  deriving DecidableEq, Repr

/-- The account of assembling a source text. -/
structure Report where
  entries : List Report.Entry
  symbols : List (Text × Text)
  listing : Text
  faults : List Diagnostic
  deriving DecidableEq, Repr

namespace Report

/-- A word with its address. -/
def Entry.ofWord (base : Int) (index : Nat) (word : Word) : Entry where
  address := Listing.hexWord (Address.ofIndex index base)
  hex := Listing.hexWord word.toNat
  bin := Numeral.padded 2 32 word.toNat
  dec := Numeral.decimal word.toNat

/-- The report of a run that has left an image and met some faults. -/
def ofRun (base : Int) (image : Program.Image) (faults : List Diagnostic) : Report where
  entries := image.words.zipIdx.map fun (word, index) => .ofWord base index word
  symbols := image.symbols.map fun (name, address) => (name, Listing.hexWord address)
  listing := if faults.isEmpty then Listing.ofWords image.words base else []
  faults := faults

/-- The report of an assembled program. -/
def ofImage (base : Int) (image : Program.Image) : Report :=
  ofRun base image []

/-- The report of a faulty program. -/
def ofFault (d : Diagnostic) : Report where
  entries := []
  symbols := []
  listing := []
  faults := [d]

/-- The report of a source text at a base address, or the number of digits that prevented it. -/
def ofText (base : Int) (source : Text) : Except Nat Report :=
  match (Program.ofText source).assemble base with
  | .ok image => .ok (ofImage base image)
  | .error (.fault d) => .ok (ofFault d)
  | .error (.tooManyDigits count) => .error count

/-- What making a report tells. -/
def events (base : Int) (source : Text) : List Event :=
  let p := Program.ofText source
  .cleaned p.length :: p.events base ++
    match p.assemble base with
    | .error (.fault d) => [.failed d]
    | _ => []

end Report

end Mips32
