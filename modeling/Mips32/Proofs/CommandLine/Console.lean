import Mips32.CommandLine.Run
import Mips32.Proofs.Listing.Columns
import Mips32.Proofs.Program.Layout
import Mips32.Proofs.Report
import Mips32.Proofs.Source.Label
import Mips32.Proofs.Text.Utf8

/-!
# What an output shows

A notice that the output shows is printed, and what comes after it follows; one that it refuses ends
the run. `Options.notices` are the notices of a run that assembles a program.

An output in UTF-8, or in any other encoding of all characters, refuses nothing but surrogates
(`Console.ShowsCharacters`). There are none in the labels of a file, since what is decoded are
characters (`shows_label`), so that only the path of the listing can have some.
-/

namespace Mips32

namespace CommandLine

/-- The output has an encoding for a text. -/
def Console.Shows (console : Console) (text : Text) : Prop :=
  console.refusal? text = none

variable {console : Console} {notice : Notice} {text : Text} {next : Script} {fs : FileSystem}

theorem play_say_of_shows (h : console.refusal? text = none) :
    (say notice text next).play console fs =
      { next.play console fs with output := text ++ (next.play console fs).output } := by
  simp only [say, Script.play, Console.print, h]

theorem play_say_of_refused {words : Text} (h : console.refusal? text = some words) :
    (say notice text next).play console fs =
      ⟨.crash (.unprintable notice words), [], [], fs⟩ := by
  simp only [say, Script.play, Console.print, h]

theorem not_isSurrogate_of_mem_hexWord (n : Int) :
    ∀ c ∈ Listing.hexWord n, c.isSurrogate = false := by
  intro c hc
  have := Numeral.toNat_of_isAlphanum (Listing.isAlphanum_of_mem_hexWord hc)
  exact CodePoint.isSurrogate_of_toNat (by omega)

variable {o : Options} {source : Text} {base : Int} {image : Program.Image}

end CommandLine

end Mips32
