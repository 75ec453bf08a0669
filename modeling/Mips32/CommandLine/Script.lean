import Mips32.Address
import Mips32.FileSystem

/-!
# Scripts

The command line is written as a script: a tree of what it prints, reads and writes, where what
comes next depends on what the output and the file system answer. A script can be played with a
console on a model of a file system, which is how laws about it are stated, and carried out by the
operating system.

An output has an encoding and may have none for a text, while the error output escapes what it
cannot show.
-/

namespace Mips32.CommandLine

/-- What the program prints to the output. -/
inductive Notice where
  | help
  /-- A label with its address. -/
  | label
  /-- What was assembled and where the listing went. -/
  | summary
  deriving DecidableEq, Repr

/-- A failure that nothing answers for and that ends the program where it stands. -/
inductive Crash where
  /-- A base address was asked for, and none was given. -/
  | missingBase
  /-- A text in the place of a path that is none. -/
  | badPath (error : PathError)
  /-- A source that is no UTF-8. -/
  | undecodable (error : Text.Utf8.Error)
  /-- A decimal numeral of this many digits. -/
  | tooManyDigits (count : Nat)
  /-- A notice that the output refused, with its words for that. -/
  | unprintable (notice : Notice) (words : Text)
  deriving DecidableEq, Repr

def Crash.message : Crash → Text
  | .missingBase => (Address.Error.wrongType (.arr [])).message
  | .badPath error => error.message
  | .undecodable error => error.message
  | .tooManyDigits count => Numeral.tooManyDigitsMessage count
  | .unprintable _ words => words

/-- How a program ends. -/
inductive Ending where
  | exit (status : Nat)
  | crash (crash : Crash)
  deriving DecidableEq, Repr

/-- What a program does. -/
inductive Script where
  | stop (ending : Ending)
  /-- Prints to the output, which may refuse a text. -/
  | print (text : Text) (next : Except Text Unit → Script)
  /-- Prints to the error output. -/
  | report (text : Text) (next : Script)
  | read (path : Path) (next : Except OsError (List UInt8) → Script)
  | write (path : Path) (octets : List UInt8) (next : Except OsError Unit → Script)

/-- An output, by what it says of the texts that it has no encoding for. -/
structure Console where
  refusal? : Text → Option Text

namespace Console

/-- Prints a text. -/
def print (console : Console) (text : Text) : Except Text Unit :=
  match console.refusal? text with
  | none => .ok ()
  | some words => .error words

/-- An output in UTF-8, which refuses surrogates. -/
def utf8 : Console where
  refusal? text := (Text.Utf8.EncodeError.find? CodePoint.isSurrogate text).map (·.message)

end Console

/-- What a run leaves behind. -/
structure Outcome where
  ending : Ending
  output : Text
  errors : Text
  files : FileSystem

namespace Script

/-- Plays a script with a console on a file system. -/
def play (console : Console) (fs : FileSystem) : Script → Outcome
  | stop ending => ⟨ending, [], [], fs⟩
  | print text next =>
    match console.print text with
    | .ok () =>
      let o := (next (.ok ())).play console fs
      { o with output := text ++ o.output }
    | .error words => (next (.error words)).play console fs
  | report text next =>
    let o := next.play console fs
    { o with errors := text ++ o.errors }
  | read path next => (next (fs.read path)).play console fs
  | write path octets next =>
    match fs.write path octets with
    | .ok fs' => (next (.ok ())).play console fs'
    | .error e => (next (.error e)).play console fs

end Script

end Mips32.CommandLine
