import Mips32.CommandLine.Run

/-!
# The program

Carries the script of the command line out: prints, reads and writes go to the operating system, and
its refusals come back as the script expects them. Everything else is decided by the script.
-/

namespace Mips32.CommandLine

/-- A refusal with the code and the words of the operating system. A device that is full is no fault
of the path. -/
def refusalOf (code : UInt32) (details : String) : OsError :=
  if code.toNat = OsError.noSpace.code then .noSpace else ⟨code.toNat, details.text, true⟩

/-- A refusal of the operating system as the script knows it. -/
def refusal : IO.Error → OsError
  | .noFileOrDirectory .. => .noEntry
  | .inappropriateType _ code details => refusalOf code details
  | .permissionDenied _ code details => refusalOf code details
  | .invalidArgument _ code details => refusalOf code details
  | .resourceExhausted _ code details => refusalOf code details
  | .alreadyExists _ code details => refusalOf code details
  | e => ⟨5, (toString e).text, true⟩

/-- A text for the error output, which escapes surrogates. -/
def escaped (s : Text) : String :=
  String.ofList <| s.flatMap fun
    | .char c => [c]
    | .surrogate offset => "\\u".toList ++ Nat.toDigits 16 (0xD800 + offset.val)

/-- A path for the operating system, which is given characters only here. -/
def filePath (path : Path) : Except OsError String :=
  match String.fromUTF8? ⟨path.toArray⟩ with
  | some s => .ok s
  | none => .error .noEntry

/-- Prints a text to the output. -/
def printText (text : Text) : IO (Except Text Unit) := do
  match Console.utf8.print text with
  | .error words => return .error words
  | .ok () =>
    (← IO.getStdout).putStr (escaped text)
    return .ok ()

/-- Reads the octets of a file. -/
def readOctets (path : Path) : IO (Except OsError (List UInt8)) := do
  match filePath path with
  | .error e => return .error e
  | .ok path =>
    try
      let bytes ← IO.FS.readBinFile path
      return .ok bytes.toList
    catch e => return .error (refusal e)

/-- Writes the octets of a file. -/
def writeOctets (path : Path) (octets : List UInt8) : IO (Except OsError Unit) := do
  match filePath path with
  | .error e => return .error e
  | .ok path =>
    try
      IO.FS.writeBinFile path ⟨octets.toArray⟩
      return .ok ()
    catch e => return .error (refusal e)

/-- Carries a script out and returns the exit status. -/
def Script.perform : Script → IO UInt32
  | .stop (.exit status) => return status.toUInt32
  | .stop (.crash c) => do
    (← IO.getStderr).putStrLn (escaped c.message)
    return 1
  | .print text next => do
    let done ← printText text
    (next done).perform
  | .report text next => do
    (← IO.getStderr).putStr (escaped text)
    next.perform
  | .read path next => do
    let octets ← readOctets path
    (next octets).perform
  | .write path octets next => do
    let done ← writeOctets path octets
    (next done).perform

end Mips32.CommandLine

/-- Runs the program with the arguments of the command line. -/
def main (arguments : List String) : IO UInt32 :=
  (Mips32.CommandLine.script (arguments.map String.text)).perform
