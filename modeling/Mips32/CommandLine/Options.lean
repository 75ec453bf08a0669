import Mips32.CommandLine.Flag
import Mips32.Text.DecimalDigit

/-!
# Reading arguments

Reading goes in three steps. Each argument is classified on its own: text, flag, or an unknown flag;
behind a double dash everything is text. A flag with something attached to it is spread out into the
flags it joins and what the last of them demands. Then the arguments are taken one after the other:
flags take effect as they come, so a request for help ends the reading before any later complaint;
the first text is the input, and what nothing takes is left over.

An argument that looks like a negative number is text, and so is one with a space in it that starts
like no flag. A double dash attached to a flag is no value: an output without one counts as not
asked for, and a base address without one as missing.
-/

namespace Mips32.CommandLine

/-! ## Classification -/

/-- A flag as it is used: whether its spelling is a long one, and the text attached to it. An equals
sign between the two belongs to neither. -/
structure FlagUse where
  flag : Flag
  long : Bool
  value : Option Text
  deriving DecidableEq, Repr

/-- What an argument is. -/
inductive Argument where
  | plain (s : Text)
  | doubleDash
  | flag (use : FlagUse)
  | unknown (s : Text)
  deriving DecidableEq, Repr

/-- Whether a spelling is a long one. -/
def isLong (s : Text) : Bool :=
  s.take 2 == [.char '-', .char '-']

/-- Splits at the first equals sign. -/
def splitEquals (s : Text) : Text × Option Text :=
  match s.dropWhile (· != .char '=') with
  | [] => (s, none)
  | _ :: value => (s.takeWhile (· != .char '='), some value)

/-- Whether a text is written like a negative number: a minus and then digits of any script, with at
most one point, which digits follow. -/
def looksNegative (s : Text) : Bool :=
  let isDigit (c : CodePoint) : Bool := (Text.decimalDigit? c).isSome
  match Text.dropFinalNewline s with
  | '-' :: r =>
    match r.dropWhile isDigit with
    | [] => !r.isEmpty
    | '.' :: fraction => !fraction.isEmpty && fraction.all isDigit
    | _ => false
  | _ => false

/-- The uses that an argument which is no exact spelling may stand for. -/
def candidates (s : Text) : List (Text × FlagUse) :=
  if isLong s then
    let (name, value) := splitEquals s
    (Flag.spellings.filter fun e => (Text.dropPrefix? name e.1).isSome).map
      fun (spelling, flag) => (spelling, ⟨flag, true, value⟩)
  else
    match Flag.ofSpelling? (s.take 2) with
    | some flag => [(s.take 2, ⟨flag, false, some (s.drop 2)⟩)]
    | none => []

/-- A flag with a value behind an equals sign, if the spelling before it is exact. -/
def markedUse? (s : Text) : Option FlagUse :=
  match splitEquals s with
  | (name, some value) =>
    (Flag.ofSpelling? name).map fun flag => ⟨flag, isLong name, some value⟩
  | _ => none

/-- Classifies an argument that is no double dash. -/
def classify (s : Text) : Except UsageError Argument :=
  if s.head? ≠ some (.char '-') ∨ s = [.char '-'] then .ok (.plain s)
  else
    match Flag.ofSpelling? s, markedUse? s with
    | some flag, _ => .ok (.flag ⟨flag, isLong s, none⟩)
    | none, some use => .ok (.flag use)
    | none, none =>
      match candidates s with
      | [(_, use)] => .ok (.flag use)
      | [] => if looksNegative s || s.contains ' ' then .ok (.plain s) else .ok (.unknown s)
      | many => .error (.ambiguous s (many.map (·.1)))

/-- Classifies all arguments. Behind the first double dash everything is text. -/
def classifyAll : List Text → Except UsageError (List Argument)
  | [] => .ok []
  | s :: rest =>
    if s = [.char '-', .char '-'] then .ok (.doubleDash :: rest.map .plain)
    else do
      let a ← classify s
      let more ← classifyAll rest
      return a :: more

/-! ## Joined flags -/

/-- What is still to be done behind the flags of one argument. -/
inductive Demand where
  | nothing
  /-- This flag takes this value. -/
  | value (flag : Flag) (value : Text)
  /-- This flag takes the next argument. -/
  | next (flag : Flag)
  deriving DecidableEq, Repr

/-- A flag with nothing attached to it. -/
def bare (flag : Flag) : List Flag × Demand :=
  if flag.takesValue then ([], .next flag) else ([flag], .nothing)

/-- Spreads out a short flag with a text attached to it. A flag that takes no value joins the flag
that the first character spells; one that spells none is a value where none is taken. -/
def spread (flag : Flag) : Text → Except UsageError (List Flag × Demand)
  | [] => if flag.takesValue then .ok ([], .value flag []) else .error (.ignoredValue flag [])
  | c :: r =>
    if flag.takesValue then .ok ([], .value flag (c :: r))
    else
      match Flag.ofSpelling? ['-', c] with
      | none => .error (.ignoredValue flag (c :: r))
      | some next =>
        let rest : Except UsageError (List Flag × Demand) :=
          match r with
          | [] => .ok (bare next)
          | d :: more => spread next (d :: more)
        rest.map fun (flags, demand) => (flag :: flags, demand)

/-- Spreads out a flag with what is attached to it. -/
def FlagUse.spread (use : FlagUse) : Except UsageError (List Flag × Demand) :=
  match use.value with
  | none => .ok (bare use.flag)
  | some value =>
    if use.long then
      if use.flag.takesValue then .ok ([], .value use.flag value)
      else .error (.ignoredValue use.flag value)
    else CommandLine.spread use.flag value

/-! ## Options -/

/-- What the arguments ask for. There is no base address if the flag for it came without a value. -/
structure Options where
  input : Text
  output : Option Text
  base : Option Int
  dumpLabels : Bool
  verbose : Bool
  deriving DecidableEq, Repr

/-- Why reading ends without options. -/
inductive Stop where
  | help
  | usage (error : UsageError)

/-- Options while they are being collected, with the arguments that nothing has taken. -/
structure Draft where
  input : Option Text
  output : Option Text
  base : Option Int
  dumpLabels : Bool
  verbose : Bool
  left : List Text

namespace Draft

/-- Nothing collected yet. -/
def start : Draft :=
  ⟨none, none, some Address.defaultBase, false, false, []⟩

/-- Leaves an argument over. -/
def leave (d : Draft) (s : Text) : Draft :=
  { d with left := d.left ++ [s] }

/-- The effect of a flag without value. -/
def raise (d : Draft) : Flag → Except Stop Draft
  | .help => .error .help
  | .dumpLabels => .ok { d with dumpLabels := true }
  | .verbose => .ok { d with verbose := true }
  | _ => .ok d

/-- The effect of several flags without values. -/
def raiseAll (d : Draft) : List Flag → Except Stop Draft
  | [] => .ok d
  | flag :: rest => do
    let d ← d.raise flag
    d.raiseAll rest

/-- What a text attached to a flag says: a double dash is no value. -/
def said? (value : Text) : Option Text :=
  if value = [.char '-', .char '-'] then none else some value

/-- The effect of a flag with a value. -/
def assign (d : Draft) (flag : Flag) (value : Text) : Except Stop Draft :=
  match flag with
  | .output => .ok { d with output := said? value }
  | .baseAddress =>
    match (said? value).map Address.ofText with
    | none => .ok { d with base := none }
    | some (.ok base) => .ok { d with base := some base }
    | some (.error e) => .error (.usage (.badAddress e))
  | _ => .ok d

/-- Takes classified arguments one after the other. -/
def take (d : Draft) : List Argument → Except Stop Draft
  | [] => .ok d
  | .plain s :: rest =>
    if d.input.isSome then (d.leave s).take rest
    else
      match rest with
      | .doubleDash :: more => Draft.take { d with input := some s } more
      | more => Draft.take { d with input := some s } more
  | .doubleDash :: rest =>
    if d.input.isSome then (d.leave ['-', '-']).take rest
    else
      match rest with
      | .plain s :: more => Draft.take { d with input := some s } more
      | more => (d.leave ['-', '-']).take more
  | .unknown s :: rest => (d.leave s).take rest
  | .flag use :: rest => do
    let (flags, demand) ← use.spread.mapError .usage
    match demand with
    | .nothing => do
      let d ← d.raiseAll flags
      d.take rest
    | .value flag value => do
      let d ← d.raiseAll flags
      let d ← d.assign flag value
      d.take rest
    | .next flag =>
      match rest with
      | .plain value :: more => do
        let d ← d.raiseAll flags
        let d ← d.assign flag value
        d.take more
      | _ => .error (.usage (.missingValue flag))

/-- The options of a complete draft. -/
def finish (d : Draft) : Except Stop Options :=
  match d.input, d.left with
  | none, _ => .error (.usage .missingInput)
  | some _, _ :: _ => .error (.usage (.unrecognized d.left))
  | some input, [] => .ok ⟨input, d.output, d.base, d.dumpLabels, d.verbose⟩

end Draft

/-- Reads the arguments. -/
def Options.parse (arguments : List Text) : Except Stop Options := do
  let classified ← (classifyAll arguments).mapError .usage
  let draft ← Draft.start.take classified
  draft.finish

end Mips32.CommandLine
