import Mips32.Json.Display
import Mips32.Numeral.Literal

/-!
# Addresses

Addresses are integers; those of a program stay below `2 ^ 32` and wrap there. The next instruction
stands four further on, and `ofIndex` tells where the instruction with a given index stands: the two
agree (`next_ofIndex`), so counting up along a program and printing by index give one address.

A base address comes from outside as a JSON value, an integer or a literal in a string, and has to
be the address of a word.
-/

namespace Mips32.Address

/-- The number of addresses. -/
def space : Int := 0x100000000

/-- Where a program starts if nothing else is said. -/
def defaultBase : Int := 0x00400000

/-- The address of the instruction behind the one at `a`. -/
def next (a : Int) : Int :=
  (a + 4) % space

/-- The address of the instruction with an index in a program at `base`. -/
def ofIndex (index base : Int) : Int :=
  (base + index * 4) % space

/-- Stepping on from one index leads to the next. -/
theorem next_ofIndex (index base : Int) : next (ofIndex index base) = ofIndex (index + 1) base := by
  simp only [next, ofIndex, space]
  omega

/-- Whether `a` is the address of a word. -/
def IsWord (a : Int) : Prop :=
  0 ≤ a ∧ a < space ∧ a % 4 = 0

instance (a : Int) : Decidable (IsWord a) :=
  inferInstanceAs (Decidable (_ ∧ _ ∧ _))

/-- The first index is at the base. -/
theorem ofIndex_zero {base : Int} (h : IsWord base) : ofIndex 0 base = base := by
  simp only [IsWord, ofIndex, space] at h ⊢
  omega

/-- Why a value is no base address. -/
inductive Error where
  /-- A value that is neither an integer nor a string. -/
  | wrongType (value : Json)
  /-- A string that holds no literal. -/
  | malformed (literal : Text)
  /-- A literal of too many decimal digits. -/
  | tooManyDigits (count : Nat)
  /-- A number that is no address. -/
  | range (a : Int)
  /-- An address inside a word. -/
  | misaligned (a : Int)

/-- The literal is shown quoted and cut after 200 characters. -/
def Error.message : Error → Text
  | .wrongType value => "Invalid address: ".text ++ value.display
  | .malformed literal =>
    "invalid literal for int() with base 0: ".text ++ (Text.quoted literal).take 200
  | .tooManyDigits count => Numeral.tooManyDigitsMessage count
  | .range a =>
    "Address 0x".text ++ Numeral.hexadecimal 0 a ++ " does not fit in 32 bits".text
  | .misaligned a => "Address 0x".text ++ Numeral.hexadecimal 8 a ++ " is not word-aligned".text

/-- Accepts the address of a word. -/
def ofInt (a : Int) : Except Error Int :=
  if ¬(0 ≤ a ∧ a < space) then .error (.range a)
  else if a % 4 ≠ 0 then .error (.misaligned a)
  else .ok a

/-- Reads an address literal, with blanks around it. -/
def ofText (s : Text) : Except Error Int :=
  let literal := Text.trim s
  match Numeral.readFree literal with
  | .ok a => ofInt a
  | .error .malformed => .error (.malformed literal)
  | .error (.tooManyDigits count) => .error (.tooManyDigits count)

/-- Reads an address from a value. -/
def ofJson : Json → Except Error Int
  | .int a => ofInt a
  | .str s => ofText s
  | v => .error (.wrongType v)

/-- Only addresses of words are accepted. -/
theorem isWord_of_ofInt {a b : Int} (h : ofInt a = .ok b) : b = a ∧ IsWord a := by
  unfold ofInt at h
  split at h
  · cases h
  · split at h
    · cases h
    · cases h
      exact ⟨rfl, by simp only [IsWord]; omega⟩

theorem isWord_of_ofText {s : Text} {a : Int} (h : ofText s = .ok a) : IsWord a := by
  unfold ofText at h
  simp only at h
  split at h
  case h_1 n hn =>
    obtain ⟨rfl, hword⟩ := isWord_of_ofInt h
    exact hword
  all_goals cases h

end Mips32.Address
