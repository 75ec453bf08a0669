/-!
# Code points

A string is spelled in numbers up to `0x10FFFF`, and not every such number is that of a character:
2048 of them, the surrogates, stand for halves of pairs of units of sixteen bits. A string from
outside may hold a surrogate on its own, as an escape in JSON or as an octet of a file name that is
no UTF-8, and two strings that differ in such a surrogate are different strings. So a code point is
a character or a surrogate, and a number tells its code point (`ofNat_toNat`).

Surrogates have no properties: none is a letter, a digit, a blank or a separator, and none has
another letter case.
-/

namespace Mips32

/-- A code point: a character, or the surrogate that stands so far behind the first of them. -/
inductive CodePoint where
  | char (c : Char)
  | surrogate (offset : Fin 0x800)
  deriving DecidableEq, Repr

/-- A character is a code point. -/
instance : Coe Char CodePoint :=
  ⟨.char⟩

namespace CodePoint

/-- The number of a code point. -/
def toNat : CodePoint → Nat
  | .char c => c.toNat
  | .surrogate offset => 0xD800 + offset

/-- The code point with a number, which is at most that of the last character. -/
def ofNat (n : Nat) : CodePoint :=
  if h : 0xD800 ≤ n ∧ n < 0xE000 then .surrogate ⟨n - 0xD800, by omega⟩ else .char (Char.ofNat n)

@[simp] theorem toNat_char (c : Char) : toNat (.char c) = c.toNat := rfl

/-- The number of a code point tells it. -/
theorem ofNat_toNat (c : CodePoint) : ofNat c.toNat = c := by
  cases c with
  | char c =>
    have h : ¬(0xD800 ≤ c.toNat ∧ c.toNat < 0xE000) := by
      have := c.valid
      simp only [UInt32.isValidChar, Nat.isValidChar] at this
      simp only [Char.toNat]
      omega
    simp [ofNat, toNat, h, Char.ofNat_toNat]
  | surrogate offset =>
    have h : 0xD800 + offset.val < 0xE000 := by omega
    simp [ofNat, toNat, h]

/-- Every number up to that of the last character is one of a code point. -/
theorem toNat_ofNat {n : Nat} (hn : n < 0x110000) : (ofNat n).toNat = n := by
  by_cases h : 0xD800 ≤ n ∧ n < 0xE000
  · simp only [ofNat, dif_pos h, toNat]
    omega
  · have hvalid : n.isValidChar := by
      simp only [Nat.isValidChar]
      omega
    rw [ofNat, dif_neg h, toNat_char, Char.ofNat, dif_pos hvalid]
    rfl

theorem toNat_inj {c d : CodePoint} : c.toNat = d.toNat ↔ c = d :=
  ⟨fun h => by rw [← ofNat_toNat c, h, ofNat_toNat], congrArg toNat⟩

/-- Whether a code point is a surrogate. -/
def isSurrogate : CodePoint → Bool
  | .char _ => false
  | .surrogate _ => true

theorem isSurrogate_of_toNat {c : CodePoint} (h : c.toNat < 0xD800) : c.isSurrogate = false := by
  cases c with
  | char c => rfl
  | surrogate offset =>
    simp only [toNat] at h
    omega

theorem isSurrogate_ofNat {n : Nat} (h : n < 0xD800 ∨ 0xE000 ≤ n) :
    (ofNat n).isSurrogate = false := by
  rw [ofNat, dif_neg (by omega)]
  rfl

/-- Code points are in the order of their numbers. -/
instance : LE CodePoint :=
  ⟨fun c d => c.toNat ≤ d.toNat⟩

instance (c d : CodePoint) : Decidable (c ≤ d) :=
  inferInstanceAs (Decidable (c.toNat ≤ d.toNat))

/-! ## Latin letters and digits -/

/-- Whether a code point is a capital from A to Z. -/
def isUpper (c : CodePoint) : Bool :=
  'A' ≤ c && c ≤ 'Z'

/-- Whether a code point is a small letter from a to z. -/
def isLower (c : CodePoint) : Bool :=
  'a' ≤ c && c ≤ 'z'

/-- Whether a code point is a letter from A to Z in either letter case. -/
def isAlpha (c : CodePoint) : Bool :=
  c.isUpper || c.isLower

/-- Whether a code point is a digit from 0 to 9. -/
def isDigit (c : CodePoint) : Bool :=
  '0' ≤ c && c ≤ '9'

/-- Whether a code point is such a letter or digit. -/
def isAlphanum (c : CodePoint) : Bool :=
  c.isAlpha || c.isDigit

/-- The small letter of a capital from A to Z; any other code point stays what it is. -/
def toLower (c : CodePoint) : CodePoint :=
  if c.isUpper then .ofNat (c.toNat + 32) else c

/-- The capital of a small letter from a to z; any other code point stays what it is. -/
def toUpper (c : CodePoint) : CodePoint :=
  if c.isLower then .ofNat (c.toNat - 32) else c

/-! ## Pairs of surrogates -/

/-- Whether a number is that of the first half of a pair of surrogates. -/
def isHighSurrogate (u : Nat) : Bool :=
  0xD800 ≤ u && u < 0xDC00

/-- Whether a number is that of the second half of a pair of surrogates. -/
def isLowSurrogate (u : Nat) : Bool :=
  0xDC00 ≤ u && u < 0xE000

/-- The number of the character that two halves make. -/
def joinPair (high low : Nat) : Nat :=
  0x10000 + (high - 0xD800) * 0x400 + (low - 0xDC00)

/-- The code points that numbers of characters and surrogates spell: two halves in a row are one. -/
def ofUnits : List Nat → List CodePoint
  | [] => []
  | [u] => [.ofNat u]
  | u :: v :: r =>
    if isHighSurrogate u && isLowSurrogate v then .ofNat (joinPair u v) :: ofUnits r
    else .ofNat u :: ofUnits (v :: r)

end CodePoint

end Mips32

/-- The code points of a string of characters. -/
def String.text (s : String) : List Mips32.CodePoint :=
  s.toList.map .char
