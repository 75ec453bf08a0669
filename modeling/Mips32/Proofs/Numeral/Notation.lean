import Mathlib.Algebra.Group.Nat.Defs
import Mips32.Proofs.Numeral.Spelling

/-!
# Notations of a number

A number is in print with all its digits, filled up or not, or with a fixed count of them. `InWidth`
and `Canonical` say what a reader may expect: which characters there are, how many, and the number
that they spell. `inWidth_padded`, `inWidth_lowDigits` and `canonical_digits` say that printing
meets it. The digits of fixed width are the lowest ones (`ofDigits_lowDigits`), so they spell the
number only if it fits, and a number that is filled up has that width only if it fits.
-/

namespace Mips32.Numeral

/-- The digits of a base up to sixteen, letters in lower case. -/
def alphabet (base : Nat) : Text :=
  "0123456789abcdef".text.take base

/-- A text of exactly `width` digits of a base that spell `n`. -/
structure InWidth (base width : Nat) (s : Text) (n : Int) : Prop where
  length : s.length = width
  digit : ∀ c ∈ s, c ∈ alphabet base
  value : (ofDigits base s : Int) = n

/-- A text of decimal digits without a zero in front that spell `n`. -/
structure Canonical (s : Text) (n : Int) : Prop where
  nonempty : s ≠ []
  digit : ∀ c ∈ s, c ∈ alphabet 10
  front : s.head? = some (.char '0') → s = [.char '0']
  value : (ofDigits 10 s : Int) = n

/-! ## Single digits -/

variable {base : Nat}

theorem getElem?_alphabet {d : Nat} (hd : d < 16) :
    "0123456789abcdef".text[d]? = some (.char (Nat.digitChar d)) := by
  have hall : ∀ d : Fin 16, "0123456789abcdef".text[d.val]? = some (.char (Nat.digitChar d)) := by
    decide
  exact hall ⟨d, hd⟩

theorem digitChar_mem_alphabet (hbase : base ≤ 16) {d : Nat} (hd : d < base) :
    .char (Nat.digitChar d) ∈ alphabet base := by
  refine List.mem_of_getElem? (i := d) ?_
  rw [alphabet, List.getElem?_take_of_lt hd, getElem?_alphabet (Nat.lt_of_lt_of_le hd hbase)]

theorem digitValue?_digitChar {d : Nat} (hd : d < 16) :
    digitValue? (Nat.digitChar d) = some d := by
  have hall : ∀ d : Fin 16, digitValue? (Nat.digitChar d) = some d.val := by decide
  exact hall ⟨d, hd⟩

theorem ofDigits_append_singleton (ds : Text) {d : Nat} (hd : d < 16) :
    ofDigits base (ds ++ [.char (Nat.digitChar d)]) = ofDigits base ds * base + d := by
  rw [ofDigits, List.foldl_append, List.foldl_cons, List.foldl_nil, digitValue?_digitChar hd]
  rfl

/-! ## A fixed count of digits -/

/-- Digits of fixed width spell what is left of the number at that width. -/
theorem ofDigits_lowDigits (hpos : 0 < base) (hbase : base ≤ 16) (width n : Nat) :
    ofDigits base (lowDigits base width n) = n % base ^ width := by
  induction width generalizing n with
  | zero => exact (Nat.mod_one n).symm
  | succ width ih =>
    have hdigit : n % base < 16 := Nat.lt_of_lt_of_le (Nat.mod_lt n hpos) hbase
    calc ofDigits base (lowDigits base (width + 1) n)
        = ofDigits base (lowDigits base width (n / base)) * base + n % base :=
          ofDigits_append_singleton _ hdigit
      _ = n / base % base ^ width * base + n % base := by rw [ih]
      _ = n % base + base * (n / base % base ^ width) := by rw [Nat.mul_comm, Nat.add_comm]
      _ = n % base ^ (width + 1) := by rw [← Nat.mod_mul, Nat.pow_succ']

theorem mem_alphabet_of_mem_lowDigits (hpos : 0 < base) (hbase : base ≤ 16) {width n : Nat}
    {c : CodePoint} (h : c ∈ lowDigits base width n) : c ∈ alphabet base := by
  induction width generalizing n with
  | zero => cases h
  | succ width ih =>
    rcases List.mem_append.1 h with h | h
    · exact ih h
    · rw [List.mem_singleton.1 h]
      exact digitChar_mem_alphabet hbase (Nat.mod_lt n hpos)

/-- A number that fits is spelled by its digits of fixed width. -/
theorem inWidth_lowDigits (hpos : 0 < base) (hbase : base ≤ 16) {width n : Nat}
    (hn : n < base ^ width) : InWidth base width (lowDigits base width n) n where
  length := length_lowDigits base width n
  digit := fun _ => mem_alphabet_of_mem_lowDigits hpos hbase
  value := by rw [ofDigits_lowDigits hpos hbase, Nat.mod_eq_of_lt hn]

/-- A number that fits has as many digits of fixed width as it has when it is filled up. -/
theorem padded_eq_lowDigits (hbase : 1 < base) {width n : Nat} (hn : n < base ^ (width + 1)) :
    padded base (width + 1) n = lowDigits base (width + 1) n := by
  induction width generalizing n with
  | zero =>
    have hn : n < base := by simpa using hn
    rw [padded, digits, Nat.toDigits_of_lt_base hn, lowDigits, Nat.mod_eq_of_lt hn]
    rfl
  | succ width ih =>
    have hdiv : n / base < base ^ (width + 1) :=
      Nat.div_lt_of_lt_mul (by rwa [Nat.pow_succ'] at hn)
    rw [lowDigits, ← ih hdiv]
    by_cases hlt : n < base
    · -- In front of a single digit are the zeros that fill up zero.
      rw [Nat.div_eq_of_lt hlt, Nat.mod_eq_of_lt hlt, padded, padded, digits, digits,
        Nat.toDigits_of_lt_base hlt, Nat.toDigits_zero]
      simp [List.replicate_succ']
    · have hdigits : digits base n =
          digits base (n / base) ++ [.char (Nat.digitChar (n % base))] := by
        rw [digits, Nat.toDigits_of_base_le hbase (Nat.le_of_not_lt hlt), List.map_append]
        rfl
      rw [padded, padded, hdigits, List.length_append, List.length_singleton, List.append_assoc,
        Nat.add_sub_add_right]

/-- A number that fits is spelled by its digits when they are filled up to the width. -/
theorem inWidth_padded (hpos : 1 < base) (hbase : base ≤ 16) {width n : Nat}
    (hn : n < base ^ (width + 1)) : InWidth base (width + 1) (padded base (width + 1) n) n := by
  rw [padded_eq_lowDigits hpos hn]
  exact inWidth_lowDigits (by omega) hbase hn

/-! ## All digits -/

/-- A number has its last digit behind the digits of a tenth of it. -/
theorem digits_cases (n : Nat) :
    n < 10 ∧ digits 10 n = [.char (Nat.digitChar n)] ∨
      0 < n / 10 ∧ digits 10 n = digits 10 (n / 10) ++ [.char (Nat.digitChar (n % 10))] := by
  by_cases hn : n < 10
  · exact .inl ⟨hn, by rw [digits, Nat.toDigits_of_lt_base hn]; rfl⟩
  · refine .inr ⟨by omega, ?_⟩
    rw [digits, Nat.toDigits_of_base_le (by decide) (by omega), List.map_append]
    rfl

theorem mem_alphabet_of_mem_digits {n : Nat} {c : CodePoint} (h : c ∈ digits 10 n) :
    c ∈ alphabet 10 := by
  induction n using Nat.strongRecOn with
  | ind n ih =>
    rcases digits_cases n with ⟨hn, hdigits⟩ | ⟨hn, hdigits⟩
    · rw [hdigits, List.mem_singleton] at h
      exact h ▸ digitChar_mem_alphabet (by decide) hn
    · rw [hdigits, List.mem_append, List.mem_singleton] at h
      rcases h with h | rfl
      · exact ih (n / 10) (by omega) h
      · exact digitChar_mem_alphabet (by decide) (Nat.mod_lt n (by decide))

/-- Only zero has a zero in front. -/
theorem eq_zero_of_head?_digits {n : Nat} (h : (digits 10 n).head? = some (.char '0')) : n = 0 := by
  induction n using Nat.strongRecOn with
  | ind n ih =>
    rcases digits_cases n with ⟨-, hdigits⟩ | ⟨hn, hdigits⟩
    · rw [hdigits] at h
      exact Nat.digitChar_eq_zero.1 (CodePoint.char.inj (Option.some.inj h))
    · rw [hdigits, List.head?_append, Option.or_of_isSome] at h
      · have := ih (n / 10) (by omega) h
        omega
      · exact List.isSome_head?.2 (digits_ne_nil _)

/-- The digits of a number spell it, without a zero in front. -/
theorem canonical_digits (n : Nat) : Canonical (digits 10 n) n where
  nonempty := digits_ne_nil n
  digit := fun _ => mem_alphabet_of_mem_digits
  front := fun h => by rw [eq_zero_of_head?_digits h]; rfl
  value := by rw [ofDigits_digits]

end Mips32.Numeral
