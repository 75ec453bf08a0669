import Mathlib.Data.List.TakeWhile
import Mips32.Proofs.Numeral.Notation
import Mips32.Proofs.Text.Runs

/-!
# Reading numerals in print

An address literal is read by its mark. `Prints` lists the numerals that numbers are printed with,
all decimal digits or a mark with hexadecimal digits behind it, and `readFree_of_prints` says that
such a numeral is read as its number, with a sign in front of it or none. The other literals that
are read (octal and binary ones, underscores, digits of other scripts) are never printed.
-/

namespace Mips32.Numeral

/-- The numerals in print, each with its number: all decimal digits, or a mark and hexadecimal
digits in either letter case with any count of zeros in front. -/
inductive Prints : Text → Nat → Prop
  | decimal (n : Nat) : Prints (digits 10 n) n
  | hexadecimal {x : CodePoint} {ds : Text} (hx : x = 'x' ∨ x = 'X') (hne : ds ≠ [])
      (hd : ∀ c ∈ ds, isDigit 16 c = true) : Prints (.char '0' :: x :: ds) (ofDigits 16 ds)

variable {base n : Nat} {ds t : Text}

/-! ## Characters -/

theorem not_isBlank_of_isAlphanum {c : CodePoint} (h : c.isAlphanum = true) :
    Text.isBlank c = false := by
  obtain ⟨hlow, hhigh⟩ := toNat_of_isAlphanum h
  exact Text.not_isBlank_of_toNat (by omega) (by omega)

theorem ne_underscore_of_isDigit {c : CodePoint} (h : isDigit base c = true) : c ≠ '_' := by
  rintro rfl
  exact absurd (isAlphanum_of_isDigit h) (by decide)

/-- A numeral in print consists of ASCII letters and digits. -/
theorem isAlphanum_of_prints (h : Prints t n) : ∀ c ∈ t, c.isAlphanum = true := by
  cases h with
  | decimal => exact fun c hc => isAlphanum_of_isDigit (isDigit_of_mem_digits hc)
  | hexadecimal hx _ hd =>
    refine List.forall_mem_cons.2 ⟨by decide, List.forall_mem_cons.2 ⟨?_, fun c hc =>
      isAlphanum_of_isDigit (hd c hc)⟩⟩
    rcases hx with rfl | rfl <;> decide

/-- A numeral in print begins with a digit. -/
theorem head?_of_prints (h : Prints t n) : t.head?.any (isDigit 10) = true := by
  cases h with
  | decimal =>
    obtain ⟨c, r, hcons⟩ := List.exists_cons_of_ne_nil (digits_ne_nil n)
    rw [hcons]
    exact isDigit_of_mem_digits (hcons ▸ List.mem_cons_self : c ∈ digits 10 n)
  | hexadecimal => rfl

/-! ## Digits -/

theorem grouped_of_not_mem (h : .char '_' ∉ t) : grouped t = true := by
  fun_induction grouped t with
  | case1 => rfl
  | case2 => exact absurd (List.mem_singleton_self _) h
  | case3 => exact absurd List.mem_cons_self h
  | case4 c r _ _ ih => exact ih fun hr => h (List.mem_cons_of_mem c hr)

/-- Digits and nothing else are read as their number, if they are not too many. -/
theorem readDigits_of_digits (hne : ds ≠ []) (hd : ∀ c ∈ ds, isDigit base c = true)
    (hlimit : base = 10 → ds.length ≤ digitLimit) :
    readDigits base ds = .ok (ofDigits base ds) := by
  have hplain : .char '_' ∉ ds := fun h => ne_underscore_of_isDigit (hd _ h) rfl
  have hbody : ∀ c ∈ ds, (isDigit base c || c == '_') = true := fun c hc => by
    rw [hd c hc, Bool.true_or]
  have hfilter : ds.filter (· != .char '_') = ds :=
    List.filter_eq_self.2 fun c hc => bne_iff_ne.2 (ne_underscore_of_isDigit (hd c hc))
  have hhead : ds.head? ≠ some (.char '_') := fun h => hplain (List.mem_of_head? h)
  unfold readDigits
  simp only [List.takeWhile_eq_self_iff.2 hbody, List.dropWhile_eq_nil_iff.2 hbody, hfilter,
    grouped_of_not_mem hplain]
  rw [if_neg (by simp [hhead]), if_neg fun h => Nat.not_lt.2 (hlimit h.1) h.2,
    if_neg (by simp [hne])]

/-! ## Numerals -/

/-- A decimal without a zero in front has no mark. -/
theorem readMarked_digits (hlimit : (digits 10 n).length ≤ digitLimit) :
    readMarked (digits 10 n) = .ok n := by
  have hread : readDigits 10 (digits 10 n) = .ok n := by
    rw [readDigits_of_digits (digits_ne_nil n) (fun _ => isDigit_of_mem_digits) fun _ => hlimit,
      ofDigits_digits]
  unfold readMarked
  split
  case h_1 m r heq =>
    -- Only zero begins with a zero, and nothing stands behind that.
    have hzero : n = 0 := eq_zero_of_head?_digits (by rw [heq, List.head?_cons])
    rw [hzero] at heq
    cases heq
  case h_2 => exact hread

theorem readMarked_hexadecimal {x : CodePoint} (hx : x = 'x' ∨ x = 'X') (hne : ds ≠ [])
    (hd : ∀ c ∈ ds, isDigit 16 c = true) :
    readMarked (.char '0' :: x :: ds) = .ok (ofDigits 16 ds) := by
  have hdrop : dropUnderscore ds = ds := by
    unfold dropUnderscore
    split
    case h_1 r => exact absurd rfl (ne_underscore_of_isDigit (hd '_' List.mem_cons_self))
    case h_2 => rfl
  rw [readMarked, if_pos hx, hdrop]
  exact readDigits_of_digits hne hd fun h => absurd h (by decide)

/-- A numeral in print is read as its number, with a sign or without. -/
theorem readFree_of_prints {sign : Text} {negative : Bool} (hsign : IsSign sign negative)
    (h : Prints t n) (hlimit : (digits 10 n).length ≤ digitLimit) :
    readFree (sign ++ t) = .ok (withSign negative n) := by
  have hmarked : readMarked t = .ok n := by
    cases h with
    | decimal => exact readMarked_digits hlimit
    | hexadecimal hx hne hd => exact readMarked_hexadecimal hx hne hd
  have hascii : (sign ++ t).map asciiDigit = sign ++ t := by
    have hchar : ∀ c ∈ sign ++ t, c.toNat < 128 :=
      List.forall_mem_append.2 ⟨by cases hsign <;> decide, fun c hc =>
        Nat.lt_of_le_of_lt (toNat_of_isAlphanum (isAlphanum_of_prints h c hc)).2 (by decide)⟩
    exact (List.map_congr_left fun c hc => if_pos (hchar c hc)).trans (List.map_id _)
  rw [readFree, hascii, splitSign_append hsign (head?_of_prints h)]
  simp only [hmarked]
  rfl

end Mips32.Numeral
