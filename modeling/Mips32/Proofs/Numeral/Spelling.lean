import Mips32.Numeral.Literal

/-!
# What integer literals spell

`Spells s n` is the grammar of operand literals with the number that each of them stands for: a sign
or none, and decimal digits or a mark with hexadecimal digits behind it. Nothing is said there about
how a literal is read. `readOperand_eq_ok_iff` says that the reader finds exactly that number, in
every text that is no decimal of too many digits (`Convertible`), and `spells_decimal` that an
integer in print spells itself. A text is convertible if none of its stretches of decimal digits is
too long (`Short`), but a hexadecimal numeral is so at any length.
-/

namespace Mips32.Numeral

/-! ## Digits -/

theorem digitValue?_of_isDigit {c : CodePoint} (h : c.isDigit = true) :
    digitValue? c = some (c.toNat - '0'.toNat) := by
  rw [digitValue?, if_pos (by simpa [CodePoint.isDigit] using h)]

/-- The digits of base ten are the ASCII digits. -/
theorem isDigit_ten_iff {c : CodePoint} : isDigit 10 c = true ↔ c.isDigit = true := by
  constructor
  · intro h
    unfold isDigit digitValue? at h
    split at h
    case isTrue hc => simpa [CodePoint.isDigit] using hc
    case isFalse =>
      -- Letters are worth ten and more.
      split at h
      · simp only [Option.any_some, decide_eq_true_eq] at h
        omega
      · split at h
        · simp only [Option.any_some, decide_eq_true_eq] at h
          omega
        · cases h
  · intro h
    have hc : '0' ≤ c ∧ c ≤ '9' := by simpa [CodePoint.isDigit] using h
    have hhigh : c.toNat ≤ 57 := hc.2
    rw [isDigit, digitValue?_of_isDigit h]
    simp
    omega

theorem isUpper_iff {c : CodePoint} : c.isUpper = true ↔ 'A' ≤ c ∧ c ≤ 'Z' := by
  simp [CodePoint.isUpper]

/-- Only a capital letter has a lower case of its own. -/
theorem toLower_of_not_isUpper {c : CodePoint} (h : ¬c.isUpper = true) : c.toLower = c := by
  rw [CodePoint.toLower, if_neg h]

theorem isAlphanum_of_isUpper {c : CodePoint} (h : c.isUpper = true) : c.isAlphanum = true := by
  show (c.isUpper || c.isLower || c.isDigit) = true
  rw [h, Bool.true_or, Bool.true_or]

/-- ASCII letters and digits stand behind the blanks of ASCII and in front of all others. -/
theorem toNat_of_isAlphanum {c : CodePoint} (h : c.isAlphanum = true) :
    48 ≤ c.toNat ∧ c.toNat ≤ 122 := by
  rcases Bool.or_eq_true_iff.1 h with halpha | hdigit
  · rcases Bool.or_eq_true_iff.1 halpha with hupper | hlower
    · have hlow : 65 ≤ c.toNat := (isUpper_iff.1 hupper).1
      have hhigh : c.toNat ≤ 90 := (isUpper_iff.1 hupper).2
      omega
    · obtain ⟨hlow, hhigh⟩ := Bool.and_eq_true_iff.1 hlower
      have hlow : 97 ≤ c.toNat := decide_eq_true_iff.1 hlow
      have hhigh : c.toNat ≤ 122 := decide_eq_true_iff.1 hhigh
      omega
  · obtain ⟨hlow, hhigh⟩ := Bool.and_eq_true_iff.1 hdigit
    have hlow : 48 ≤ c.toNat := decide_eq_true_iff.1 hlow
    have hhigh : c.toNat ≤ 57 := decide_eq_true_iff.1 hhigh
    omega

/-- Digits of every base are ASCII digits and letters. -/
theorem isAlphanum_of_isDigit {base : Nat} {c : CodePoint} (h : isDigit base c = true) :
    c.isAlphanum = true := by
  unfold isDigit digitValue? at h
  split at h
  case isTrue hc =>
    have hdigit : c.isDigit = true := by simpa [CodePoint.isDigit] using hc
    show (c.isAlpha || c.isDigit) = true
    rw [hdigit, Bool.or_true]
  case isFalse =>
    split at h
    case isTrue hc =>
      have hlower : c.isLower = true :=
        Bool.and_eq_true_iff.2 ⟨decide_eq_true hc.1, decide_eq_true hc.2⟩
      show (c.isUpper || c.isLower || c.isDigit) = true
      rw [hlower, Bool.or_true, Bool.true_or]
    case isFalse =>
      split at h
      case isTrue hc => exact isAlphanum_of_isUpper (isUpper_iff.2 hc)
      case isFalse => cases h

/-- Digits have no letter case. -/
theorem toLower_of_isDigit {c : CodePoint} (h : isDigit 10 c = true) :
    c.toNat < 128 ∧ c.toLower = c := by
  have hc : '0' ≤ c ∧ c ≤ '9' := by simpa [CodePoint.isDigit] using isDigit_ten_iff.1 h
  have hhigh : c.toNat ≤ 57 := hc.2
  refine ⟨by omega, toLower_of_not_isUpper fun hupper => ?_⟩
  have hletter : 65 ≤ c.toNat := (isUpper_iff.1 hupper).1
  omega

/-! ## Stretches of digits -/

/-- A text in which no stretch of decimal digits is too long to convert. -/
def Short (s : Text) : Prop :=
  ∀ ds, ds <:+: s → (∀ c ∈ ds, isDigit 10 c = true) → ds.length ≤ digitLimit

theorem Short.of_isInfix {s t : Text} (h : Short s) (ht : t <:+: s) : Short t :=
  fun ds hds => h ds (hds.trans ht)

theorem short_of_length_le {s : Text} (h : s.length ≤ digitLimit) : Short s :=
  fun _ hds _ => Nat.le_trans hds.length_le h

theorem Short.cons {s : Text} {c : CodePoint} (hc : isDigit 10 c = false) (h : Short s) :
    Short (c :: s) := by
  intro ds hds hd
  rcases List.infix_cons_iff.1 hds with hfront | hbehind
  · -- A stretch of digits at the very front would begin with `c`.
    cases ds with
    | nil => exact Nat.zero_le _
    | cons d ds =>
      obtain ⟨rfl, -⟩ := List.cons_prefix_cons.1 hfront
      simp [hd d (.head _)] at hc
  · exact h ds hbehind hd

/-- Decimal digits that are not too many have a value. -/
theorem ofDecimal_of_short {ds : Text} (hd : ∀ c ∈ ds, isDigit 10 c = true) (h : Short ds) :
    ofDecimal ds = .ok (ofDigits 10 ds) := by
  have hlength := h ds (List.infix_refl ds) hd
  rw [ofDecimal, if_neg (by omega)]

/-! ## The grammar -/

/-- A sign in front of a numeral, or none. -/
inductive IsSign : Text → (negative : Bool) → Prop
  | none : IsSign [] false
  | plus : IsSign ['+'] false
  | minus : IsSign ['-'] true

/-- The literals of operands, each with the number that it spells. -/
inductive Spells : Text → Int → Prop
  | decimal {sign ds : Text} {negative : Bool} (hsign : IsSign sign negative) (hne : ds ≠ [])
      (hd : ∀ c ∈ ds, isDigit 10 c = true) :
      Spells (sign ++ ds) (withSign negative (ofDigits 10 ds))
  | hexadecimal {sign ds : Text} {negative : Bool} {x : CodePoint} (hsign : IsSign sign negative)
      (hx : x = 'x' ∨ x = 'X') (hne : ds ≠ []) (hd : ∀ c ∈ ds, isDigit 16 c = true) :
      Spells (sign ++ .char '0' :: x :: ds) (withSign negative (ofDigits 16 ds))

/-- A text that is not a decimal of too many digits, with a sign in front or none. -/
def Convertible (s : Text) : Prop :=
  ∀ sign negative ds, IsSign sign negative → s = sign ++ ds → (∀ c ∈ ds, isDigit 10 c = true) →
    ds.length ≤ digitLimit

theorem Short.convertible {s : Text} (h : Short s) : Convertible s := by
  rintro sign - ds - rfl hd
  exact h ds (List.suffix_append sign ds).isInfix hd

/-- The digits of a decimal that is convertible have a value. -/
theorem Convertible.ofDecimal {s sign ds : Text} {negative : Bool} (h : Convertible s)
    (hsign : IsSign sign negative) (hs : s = sign ++ ds) (hd : ∀ c ∈ ds, isDigit 10 c = true) :
    ofDecimal ds = .ok (ofDigits 10 ds) := by
  have hlength := h sign negative ds hsign hs hd
  rw [Numeral.ofDecimal, if_neg (by omega)]

/-- Nothing spells no number. -/
theorem not_spells_nil (n : Int) : ¬Spells [] n := by
  intro h
  generalize hs : ([] : Text) = s at h
  cases h with
  | decimal _ hne => exact hne (List.append_eq_nil_iff.1 hs.symm).2
  | hexadecimal => simp at hs

/-- A literal consists of ASCII letters and digits, and a sign. -/
theorem char_of_spells {t : Text} {n : Int} (h : Spells t n) :
    ∀ c ∈ t, c.isAlphanum = true ∨ c ∈ [.char '+', .char '-'] := by
  have hsign : ∀ {sign negative}, IsSign sign negative → ∀ c ∈ sign,
      c.isAlphanum = true ∨ c ∈ [.char '+', .char '-'] := by
    rintro _ _ (_ | _ | _) <;> decide
  have hdigits : ∀ {base : Nat} {ds : Text}, (∀ c ∈ ds, isDigit base c = true) → ∀ c ∈ ds,
      c.isAlphanum = true ∨ c ∈ [.char '+', .char '-'] :=
    fun hd c hc => .inl (isAlphanum_of_isDigit (hd c hc))
  cases h with
  | decimal hs _ hd => exact List.forall_mem_append.2 ⟨hsign hs, hdigits hd⟩
  | hexadecimal hs hx _ hd =>
    refine List.forall_mem_append.2 ⟨hsign hs, List.forall_mem_cons.2 ⟨by decide,
      List.forall_mem_cons.2 ⟨.inl ?_, hdigits hd⟩⟩⟩
    rcases hx with rfl | rfl <;> decide

theorem isDecimal_iff {ds : Text} :
    isDecimal ds = true ↔ ds ≠ [] ∧ ∀ c ∈ ds, isDigit 10 c = true := by
  simp [isDecimal]

theorem hexDigits?_eq_some_iff {s ds : Text} :
    hexDigits? s = some ds ↔ ∃ x, s = .char '0' :: x :: ds ∧ (x = 'x' ∨ x = 'X') ∧ ds ≠ [] ∧
      ∀ c ∈ ds, isDigit 16 c = true := by
  unfold hexDigits?
  split
  case h_1 y es =>
    constructor
    · intro h
      split at h
      case isTrue hall =>
        cases h
        exact ⟨y, rfl, hall.1, hall.2.1, List.all_eq_true.1 hall.2.2⟩
      case isFalse => cases h
    · rintro ⟨x, heq, hx, hne, hd⟩
      cases heq
      rw [if_pos ⟨hx, hne, List.all_eq_true.2 hd⟩]
  case h_2 hno =>
    refine iff_of_false nofun ?_
    rintro ⟨x, rfl, -⟩
    exact hno x ds rfl

/-- A mark is no decimal digit. -/
theorem hexDigits?_of_isDecimal {ds : Text} (h : isDecimal ds = true) : hexDigits? ds = none := by
  rw [Option.eq_none_iff_forall_ne_some]
  intro es hes
  obtain ⟨x, rfl, hx, -⟩ := hexDigits?_eq_some_iff.1 hes
  have hd := (isDecimal_iff.1 h).2 x (by simp)
  rcases hx with rfl | rfl <;> cases hd

/-- The sign that is split off stands in front of the rest. -/
theorem splitSign_spec (s : Text) :
    ∃ sign, IsSign sign (splitSign s).1 ∧ s = sign ++ (splitSign s).2 := by
  unfold splitSign
  split
  · exact ⟨['+'], .plus, rfl⟩
  · exact ⟨['-'], .minus, rfl⟩
  · exact ⟨[], .none, rfl⟩

/-- A sign in front of a digit is split off. -/
theorem splitSign_append {sign body : Text} {negative : Bool} (h : IsSign sign negative)
    (hbody : body.head?.any (isDigit 10) = true) :
    splitSign (sign ++ body) = (negative, body) := by
  cases h with
  | plus => rfl
  | minus => rfl
  | none =>
    obtain ⟨c, r, rfl, hc⟩ : ∃ c r, body = c :: r ∧ isDigit 10 c = true := by
      cases body <;> simp_all
    unfold splitSign
    split
    case h_1 heq =>
      cases heq
      cases hc
    case h_2 heq =>
      cases heq
      cases hc
    case h_3 => rfl

/-- Reading a convertible text succeeds exactly with the number that it spells. -/
theorem readOperand_eq_ok_iff {s : Text} (hs : Convertible s) {n : Int} :
    readOperand s = .ok n ↔ Spells s n := by
  constructor
  · intro h
    obtain ⟨sign, hsign, hsplit⟩ := splitSign_spec s
    cases hx : hexDigits? (splitSign s).2 with
    | some ds =>
      obtain ⟨x, hbody, hmark, hne, hd⟩ := hexDigits?_eq_some_iff.1 hx
      simp only [readOperand, hx, Except.ok.injEq] at h
      have hspells := Spells.hexadecimal hsign hmark hne hd
      rwa [← hbody, ← hsplit, h] at hspells
    | none =>
      simp only [readOperand, hx] at h
      split at h
      case isTrue hdecimal =>
        obtain ⟨hne, hd⟩ := isDecimal_iff.1 hdecimal
        rw [hs.ofDecimal hsign hsplit hd] at h
        cases h
        have hspells := Spells.decimal hsign hne hd
        rwa [← hsplit] at hspells
      case isFalse => cases h
  · rintro (⟨hsign, hne, hd⟩ | ⟨hsign, hx, hne, hd⟩)
    case decimal sign ds negative =>
      have hdecimal := isDecimal_iff.2 ⟨hne, hd⟩
      have hbody : ds.head?.any (isDigit 10) = true := by
        cases ds with
        | nil => exact absurd rfl hne
        | cons c r => exact hd c (.head _)
      rw [readOperand, splitSign_append hsign hbody]
      simp only [hexDigits?_of_isDecimal hdecimal, hdecimal, if_true, hs.ofDecimal hsign rfl hd]
      rfl
    case hexadecimal sign ds negative x =>
      rw [readOperand, splitSign_append hsign rfl]
      simp only [hexDigits?_eq_some_iff.2 ⟨x, rfl, hx, hne, hd⟩]

/-- Reading a convertible text is not refused for the size of a numeral. -/
theorem readOperand_ne_tooManyDigits {s : Text} (hs : Convertible s) (count : Nat) :
    readOperand s ≠ .error (.tooManyDigits count) := by
  intro h
  cases hx : hexDigits? (splitSign s).2 with
  | some ds =>
    simp only [readOperand, hx] at h
    cases h
  | none =>
    simp only [readOperand, hx] at h
    split at h
    case isTrue hdecimal =>
      obtain ⟨sign, hsign, hsplit⟩ := splitSign_spec s
      rw [hs.ofDecimal hsign hsplit (isDecimal_iff.1 hdecimal).2] at h
      cases h
    case isFalse => cases h

/-- A convertible text has the form of a literal exactly if it spells a number. -/
theorem isOperand_iff {s : Text} (hs : Convertible s) :
    isOperand s = true ↔ ∃ n, Spells s n := by
  have hmalformed := not_congr (isOperand_eq_false_iff (s := s))
  rw [Bool.not_eq_false] at hmalformed
  rw [hmalformed]
  cases h : readOperand s with
  | ok n => exact iff_of_true nofun ⟨n, (readOperand_eq_ok_iff hs).1 h⟩
  | error e =>
    cases e with
    | malformed =>
      refine iff_of_false (fun hne => hne rfl) ?_
      rintro ⟨n, hn⟩
      rw [(readOperand_eq_ok_iff hs).2 hn] at h
      cases h
    | tooManyDigits count => exact absurd h (readOperand_ne_tooManyDigits hs count)

/-! ## Printed integers -/

theorem isDigit_char {c : Char} (h : c.isDigit = true) : CodePoint.isDigit c = true := by
  obtain ⟨hlow, hhigh⟩ := Bool.and_eq_true_iff.1 h
  exact Bool.and_eq_true_iff.2 ⟨decide_eq_true (of_decide_eq_true hlow),
    decide_eq_true (of_decide_eq_true hhigh)⟩

theorem isDigit_of_mem_digits {n : Nat} {c : CodePoint} (h : c ∈ digits 10 n) :
    isDigit 10 c = true := by
  obtain ⟨d, hd, rfl⟩ := List.mem_map.1 h
  exact isDigit_ten_iff.2
    (isDigit_char (Nat.isDigit_of_mem_toDigits (by decide) (by decide) hd))

theorem digits_ne_nil (n : Nat) : digits 10 n ≠ [] :=
  mt List.map_eq_nil_iff.1 Nat.toDigits_ne_nil

theorem foldl_digitValue? {ds : List Char} (h : ∀ c ∈ ds, c.isDigit = true) (m : Nat) :
    (ds.map CodePoint.char).foldl (fun n c => n * 10 + (digitValue? c).getD 0) m =
      Nat.ofDigitChars 10 ds m := by
  induction ds generalizing m with
  | nil => rfl
  | cons c ds ih =>
    obtain ⟨hc, hds⟩ := List.forall_mem_cons.1 h
    rw [List.map_cons, List.foldl_cons, ih hds, Nat.ofDigitChars_cons,
      digitValue?_of_isDigit (isDigit_char hc), Nat.mul_comm]
    rfl

/-- The digits of a number spell it. -/
theorem ofDigits_digits (n : Nat) : ofDigits 10 (digits 10 n) = n := by
  rw [ofDigits, digits,
    foldl_digitValue? fun c hc => Nat.isDigit_of_mem_toDigits (by decide) (by decide) hc]
  exact Nat.ofDigitChars_ten_toDigits

/-- Different numbers have different digits. -/
theorem digits_injective {m n : Nat} (h : digits 10 m = digits 10 n) : m = n := by
  rw [← ofDigits_digits m, h, ofDigits_digits]

/-- An integer in print spells itself. -/
theorem spells_decimal (n : Int) : Spells (decimal n) n := by
  have hd : ∀ c ∈ digits 10 n.natAbs, isDigit 10 c = true := fun _ => isDigit_of_mem_digits
  have hne := digits_ne_nil n.natAbs
  unfold decimal
  split
  · have h := Spells.decimal .minus hne hd
    have hn : withSign true n.natAbs = n := by
      simp only [withSign, if_true]
      omega
    rwa [ofDigits_digits, hn] at h
  · have h := Spells.decimal .none hne hd
    have hn : withSign false n.natAbs = n := by
      simp only [withSign, Bool.false_eq_true, if_false]
      omega
    rwa [ofDigits_digits, hn] at h

end Mips32.Numeral
