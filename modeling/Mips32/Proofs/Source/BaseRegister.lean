import Mips32.Proofs.Source.Spelling

/-!
# Registers between parentheses

A register operand is lower-cased by the rules of Unicode before it is looked up, while the base of
a memory operand has to be an ASCII word first. The two differ on a text beyond ASCII that
lower-cases to the name of a register. Among all characters beyond ASCII only the Kelvin sign has an
ASCII lower case (`Text.exists_mem_lowerChar`), so a text lower-cases to an ASCII name exactly if it
is the name in some letter case of ASCII, with a Kelvin sign for a `k` here and there
(`Text.lower_eq_iff`). Two registers have a `k` in their names.

`Operand.memory_eq_register_iff` is the conclusion: a register between parentheses is read as it is
outside of them, with the same classes of faults, but for two texts that name registers only
outside.
-/

namespace Mips32

/-! ## Characters with an ASCII lower case -/

namespace Text

/-- The sign of the unit kelvin, which has the letter `k` for its lower case. -/
def kelvinSign : CodePoint :=
  '\u212A'

/-- A Kelvin sign replaced by the letter. -/
def plainKelvin (c : CodePoint) : CodePoint :=
  if c = kelvinSign then 'k' else c

theorem plainKelvin_of_ne {c : CodePoint} (h : c ≠ kelvinSign) : plainKelvin c = c :=
  if_neg h

theorem lowerChar_kelvinSign (before after : Text) :
    lowerChar before kelvinSign after = [.char 'k'] := by
  rfl

/-- Every stretch of capital letters beyond ASCII but that of the Kelvin sign has its lower case
beyond ASCII as well, among the code points. -/
theorem caseShifts_spec : ∀ s ∈ caseShifts, s = ⟨8490, 8490, 1, -8383⟩ ∨
    128 ≤ s.first + s.shift ∧ s.last + s.shift < 0x110000 := by
  decide +kernel

/-- The lower case of a character beyond ASCII holds one beyond ASCII, unless it is the Kelvin
sign. -/
theorem exists_mem_lowerChar {c : CodePoint} (hc : 128 ≤ c.toNat) (hkelvin : c ≠ kelvinSign)
    (before after : Text) : ∃ d ∈ lowerChar before c after, 128 ≤ d.toNat := by
  rw [lowerChar, if_neg (by omega)]
  split
  case isTrue =>
    refine ⟨_, List.mem_singleton_self _, ?_⟩
    split <;> decide
  case isFalse =>
    split
    case isTrue => exact ⟨'\u0307', by decide, by decide⟩
    case isFalse =>
      split
      case h_1 s hs =>
        have hmem := caseShifts_spec s (List.mem_of_find?_eq_some hs)
        have hbounds : s.first ≤ c.toNat ∧ c.toNat ≤ s.last := by
          have := List.find?_some hs
          simp only [Bool.and_eq_true, decide_eq_true_eq] at this
          exact this.1
        rcases hmem with rfl | ⟨hlow, hvalid⟩
        · have hnat : c.toNat = kelvinSign.toNat := Nat.le_antisymm hbounds.2 hbounds.1
          exact absurd (CodePoint.toNat_inj.1 hnat) hkelvin
        · refine ⟨_, List.mem_singleton_self _, ?_⟩
          rw [CodePoint.toNat_ofNat (by omega)]
          omega
      case h_2 => exact ⟨c, List.mem_singleton_self c, hc⟩

/-- A text with an ASCII lower case is ASCII itself but for Kelvin signs. -/
theorem ascii_of_lowerAfter {before s : Text} (h : ∀ d ∈ lowerAfter before s, d.toNat < 128) :
    ∀ c ∈ s, c = kelvinSign ∨ c.toNat < 128 := by
  induction s generalizing before with
  | nil => nofun
  | cons c r ih =>
    obtain ⟨hchar, hrest⟩ := List.forall_mem_append.1 h
    refine List.forall_mem_cons.2 ⟨?_, ih hrest⟩
    by_cases hkelvin : c = kelvinSign
    · exact .inl hkelvin
    · by_cases hc : c.toNat < 128
      · exact .inr hc
      · obtain ⟨d, hd, hlarge⟩ := exists_mem_lowerChar (Nat.le_of_not_lt hc) hkelvin before r
        exact absurd (hchar d hd) (by omega)

/-- Kelvin signs in ASCII text are lower-cased as the letter is. -/
theorem lowerAfter_eq_map {before s : Text} (h : ∀ c ∈ s, c = kelvinSign ∨ c.toNat < 128) :
    lowerAfter before s = (s.map plainKelvin).map CodePoint.toLower := by
  induction s generalizing before with
  | nil => rfl
  | cons c r ih =>
    obtain ⟨hc, hr⟩ := List.forall_mem_cons.1 h
    have hchar : lowerChar before c r = [(plainKelvin c).toLower] := by
      rcases hc with rfl | hc
      · exact lowerChar_kelvinSign before r
      · have hkelvin : c ≠ kelvinSign := by
          rintro rfl
          exact absurd hc (by decide)
        rw [lowerChar, if_pos hc, plainKelvin_of_ne hkelvin]
    rw [lowerAfter, hchar, ih hr]
    rfl

/-- A text lower-cases to an ASCII name exactly if, with Kelvin signs replaced, it is the name in
some letter case of ASCII. -/
theorem lower_eq_iff {s name : Text} (hname : ∀ c ∈ name, c.toNat < 128) :
    lower s = name ↔ IsCaseOf (s.map plainKelvin) name := by
  constructor
  · rintro rfl
    exact (lowerAfter_eq_map (ascii_of_lowerAfter hname)).symm
  · intro h
    have hs : ∀ c ∈ s, c = kelvinSign ∨ c.toNat < 128 := by
      intro c hc
      by_cases hkelvin : c = kelvinSign
      · exact .inl hkelvin
      · have hplain := h.ascii hname _ (List.mem_map_of_mem hc)
        rw [plainKelvin_of_ne hkelvin] at hplain
        exact .inr hplain
    exact (lowerAfter_eq_map hs).trans h

/-- A character that no capital letter and no Kelvin sign becomes. -/
theorem eq_of_plainKelvin {c d : CodePoint} (h : (plainKelvin c).toLower = d)
    (hd : d.isLower = false) : c = d := by
  have hplain : plainKelvin c = d := eq_of_toLower h hd
  by_cases hkelvin : c = kelvinSign
  · rw [hkelvin] at hplain
    subst hplain
    cases hd
  · rwa [plainKelvin_of_ne hkelvin] at hplain

/-- Where a Kelvin sign stands for one of two characters, it is the letter among them. -/
theorem eq_of_mem_pair {t : Text} {d : CodePoint} (hkelvin : kelvinSign ∈ t)
    (hcase : IsCaseOf (t.map plainKelvin) ['k', d]) (hd : d.isLower = false) :
    t = [kelvinSign, d] := by
  have hlength : t.length = 2 := by simpa using congrArg List.length hcase
  obtain ⟨a, b, rfl⟩ := List.length_eq_two.1 hlength
  obtain ⟨-, hlast⟩ := List.cons.inj hcase
  have hb := (List.cons.inj hlast).1
  obtain rfl := eq_of_plainKelvin hb hd
  rcases List.mem_cons.1 hkelvin with rfl | hkelvin
  · rfl
  · -- The Kelvin sign becomes a letter, and so is not the second of them.
    obtain rfl := List.mem_singleton.1 hkelvin
    exact absurd hb (by decide)

end Text

/-! ## Names beyond ASCII -/

namespace Register

/-- The texts beyond ASCII that lower-case to the name of a register. -/
def kelvinNames : List Text :=
  ["$\u212A0".text, "$\u212A1".text]

/-- The names with a `k` in them. -/
theorem eq_of_mem {name : Text} (h : .char '$' :: name ∈ names) (hk : .char 'k' ∈ name) :
    name = [.char 'k', .char '0'] ∨ name = [.char 'k', .char '1'] := by
  have hnames : ∀ name ∈ names, .char 'k' ∈ name.tail →
      name.tail = [.char 'k', .char '0'] ∨ name.tail = [.char 'k', .char '1'] := by decide
  exact hnames _ h hk

/-- A text that lower-cases to the name of a register is a dollar sign and an ASCII word, but for
two. -/
theorem word_of_lower {t : Text} (h : Text.lower t ∈ names) :
    t ∈ kelvinNames ∨
      ∃ word, t = .char '$' :: word ∧ word ≠ [] ∧ ∀ c ∈ word, Operand.isWordChar c = true := by
  obtain ⟨name, hname, hne, -, hword, hascii⟩ := name_spec h
  rw [hname] at h hascii
  have hall := (Text.lower_eq_iff hascii).1 hname
  cases t with
  | nil => cases hall
  | cons c word =>
  obtain ⟨hc, hcase⟩ := List.cons.inj hall
  obtain rfl : c = '$' := Text.eq_of_plainKelvin hc (by decide)
  by_cases hkelvin : Text.kelvinSign ∈ word
  · left
    have hk : .char 'k' ∈ name := hcase ▸ List.mem_map_of_mem (List.mem_map_of_mem hkelvin)
    rcases eq_of_mem h hk with rfl | rfl
    · rw [Text.eq_of_mem_pair hkelvin hcase (by decide)]
      decide
    · rw [Text.eq_of_mem_pair hkelvin hcase (by decide)]
      decide
  · right
    have hplain : word.map Text.plainKelvin = word := by
      refine (List.map_congr_left fun d hd => ?_).trans (List.map_id word)
      exact Text.plainKelvin_of_ne fun heq => hkelvin (heq ▸ hd)
    have hsame : Text.IsCaseOf word name := hplain ▸ hcase
    refine ⟨word, rfl, ?_, hsame.forall_mem (fun d hd => ?_) hword⟩
    · rintro rfl
      exact hne hcase.symm
    · exact Operand.isWordChar_of_isAlphanum (Numeral.isAlphanum_of_isUpper hd)

end Register

namespace Operand

open Statement (isSeparator)

/-- A dollar sign and an ASCII word, as it may stand between parentheses. -/
def IsBase (t : Text) : Prop :=
  ∃ word, t = .char '$' :: word ∧ word ≠ [] ∧ ∀ c ∈ word, isWordChar c = true

variable {r : Text}

theorem memoryTexts?_parenthesized (r : Text) :
    memoryTexts? (.char '(' :: (r ++ [.char ')'])) =
      (baseText? (r ++ [.char ')'])).map ([], ·) := by
  have h := @memoryTexts?_of_not_mem [] nofun (r ++ [.char ')'])
  rwa [if_pos (.inl rfl)] at h

theorem not_isSeparator_parenthesized (hr : ∀ c ∈ r, isSeparator c = false) :
    ∀ c ∈ CodePoint.char '(' :: (r ++ [.char ')']), isSeparator c = false :=
  List.forall_mem_cons.2 ⟨by decide, List.forall_mem_append.2 ⟨hr, by decide⟩⟩

theorem baseText?_parenthesized_iff (hr : ∀ c ∈ r, isSeparator c = false) {base : Text} :
    baseText? (r ++ [.char ')']) = some base ↔ base = r ∧ IsBase r := by
  have hsep := (List.forall_mem_cons.1 (not_isSeparator_parenthesized hr)).2
  rw [baseText?_eq_some_iff hsep]
  constructor
  · rintro ⟨word, rfl, heq, hne, hword⟩
    obtain rfl : r = .char '$' :: word := List.append_cancel_right heq
    exact ⟨rfl, word, rfl, hne, hword⟩
  · rintro ⟨rfl, word, rfl, hne, hword⟩
    exact ⟨word, rfl, rfl, hne, hword⟩

/-- A base register without an offset is read as the register is. -/
theorem memory_of_isBase (hr : ∀ c ∈ r, isSeparator c = false) (h : IsBase r) :
    memory (.char '(' :: (r ++ [.char ')'])) = (register r).map ((0 : Int), ·) := by
  have hbase := (baseText?_parenthesized_iff hr).2 ⟨rfl, h⟩
  unfold memory
  rw [Statement.dropFinalNewline_eq (not_isSeparator_parenthesized hr),
    memoryTexts?_parenthesized, hbase]
  rfl

/-- Anything else between parentheses is no memory operand. -/
theorem memory_of_not_isBase (hr : ∀ c ∈ r, isSeparator c = false) (h : ¬IsBase r) :
    memory (.char '(' :: (r ++ [.char ')'])) =
      .error (.fault (.malformedMemory (.char '(' :: (r ++ [.char ')'])))) := by
  have hbase : baseText? (r ++ [.char ')']) = none := by
    rw [Option.eq_none_iff_forall_ne_some]
    exact fun base hsome => h ((baseText?_parenthesized_iff hr).1 hsome).2
  unfold memory
  rw [Statement.dropFinalNewline_eq (not_isSeparator_parenthesized hr),
    memoryTexts?_parenthesized, hbase]
  rfl

/-- What may not stand between parentheses is no register, but for two texts. -/
theorem register_of_not_isBase (hr : ∀ c ∈ r, isSeparator c = false) (h : ¬IsBase r)
    (hkelvin : r ∉ Register.kelvinNames) : register r = .error (.fault (.unknownRegister r)) := by
  have hdigits : registerDigits? r = none := by
    rw [Option.eq_none_iff_forall_ne_some]
    intro ds hds
    obtain ⟨rfl, hne, hd⟩ := registerDigits?_eq_some_iff.1 hds
    exact h ⟨ds, rfl, hne, fun c hc =>
      isWordChar_of_isAlphanum (Numeral.isAlphanum_of_isDigit (hd c hc))⟩
  have hname : Register.ofName? (Text.lower r) = none := by
    rw [Option.eq_none_iff_forall_ne_some]
    intro n hn
    have hmem := List.mem_of_getElem? (Register.ofName?_eq_some_iff.1 hn)
    rcases Register.word_of_lower hmem with hr' | hbase
    · exact hkelvin hr'
    · exact h hbase
  unfold register
  rw [Statement.dropFinalNewline_eq hr, hdigits]
  simp only [hname]

/-- The two texts name registers, but not between parentheses. -/
theorem register_of_mem_kelvinNames (h : r ∈ Register.kelvinNames) :
    ¬IsBase r ∧ ∃ n, register r = .ok n := by
  have hsign : isWordChar Text.kelvinSign = false := by decide
  have hbase : ∀ d, ¬IsBase [.char '$', Text.kelvinSign, d] := by
    rintro d ⟨word, heq, -, hword⟩
    obtain rfl := (List.cons.inj heq).2
    rw [hword _ (.head _)] at hsign
    cases hsign
  rcases List.mem_cons.1 h with rfl | h
  · exact ⟨hbase '0', 26, by rfl⟩
  · obtain rfl := List.mem_singleton.1 h
    exact ⟨hbase '1', 27, by rfl⟩

/-- A register is read between parentheses as it is outside of them: with the same number, with a
fault of the same class, or stopped by the same numeral. This fails for two texts alone. Each is the
name of a register with a Kelvin sign in place of the letter, and is a register only outside. -/
theorem memory_eq_register_iff (hr : ∀ c ∈ r, isSeparator c = false) :
    (memory (.char '(' :: (r ++ [.char ')']))).mapError (Failure.map Fault.kind) =
        ((register r).map ((0 : Int), ·)).mapError (Failure.map Fault.kind) ↔
      r ∉ Register.kelvinNames := by
  constructor
  · intro heq hkelvin
    obtain ⟨hbase, n, hn⟩ := register_of_mem_kelvinNames hkelvin
    rw [memory_of_not_isBase hr hbase, hn] at heq
    cases heq
  · intro hkelvin
    by_cases hbase : IsBase r
    · rw [memory_of_isBase hr hbase]
    · rw [memory_of_not_isBase hr hbase, register_of_not_isBase hr hbase hkelvin]
      rfl

/-- A name in capital letters is a register in both places. -/
theorem memory_eq_register_capital :
    (∀ c ∈ "$K1".text, isSeparator c = false) ∧
      "$K1".text ∉ Register.kelvinNames ∧
      (memory "($K1)".text).mapError (Failure.map Fault.kind) = .ok (0, 27) := by
  have hr : ∀ c ∈ "$K1".text, isSeparator c = false := by decide
  have hkelvin : "$K1".text ∉ Register.kelvinNames := by decide
  exact ⟨hr, hkelvin, (memory_eq_register_iff hr).2 hkelvin⟩

/-- With the Kelvin sign the same name is a register in one place and a fault in the other. -/
theorem memory_ne_register_kelvin :
    (∀ c ∈ "$\u212A0".text, isSeparator c = false ∧ c ≠ .char '(' ∧ c ≠ .char ')') ∧
      register "$\u212A0".text = .ok 26 ∧
      memory "($\u212A0)".text = .error (.fault (.malformedMemory "($\u212A0)".text)) :=
  ⟨by decide, by rfl, by rfl⟩

end Operand

end Mips32
