import Mips32.Proofs.Isa.Fields
import Mips32.Proofs.Numeral.Spelling
import Mips32.Proofs.Text.Runs

/-!
# The grammar of operands

What a register, an integer and a memory operand look like and what each stands for, told without
the readers: `Operand.Names`, `Numeral.Spells` with two bounds, and `Operand.Addresses`. For a token
of a line whose numerals can be converted (`Statement.IsToken`) every reader succeeds exactly with
what the grammar gives: `register_eq_ok_iff`, `integer_eq_ok_iff`, `memory_eq_ok_iff`.
-/

namespace Mips32

/-! ## Tokens -/

/-- A token of a line: it holds no separator, and its numerals are not too long to convert. -/
structure Statement.IsToken (t : Text) : Prop where
  not_separator : ∀ c ∈ t, isSeparator c = false
  short : Numeral.Short t

namespace Statement

theorem isSeparator_of_isBlank {c : CodePoint} (h : Text.isBlank c = true) :
    isSeparator c = true := by
  rw [isSeparator, h, Bool.true_or]

theorem isBlank_of_isNarrowBlank {c : CodePoint} (h : Text.isNarrowBlank c = true) :
    Text.isBlank c = true := by
  simp only [Text.isNarrowBlank, Text.isBlank, Bool.or_eq_true, Bool.and_eq_true,
    decide_eq_true_eq, beq_iff_eq] at h ⊢
  rcases h with h | rfl
  · omega
  · decide

theorem not_isSeparator_of_isNameChar {c : CodePoint} (h : Line.isNameChar c = true) :
    isSeparator c = false := by
  have hbounds : 46 ≤ c.toNat ∧ c.toNat ≤ 122 := by
    simp only [Line.isNameChar, Bool.or_eq_true, beq_iff_eq] at h
    rcases h with (h | rfl) | rfl
    · have halphanum := Numeral.toNat_of_isAlphanum h
      omega
    · decide
    · decide
  have hcomma : c ≠ ',' := by
    rintro rfl
    exact absurd hbounds.1 (by decide)
  have hblank : Text.isBlank c = false :=
    Text.not_isBlank_of_toNat (by omega) (by omega)
  rw [isSeparator, hblank, Bool.false_or, beq_eq_false_iff_ne]
  exact hcomma

/-- A text without separators ends in no line feed that a reader would pass over. -/
theorem dropFinalNewline_eq {t : Text} (h : ∀ c ∈ t, isSeparator c = false) :
    Text.dropFinalNewline t = t := by
  induction t with
  | nil => rfl
  | cons c r ih =>
    obtain ⟨hc, hr⟩ := List.forall_mem_cons.1 h
    unfold Text.dropFinalNewline
    split
    case h_1 heq => cases heq
    case h_2 heq =>
      cases heq
      cases hc
    case h_3 heq =>
      cases heq
      rw [ih hr]

theorem isNarrowBlank_eq_false {c : CodePoint} (h : isSeparator c = false) :
    Text.isNarrowBlank c = false := by
  rw [Bool.eq_false_iff]
  intro hblank
  have := isSeparator_of_isBlank (isBlank_of_isNarrowBlank hblank)
  simp [h] at this

namespace IsToken

variable {t : Text}

theorem of_isInfix (h : IsToken t) {u : Text} (hu : u <:+: t) : IsToken u :=
  ⟨fun c hc => h.not_separator c (hu.subset hc), h.short.of_isInfix hu⟩

theorem dropFinalNewline_eq (h : IsToken t) : Text.dropFinalNewline t = t :=
  Statement.dropFinalNewline_eq h.not_separator

end IsToken

end Statement

open Statement (IsToken)

/-! ## Registers -/

/-- A name is that of a register exactly if it stands at the place of the register. -/
theorem Register.ofName?_eq_some_iff {name : Text} {r : Register} :
    Register.ofName? name = some r ↔ Register.names[r.toNat]? = some name := by
  constructor
  · intro h
    obtain ⟨i, hi, rfl⟩ := Option.map_eq_some_iff.1 h
    obtain ⟨hlt, hname, -⟩ := List.findIdx?_eq_some_iff_getElem.1 hi
    have hmod : i % 2 ^ 5 = i := Nat.mod_eq_of_lt (by rwa [length_names] at hlt)
    rw [BitVec.toNat_ofNat, hmod, List.getElem?_eq_getElem hlt, beq_iff_eq.1 hname]
  · intro h
    have := ofName?_names r
    rwa [List.get_eq_getElem, (List.getElem?_eq_some_iff.1 h).2] at this

namespace Operand

/-- The spellings of a register: a dollar sign with its number, or its conventional name in any
letter case. -/
inductive Names : Text → Register → Prop
  | number {ds : Text} {r : Register} (hne : ds ≠ [])
      (hd : ∀ c ∈ ds, Numeral.isDigit 10 c = true) (hr : Numeral.ofDigits 10 ds = r.toNat) :
      Names (.char '$' :: ds) r
  | name {t : Text} {r : Register} (h : Register.names[r.toNat]? = some (Text.lower t)) : Names t r

theorem registerDigits?_eq_some_iff {t ds : Text} :
    registerDigits? t = some ds ↔
      t = .char '$' :: ds ∧ ds ≠ [] ∧ ∀ c ∈ ds, Numeral.isDigit 10 c = true := by
  unfold registerDigits?
  split
  case h_1 es =>
    rw [← Numeral.isDecimal_iff]
    constructor
    · intro h
      split at h
      case isTrue hes =>
        cases h
        exact ⟨rfl, hes⟩
      case isFalse => cases h
    · rintro ⟨heq, hds⟩
      cases heq
      rw [if_pos hds]
  case h_2 hno =>
    refine iff_of_false nofun ?_
    rintro ⟨rfl, -⟩
    exact hno ds rfl

/-- A number is no conventional name. -/
theorem ofName?_lower_of_registerDigits? {t ds : Text} (h : registerDigits? t = some ds) :
    Register.ofName? (Text.lower t) = none := by
  obtain ⟨rfl, hne, hd⟩ := registerDigits?_eq_some_iff.1 h
  -- Digits have no letter case, so the text stays what it is.
  have hascii : ∀ c ∈ .char '$' :: ds, c.toNat < 128 ∧ c.toLower = c := by
    intro c hc
    rcases List.mem_cons.1 hc with rfl | hc
    · decide
    · exact Numeral.toLower_of_isDigit (hd c hc)
  have hlower : Text.lower (.char '$' :: ds) = .char '$' :: ds := by
    rw [Text.lower_of_ascii fun c hc => (hascii c hc).1]
    exact (List.map_congr_left fun c hc => (hascii c hc).2).trans (List.map_id _)
  have hnames : ∀ name ∈ Register.names, registerDigits? name = none := by decide
  rw [Option.eq_none_iff_forall_ne_some, hlower]
  intro r hr
  have hmem := List.mem_of_getElem? (Register.ofName?_eq_some_iff.1 hr)
  simp [hnames _ hmem] at h

/-- Reading a register succeeds exactly with the one that the token names. -/
theorem register_eq_ok_iff {t : Text} (ht : IsToken t) {r : Register} :
    register t = .ok r ↔ Names t r := by
  unfold register
  rw [ht.dropFinalNewline_eq]
  cases hds : registerDigits? t with
  | some ds =>
    obtain ⟨rfl, hne, hd⟩ := registerDigits?_eq_some_iff.1 hds
    have hshort := ht.short.of_isInfix (List.suffix_cons (.char '$') ds).isInfix
    simp only [Numeral.ofDecimal_of_short hd hshort]
    constructor
    · intro h
      split at h
      case isTrue hlt =>
        cases h
        refine .number hne hd ?_
        rw [BitVec.toNat_ofNat, Nat.mod_eq_of_lt hlt]
      case isFalse => cases h
    · intro h
      cases h with
      | number _ _ hr =>
        rw [hr, if_pos r.isLt, BitVec.ofNat_toNat, BitVec.setWidth_eq]
      | name h =>
        rw [← Register.ofName?_eq_some_iff, ofName?_lower_of_registerDigits? hds] at h
        cases h
  | none =>
    have hnumber : ¬∃ ds, t = .char '$' :: ds ∧ ds ≠ [] ∧
        ∀ c ∈ ds, Numeral.isDigit 10 c = true := by
      rintro ⟨ds, h⟩
      simp [registerDigits?_eq_some_iff.2 h] at hds
    have hname : Names t r ↔ Register.ofName? (Text.lower t) = some r := by
      rw [Register.ofName?_eq_some_iff]
      constructor
      · rintro (⟨hne, hd, -⟩ | h)
        · exact absurd ⟨_, rfl, hne, hd⟩ hnumber
        · exact h
      · exact .name
    rw [hname]
    cases Register.ofName? (Text.lower t) <;> simp

/-! ## Integers -/

/-- Reading an integer succeeds exactly with the number that the text spells, if that is within
the bounds. Unlike a token, a hexadecimal numeral may be of any length here. -/
theorem integer_eq_ok_iff {t : Text} (hsep : ∀ c ∈ t, Statement.isSeparator c = false)
    (ht : Numeral.Convertible t) {low high n : Int} :
    integer low high t = .ok n ↔ Numeral.Spells t n ∧ low ≤ n ∧ n ≤ high := by
  rw [← Numeral.readOperand_eq_ok_iff ht, integer, Statement.dropFinalNewline_eq hsep]
  cases Numeral.readOperand t with
  | error e => exact ⟨nofun, nofun⟩
  | ok m =>
    simp only [Except.ok.injEq]
    constructor
    · intro h
      split at h
      case isTrue hm =>
        cases h
        exact ⟨rfl, hm⟩
      case isFalse => cases h
    · rintro ⟨rfl, hm⟩
      rw [if_pos hm]

/-- No separator stands in an integer. -/
theorem not_isSeparator_of_spells {t : Text} {n : Int} (h : Numeral.Spells t n) :
    ∀ c ∈ t, Statement.isSeparator c = false := by
  have hsign : ∀ c ∈ [.char '+', .char '-'], Statement.isSeparator c = false := by decide
  intro c hc
  rcases Numeral.char_of_spells h c hc with hletter | hc
  · exact Statement.not_isSeparator_of_isNameChar (by simp [Line.isNameChar, hletter])
  · exact hsign c hc

/-! ## Memory operands -/

/-- The spellings of an offset and a base register: an integer or nothing, and between parentheses
a register that is spelled in ASCII word characters. -/
inductive Addresses : Text → Int → Register → Prop
  | mk {offset word : Text} {n : Int} {r : Register}
      (hoffset : offset = [] ∧ n = 0 ∨
        Numeral.Spells offset n ∧ halfwordLow ≤ n ∧ n ≤ halfwordHigh)
      (hne : word ≠ []) (hword : ∀ c ∈ word, isWordChar c = true)
      (hbase : Names (.char '$' :: word) r) :
      Addresses (offset ++ .char '(' :: (.char '$' :: word ++ [.char ')'])) n r

theorem isWordChar_of_isAlphanum {c : CodePoint} (h : c.isAlphanum = true) :
    isWordChar c = true := by
  rw [isWordChar, h, Bool.true_or]

theorem not_isSeparator_of_isWordChar {c : CodePoint} (h : isWordChar c = true) :
    Statement.isSeparator c = false := by
  refine Statement.not_isSeparator_of_isNameChar ?_
  rw [Line.isNameChar, Bool.or_eq_true]
  exact .inl h

/-- Without blanks, the text of a base register is a dollar sign and a word in front of the closing
parenthesis. -/
theorem baseText?_eq_some_iff {t base : Text} (ht : ∀ c ∈ t, Statement.isSeparator c = false) :
    baseText? t = some base ↔ ∃ word, base = .char '$' :: word ∧
      t = .char '$' :: word ++ [.char ')'] ∧ word ≠ [] ∧ ∀ c ∈ word, isWordChar c = true := by
  have hblank : ∀ u, u <:+: t → u.dropWhile Text.isNarrowBlank = u := by
    intro u hu
    cases u with
    | nil => rfl
    | cons c r =>
      have hc := Statement.isNarrowBlank_eq_false (ht c (hu.subset (List.mem_cons_self ..)))
      rw [List.dropWhile_cons_of_neg (by simp [hc])]
  unfold baseText?
  rw [hblank t (List.infix_refl t)]
  split
  case h_1 r =>
    have hrest : r.dropWhile isWordChar <:+: .char '$' :: r :=
      (List.dropWhile_suffix _).isInfix.trans (List.suffix_cons (.char '$') r).isInfix
    simp only [hblank _ hrest]
    constructor
    · intro h
      split at h
      case isTrue hword =>
        cases h
        refine ⟨_, rfl, ?_, hword.1, List.all_eq_true.1 List.all_takeWhile⟩
        rw [List.cons_append, ← hword.2, List.takeWhile_append_dropWhile]
      case isFalse => cases h
    · rintro ⟨word, rfl, heq, hne, hword⟩
      obtain rfl : r = word ++ [.char ')'] := (List.cons.inj heq).2
      have hend : isWordChar ')' = false := by decide
      rw [List.takeWhile_append_of_pos hword, List.dropWhile_append_of_pos hword]
      simp [hend, hne]
  case h_2 hno =>
    refine iff_of_false nofun ?_
    rintro ⟨word, -, rfl, -⟩
    exact hno _ rfl

/-- No parenthesis stands in an integer. -/
theorem not_mem_of_spells {t : Text} {n : Int} (h : Numeral.Spells t n) : .char '(' ∉ t :=
  fun hc => absurd (Numeral.char_of_spells h _ hc) (by decide)

/-- A text splits at the first parenthesis, if an integer or nothing stands in front of it. -/
theorem memoryTexts?_of_not_mem {offset : Text} (hoffset : .char '(' ∉ offset) (r : Text) :
    memoryTexts? (offset ++ .char '(' :: r) =
      if offset = [] ∨ Numeral.isOperand offset then (baseText? r).map (offset, ·) else none := by
  have hparen : ∀ c ∈ offset, (c != '(') = true := fun c hc =>
    bne_iff_ne.2 fun h => hoffset (h ▸ hc)
  unfold memoryTexts?
  rw [List.takeWhile_append_of_pos hparen, List.dropWhile_append_of_pos hparen,
    List.takeWhile_cons_of_neg (by simp), List.dropWhile_cons_of_neg (by simp), List.append_nil]

/-- An integer or nothing, and behind it a register in parentheses, splits there. -/
theorem memoryTexts?_append {offset word : Text}
    (hoffset : offset = [] ∨ Numeral.isOperand offset = true ∧ .char '(' ∉ offset) (hne : word ≠ [])
    (hword : ∀ c ∈ word, isWordChar c = true) :
    memoryTexts? (offset ++ .char '(' :: (.char '$' :: word ++ [.char ')'])) =
      some (offset, .char '$' :: word) := by
  have hparen : .char '(' ∉ offset := by
    rcases hoffset with rfl | ⟨-, hno⟩
    · nofun
    · exact hno
  have hbase : baseText? (.char '$' :: word ++ [.char ')']) = some (.char '$' :: word) := by
    have hchars : ∀ c ∈ .char '$' :: word ++ [.char ')'], Statement.isSeparator c = false := by
      refine List.forall_mem_append.2
        ⟨List.forall_mem_cons.2 ⟨by decide, fun c hc => ?_⟩, by decide⟩
      exact not_isSeparator_of_isWordChar (hword c hc)
    exact (baseText?_eq_some_iff hchars).2 ⟨word, rfl, rfl, hne, hword⟩
  rw [memoryTexts?_of_not_mem hparen, if_pos (hoffset.imp_right And.left), hbase, Option.map_some]

/-- A token splits into the texts of an offset and a base exactly as it is spelled. -/
theorem memoryTexts?_eq_some_iff {t offset base : Text} (ht : IsToken t) :
    memoryTexts? t = some (offset, base) ↔ ∃ word, base = .char '$' :: word ∧
      t = offset ++ .char '(' :: (.char '$' :: word ++ [.char ')']) ∧
      (offset = [] ∨ ∃ n, Numeral.Spells offset n) ∧ word ≠ [] ∧
      ∀ c ∈ word, isWordChar c = true := by
  have hoperand : ∀ u, u <:+: t →
      (Numeral.isOperand u = true ↔ ∃ n, Numeral.Spells u n) := fun u hu =>
    Numeral.isOperand_iff (ht.short.of_isInfix hu).convertible
  constructor
  · intro h
    have hsplit : t.takeWhile (· != .char '(') ++ t.dropWhile (· != .char '(') = t :=
      List.takeWhile_append_dropWhile
    have hoffset : t.takeWhile (· != .char '(') <:+: t := (List.takeWhile_prefix _).isInfix
    have hrest : t.dropWhile (· != .char '(') <:+: t := (List.dropWhile_suffix _).isInfix
    unfold memoryTexts? at h
    split at h
    case h_1 => cases h
    case h_2 c r hr =>
      rw [hr] at hsplit hrest
      obtain rfl : c = '(' := by
        have := List.head?_dropWhile_not (· != .char '(') t
        simpa [hr] using this
      simp only at h
      split at h
      case isTrue hfront =>
        obtain ⟨base', hbase, heq⟩ := Option.map_eq_some_iff.1 h
        cases heq
        have hr' : IsToken r := ht.of_isInfix ((List.suffix_cons (.char '(') r).isInfix.trans hrest)
        obtain ⟨word, rfl, rfl, hne, hword⟩ := (baseText?_eq_some_iff hr'.not_separator).1 hbase
        rw [hoperand _ hoffset] at hfront
        exact ⟨word, rfl, hsplit.symm, hfront, hne, hword⟩
      case isFalse => cases h
  · rintro ⟨word, rfl, rfl, hfront, hne, hword⟩
    refine memoryTexts?_append (hfront.imp_right ?_) hne hword
    rintro ⟨n, hn⟩
    exact ⟨(hoperand _ (List.prefix_append _ _).isInfix).2 ⟨n, hn⟩, not_mem_of_spells hn⟩

/-- A memory operand is read from its two texts, if both of them can be read. -/
theorem memory_of_texts {t offset base : Text}
    (hsep : ∀ c ∈ t, Statement.isSeparator c = false)
    (htexts : memoryTexts? t = some (offset, base)) {n : Int} {r : Register}
    (hoffset : offset = [] ∧ n = 0 ∨
      offset ≠ [] ∧ integer halfwordLow halfwordHigh offset = .ok n)
    (hbase : register base = .ok r) : memory t = .ok (n, r) := by
  unfold memory
  rw [Statement.dropFinalNewline_eq hsep, htexts]
  simp only [hbase]
  rcases hoffset with ⟨rfl, rfl⟩ | ⟨hne, hn⟩
  · rfl
  · rw [if_neg hne, hn]
    rfl

/-- Reading a memory operand succeeds exactly with the offset and the base that the token spells. -/
theorem memory_eq_ok_iff {t : Text} (ht : IsToken t) {n : Int} {r : Register} :
    memory t = .ok (n, r) ↔ Addresses t n r := by
  constructor
  · intro h
    unfold memory at h
    rw [ht.dropFinalNewline_eq] at h
    split at h
    case h_1 => cases h
    case h_2 offset base htexts =>
      obtain ⟨word, rfl, rfl, hspelled, hne, hword⟩ := (memoryTexts?_eq_some_iff ht).1 htexts
      have hoffset : IsToken offset := ht.of_isInfix (List.prefix_append _ _).isInfix
      have hbase : IsToken (.char '$' :: word) :=
        ht.of_isInfix ⟨offset ++ [.char '('], [')'], by simp⟩
      split at h
      case isTrue hnil =>
        simp only [bind_eq_ok, pure_eq_ok] at h
        obtain ⟨m, hm, r', hr, heq⟩ := h
        cases heq
        cases hm
        exact .mk (.inl ⟨hnil, rfl⟩) hne hword ((register_eq_ok_iff hbase).1 hr)
      case isFalse =>
        simp only [bind_eq_ok, pure_eq_ok] at h
        obtain ⟨m, hm, r', hr, heq⟩ := h
        cases heq
        have hn := (integer_eq_ok_iff hoffset.not_separator hoffset.short.convertible).1 hm
        exact .mk (.inr hn) hne hword ((register_eq_ok_iff hbase).1 hr)
  · intro h
    cases h with
    | @mk offset word _ _ hspelled hne hword hbase =>
      have hoffset : IsToken offset := ht.of_isInfix (List.prefix_append _ _).isInfix
      have hbaseToken : IsToken (.char '$' :: word) :=
        ht.of_isInfix ⟨offset ++ [.char '('], [')'], by simp⟩
      have hfront : offset = [] ∨ ∃ n, Numeral.Spells offset n :=
        hspelled.imp And.left fun h => ⟨n, h.1⟩
      have htexts := (memoryTexts?_eq_some_iff ht).2 ⟨word, rfl, rfl, hfront, hne, hword⟩
      refine memory_of_texts ht.not_separator htexts (hspelled.imp_right fun hn => ⟨?_, ?_⟩)
        ((register_eq_ok_iff hbaseToken).2 hbase)
      · rintro rfl
        exact Numeral.not_spells_nil n hn.1
      · exact (integer_eq_ok_iff hoffset.not_separator hoffset.short.convertible).2 hn

end Operand

end Mips32
