import Mips32.Proofs.Source.Label

/-!
# Instructions in print

One canonical text for every instruction: the name of the operation, a blank, and the operands with
a comma and a blank between them. Registers are numbers behind a dollar sign, all other numbers are
decimals, and the base register of a memory operand stands in parentheses behind the offset.

The text is an instruction line without a label (`classify_text`), and what it spells is read back
as the instruction (`parse_text`, `reads_statement`). Labels go into the text as they are, so they
have to be plain: of name characters, which neither separate tokens nor end a label.
-/

namespace Mips32

/-- A token in print: name characters, and the signs that stand before and around numbers. -/
structure Plain (t : Text) : Prop where
  ne_nil : t ≠ []
  char : ∀ c ∈ t, Line.isNameChar c = true ∨ c ∈ [.char '$', .char '-', .char '(', .char ')']

namespace Plain

variable {t : Text}

theorem not_separator (h : Plain t) : ∀ c ∈ t, Statement.isSeparator c = false := by
  have hsigns : "$-()".text.all (!Statement.isSeparator ·) = true := by decide
  intro c hc
  rcases h.char c hc with hname | hsign
  · exact Statement.not_isSeparator_of_isNameChar hname
  · simpa using List.all_eq_true.1 hsigns c hsign

theorem not_blank (h : Plain t) : ∀ c ∈ t, Text.isBlank c = false := by
  intro c hc
  rw [Bool.eq_false_iff]
  intro hblank
  have := Statement.isSeparator_of_isBlank hblank
  simp [h.not_separator c hc] at this

theorem colon_not_mem (h : Plain t) : .char ':' ∉ t := by
  intro hc
  exact absurd (h.char _ hc) (by decide)

/-- A token in print that is not too long is a token of a line. -/
theorem isToken (h : Plain t) (hlength : t.length ≤ Numeral.digitLimit) : Statement.IsToken t :=
  ⟨h.not_separator, Numeral.short_of_length_le hlength⟩

end Plain

/-! ## Numbers and registers in print -/

theorem Line.isNameChar_of_isDigit {base : Nat} {c : CodePoint}
    (h : Numeral.isDigit base c = true) :
    isNameChar c = true := by
  simp [isNameChar, Numeral.isAlphanum_of_isDigit h]

theorem plain_digits (n : Nat) : Plain (Numeral.digits 10 n) where
  ne_nil := Numeral.digits_ne_nil n
  char _ hc := .inl (Line.isNameChar_of_isDigit (Numeral.isDigit_of_mem_digits hc))

/-- A plain token stays plain with one of the signs in front. -/
theorem Plain.cons {t : Text} (h : Plain t) {c : CodePoint}
    (hc : Line.isNameChar c = true ∨ c ∈ [.char '$', .char '-', .char '(', .char ')']) :
    Plain (c :: t) where
  ne_nil := List.cons_ne_nil c t
  char := List.forall_mem_cons.2 ⟨hc, h.char⟩

theorem Plain.append {t u : Text} (h : Plain t) (hu : Plain u) : Plain (t ++ u) where
  ne_nil := by simp [h.ne_nil]
  char := List.forall_mem_append.2 ⟨h.char, hu.char⟩

theorem plain_decimal (n : Int) : Plain (Numeral.decimal n) := by
  unfold Numeral.decimal
  split
  · exact (plain_digits _).cons (.inr (by decide))
  · exact plain_digits _

theorem Register.plain_spelling (r : Register) : Plain r.spelling :=
  (plain_digits r.toNat).cons (.inr (by decide))

theorem Numeral.length_digits_le {n k : Nat} (hk : 0 < k) (h : n < 10 ^ k) :
    (digits 10 n).length ≤ k := by
  rw [length_digits]
  exact (Nat.length_toDigits_le_iff (by decide) hk).2 h

theorem Numeral.length_decimal_le {n : Int} {k : Nat} (hk : 0 < k) (h : n.natAbs < 10 ^ k) :
    (decimal n).length ≤ k + 1 := by
  have hlength := length_digits_le hk h
  unfold decimal
  split
  · exact Nat.succ_le_succ hlength
  · exact Nat.le_succ_of_le hlength

theorem Register.length_spelling_le (r : Register) : r.spelling.length ≤ 3 := by
  have hr := r.isLt
  have hlength := Numeral.length_digits_le (n := r.toNat) (k := 2) (by decide) (by omega)
  exact Nat.succ_le_succ hlength

theorem Numeral.length_decimal_halfword_le (v : BitVec 16) : (decimal v.toInt).length ≤ 6 := by
  have hv := halfword_bounds v
  simp only [halfwordLow, halfwordHigh] at hv
  exact length_decimal_le (by decide) (by omega)

namespace Operand

theorem register_spelling (r : Register) : register r.spelling = .ok r := by
  have hlength := r.length_spelling_le
  have htoken := r.plain_spelling.isToken (by rw [Numeral.digitLimit]; omega)
  exact (register_eq_ok_iff htoken).2 (.number (Numeral.digits_ne_nil _)
    (fun _ => Numeral.isDigit_of_mem_digits) (Numeral.ofDigits_digits _))

theorem integer_decimal {low high n : Int} (hlength : (Numeral.decimal n).length ≤ 6)
    (h : low ≤ n ∧ n ≤ high) : integer low high (Numeral.decimal n) = .ok n := by
  have htoken := (plain_decimal n).isToken (by rw [Numeral.digitLimit]; omega)
  exact (integer_eq_ok_iff htoken.not_separator htoken.short.convertible).2
    ⟨Numeral.spells_decimal n, h⟩

/-- An offset and a base register in print. -/
def address (offset : BitVec 16) (base : Register) : Text :=
  Numeral.decimal offset.toInt ++ .char '(' :: (base.spelling ++ [.char ')'])

theorem plain_address (offset : BitVec 16) (base : Register) : Plain (address offset base) := by
  have hend : Plain [')'] :=
    ⟨by decide, fun c hc => .inr (by rw [List.mem_singleton.1 hc]; decide)⟩
  exact (plain_decimal _).append ((base.plain_spelling.append hend).cons (.inr (by decide)))

theorem memory_address (offset : BitVec 16) (base : Register) :
    memory (address offset base) = .ok (offset.toInt, base) := by
  have hoffset := Numeral.length_decimal_halfword_le offset
  have hbase := base.length_spelling_le
  have hlength : (address offset base).length ≤ 11 := by
    simp only [address, List.length_append, List.length_cons, List.length_nil]
    omega
  have htoken := (plain_address offset base).isToken (by rw [Numeral.digitLimit]; omega)
  have hword : ∀ c ∈ Numeral.digits 10 base.toNat, isWordChar c = true := by
    intro c hc
    simp [isWordChar, Numeral.isAlphanum_of_isDigit (Numeral.isDigit_of_mem_digits hc)]
  exact (memory_eq_ok_iff htoken).2 (.mk
    (.inr ⟨Numeral.spells_decimal _, halfword_bounds offset⟩) (Numeral.digits_ne_nil _) hword
    (.number (Numeral.digits_ne_nil _) (fun _ => Numeral.isDigit_of_mem_digits)
      (Numeral.ofDigits_digits _)))

end Operand

namespace SymbolicInstruction

/-- The operands of an instruction in print, in their source order. -/
def operands : SymbolicInstruction → List Text
  | .arith _ rd rs rt => [rd.spelling, rs.spelling, rt.spelling]
  | .variableShift _ rd rt rs => [rd.spelling, rt.spelling, rs.spelling]
  | .shift _ rd rt amount => [rd.spelling, rt.spelling, Numeral.decimal amount.toNat]
  | .immediate _ rt rs value => [rt.spelling, rs.spelling, Numeral.decimal value.toInt]
  | .memory _ rt base offset => [rt.spelling, Operand.address offset base]
  | .branchPair _ rs rt label => [rs.spelling, rt.spelling, label]
  | .branchSign _ rs label => [rs.spelling, label]
  | .jump label => [label]

/-- The statement that an instruction in print is. -/
def statement (i : SymbolicInstruction) : Statement :=
  ⟨i.mnemonic, i.operands⟩

/-- An instruction in print. -/
def text (i : SymbolicInstruction) : Text :=
  i.mnemonic.name ++ .char ' ' :: List.intercalate ", ".text i.operands

/-- What is printed is read back. -/
theorem reads_statement (i : SymbolicInstruction) : i.statement.Reads i := by
  cases i with
  | arith op rd rs rt =>
    exact .arith (Operand.register_spelling rd) (Operand.register_spelling rs)
      (Operand.register_spelling rt)
  | variableShift op rd rt rs =>
    exact .variableShift (Operand.register_spelling rd) (Operand.register_spelling rt)
      (Operand.register_spelling rs)
  | shift op rd rt amount =>
    have hamount := amount.isLt
    have hlength := Numeral.length_decimal_le (n := amount.toNat) (k := 2) (by decide) (by omega)
    exact .shift (Operand.register_spelling rd) (Operand.register_spelling rt)
      (Operand.integer_decimal (by omega) (by omega))
  | immediate op rt rs value =>
    exact .immediate (Operand.register_spelling rt) (Operand.register_spelling rs)
      (Operand.integer_decimal (Numeral.length_decimal_halfword_le value) (halfword_bounds value))
  | memory op rt base offset =>
    exact .memory (Operand.register_spelling rt) (Operand.memory_address offset base)
  | branchPair test rs rt label =>
    exact .branchPair (Operand.register_spelling rs) (Operand.register_spelling rt)
  | branchSign test rs label => exact .branchSign (Operand.register_spelling rs)
  | jump label => exact .jump

end SymbolicInstruction

/-! ## The text as a line -/

theorem Mnemonic.isNameChar_of_mem_name (m : Mnemonic) :
    ∀ c ∈ m.name, Line.isNameChar c = true := by
  have hnames : ∀ m ∈ all, m.name.all Line.isNameChar = true := by decide
  exact List.all_eq_true.1 (hnames m (mem_all m))

theorem Mnemonic.plain_name (m : Mnemonic) : Plain m.name := by
  have hnames : ∀ m ∈ all, m.name ≠ [] := by decide
  exact ⟨hnames m (mem_all m), fun c hc => .inl (m.isNameChar_of_mem_name c hc)⟩

theorem Mnemonic.lower_name (m : Mnemonic) : Text.lower m.name = m.name := by
  have hnames : ∀ m ∈ all, Text.lower m.name = m.name := by decide
  exact hnames m (mem_all m)

theorem Mnemonic.isNameStart_of_head?_name {m : Mnemonic} {c : CodePoint}
    (h : m.name.head? = some c) :
    Line.isNameStart c = true := by
  have hnames : ∀ m ∈ all, m.name.head?.all Line.isNameStart = true := by decide
  simpa [h] using hnames m (mem_all m)

/-- What is put together of pieces ends as one of them does. -/
theorem Text.exists_getLast?_intercalate (glue : Text) {ts : List Text} (hts : ts ≠ [])
    (hne : ∀ t ∈ ts, t ≠ []) : ∃ t ∈ ts, List.intercalate glue ts ≠ [] ∧
      (List.intercalate glue ts).getLast? = t.getLast? := by
  induction ts with
  | nil => exact absurd rfl hts
  | cons t ts ih =>
    cases ts with
    | nil =>
      rw [List.intercalate_singleton]
      exact ⟨t, .head _, hne t (.head _), rfl⟩
    | cons u us =>
      obtain ⟨v, hv, hrest, hlast⟩ := ih (by simp) fun t ht => hne t (.tail _ ht)
      rw [List.intercalate_cons_cons, List.getLast?_append_of_ne_nil _ hrest]
      exact ⟨v, .tail _ hv, List.append_ne_nil_of_right_ne_nil _ hrest, hlast⟩

namespace SymbolicInstruction

variable {i : SymbolicInstruction}

theorem operands_ne_nil (i : SymbolicInstruction) : i.operands ≠ [] := by
  cases i <;> exact List.cons_ne_nil _ _

/-- The text ends as an operand does. -/
theorem exists_getLast?_text (h : ∀ t ∈ i.operands, Plain t) :
    ∃ t ∈ i.operands, i.text.getLast? = t.getLast? := by
  obtain ⟨t, ht, hrest, hlast⟩ := Text.exists_getLast?_intercalate ", ".text i.operands_ne_nil
    fun t ht => (h t ht).ne_nil
  have htext : i.text = (i.mnemonic.name ++ [.char ' ']) ++
      List.intercalate ", ".text i.operands := by
    simp [text]
  exact ⟨t, ht, by rw [htext, List.getLast?_append_of_ne_nil _ hrest, hlast]⟩

/-- The text begins as the name of the operation does. -/
theorem isNameStart_of_head?_text {c : CodePoint} (h : i.text.head? = some c) :
    Line.isNameStart c = true := by
  rw [text, List.head?_append_of_ne_nil _ i.mnemonic.plain_name.ne_nil] at h
  exact Mnemonic.isNameStart_of_head?_name h

theorem trim_text (h : ∀ t ∈ i.operands, Plain t) : Text.trim i.text = i.text := by
  refine Text.trim_eq_self (fun c hc => ?_) fun c hc => ?_
  · rw [text, List.head?_append_of_ne_nil _ i.mnemonic.plain_name.ne_nil] at hc
    exact i.mnemonic.plain_name.not_blank c (List.mem_of_head? hc)
  · obtain ⟨t, ht, hlast⟩ := exists_getLast?_text h
    exact (h t ht).not_blank c (List.mem_of_getLast? (hlast ▸ hc))

/-- Behind the name of the operation there is a blank, so the name is no label. -/
theorem splitLabel?_text (i : SymbolicInstruction) : Line.splitLabel? i.text = none := by
  have hname : ∀ c ∈ i.mnemonic.name, Line.isNameChar c = true := i.mnemonic.isNameChar_of_mem_name
  have hblank : Line.isNameChar ' ' = false := by decide
  have hrest : i.text.dropWhile Line.isNameChar =
      .char ' ' :: List.intercalate ", ".text i.operands := by
    rw [text, List.dropWhile_append_of_pos hname, List.dropWhile_cons_of_neg (by simp [hblank])]
  unfold Line.splitLabel?
  rw [hrest]
  rfl

theorem bodyOf_text (h : ∀ t ∈ i.operands, Plain t) : Statement.bodyOf i.text = i.text := by
  unfold Statement.bodyOf
  simp only [trim_text h, splitLabel?_text]

/-- The text is an instruction line without a label. -/
theorem classify_text (h : ∀ t ∈ i.operands, Plain t) :
    Line.classify i.text = .instruction none i.text := by
  have hstart : ∀ {c}, Line.isNameStart c = false → i.text.head? ≠ some c := by
    intro c hc hhead
    rw [isNameStart_of_head?_text hhead] at hc
    cases hc
  have hne : i.text ≠ [] := by simp [text]
  have hcolon : i.text.getLast? ≠ some (.char ':') := by
    intro hlast
    obtain ⟨t, ht, heq⟩ := exists_getLast?_text h
    exact (h t ht).colon_not_mem (List.mem_of_getLast? (heq ▸ hlast))
  have hkind := @Line.classify_eq_ofBody i.text
  rw [trim_text h, splitLabel?_text, bodyOf_text h] at hkind
  rw [hkind hne (hstart (by decide)) hcolon, Line.ofBody, if_neg (hstart (by decide)),
    Option.map_none]

/-- The text spells its statement. -/
theorem parse_text (h : ∀ t ∈ i.operands, Plain t) : Statement.parse i.text = .ok i.statement := by
  rw [Statement.parse_eq_ok_iff, bodyOf_text h]
  refine ⟨i.mnemonic.name, ?_, i.mnemonic.lower_name⟩
  have hname := i.mnemonic.plain_name
  have hblank : Statement.isSeparator ' ' = true := by decide
  have hglue : ", ".text.all Statement.isSeparator = true := by decide
  have hrest :
      (.char ' ' :: List.intercalate ", ".text i.operands).head?.all Statement.isSeparator :=
    hblank
  rw [text, Text.runs_append_of_run hname.ne_nil hname.not_separator hrest, Text.runs,
    if_pos hblank, Text.runs_intercalate (by decide) (List.all_eq_true.1 hglue) fun t ht =>
      ⟨(h t ht).ne_nil, (h t ht).not_separator⟩]
  rfl

end SymbolicInstruction

/-! ## Labels in print -/

/-- A plain token in front of a colon is a label line. -/
theorem Plain.classify_label {name : Text} (h : Plain name) :
    Line.classify (name ++ [.char ':']) = .label name := by
  have hblank : ∀ c ∈ ([] : Text), Text.isBlank c = true := List.forall_mem_nil _
  have hhash : name.head? ≠ some (.char '#') := fun hc =>
    absurd (h.char _ (List.mem_of_head? hc)) (by decide)
  exact Line.classify_label hblank h.ne_nil h.not_blank hhash hblank hblank

end Mips32
