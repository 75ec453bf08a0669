import Mips32.Proofs.Source.Label

/-!
# The spellings of an instruction

An instruction can be written in many ways: the name of the operation in any letter case, a register
by its number or its name, a number in decimal or hexadecimal, with a sign and zeros or without, and
between the tokens whatever separates them. `SymbolicInstruction.WrittenAs` collects all of these
choices, each independent of the others, and says nothing of how a line is read.

Reading undoes every choice, from the line inward: the separators give the tokens
(`runs_of_renders`), what stands in front takes none of them away (`parse_of_writtenAs`), and each
token is read as what it stands for (`reads_of_operandsWrittenAs`). Only the size of a decimal
matters: a register whose number has too many digits is not converted
(`register_of_tooManyDigits`), so that the spellings here are bounded there.
-/

namespace Mips32

/-! ## Letter case -/

/-- A text that is a name with its letters in some case of ASCII. -/
def Text.IsCaseOf (t name : Text) : Prop :=
  t.map CodePoint.toLower = name

instance (t name : Text) : Decidable (t.IsCaseOf name) :=
  inferInstanceAs (Decidable (_ = _))

/-- A character that is no small letter is the lower case of itself alone. -/
theorem Text.eq_of_toLower {c d : CodePoint} (h : c.toLower = d) (hd : d.isLower = false) :
    c = d := by
  by_cases hcase : c.isUpper = true
  · -- A capital letter becomes a small one.
    have hbounds := Numeral.isUpper_iff.1 hcase
    have hlow : 65 ≤ c.toNat := hbounds.1
    have hhigh : c.toNat ≤ 90 := hbounds.2
    have hval : d.toNat = c.toNat + 32 := by
      rw [← h, CodePoint.toLower, if_pos hcase]
      exact CodePoint.toNat_ofNat (by omega)
    rw [Bool.eq_false_iff] at hd
    exact absurd (Bool.and_eq_true_iff.2 ⟨decide_eq_true (show 97 ≤ d.toNat by omega),
      decide_eq_true (show d.toNat ≤ 122 by omega)⟩) hd
  · rwa [Numeral.toLower_of_not_isUpper hcase] at h

namespace Text.IsCaseOf

variable {t name : Text}

/-- What holds of capital letters and of the characters of a name holds of the name in every letter
case. -/
theorem forall_mem (h : t.IsCaseOf name) {P : CodePoint → Prop}
    (hupper : ∀ c, c.isUpper = true → P c)
    (hname : ∀ c ∈ name, P c) : ∀ c ∈ t, P c := by
  intro c hc
  by_cases hcase : c.isUpper = true
  · exact hupper c hcase
  · have hmem : c.toLower ∈ t.map CodePoint.toLower := List.mem_map_of_mem hc
    rw [h, Numeral.toLower_of_not_isUpper hcase] at hmem
    exact hname c hmem

theorem ascii (h : t.IsCaseOf name) (hname : ∀ c ∈ name, c.toNat < 128) :
    ∀ c ∈ t, c.toNat < 128 := by
  refine h.forall_mem (fun c hc => ?_) hname
  have hbound : c.toNat ≤ 90 := (Numeral.isUpper_iff.1 hc).2
  omega

theorem lower_eq (h : t.IsCaseOf name) (hname : ∀ c ∈ name, c.toNat < 128) :
    Text.lower t = name := by
  rw [Text.lower_of_ascii (h.ascii hname), h]

/-- A dollar sign has no letter case. -/
theorem eq_cons (h : t.IsCaseOf (.char '$' :: name)) : ∃ word : Text, t = .char '$' :: word ∧
    word.IsCaseOf name := by
  cases t with
  | nil => cases h
  | cons c word =>
    obtain ⟨hc, hword⟩ := List.cons.inj h
    exact ⟨word, congrArg (· :: word) (Text.eq_of_toLower hc (by decide)), hword⟩

end Text.IsCaseOf

/-- A text that stands as one token: it is not empty and holds no separator. -/
structure Statement.IsRun (t : Text) : Prop where
  ne_nil : t ≠ []
  not_separator : ∀ c ∈ t, isSeparator c = false

/-! ## Registers -/

/-- A register is written as its number behind a dollar sign, with any zeros in front, or as its
conventional name in any letter case. -/
inductive Register.WrittenAs : Register → Text → Prop
  | number {r : Register} {ds : Text} (hne : ds ≠ [])
      (hd : ∀ c ∈ ds, Numeral.isDigit 10 c = true) (hlimit : ds.length ≤ Numeral.digitLimit)
      (hr : Numeral.ofDigits 10 ds = r.toNat) : WrittenAs r (.char '$' :: ds)
  | name {r : Register} {t name : Text} (hname : names[r.toNat]? = some name)
      (ht : t.IsCaseOf name) : WrittenAs r t

/-- Every conventional name is a dollar sign and a short ASCII word. -/
theorem Register.name_spec {name : Text} (h : name ∈ names) :
    ∃ word, name = .char '$' :: word ∧ word ≠ [] ∧ word.length ≤ 4 ∧
      (∀ c ∈ word, Operand.isWordChar c = true) ∧ ∀ c ∈ name, c.toNat < 128 := by
  have hnames : ∀ name ∈ names, name.head? = some (.char '$') ∧ name.tail ≠ [] ∧
      name.tail.length ≤ 4 ∧
      (∀ c ∈ name.tail, Operand.isWordChar c = true) ∧ ∀ c ∈ name, c.toNat < 128 := by decide
  obtain ⟨hdollar, hspec⟩ := hnames name h
  exact ⟨name.tail, (List.eq_cons_of_mem_head? hdollar), hspec⟩

namespace Register.WrittenAs

variable {r : Register} {t : Text}

/-- Behind the dollar sign stands an ASCII word that is not too long to convert. -/
theorem exists_word (h : r.WrittenAs t) :
    ∃ word, t = .char '$' :: word ∧ word ≠ [] ∧ word.length ≤ Numeral.digitLimit ∧
      ∀ c ∈ word, Operand.isWordChar c = true := by
  cases h with
  | number hne hd hlimit =>
    refine ⟨_, rfl, hne, hlimit, fun c hc => ?_⟩
    exact Operand.isWordChar_of_isAlphanum (Numeral.isAlphanum_of_isDigit (hd c hc))
  | name hname ht =>
    have hupper : ∀ c : CodePoint, c.isUpper = true → Operand.isWordChar c = true := fun c hc =>
      Operand.isWordChar_of_isAlphanum (Numeral.isAlphanum_of_isUpper hc)
    obtain ⟨low, rfl, hne, hlength, hlow, -⟩ := name_spec (List.mem_of_getElem? hname)
    obtain ⟨word, rfl, hword⟩ := ht.eq_cons
    have hsame : word.length = low.length := by rw [← hword, List.length_map]
    refine ⟨word, rfl, ?_, ?_, hword.forall_mem hupper hlow⟩
    · rw [← List.length_pos_iff, hsame]
      exact List.length_pos_iff.2 hne
    · rw [Numeral.digitLimit]
      omega

theorem isToken (h : r.WrittenAs t) : Statement.IsToken t := by
  obtain ⟨word, rfl, -, hlength, hword⟩ := h.exists_word
  refine ⟨List.forall_mem_cons.2 ⟨by decide, fun c hc => ?_⟩, ?_⟩
  · exact Operand.not_isSeparator_of_isWordChar (hword c hc)
  · exact .cons (by decide) (Numeral.short_of_length_le hlength)

theorem isRun (h : r.WrittenAs t) : Statement.IsRun t := by
  have htoken := h.isToken
  obtain ⟨word, rfl, -⟩ := h.exists_word
  exact ⟨List.cons_ne_nil _ _, htoken.not_separator⟩

/-- A register is read back from each of its spellings. -/
theorem register_eq (h : r.WrittenAs t) : Operand.register t = .ok r := by
  rw [Operand.register_eq_ok_iff h.isToken]
  cases h with
  | number hne hd _ hr => exact .number hne hd hr
  | name hname ht =>
    obtain ⟨_, -, -, -, -, hascii⟩ := name_spec (List.mem_of_getElem? hname)
    refine .name ?_
    rw [ht.lower_eq hascii, hname]

end Register.WrittenAs

theorem Operand.not_separator_of_digits {ds : Text} (hd : ∀ c ∈ ds, Numeral.isDigit 10 c = true) :
    ∀ c ∈ .char '$' :: ds, Statement.isSeparator c = false :=
  List.forall_mem_cons.2 ⟨by decide, fun c hc => Statement.not_isSeparator_of_isNameChar
    (by simp [Line.isNameChar, Numeral.isAlphanum_of_isDigit (hd c hc)])⟩

/-- A register whose number has too many digits is not converted. -/
theorem Operand.register_of_tooManyDigits {ds : Text} (hd : ∀ c ∈ ds, Numeral.isDigit 10 c = true)
    (h : Numeral.digitLimit < ds.length) :
    register (.char '$' :: ds) = .error (.tooManyDigits ds.length) := by
  have hne : ds ≠ [] := List.ne_nil_of_length_pos (by omega)
  unfold register
  rw [Statement.dropFinalNewline_eq (not_separator_of_digits hd),
    registerDigits?_eq_some_iff.2 ⟨rfl, hne, hd⟩]
  simp only
  rw [Numeral.ofDecimal, if_pos h]
  rfl

/-! ## Integers -/

/-- An integer is written in decimal or in hexadecimal, with a sign or none and any zeros in front.
A decimal has no more digits than can be converted. -/
structure Numeral.WrittenAs (n : Int) (t : Text) : Prop where
  spells : Spells t n
  convertible : Convertible t

namespace Numeral.WrittenAs

variable {n : Int} {t : Text}

theorem isRun (h : WrittenAs n t) : Statement.IsRun t := by
  refine ⟨?_, Operand.not_isSeparator_of_spells h.spells⟩
  rintro rfl
  exact not_spells_nil n h.spells

/-- An integer is read back from each of its spellings if it is within the bounds. -/
theorem integer_eq (h : WrittenAs n t) {low high : Int} (hn : low ≤ n ∧ n ≤ high) :
    Operand.integer low high t = .ok n :=
  (Operand.integer_eq_ok_iff h.isRun.not_separator h.convertible).2 ⟨h.spells, hn⟩

end Numeral.WrittenAs

/-! ## Memory operands -/

/-- An offset and a base register are written with the register in parentheses behind the offset.
An offset of zero may be left out. -/
inductive Operand.WrittenAs : Int → Register → Text → Prop
  | offset {n r t u} (ht : Numeral.WrittenAs n t) (hu : r.WrittenAs u) :
      WrittenAs n r (t ++ .char '(' :: (u ++ [.char ')']))
  | zero {r u} (hu : r.WrittenAs u) : WrittenAs 0 r (.char '(' :: (u ++ [.char ')']))

namespace Operand.WrittenAs

variable {n : Int} {r : Register} {t : Text}

theorem isRun (h : WrittenAs n r t) : Statement.IsRun t := by
  have hbase : ∀ {u}, r.WrittenAs u → ∀ c ∈ CodePoint.char '(' :: (u ++ [.char ')']),
      Statement.isSeparator c = false := fun hu => List.forall_mem_cons.2
    ⟨by decide, List.forall_mem_append.2 ⟨hu.isRun.not_separator, by decide⟩⟩
  cases h with
  | offset ht hu =>
    exact ⟨by simp, List.forall_mem_append.2 ⟨ht.isRun.not_separator, hbase hu⟩⟩
  | zero hu => exact ⟨List.cons_ne_nil _ _, hbase hu⟩

/-- An offset and a base register are read back from each of their spellings. -/
theorem memory_eq (h : WrittenAs n r t) (hn : halfwordLow ≤ n ∧ n ≤ halfwordHigh) :
    memory t = .ok (n, r) := by
  have hsep := h.isRun.not_separator
  cases h with
  | @offset _ _ t u ht hu =>
    obtain ⟨word, rfl, hne, -, hword⟩ := hu.exists_word
    have hoperand : Numeral.isOperand t = true :=
      (Numeral.isOperand_iff ht.convertible).2 ⟨n, ht.spells⟩
    have htexts := memoryTexts?_append (.inr ⟨hoperand, not_mem_of_spells ht.spells⟩) hne hword
    exact memory_of_texts hsep htexts (.inr ⟨ht.isRun.ne_nil, ht.integer_eq hn⟩) hu.register_eq
  | zero hu =>
    obtain ⟨word, rfl, hne, -, hword⟩ := hu.exists_word
    have htexts := memoryTexts?_append (.inl rfl) hne hword
    exact memory_of_texts hsep htexts (.inl ⟨rfl, rfl⟩) hu.register_eq

end Operand.WrittenAs

/-! ## Operands -/

namespace SymbolicInstruction

/-- The operands of an instruction are written in their source order. A label can be any token. -/
inductive OperandsWrittenAs : SymbolicInstruction → List Text → Prop
  | arith {op rd rs rt d s t} (hd : rd.WrittenAs d) (hs : rs.WrittenAs s) (ht : rt.WrittenAs t) :
      OperandsWrittenAs (.arith op rd rs rt) [d, s, t]
  | variableShift {op rd rt rs d t s} (hd : rd.WrittenAs d) (ht : rt.WrittenAs t)
      (hs : rs.WrittenAs s) : OperandsWrittenAs (.variableShift op rd rt rs) [d, t, s]
  | shift {op rd rt amount d t a} (hd : rd.WrittenAs d) (ht : rt.WrittenAs t)
      (ha : Numeral.WrittenAs amount.toNat a) : OperandsWrittenAs (.shift op rd rt amount) [d, t, a]
  | immediate {op rt rs value t s n} (ht : rt.WrittenAs t) (hs : rs.WrittenAs s)
      (hn : Numeral.WrittenAs value.toInt n) :
      OperandsWrittenAs (.immediate op rt rs value) [t, s, n]
  | memory {op rt base offset t a} (ht : rt.WrittenAs t)
      (ha : Operand.WrittenAs offset.toInt base a) :
      OperandsWrittenAs (.memory op rt base offset) [t, a]
  | branchPair {test rs rt label s t} (hs : rs.WrittenAs s) (ht : rt.WrittenAs t)
      (hlabel : Statement.IsRun label) :
      OperandsWrittenAs (.branchPair test rs rt label) [s, t, label]
  | branchSign {test rs label s} (hs : rs.WrittenAs s) (hlabel : Statement.IsRun label) :
      OperandsWrittenAs (.branchSign test rs label) [s, label]
  | jump {label} (hlabel : Statement.IsRun label) : OperandsWrittenAs (.jump label) [label]

variable {i : SymbolicInstruction} {operands : List Text}

/-- Every operand is a token. -/
theorem OperandsWrittenAs.isRun (h : i.OperandsWrittenAs operands) :
    ∀ t ∈ operands, Statement.IsRun t := by
  cases h with
  | arith hd hs ht => simp [hd.isRun, hs.isRun, ht.isRun]
  | variableShift hd ht hs => simp [hd.isRun, ht.isRun, hs.isRun]
  | shift hd ht ha => simp [hd.isRun, ht.isRun, ha.isRun]
  | immediate ht hs hn => simp [ht.isRun, hs.isRun, hn.isRun]
  | memory ht ha => simp [ht.isRun, ha.isRun]
  | branchPair hs ht hlabel => simp [hs.isRun, ht.isRun, hlabel]
  | branchSign hs hlabel => simp [hs.isRun, hlabel]
  | jump hlabel => simp [hlabel]

/-- An instruction is read back from each spelling of its operands. -/
theorem reads_of_operandsWrittenAs (h : i.OperandsWrittenAs operands) :
    Statement.Reads ⟨i.mnemonic, operands⟩ i := by
  cases h with
  | arith hd hs ht => exact .arith hd.register_eq hs.register_eq ht.register_eq
  | variableShift hd ht hs => exact .variableShift hd.register_eq ht.register_eq hs.register_eq
  | @shift _ _ _ amount _ _ _ hd ht ha =>
    have hamount := amount.isLt
    exact .shift hd.register_eq ht.register_eq (ha.integer_eq (by omega))
  | immediate ht hs hn =>
    exact .immediate ht.register_eq hs.register_eq (hn.integer_eq (halfword_bounds _))
  | memory ht ha => exact .memory ht.register_eq (ha.memory_eq (halfword_bounds _))
  | branchPair hs ht => exact .branchPair hs.register_eq ht.register_eq
  | branchSign hs => exact .branchSign hs.register_eq
  | jump => exact .jump

end SymbolicInstruction

/-! ## Lines -/

/-- Blanks and commas, in any mixture and without a line feed. -/
def IsGap (s : Text) : Prop :=
  ∀ c ∈ s, Statement.isSeparator c = true ∧ c ≠ '\n'

/-- Blanks without a line feed. -/
def IsMargin (s : Text) : Prop :=
  ∀ c ∈ s, Text.isBlank c = true ∧ c ≠ '\n'

instance (s : Text) : Decidable (IsGap s) :=
  s.decidableForallMem _

instance (s : Text) : Decidable (IsMargin s) :=
  s.decidableForallMem _

/-- A text is written as tokens with gaps between them, and perhaps one behind the last. -/
inductive Renders : List Text → Text → Prop
  | last {t gap} (hgap : IsGap gap) : Renders [t] (t ++ gap)
  | cons {t u ts gap rest} (hne : gap ≠ []) (hgap : IsGap gap) (hrest : Renders (u :: ts) rest) :
      Renders (t :: u :: ts) (t ++ (gap ++ rest))

/-- In front of a statement stands a margin, and there may be a label with another one behind its
colon. -/
inductive IsFront : Text → Prop
  | margin {s} (h : IsMargin s) : IsFront s
  | label {before name behind} (hbefore : IsMargin before)
      (hstart : name.head?.any Line.isNameStart = true)
      (hname : ∀ c ∈ name, Line.isNameChar c = true) (hbehind : IsMargin behind) :
      IsFront (before ++ (name ++ .char ':' :: behind))

/-- A line that an instruction is written as. -/
inductive SymbolicInstruction.WrittenAs (i : SymbolicInstruction) : Text → Prop
  | mk {front token operands body} (hfront : IsFront front)
      (htoken : token.IsCaseOf i.mnemonic.name) (hoperands : i.OperandsWrittenAs operands)
      (hbody : Renders (token :: operands) body) : WrittenAs i (front ++ body)

/-- The name of an operation in any letter case is a token. -/
theorem Mnemonic.isRun_of_isCaseOf {m : Mnemonic} {token : Text} (h : token.IsCaseOf m.name) :
    Statement.IsRun token := by
  have hnames : ∀ m ∈ all, m.name ≠ [] ∧ ∀ c ∈ m.name, Line.isNameChar c = true := by decide
  obtain ⟨hne, hchar⟩ := hnames m (mem_all m)
  have hupper : ∀ c : CodePoint, c.isUpper = true → Line.isNameChar c = true := by
    intro c hc
    rw [Line.isNameChar, Numeral.isAlphanum_of_isUpper hc, Bool.true_or, Bool.true_or]
  refine ⟨?_, fun c hc => Statement.not_isSeparator_of_isNameChar (h.forall_mem hupper hchar c hc)⟩
  rintro rfl
  exact hne h.symm

theorem Mnemonic.lower_of_isCaseOf {m : Mnemonic} {token : Text} (h : token.IsCaseOf m.name) :
    Text.lower token = m.name := by
  have hnames : ∀ m ∈ all, ∀ c ∈ m.name, c.toNat < 128 := by decide
  exact h.lower_eq (hnames m (mem_all m))

/-- The tokens of a text are those that it is written with. -/
theorem runs_of_renders {tokens : List Text} {s : Text} (h : Renders tokens s)
    (htokens : ∀ t ∈ tokens, Statement.IsRun t) : Text.runs Statement.isSeparator s = tokens := by
  induction h with
  | @last t gap hgap =>
    have ht := htokens t (.head _)
    have hsep : ∀ c ∈ gap, Statement.isSeparator c = true := fun c hc => (hgap c hc).1
    rw [Text.runs_append_right hsep, Text.runs_of_run ht.ne_nil ht.not_separator]
  | @cons t u ts gap rest hne hgap _ ih =>
    have ht := htokens t (.head _)
    have hsep : ∀ c ∈ gap, Statement.isSeparator c = true := fun c hc => (hgap c hc).1
    rw [Text.runs_append_gap ht.ne_nil ht.not_separator hne hsep,
      ih fun t ht => htokens t (.tail _ ht)]

/-- No line feed is in a text of tokens. -/
theorem newline_not_mem_of_renders {tokens : List Text} {s : Text} (h : Renders tokens s)
    (htokens : ∀ t ∈ tokens, Statement.IsRun t) : .char '\n' ∉ s := by
  have htoken : ∀ {t}, Statement.IsRun t → .char '\n' ∉ t := fun ht hc =>
    absurd (ht.not_separator _ hc) (by decide)
  induction h with
  | last hgap =>
    intro hc
    rcases List.mem_append.1 hc with hc | hc
    · exact htoken (htokens _ (.head _)) hc
    · exact (hgap _ hc).2 rfl
  | cons _ hgap _ ih =>
    intro hc
    rcases List.mem_append.1 hc with hc | hc
    · exact htoken (htokens _ (.head _)) hc
    · rcases List.mem_append.1 hc with hc | hc
      · exact (hgap _ hc).2 rfl
      · exact ih (fun t ht => htokens t (.tail _ ht)) hc

/-- Nothing in front of tokens takes any of them away, if the first is a name of an operation. -/
theorem runs_bodyOf_of_isFront {front body token : Text} {tokens : List Text} {m : Mnemonic}
    (hfront : IsFront front) (htoken : Text.lower token = m.name)
    (hbody : Text.runs Statement.isSeparator body = token :: tokens) (hline : .char '\n' ∉ body) :
    Text.runs Statement.isSeparator (Statement.bodyOf (front ++ body)) = token :: tokens := by
  have hsep : ∀ {s}, IsMargin s → ∀ c ∈ s, Statement.isSeparator c = true := fun hs c hc =>
    Statement.isSeparator_of_isBlank (hs c hc).1
  cases hfront with
  | margin hmargin =>
    have hruns := Statement.runs_eq_of_bodyOf (front ++ body)
    rw [Text.runs_append_left (hsep hmargin), hbody] at hruns
    -- A label would leave its colon in the first token.
    rcases hruns with hruns | ⟨name, hruns | ⟨t, ts, -, hruns⟩⟩
    · exact hruns.symm
    · obtain ⟨rfl, -⟩ := List.cons.inj hruns
      exact absurd (by simp) (Mnemonic.colon_not_mem htoken)
    · obtain ⟨rfl, -⟩ := List.cons.inj hruns
      exact absurd (by simp) (Mnemonic.colon_not_mem htoken)
  | @label before name behind hbefore hstart hname hbehind =>
    have hsome : ∃ c ∈ behind ++ body, Text.isBlank c = false := by
      have hmem : token ∈ Text.runs Statement.isSeparator body := hbody ▸ List.mem_cons_self
      obtain ⟨c, hc⟩ := List.exists_mem_of_ne_nil _ (Text.ne_nil_of_mem_runs hmem)
      refine ⟨c, List.mem_append_right _ ((Text.isInfix_of_mem_runs hmem).subset hc), ?_⟩
      have hno := Text.not_sep_of_mem_runs hmem c hc
      rw [Statement.isSeparator, Bool.or_eq_false_iff] at hno
      exact hno.1
    have hfeed : .char '\n' ∉ behind ++ body := by
      intro hc
      rcases List.mem_append.1 hc with hc | hc
      · exact (hbehind _ hc).2 rfl
      · exact hline hc
    have hsplit : before ++ (name ++ .char ':' :: behind) ++ body =
        before ++ (name ++ .char ':' :: (behind ++ body)) := by simp
    rw [hsplit, Statement.runs_bodyOf_label (fun c hc => (hbefore c hc).1) hstart hname hsome hfeed,
      Text.runs_append_left (hsep hbehind), hbody]

/-- A name of an operation and operands, with gaps between them and something in front or nothing,
are cut into the statement that they are. -/
theorem parse_of_renders {front body token : Text} {operands : List Text} {m : Mnemonic}
    (hfront : IsFront front) (htoken : token.IsCaseOf m.name)
    (hoperands : ∀ t ∈ operands, Statement.IsRun t) (hbody : Renders (token :: operands) body) :
    Statement.parse (front ++ body) = .ok ⟨m, operands⟩ := by
  have htokens := List.forall_mem_cons.2 ⟨Mnemonic.isRun_of_isCaseOf htoken, hoperands⟩
  have hname := Mnemonic.lower_of_isCaseOf htoken
  have hruns := runs_bodyOf_of_isFront hfront hname (runs_of_renders hbody htokens)
    (newline_not_mem_of_renders hbody htokens)
  exact Statement.parse_eq_ok_iff.2 ⟨token, hruns, hname⟩

/-- A line that an instruction is written as is cut into its operation and the tokens of its
operands. -/
theorem SymbolicInstruction.parse_of_writtenAs {i : SymbolicInstruction} {line : Text}
    (h : i.WrittenAs line) : ∃ operands, Statement.parse line = .ok ⟨i.mnemonic, operands⟩ ∧
      i.OperandsWrittenAs operands := by
  obtain ⟨hfront, htoken, hoperands, hbody⟩ := h
  exact ⟨_, parse_of_renders hfront htoken hoperands.isRun hbody, hoperands⟩

end Mips32
