import Mathlib.Data.List.Forall2
import Mips32.Proofs.Source.Grammar

/-!
# Well-formed statements

Which lines are statements, and which statements are instructions, told without the readers. A text
spells a statement if its tokens are the name of an operation, in any letter case, and the operands
(`Statement.SpelledBy`). The statement fits its operation if it has one operand for each slot, and
each operand is of the kind of its slot and in range (`Statement.Fits`).

* `parse_eq_ok_iff`: a line cuts into the statement that its text behind the label spells.
* `exists_reads_iff`: a statement of tokens reads as an instruction exactly if it fits.
* `settles_encodeLine`: a line whose numerals are not too long to convert has a word or a fault.
-/

namespace Mips32

open Statement (IsToken)

/-! ## Readers settle -/

namespace Operand

variable {t : Text}

theorem settles_register (ht : IsToken t) : Settles (register t) := by
  unfold register
  rw [ht.dropFinalNewline_eq]
  split
  case h_1 ds hds =>
    obtain ⟨rfl, -, hd⟩ := registerDigits?_eq_some_iff.1 hds
    have hshort := ht.short.of_isInfix (List.suffix_cons (.char '$') ds).isInfix
    rw [Numeral.ofDecimal_of_short hd hshort]
    simp only
    split
    · exact settles_ok _
    · exact settles_fault _
  case h_2 =>
    split
    · exact settles_ok _
    · exact settles_fault _

theorem settles_integer (ht : IsToken t) (low high : Int) : Settles (integer low high t) := by
  unfold integer
  rw [ht.dropFinalNewline_eq]
  split
  · split
    · exact settles_ok _
    · exact settles_fault _
  case h_2 e he =>
    cases e with
    | malformed => exact settles_fault _
    | tooManyDigits count =>
      exact absurd he (Numeral.readOperand_ne_tooManyDigits ht.short.convertible count)

theorem settles_memory (ht : IsToken t) : Settles (memory t) := by
  unfold memory
  rw [ht.dropFinalNewline_eq]
  split
  case h_1 => exact settles_fault _
  case h_2 offset base htexts =>
    obtain ⟨word, rfl, rfl, -⟩ := (memoryTexts?_eq_some_iff ht).1 htexts
    have hoffset : IsToken offset := ht.of_isInfix (List.prefix_append _ _).isInfix
    have hbase : IsToken (.char '$' :: word) :=
      ht.of_isInfix ⟨offset ++ [.char '('], [')'], by simp⟩
    have hrest : ∀ n : Int, Settles do
        let r ← register (.char '$' :: word)
        return (n, r) :=
      fun n => (settles_register hbase).bind fun r => settles_ok (n, r)
    simp only
    split
    · exact (settles_ok (0 : Int)).bind hrest
    · exact (settles_integer hoffset _ _).bind hrest

end Operand

/-! ## Spelling a statement -/

namespace Statement

/-- The tokens of a text are the name of an operation, in any letter case, and the operands. -/
def SpelledBy (text : Text) (s : Statement) : Prop :=
  ∃ token, Text.runs isSeparator text = token :: s.operands ∧ Text.lower token = s.mnemonic.name

theorem ofTokens_eq_ok_iff {tokens : List Text} {s : Statement} :
    ofTokens tokens = .ok s ↔
      ∃ token, tokens = token :: s.operands ∧ Text.lower token = s.mnemonic.name := by
  cases tokens with
  | nil => exact ⟨nofun, nofun⟩
  | cons token operands =>
    rw [ofTokens]
    constructor
    · intro h
      split at h
      case h_1 m hm =>
        cases h
        exact ⟨token, rfl, (Mnemonic.name_of_ofName? hm).symm⟩
      case h_2 => cases h
    · rintro ⟨_, heq, hname⟩
      cases heq
      rw [hname, Mnemonic.ofName?_name]

/-- Tokens are no statement if there are none, or if the first is no name of an operation. -/
theorem ofTokens_eq_error_iff {tokens : List Text} {fault : Fault} :
    ofTokens tokens = .error fault ↔ tokens = [] ∧ fault = .emptyInstruction ∨
      ∃ token operands, tokens = token :: operands ∧
        (∀ m : Mnemonic, Text.lower token ≠ m.name) ∧ fault = .unsupported token := by
  cases tokens with
  | nil => simp [ofTokens, eq_comm]
  | cons token operands =>
    rw [ofTokens]
    cases hname : Mnemonic.ofName? (Text.lower token) with
    | none =>
      constructor
      · intro h
        cases h
        exact .inr ⟨token, operands, rfl, Mnemonic.ofName?_eq_none_iff.1 hname, rfl⟩
      · rintro (⟨hnil, -⟩ | ⟨_, _, heq, -, rfl⟩)
        · cases hnil
        · cases heq
          rfl
    | some m =>
      refine iff_of_false nofun ?_
      rintro (⟨hnil, -⟩ | ⟨_, _, heq, hno, -⟩)
      · cases hnil
      · cases heq
        exact hno m (Mnemonic.name_of_ofName? hname).symm

/-- A line cuts into the statement that its text behind the label spells. -/
theorem parse_eq_ok_iff {line : Text} {s : Statement} :
    parse line = .ok s ↔ s.SpelledBy (bodyOf line) :=
  ofTokens_eq_ok_iff

/-- A label that is split off consists of name characters and stands in front of a colon, and what
is left are the characters behind the colon without blanks in front. -/
theorem exists_of_splitLabel? {line name body : Text}
    (h : Line.splitLabel? line = some (name, body)) :
    ∃ r, line = name ++ .char ':' :: r ∧ body = Text.trimStart r ∧
      ∀ c ∈ name, Line.isNameChar c = true := by
  unfold Line.splitLabel? at h
  split at h
  case h_1 r hr =>
    simp only at h
    split at h
    case isTrue =>
      cases h
      refine ⟨r, ?_, rfl, List.all_eq_true.1 List.all_takeWhile⟩
      rw [← hr, List.takeWhile_append_dropWhile]
    case isFalse => cases h
  case h_2 => cases h

theorem bodyOf_isInfix (line : Text) : bodyOf line <:+: line := by
  unfold bodyOf
  simp only
  split
  case h_1 name body h =>
    obtain ⟨r, hline, rfl, -⟩ := exists_of_splitLabel? h
    have hrest : r <:+ Text.trim line := ⟨name ++ [.char ':'], by simp [hline]⟩
    exact ((List.dropWhile_suffix _).trans hrest).isInfix.trans (Text.trim_isInfix line)
  case h_2 => exact Text.trim_isInfix line

end Statement

@[simp] theorem Line.label?_ofBody (name? : Option Text) (text : Text) :
    (ofBody name? text).label? = name? := by
  unfold ofBody
  split <;> rfl

@[simp] theorem Line.body_ofBody (name? : Option Text) (text : Text) :
    (ofBody name? text).body = text := by
  unfold ofBody
  split <;> rfl

/-- Whether a line occupies a word is told by what stands behind its label. -/
theorem Line.isInstruction_ofBody (name? : Option Text) (text : Text) :
    (ofBody name? text).isInstruction = decide (text.head? ≠ some (.char '.')) := by
  unfold ofBody
  split <;> simp_all [isInstruction]

/-- A line that ends in a colon and is no comment is a label line. -/
theorem Line.classify_eq_label {line : Text} (hne : Text.trim line ≠ [])
    (hhash : (Text.trim line).head? ≠ some (.char '#'))
    (hcolon : (Text.trim line).getLast? = some (.char ':')) :
    classify line = .label (Text.trim (Text.trim line).dropLast) := by
  unfold classify
  simp only
  rw [if_neg (not_or_intro hne hhash), if_pos hcolon]

/-- A line with something in it that is no comment and does not end in a colon is told by what
begins behind its label. -/
theorem Line.classify_eq_ofBody {line : Text} (hne : Text.trim line ≠ [])
    (hhash : (Text.trim line).head? ≠ some (.char '#'))
    (hcolon : (Text.trim line).getLast? ≠ some (.char ':')) :
    classify line =
      ofBody ((splitLabel? (Text.trim line)).map Prod.fst) (Statement.bodyOf line) := by
  unfold classify Statement.bodyOf
  simp only
  rw [if_neg (not_or_intro hne hhash), if_neg hcolon]
  cases splitLabel? (Text.trim line) <;> rfl

/-- An instruction line has something in it, and it is told by what begins behind its label. -/
theorem Line.classify_eq_ofBody_of_isInstruction {line : Text}
    (h : (classify line).isInstruction = true) : Text.trim line ≠ [] ∧ classify line =
      ofBody ((splitLabel? (Text.trim line)).map Prod.fst) (Statement.bodyOf line) := by
  by_cases hblank : Text.trim line = [] ∨ (Text.trim line).head? = some (.char '#')
  · have hkind : classify line = .blank := by
      unfold classify
      exact if_pos hblank
    rw [hkind] at h
    cases h
  · obtain ⟨hne, hhash⟩ := not_or.1 hblank
    by_cases hcolon : (Text.trim line).getLast? = some (.char ':')
    · rw [classify_eq_label hne hhash hcolon] at h
      cases h
    · exact ⟨hne, classify_eq_ofBody hne hhash hcolon⟩

namespace Statement

/-- What the classification of an instruction line finds behind the label is the text that is cut
into tokens. -/
theorem bodyOf_eq_body {line : Text} (h : (Line.classify line).isInstruction = true) :
    bodyOf line = (Line.classify line).body := by
  rw [(Line.classify_eq_ofBody_of_isInstruction h).2, Line.body_ofBody]

/-- The operands of a statement on a line are tokens. -/
theorem isToken_of_parse {line : Text} (hshort : Numeral.Short line) {s : Statement}
    (h : parse line = .ok s) : ∀ t ∈ s.operands, IsToken t := by
  obtain ⟨token, htokens, -⟩ := parse_eq_ok_iff.1 h
  intro t ht
  have hmem : t ∈ Text.runs isSeparator (bodyOf line) := htokens ▸ List.mem_cons_of_mem token ht
  have hinfix := (Text.isInfix_of_mem_runs hmem).trans (bodyOf_isInfix line)
  exact ⟨Text.not_sep_of_mem_runs hmem, hshort.of_isInfix hinfix⟩

end Statement

/-! ## Operands that fit -/

/-- Whether a token is of the kind of a slot and in its range. A label can be any token. -/
def Slot.Accepts : Slot → Text → Prop
  | .register _, t => ∃ r, Operand.Names t r
  | .amount, t => ∃ n, Numeral.Spells t n ∧ 0 ≤ n ∧ n ≤ 31
  | .constant, t => ∃ n, Numeral.Spells t n ∧ -32768 ≤ n ∧ n ≤ 32767
  | .memory, t => ∃ n r, Operand.Addresses t n r
  | .branchLabel, _ => True
  | .jumpLabel, _ => True

namespace Statement

/-- A statement has an operand for each slot of its operation, and each is of the kind of its slot
and in range. -/
def Fits (s : Statement) : Prop :=
  List.Forall₂ Slot.Accepts s.mnemonic.slots s.operands

theorem fits_of_reads {s : Statement} (htokens : ∀ t ∈ s.operands, IsToken t)
    {i : SymbolicInstruction} (h : s.Reads i) : s.Fits := by
  have hregister : ∀ {t r} (f : Field), t ∈ s.operands → Operand.register t = .ok r →
      (Slot.register f).Accepts t := fun _ hmem hr =>
    ⟨_, (Operand.register_eq_ok_iff (htokens _ hmem)).1 hr⟩
  have hinteger : ∀ {t low high n}, t ∈ s.operands → Operand.integer low high t = .ok n →
      Numeral.Spells t n ∧ low ≤ n ∧ n ≤ high := fun hmem =>
    (Operand.integer_eq_ok_iff (htokens _ hmem).not_separator (htokens _ hmem).short.convertible).1
  cases h with
  | arith hd hs ht =>
    exact .cons (hregister _ (by simp) hd) (.cons (hregister _ (by simp) hs)
      (.cons (hregister _ (by simp) ht) .nil))
  | variableShift hd ht hs =>
    exact .cons (hregister _ (by simp) hd) (.cons (hregister _ (by simp) ht)
      (.cons (hregister _ (by simp) hs) .nil))
  | shift hd ht ha =>
    have hamount := hinteger (by simp) ha
    exact .cons (hregister _ (by simp) hd) (.cons (hregister _ (by simp) ht)
      (.cons ⟨_, hamount⟩ .nil))
  | immediate ht hs hn =>
    have hconstant := hinteger (by simp) hn
    exact .cons (hregister _ (by simp) ht) (.cons (hregister _ (by simp) hs)
      (.cons ⟨_, hconstant⟩ .nil))
  | memory ht ha =>
    have haddress := (Operand.memory_eq_ok_iff (htokens _ (by simp))).1 ha
    exact .cons (hregister _ (by simp) ht) (.cons ⟨_, _, haddress⟩ .nil)
  | branchPair hs ht =>
    exact .cons (hregister _ (by simp) hs) (.cons (hregister _ (by simp) ht) (.cons trivial .nil))
  | branchSign hs => exact .cons (hregister _ (by simp) hs) (.cons trivial .nil)
  | jump => exact .cons trivial .nil

theorem exists_reads_of_fits {s : Statement} (htokens : ∀ t ∈ s.operands, IsToken t) (h : s.Fits) :
    ∃ i, s.Reads i := by
  have hregister : ∀ {t r}, t ∈ s.operands → Operand.Names t r → Operand.register t = .ok r :=
    fun hmem => (Operand.register_eq_ok_iff (htokens _ hmem)).2
  have hinteger : ∀ {t low high n}, t ∈ s.operands → Numeral.Spells t n ∧ low ≤ n ∧ n ≤ high →
      Operand.integer low high t = .ok n := fun hmem =>
    (Operand.integer_eq_ok_iff (htokens _ hmem).not_separator (htokens _ hmem).short.convertible).2
  obtain ⟨m, operands⟩ := s
  cases m <;>
    simp only [Fits, Mnemonic.slots, List.forall₂_cons_left_iff, List.forall₂_nil_left_iff] at h
  case arith op =>
    obtain ⟨d, _, ⟨rd, hd⟩, ⟨s, _, ⟨rs, hs⟩, ⟨t, _, ⟨rt, ht⟩, rfl, rfl⟩, rfl⟩, rfl⟩ := h
    exact ⟨_, .arith (hregister (by simp) hd) (hregister (by simp) hs) (hregister (by simp) ht)⟩
  case variableShift op =>
    obtain ⟨d, _, ⟨rd, hd⟩, ⟨t, _, ⟨rt, ht⟩, ⟨s, _, ⟨rs, hs⟩, rfl, rfl⟩, rfl⟩, rfl⟩ := h
    exact ⟨_, .variableShift (hregister (by simp) hd) (hregister (by simp) ht)
      (hregister (by simp) hs)⟩
  case shift op =>
    obtain ⟨d, _, ⟨rd, hd⟩, ⟨t, _, ⟨rt, ht⟩, ⟨a, _, ⟨n, hn⟩, rfl, rfl⟩, rfl⟩, rfl⟩ := h
    have hamount : shiftAmount a = .ok (BitVec.ofInt 5 n) :=
      map_eq_ok.2 ⟨n, hinteger (by simp) hn, rfl⟩
    exact ⟨_, .shift (hregister (by simp) hd) (hregister (by simp) ht)
      (shiftAmount_eq_ok_iff.1 hamount)⟩
  case immediate op =>
    obtain ⟨t, _, ⟨rt, ht⟩, ⟨s, _, ⟨rs, hs⟩, ⟨c, _, ⟨n, hn⟩, rfl, rfl⟩, rfl⟩, rfl⟩ := h
    have hconstant : halfword c = .ok (BitVec.ofInt 16 n) :=
      map_eq_ok.2 ⟨n, hinteger (by simp) hn, rfl⟩
    exact ⟨_, .immediate (hregister (by simp) ht) (hregister (by simp) hs)
      (halfword_eq_ok_iff.1 hconstant)⟩
  case memory op =>
    obtain ⟨t, _, ⟨rt, hrt⟩, ⟨a, _, ⟨n, base, ha⟩, rfl, rfl⟩, rfl⟩ := h
    have haddress := (Operand.memory_eq_ok_iff (htokens a (by simp))).2 ha
    have hoffset := toInt_ofInt_halfword (Operand.bounds_of_memory haddress)
    exact ⟨_, .memory (hregister (by simp) hrt) (hoffset ▸ haddress)⟩
  case branchPair test =>
    obtain ⟨s, _, ⟨rs, hs⟩, ⟨t, _, ⟨rt, ht⟩, ⟨label, _, -, rfl, rfl⟩, rfl⟩, rfl⟩ := h
    exact ⟨_, .branchPair (hregister (by simp) hs) (hregister (by simp) ht)⟩
  case branchSign test =>
    obtain ⟨s, _, ⟨rs, hs⟩, ⟨label, _, -, rfl, rfl⟩, rfl⟩ := h
    exact ⟨_, .branchSign (hregister (by simp) hs)⟩
  case jump =>
    obtain ⟨label, _, -, rfl, rfl⟩ := h
    exact ⟨_, .jump⟩

/-- A statement of tokens reads as an instruction exactly if its operands fit the operation. -/
theorem exists_reads_iff {s : Statement} (htokens : ∀ t ∈ s.operands, IsToken t) :
    (∃ i, s.Reads i) ↔ s.Fits :=
  ⟨fun ⟨_, h⟩ => fits_of_reads htokens h, exists_reads_of_fits htokens⟩

/-- Reading a statement of tokens gives an instruction or a fault. -/
theorem settles_instruction {s : Statement} (htokens : ∀ t ∈ s.operands, IsToken t) :
    Settles s.instruction := by
  have hregister : ∀ {t}, t ∈ s.operands → Settles (Operand.register t) := fun hmem =>
    Operand.settles_register (htokens _ hmem)
  have hinteger : ∀ {t} low high, t ∈ s.operands → Settles (Operand.integer low high t) :=
    fun low high hmem => Operand.settles_integer (htokens _ hmem) low high
  unfold instruction
  split
  · exact (hregister (by simp)).bind fun _ => (hregister (by simp)).bind fun _ =>
      (hregister (by simp)).bind fun _ => settles_ok _
  · exact (hregister (by simp)).bind fun _ => (hregister (by simp)).bind fun _ =>
      (hregister (by simp)).bind fun _ => settles_ok _
  · exact (hregister (by simp)).bind fun _ => (hregister (by simp)).bind fun _ =>
      ((hinteger 0 31 (by simp)).map _).bind fun _ => settles_ok _
  · exact (hregister (by simp)).bind fun _ => (hregister (by simp)).bind fun _ =>
      ((hinteger halfwordLow halfwordHigh (by simp)).map _).bind fun _ => settles_ok _
  · exact (hregister (by simp)).bind fun _ =>
      (Operand.settles_memory (htokens _ (by simp))).bind fun _ => settles_ok _
  · exact (hregister (by simp)).bind fun _ => (hregister (by simp)).bind fun _ => settles_ok _
  · exact (hregister (by simp)).bind fun _ => settles_ok _
  · exact settles_ok _
  · exact settles_fault _

end Statement

/-- A line whose numerals are not too long to convert has a word or a fault. -/
theorem settles_encodeLine {line : Text} (hshort : Numeral.Short line) (table : SymbolTable)
    (pc : Int) : Settles (encodeLine table pc line) := by
  unfold encodeLine
  cases hs : Statement.parse line with
  | error fault => exact settles_fault fault
  | ok s =>
    have ht := Statement.isToken_of_parse hshort hs
    exact (Statement.settles_instruction ht).bind fun i => (settles_mapError _).bind fun m =>
      settles_ok _

end Mips32
