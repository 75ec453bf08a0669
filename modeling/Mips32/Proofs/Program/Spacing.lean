import Mips32.Proofs.Program.Rejection
import Mips32.Proofs.Source.Spelling

/-!
# Blanks in a memory operand

Between its parentheses a memory operand may have blanks around the base register: its reader passes
over them and finds the same offset and the same base (`memory_of_spaced`). No line brings such an
operand to the reader, though. Tokens are cut at blanks first, so each of the two stretches cuts the
operand once more (`length_runs_spaced`), and what is left are more operands than a load or a store
takes.

`encodeLine_spaced` puts the two together. A load or a store whose operand the reader takes has a
word if it is written without the blanks; with them it has the same word only where there are none,
and else it is rejected for the count of its operands.
-/

namespace Mips32

/-- Blanks that a memory operand may hold, without a line feed. -/
def IsPadding (s : Text) : Prop :=
  ∀ c ∈ s, Text.isNarrowBlank c = true ∧ c ≠ '\n'

instance (s : Text) : Decidable (IsPadding s) :=
  s.decidableForallMem _

theorem IsPadding.isSeparator {s : Text} (h : IsPadding s) :
    ∀ c ∈ s, Statement.isSeparator c = true := fun c hc =>
  Statement.isSeparator_of_isBlank (Statement.isBlank_of_isNarrowBlank (h c hc).1)

/-! ## The reader passes over blanks -/

namespace Operand

/-- An offset, and in parentheses a base with something in front of it and something behind it. -/
def spaced (offset before base behind : Text) : Text :=
  offset ++ .char '(' :: (before ++ (base ++ (behind ++ [.char ')'])))

variable {offset before base behind : Text}

/-- A text with a parenthesis at its end ends in no line feed that a reader would pass over. -/
theorem dropFinalNewline_spaced (offset before base behind : Text) :
    Text.dropFinalNewline (spaced offset before base behind) =
      spaced offset before base behind := by
  have hend : ∀ s : Text, Text.dropFinalNewline (s ++ [.char ')']) = s ++ [.char ')'] := by
    intro s
    induction s with
    | nil => rfl
    | cons c r ih =>
      rw [List.cons_append, Text.dropFinalNewline, ih]
      rintro - hnil
      simp at hnil
  have hsplit : spaced offset before base behind =
      offset ++ .char '(' :: (before ++ (base ++ behind)) ++ [.char ')'] := by simp [spaced]
  rw [hsplit, hend]

/-- The word in front of a character that is none. -/
theorem baseText?_cons {word rest : Text} {d : CodePoint} (hword : ∀ c ∈ word, isWordChar c = true)
    (hd : isWordChar d = false) :
    baseText? (.char '$' :: (word ++ d :: rest)) =
      if word ≠ [] ∧ (d :: rest).dropWhile Text.isNarrowBlank = [.char ')'] then
        some (.char '$' :: word)
      else none := by
  have hdollar : Text.isNarrowBlank '$' = false := by decide
  unfold baseText?
  rw [List.dropWhile_cons_of_neg (by simp [hdollar])]
  simp only
  rw [List.takeWhile_append_of_pos hword, List.takeWhile_cons_of_neg (by simp [hd]),
    List.append_nil, List.dropWhile_append_of_pos hword,
    List.dropWhile_cons_of_neg (by simp [hd])]

/-- Behind a dollar sign the base register is found with or without blanks in front of the closing
parenthesis. -/
theorem baseText?_dollar {r : Text} (hr : ∀ c ∈ r, Statement.isSeparator c = false)
    (hbehind : IsPadding behind) :
    baseText? (.char '$' :: (r ++ (behind ++ [.char ')']))) =
      baseText? (.char '$' :: (r ++ [.char ')'])) := by
  have hparen : isWordChar ')' = false := by decide
  have hword : ∀ c ∈ r.takeWhile isWordChar, isWordChar c = true :=
    List.all_eq_true.1 List.all_takeWhile
  rw [← List.takeWhile_append_dropWhile (p := isWordChar) (l := r)]
  cases hrest : r.dropWhile isWordChar with
  | nil =>
    rw [List.append_nil, baseText?_cons hword hparen]
    cases behind with
    | nil => rw [List.nil_append, baseText?_cons hword hparen]
    | cons d behind =>
      have hd : isWordChar d = false := by
        rw [Bool.eq_false_iff]
        intro hd
        have hsep := hbehind.isSeparator d (.head _)
        rw [not_isSeparator_of_isWordChar hd] at hsep
        cases hsep
      rw [List.cons_append, baseText?_cons hword hd, ← List.cons_append,
        List.dropWhile_append_of_pos fun c hc => (hbehind c hc).1]
  | cons d rest =>
    -- Neither text is a word in front of the parenthesis.
    have hd : isWordChar d = false := by
      have := List.head?_dropWhile_not isWordChar r
      simpa [hrest] using this
    have hmem : d ∈ r := (List.dropWhile_suffix isWordChar).subset (hrest ▸ List.mem_cons_self)
    have hnarrow := Statement.isNarrowBlank_eq_false (hr d hmem)
    simp only [List.append_assoc, List.cons_append]
    rw [baseText?_cons hword hd, baseText?_cons hword hd,
      List.dropWhile_cons_of_neg (by simp [hnarrow]),
      List.dropWhile_cons_of_neg (by simp [hnarrow])]
    simp

/-- The base register is found with or without blanks around it. -/
theorem baseText?_spaced (hbase : ∀ c ∈ base, Statement.isSeparator c = false)
    (hbefore : IsPadding before) (hbehind : IsPadding behind) :
    baseText? (before ++ (base ++ (behind ++ [.char ')']))) = baseText? (base ++ [.char ')']) := by
  have hfront : baseText? (before ++ (base ++ (behind ++ [.char ')']))) =
      baseText? (base ++ (behind ++ [.char ')'])) := by
    unfold baseText?
    rw [List.dropWhile_append_of_pos fun c hc => (hbefore c hc).1]
  rw [hfront]
  cases base with
  | nil =>
    unfold baseText?
    rw [List.nil_append, List.dropWhile_append_of_pos fun c hc => (hbehind c hc).1]
    rfl
  | cons c r =>
    obtain ⟨hc, hr⟩ := List.forall_mem_cons.1 hbase
    by_cases hdollar : c = '$'
    · subst hdollar
      exact baseText?_dollar hr hbehind
    · have hnone : ∀ s, baseText? (c :: s) = none := by
        intro s
        have hnarrow := Statement.isNarrowBlank_eq_false hc
        unfold baseText?
        rw [List.dropWhile_cons_of_neg (by simp [hnarrow])]
        split
        case h_1 heq => exact absurd (List.cons.inj heq).1 hdollar
        case h_2 => rfl
      rw [List.cons_append, List.cons_append, hnone, hnone]

/-- An operand splits into the texts of its offset and its base with or without blanks around the
base. -/
theorem memoryTexts?_spaced (hoffset : .char '(' ∉ offset)
    (hbase : ∀ c ∈ base, Statement.isSeparator c = false) (hbefore : IsPadding before)
    (hbehind : IsPadding behind) :
    memoryTexts? (spaced offset before base behind) = memoryTexts? (spaced offset [] base []) := by
  rw [spaced, spaced, memoryTexts?_of_not_mem hoffset, memoryTexts?_of_not_mem hoffset,
    baseText?_spaced hbase hbefore hbehind]
  rfl

/-- What the reader finds in an operand with blanks around the base it finds without them. -/
theorem memory_of_spaced {n : Int} {b : Register} (hoffset : .char '(' ∉ offset)
    (hbase : ∀ c ∈ base, Statement.isSeparator c = false) (hbefore : IsPadding before)
    (hbehind : IsPadding behind) (h : memory (spaced offset before base behind) = .ok (n, b)) :
    memory (spaced offset [] base []) = .ok (n, b) := by
  unfold memory at h ⊢
  rw [dropFinalNewline_spaced, memoryTexts?_spaced hoffset hbase hbefore hbehind] at h
  rw [dropFinalNewline_spaced]
  cases htexts : memoryTexts? (spaced offset [] base []) with
  | none =>
    rw [htexts] at h
    cases h
  | some texts =>
    rw [htexts] at h
    exact h

/-- An operand that the reader takes has a base. -/
theorem base_ne_nil_of_memory {n : Int} {b : Register} (hoffset : .char '(' ∉ offset)
    (h : memory (spaced offset [] base []) = .ok (n, b)) : base ≠ [] := by
  rintro rfl
  have hnone : baseText? [')'] = none := by rfl
  have htexts : memoryTexts? (spaced offset [] [] []) = none := by
    show memoryTexts? (offset ++ .char '(' :: [.char ')']) = none
    rw [memoryTexts?_of_not_mem hoffset, hnone]
    exact ite_self none
  unfold memory at h
  rw [dropFinalNewline_spaced, htexts] at h
  cases h

end Operand

/-! ## The line is cut at blanks -/

namespace Statement

open Operand (spaced)

variable {offset before base behind : Text}

/-- Without blanks the operand is one token. -/
theorem isRun_spaced (hoffset : ∀ c ∈ offset, isSeparator c = false)
    (hbase : ∀ c ∈ base, isSeparator c = false) : IsRun (spaced offset [] base []) := by
  refine ⟨by simp [spaced], ?_⟩
  show ∀ c ∈ offset ++ .char '(' :: (base ++ [.char ')']), isSeparator c = false
  exact List.forall_mem_append.2 ⟨hoffset, List.forall_mem_cons.2 ⟨by decide,
    List.forall_mem_append.2 ⟨hbase, by decide⟩⟩⟩

/-- Each stretch of blanks cuts the operand once. -/
theorem length_runs_spaced (hoffset : ∀ c ∈ offset, isSeparator c = false)
    (hbase : ∀ c ∈ base, isSeparator c = false) (hne : base ≠ []) (hbefore : IsPadding before)
    (hbehind : IsPadding behind) :
    (Text.runs isSeparator (spaced offset before base behind)).length =
      1 + (if before = [] then 0 else 1) + if behind = [] then 0 else 1 := by
  have hclose : ∀ c ∈ [.char ')'], isSeparator c = false := by decide
  -- What stands in front of the second stretch is one run, whatever it is.
  have hback : ∀ t : Text, t ≠ [] → (∀ c ∈ t, isSeparator c = false) →
      (Text.runs isSeparator (t ++ (behind ++ [.char ')']))).length =
        1 + if behind = [] then 0 else 1 := by
    intro t htne ht
    by_cases hnil : behind = []
    · rw [hnil, List.nil_append, Text.runs_of_run (by simp) (List.forall_mem_append.2 ⟨ht, hclose⟩)]
      rfl
    · rw [Text.runs_append_gap htne ht hnil hbehind.isSeparator,
        Text.runs_of_run (by simp) hclose, if_neg hnil]
      rfl
  have hfront : ∀ c ∈ offset ++ [.char '('], isSeparator c = false :=
    List.forall_mem_append.2 ⟨hoffset, by decide⟩
  have hsplit : spaced offset before base behind =
      offset ++ [.char '('] ++ (before ++ (base ++ (behind ++ [.char ')']))) := by simp [spaced]
  by_cases hnil : before = []
  · have hjoined : ∀ c ∈ offset ++ [.char '('] ++ base, isSeparator c = false :=
      List.forall_mem_append.2 ⟨hfront, hbase⟩
    rw [hsplit, hnil, List.nil_append, ← List.append_assoc, hback _ (by simp) hjoined]
    rfl
  · rw [hsplit, Text.runs_append_gap (by simp) hfront hnil hbefore.isSeparator, List.length_cons,
      hback base hne hbase, if_neg hnil]
    omega

theorem newline_not_mem_spaced (hoffset : ∀ c ∈ offset, isSeparator c = false)
    (hbase : ∀ c ∈ base, isSeparator c = false) (hbefore : IsPadding before)
    (hbehind : IsPadding behind) : .char '\n' ∉ spaced offset before base behind := by
  have hnot : ∀ {t : Text}, (∀ c ∈ t, isSeparator c = false) → .char '\n' ∉ t := fun h hc =>
    absurd (h _ hc) (by decide)
  have hpadding : ∀ {s : Text}, IsPadding s → .char '\n' ∉ s := fun h hc => (h _ hc).2 rfl
  simp [spaced, hnot hoffset, hnot hbase, hpadding hbefore, hpadding hbehind]

/-- A load or a store as it stands on a line. -/
def memoryLine (op : MemoryOp) (register operand : Text) : Text :=
  (Mnemonic.memory op).name ++ ([.char ' '] ++ (register ++ ([.char ',', .char ' '] ++ operand)))

/-- The line is cut into the register and the tokens of the operand. -/
theorem parse_memoryLine (op : MemoryOp) {register operand : Text}
    (hregister : IsRun register) (hoperand : .char '\n' ∉ operand) :
    parse (memoryLine op register operand) =
      .ok ⟨.memory op, register :: Text.runs isSeparator operand⟩ := by
  have hfront : IsFront [] := .margin (by decide)
  have hname : ∀ op, Text.IsCaseOf (Mnemonic.memory op).name (Mnemonic.memory op).name ∧
      .char '\n' ∉ (Mnemonic.memory op).name := by
    intro op
    cases op <;> decide
  obtain ⟨hcase, hplain⟩ := hname op
  have hrun := Mnemonic.isRun_of_isCaseOf hcase
  have hruns : Text.runs isSeparator (memoryLine op register operand) =
      (Mnemonic.memory op).name :: register :: Text.runs isSeparator operand := by
    rw [memoryLine, Text.runs_append_gap hrun.ne_nil hrun.not_separator (by simp) (by decide),
      Text.runs_append_gap hregister.ne_nil hregister.not_separator (by simp) (by decide)]
  have hline : .char '\n' ∉ memoryLine op register operand := by
    have hregisterLine : .char '\n' ∉ register := fun hc =>
      absurd (hregister.not_separator _ hc) (by decide)
    simp [memoryLine, hplain, hregisterLine, hoperand]
  have hlower := Mnemonic.lower_of_isCaseOf hcase
  have hbody : Text.runs isSeparator (bodyOf ([] ++ memoryLine op register operand)) = _ :=
    runs_bodyOf_of_isFront hfront hlower hruns hline
  exact parse_eq_ok_iff.2 ⟨_, hbody, hlower⟩

end Statement

open Operand (spaced)
open Statement (IsRun isSeparator memoryLine)

/-- A load or a store whose operand is one token has the word of what is read from it. -/
theorem encodeLine_memoryLine {op : MemoryOp} {register operand : Text} {rt b : Register} {n : Int}
    (hregister : IsRun register) (hrt : Operand.register register = .ok rt)
    (hoperand : IsRun operand) (hmemory : Operand.memory operand = .ok (n, b)) (table : SymbolTable)
    (pc : Int) : encodeLine table pc (memoryLine op register operand) =
      .ok (MachineInstruction.encode (.memory op rt b (BitVec.ofInt 16 n))) := by
  have hline : .char '\n' ∉ operand := fun hc => absurd (hoperand.not_separator _ hc) (by decide)
  have hparse := Statement.parse_memoryLine op hregister hline
  rw [Text.runs_of_run hoperand.ne_nil hoperand.not_separator] at hparse
  have hn := toInt_ofInt_halfword (Operand.bounds_of_memory hmemory)
  exact encodeLine_eq_ok_iff.2 ⟨_, _, _, hparse, .memory hrt (hn.symm ▸ hmemory), rfl, rfl⟩

/-- A load or a store whose operand is no single token is rejected for the count of its operands. -/
theorem encodeLine_memoryLine_of_length_ne {op : MemoryOp} {register operand : Text}
    (hregister : IsRun register) (hline : .char '\n' ∉ operand)
    (hlength : (Text.runs isSeparator operand).length ≠ 1) (table : SymbolTable) (pc : Int) :
    encodeLine table pc (memoryLine op register operand) =
      .error (.fault (.operandCount (.memory op)
        (1 + (Text.runs isSeparator operand).length))) := by
  have harity : (register :: Text.runs isSeparator operand).length ≠
      (Mnemonic.memory op).arity := by
    show (Text.runs isSeparator operand).length + 1 ≠ 2
    omega
  rw [Statement.encodeLine_of_parse (Statement.parse_memoryLine op hregister hline), Statement.word,
    Statement.instruction_of_length_ne harity, List.length_cons, Nat.add_comm]
  rfl

/-- A load or a store whose operand the reader takes, with or without blanks around its base, has a
word if it is written without them, and the word carries the registers and the offset that were
read. With blanks around the base it has that word only if there are none. Else each of the two
stretches adds to the number of its operands, which is then wrong. -/
theorem encodeLine_spaced {op : MemoryOp} {register offset before base behind : Text}
    {rt b : Register} {n : Int} (hregister : IsRun register)
    (hrt : Operand.register register = .ok rt)
    (hoffset : offset = [] ∨ ∃ m, Numeral.Spells offset m)
    (hbase : ∀ c ∈ base, isSeparator c = false) (hbefore : IsPadding before)
    (hbehind : IsPadding behind)
    (h : Operand.memory (spaced offset before base behind) = .ok (n, b)) (table : SymbolTable)
    (pc : Int) :
    ∃ w : Word, w.Carries (.memory op) [(.rt, rt.toNat), (.low, n), (.rs, b.toNat)] ∧
      encodeLine table pc (memoryLine op register (spaced offset [] base [])) = .ok w ∧
      encodeLine table pc (memoryLine op register (spaced offset before base behind)) =
        if before = [] ∧ behind = [] then .ok w
        else .error (.fault (.operandCount (.memory op)
          (2 + (if before = [] then 0 else 1) + if behind = [] then 0 else 1))) := by
  have hparen : .char '(' ∉ offset := by
    rcases hoffset with rfl | ⟨m, hm⟩
    · nofun
    · exact Operand.not_mem_of_spells hm
  have hchar : ∀ c ∈ offset, isSeparator c = false := by
    rcases hoffset with rfl | ⟨m, hm⟩
    · nofun
    · exact Operand.not_isSeparator_of_spells hm
  have htight := Operand.memory_of_spaced hparen hbase hbefore hbehind h
  have hcarries := MachineInstruction.carries_encode (.memory op rt b (BitVec.ofInt 16 n))
  rw [MachineInstruction.fields, toInt_ofInt_halfword (Operand.bounds_of_memory h)] at hcarries
  have hrun := Statement.isRun_spaced hchar hbase
  have hword := @encodeLine_memoryLine op _ _ _ _ _ hregister hrt hrun htight table pc
  refine ⟨_, hcarries, hword, ?_⟩
  by_cases hnil : before = [] ∧ behind = []
  · obtain ⟨rfl, rfl⟩ := hnil
    rw [if_pos ⟨rfl, rfl⟩, hword]
  · have hlength := Statement.length_runs_spaced hchar hbase
      (Operand.base_ne_nil_of_memory hparen htight) hbefore hbehind
    have hpieces : (Text.runs isSeparator (spaced offset before base behind)).length ≠ 1 := by
      rw [hlength]
      by_cases hbefore : before = []
      · have hbehind : behind ≠ [] := fun h => hnil ⟨hbefore, h⟩
        simp [hbefore, hbehind]
      · rw [if_neg hbefore]
        omega
    have hline := Statement.newline_not_mem_spaced hchar hbase hbefore hbehind
    rw [if_neg hnil, encodeLine_memoryLine_of_length_ne hregister hline hpieces, hlength,
      ← Nat.add_assoc, ← Nat.add_assoc]

/-- A store with a tab and a form feed in front of its base and nothing behind it: the reader takes
the operand, and the line has one operand too many. -/
theorem encodeLine_spacedStore :
    Operand.register "$T0".text = .ok 8 ∧
      Operand.memory "-0x10(\t\x0c$SP)".text = .ok (-16, 29) ∧
      ∃ w : Word, w.Carries (.memory .store) [(.rt, 8), (.low, -16), (.rs, 29)] ∧
        encodeLine [] 0 "sw $T0, -0x10($SP)".text = .ok w ∧
        encodeLine [] 0 "sw $T0, -0x10(\t\x0c$SP)".text =
          .error (.fault (.operandCount (.memory .store) 3)) := by
  have hregister : IsRun "$T0".text := ⟨by decide, by decide⟩
  have hrt : Operand.register "$T0".text = .ok 8 := by rfl
  have hoffset : Numeral.Spells "-0x10".text (-16) :=
    .hexadecimal .minus (.inl rfl) (by decide) (by decide)
  have hmemory : Operand.memory (spaced "-0x10".text "\t\x0c".text "$SP".text []) =
      .ok (-16, 29) := by rfl
  obtain ⟨w, hcarries, hword, hspaced⟩ := encodeLine_spaced hregister hrt (.inr ⟨_, hoffset⟩)
    (by decide) (by decide) (by decide) hmemory [] 0
  exact ⟨hrt, hmemory, w, hcarries, hword, hspaced⟩

/-- A load with a blank on each side of its base: the reader takes the operand as it takes the one
without the blanks, but the line has no word. -/
theorem encodeLine_spacedLoad :
    Operand.memory "4($2)".text = .ok (4, 2) ∧ Operand.memory "4( $2 )".text = .ok (4, 2) ∧
      encodeLine [] Address.defaultBase "lw $1, 4($2)".text = .ok 0x8c410004 ∧
      encodeLine [] Address.defaultBase "lw $1, 4( $2 )".text =
        .error (.fault (.operandCount (.memory .load) 4)) :=
  ⟨by rfl, by rfl, by rfl, by rfl⟩

end Mips32
