import Mips32.Proofs.Program.NearBranch
import Mips32.Proofs.Source.Identifier
import Mips32.Proofs.Source.Rejection

/-!
# Why a line is rejected

A line that is encoded has a word or is rejected with one of four classes of faults. `Rejected` says
from the tokens of the line which one it is: the operation comes before the count of operands, the
count before the operands from left to right, and the distance of a branch last. The tokens are told
without the readers as well (`TokensOf`).

`rejected_encodeLine` says that this is exactly what encoding does, for every line of text.
-/

namespace Mips32

open Statement (IsToken)

/-! ## The tokens of a line -/

/-- The tokens of a line are those of the trimmed text, or of what stands behind an identifier and a
colon in front of it, if that is anything. -/
inductive TokensOf (line : Text) : List Text → Prop
  | labelled {name : Identifier} {rest : Text} (h : Text.trim line = name.text ++ .char ':' :: rest)
      (hrest : rest ≠ []) : TokensOf line (Text.runs Statement.isSeparator rest)
  | bare (h : ∀ (name : Identifier) (rest : Text),
      Text.trim line = name.text ++ .char ':' :: rest → rest = []) :
      TokensOf line (Text.runs Statement.isSeparator (Text.trim line))

/-- What is split off as a label is an identifier, with a colon and something behind it. -/
theorem exists_identifier_of_splitLabel? {s name body : Text}
    (h : Line.splitLabel? s = some (name, body)) :
    ∃ (n : Identifier) (rest : Text), s = n.text ++ .char ':' :: rest ∧ rest ≠ [] := by
  obtain ⟨n, rest, -, hs, hbody, hne, -⟩ := Line.splitLabel?_eq_some_iff.1 h
  refine ⟨n, rest, hs, ?_⟩
  rintro rfl
  exact hne hbody.symm

theorem bodyOf_trim (line : Text) : Statement.bodyOf (Text.trim line) = Statement.bodyOf line := by
  unfold Statement.bodyOf
  rw [Text.trim_trim]

/-- The tokens of a line in which there is no line feed are those that are cut from its body. -/
theorem tokensOf_iff {line : Text} (hline : .char '\n' ∉ line) {tokens : List Text} :
    TokensOf line tokens ↔ tokens = Text.runs Statement.isSeparator (Statement.bodyOf line) := by
  have hlabelled : ∀ {name : Identifier} {rest : Text},
      Text.trim line = name.text ++ .char ':' :: rest →
      rest ≠ [] → Text.runs Statement.isSeparator rest =
        Text.runs Statement.isSeparator (Statement.bodyOf line) := by
    intro name rest h hrest
    have hinside : rest <:+: line :=
      (List.IsSuffix.isInfix ⟨name.text ++ [.char ':'], by simp [h]⟩).trans (Text.trim_isInfix line)
    -- The text is trimmed, so what follows the colon does not end in a blank.
    have hsome : Text.trim rest ≠ [] := by
      have hlast := List.getLast?_eq_some_getLast hrest
      have hend : Text.trim line = name.text ++ [.char ':'] ++ rest := by simp [h]
      exact Text.trim_ne_nil (List.mem_of_getLast? hlast)
        (Text.not_isBlank_of_trim_eq_append hend hlast)
    have hfeed : .char '\n' ∉ Text.trim rest := fun hc =>
      hline (hinside.subset ((Text.trim_isInfix rest).subset hc))
    have hbody : Statement.bodyOf (name.text ++ .char ':' :: rest) = Text.trim rest :=
      Statement.bodyOf_label (List.forall_mem_nil _) name.start name.char hsome hfeed
    rw [← bodyOf_trim, h, hbody, Text.runs_trim fun _ => Statement.isSeparator_of_isBlank]
  have hbare : (∀ (name : Identifier) (rest : Text),
      Text.trim line = name.text ++ .char ':' :: rest → rest = []) →
        Text.trim line = Statement.bodyOf line := by
    intro h
    unfold Statement.bodyOf
    simp only
    split
    case h_1 name body hsplit =>
      obtain ⟨n, rest, heq, hrest⟩ := exists_identifier_of_splitLabel? hsplit
      exact absurd (h n rest heq) hrest
    case h_2 => rfl
  constructor
  · rintro (⟨h, hrest⟩ | h)
    · exact hlabelled h hrest
    · rw [hbare h]
  · rintro rfl
    by_cases h : ∀ (name : Identifier) (rest : Text),
        Text.trim line = name.text ++ .char ':' :: rest → rest = []
    · exact hbare h ▸ .bare h
    · push Not at h
      obtain ⟨name, rest, h, hrest⟩ := h
      exact hlabelled h hrest ▸ .labelled h hrest

/-! ## Rejected statements -/

/-- A branch whose label is defined, but too far away to be reached. -/
def Statement.OutOfReach (table : SymbolTable) (pc : Int) (s : Statement) : Prop :=
  s.mnemonic.isBranch = true ∧ ∃ label target, s.operands.getLast? = some label ∧
    table.address? label = some target ∧
    ¬(-32768 ≤ Int.tdiv (target - pc - 4) 4 ∧ Int.tdiv (target - pc - 4) 4 ≤ 32767)

/-- The tokens of a line are rejected with a class. What is wrong with a memory operand is a
parameter. -/
inductive Rejected (memory : Text → Fault.Kind → Prop) (table : SymbolTable) (pc : Int) :
    List Text → Fault.Kind → Prop
  | empty : Rejected memory table pc [] .malformedOperand
  | unsupported {token : Text} {operands : List Text}
      (h : ∀ m : Mnemonic, Text.lower token ≠ m.name) :
      Rejected memory table pc (token :: operands) .unsupportedInstruction
  | count {token : Text} {operands : List Text} {m : Mnemonic} (hm : Text.lower token = m.name)
      (h : operands.length ≠ m.arity) :
      Rejected memory table pc (token :: operands) .malformedOperand
  | operand {token : Text} {operands : List Text} {m : Mnemonic} {kind : Fault.Kind}
      (hm : Text.lower token = m.name) (hcount : operands.length = m.arity)
      (h : Slot.FirstRejected memory table m.slots operands kind) :
      Rejected memory table pc (token :: operands) kind
  | reach {token : Text} {operands : List Text} {m : Mnemonic} (hm : Text.lower token = m.name)
      (hcount : operands.length = m.arity)
      (hoperands : ∀ kind, ¬Slot.FirstRejected memory table m.slots operands kind)
      (h : Statement.OutOfReach table pc ⟨m, operands⟩) :
      Rejected memory table pc (token :: operands) .operandOutOfRange

namespace Statement

variable {table : SymbolTable} {pc : Int}

/-- A wrong number of operands is reported before any of them is read. -/
theorem instruction_of_length_ne {s : Statement} (h : s.operands.length ≠ s.mnemonic.arity) :
    s.instruction = .error (.fault (.operandCount s.mnemonic s.operands.length)) := by
  unfold instruction
  split
  case h_9 => rfl
  all_goals exact absurd rfl h

/-- The word of a statement at `pc`. -/
def word (table : SymbolTable) (pc : Int) (s : Statement) : Except (Failure Fault) Word := do
  let i ← s.instruction
  let m ← (i.link table pc).mapError .fault
  return m.encode

theorem encodeLine_of_parse {line : Text} {s : Statement} (h : parse line = .ok s) :
    encodeLine table pc line = s.word table pc := by
  rw [encodeLine, h]
  rfl

/-- A computation fails as the reading of operands does, or after that with further classes. -/
def FailsAs {α : Type} (x : Except (Failure Fault) α) (fields : Except (Failure Fault) Fields)
    (further : Fault.Kind → Prop) : Prop :=
  ∀ kind, Raises x kind ↔ Raises fields kind ∨ (∃ f, fields = .ok f) ∧ further kind

section FailsAs

variable {α β : Type} {further : Fault.Kind → Prop}

/-- After operands that are read only the further classes are left. -/
theorem failsAs_ok {x : Except (Failure Fault) β} {fields : Fields}
    (h : ∀ kind, Raises x kind ↔ further kind) : FailsAs x (.ok fields) further := by
  intro kind
  simp [h]

/-- A first operand is read before the others. -/
theorem failsAs_cons {x : Except (Failure Fault) α} {f : α → Fields} {slot : Slot}
    {slots : List Slot} {token : Text} {tokens : List Text} {g : α → Except (Failure Fault) β}
    (hread : slot.read table pc token = x.map f)
    (h : ∀ a, FailsAs (g a) (Slot.readAll table pc slots tokens) further) :
    FailsAs (x >>= g) (Slot.readAll table pc (slot :: slots) (token :: tokens)) further := by
  intro kind
  rw [Slot.readAll, hread]
  cases x with
  | error e => simp [Raises, bind, Except.bind, Except.map]
  | ok a =>
    have hrest := h a kind
    show Raises (g a) kind ↔ Raises (Slot.readAll table pc slots tokens >>= _) kind ∨
      (∃ fields, (Slot.readAll table pc slots tokens >>= _) = .ok fields) ∧ further kind
    rw [hrest]
    cases Slot.readAll table pc slots tokens with
    | error e => simp [Raises, bind, Except.bind]
    | ok rest => simp [bind, Except.bind, pure, Except.pure]

/-- A branch looks up its label, and then fails if it does not reach it. -/
theorem failsAs_branchField {label : Text} (g : BitVec 16 → MachineInstruction)
    (hfurther : ∀ target, table.address? label = some target → ∀ kind, further kind ↔
      ¬(halfwordLow ≤ Address.branchDistance pc target ∧
        Address.branchDistance pc target ≤ halfwordHigh) ∧ kind = .operandOutOfRange) :
    FailsAs
      (do
        let m ← ((SymbolicInstruction.branchField table pc label).map g).mapError .fault
        return m.encode)
      (Slot.readAll table pc [.branchLabel] [label]) further := by
  cases h : table.address? label with
  | none =>
    have hfield : SymbolicInstruction.branchField table pc label =
        .error (.undefinedLabel label) := by
      rw [SymbolicInstruction.branchField, SymbolicInstruction.resolve, h]
      rfl
    intro kind
    rw [Slot.readAll, Slot.read, h, hfield]
    simp [Raises, bind, Except.bind, Except.map, Except.mapError]
  | some target =>
    have hread : Slot.readAll table pc [.branchLabel] [label] =
        .ok [(.low, Int.tdiv (target - pc - 4) 4)] := by
      rw [Slot.readAll, Slot.read, h]
      rfl
    rw [hread, SymbolicInstruction.branchField_of_address? h]
    refine failsAs_ok fun kind => ?_
    rw [hfurther target h]
    generalize Address.branchDistance pc target = distance
    by_cases hnear : halfwordLow ≤ distance ∧ distance ≤ halfwordHigh
    · rw [if_pos hnear]
      exact iff_of_false (not_raises_ok _) fun hfar => hfar.1 hnear
    · rw [if_neg hnear]
      exact raises_fault_iff.trans ⟨fun hkind => ⟨hnear, hkind⟩, And.right⟩

/-- A jump looks up its label. -/
theorem failsAs_resolve {label : Text} (g : Int → MachineInstruction)
    (hno : ∀ kind, ¬further kind) :
    FailsAs
      (do
        let m ← ((SymbolicInstruction.resolve table label).map g).mapError .fault
        return m.encode)
      (Slot.readAll table pc [.jumpLabel] [label]) further := by
  intro kind
  rw [Slot.readAll, Slot.read, SymbolicInstruction.resolve]
  cases table.address? label with
  | none => simp [hno, Raises, bind, Except.bind, Except.map, Except.mapError]
  | some target =>
    exact iff_of_false (not_raises_ok _)
      fun h => h.elim (not_raises_ok _) fun h => hno kind h.2

end FailsAs

/-- A statement fails as the reading of its operands does from left to right, and then as a branch
does whose label is out of reach. -/
theorem failsAs_word {s : Statement} (h : s.operands.length = s.mnemonic.arity) :
    FailsAs (s.word table pc) (Slot.readAll table pc s.mnemonic.slots s.operands)
      fun kind => s.OutOfReach table pc ∧ kind = .operandOutOfRange := by
  have hno : s.mnemonic.isBranch = false →
      ∀ kind : Fault.Kind, ¬(s.OutOfReach table pc ∧ kind = .operandOutOfRange) := by
    rintro hbranch kind ⟨⟨hbranch', -⟩, -⟩
    simp [hbranch] at hbranch'
  have hdone : s.mnemonic.isBranch = false → ∀ (w : Word) (kind : Fault.Kind),
      Raises (.ok w) kind ↔ s.OutOfReach table pc ∧ kind = .operandOutOfRange :=
    fun hbranch w kind => iff_of_false (not_raises_ok w) (hno hbranch kind)
  have hreach : ∀ {label : Text}, s.mnemonic.isBranch = true → s.operands.getLast? = some label →
      ∀ target, table.address? label = some target → ∀ kind : Fault.Kind,
        s.OutOfReach table pc ∧ kind = .operandOutOfRange ↔
          ¬(halfwordLow ≤ Address.branchDistance pc target ∧
            Address.branchDistance pc target ≤ halfwordHigh) ∧ kind = .operandOutOfRange := by
    intro label hbranch hlabel target htarget kind
    simp [OutOfReach, hbranch, hlabel, htarget, halfwordLow, halfwordHigh, Address.branchDistance]
  obtain ⟨m, operands⟩ := s
  cases m with
  | arith op =>
    obtain ⟨d, s, t, rfl⟩ := List.length_eq_three.1 h
    simp only [word, instruction, bind_assoc]
    exact failsAs_cons rfl fun _ => failsAs_cons rfl fun _ => failsAs_cons rfl fun _ =>
      failsAs_ok (hdone rfl _)
  | variableShift op =>
    obtain ⟨d, t, s, rfl⟩ := List.length_eq_three.1 h
    simp only [word, instruction, bind_assoc]
    exact failsAs_cons rfl fun _ => failsAs_cons rfl fun _ => failsAs_cons rfl fun _ =>
      failsAs_ok (hdone rfl _)
  | shift op =>
    obtain ⟨d, t, a, rfl⟩ := List.length_eq_three.1 h
    simp only [word, instruction, shiftAmount, bind_assoc, map_bind_eq]
    exact failsAs_cons rfl fun _ => failsAs_cons rfl fun _ => failsAs_cons rfl fun _ =>
      failsAs_ok (hdone rfl _)
  | immediate op =>
    obtain ⟨t, s, i, rfl⟩ := List.length_eq_three.1 h
    simp only [word, instruction, halfword, bind_assoc, map_bind_eq]
    exact failsAs_cons rfl fun _ => failsAs_cons rfl fun _ => failsAs_cons rfl fun _ =>
      failsAs_ok (hdone rfl _)
  | memory op =>
    obtain ⟨t, a, rfl⟩ := List.length_eq_two.1 h
    simp only [word, instruction, bind_assoc]
    exact failsAs_cons rfl fun _ => failsAs_cons rfl fun _ => failsAs_ok (hdone rfl _)
  | branchPair test =>
    obtain ⟨s, t, label, rfl⟩ := List.length_eq_three.1 h
    simp only [word, instruction, bind_assoc]
    exact failsAs_cons rfl fun _ => failsAs_cons rfl fun _ =>
      failsAs_branchField _ (hreach rfl rfl)
  | branchSign test =>
    obtain ⟨s, label, rfl⟩ := List.length_eq_two.1 h
    simp only [word, instruction, bind_assoc]
    exact failsAs_cons rfl fun _ => failsAs_branchField _ (hreach rfl rfl)
  | jump =>
    obtain ⟨label, rfl⟩ := List.length_eq_one_iff.1 h
    exact failsAs_resolve _ (hno rfl)

/-- A statement with the right number of operands is rejected for the first that is rejected, or if
there is none, as a branch that does not reach its label. -/
theorem raises_word_iff {s : Statement} (htokens : ∀ t ∈ s.operands, IsToken t)
    (h : s.operands.length = s.mnemonic.arity) {kind : Fault.Kind} :
    Raises (s.word table pc) kind ↔
      Slot.FirstRejected Operand.MemoryMisfit table s.mnemonic.slots s.operands kind ∨
        (∀ kind, ¬Slot.FirstRejected Operand.MemoryMisfit table s.mnemonic.slots s.operands kind) ∧
          s.OutOfReach table pc ∧ kind = .operandOutOfRange := by
  rw [failsAs_word h kind, (Slot.settles_readAll htokens _).exists_ok_iff]
  simp only [Slot.raises_readAll_iff htokens]

end Statement

/-! ## Rejected lines -/

section Rejected

variable {memory : Text → Fault.Kind → Prop} {table : SymbolTable} {pc : Int} {token : Text}
  {operands : List Text} {kind : Fault.Kind}

theorem rejected_nil_iff : Rejected memory table pc [] kind ↔ kind = .malformedOperand := by
  constructor
  · rintro ⟨⟩
    rfl
  · rintro rfl
    exact .empty

theorem rejected_cons_iff_of_unsupported (h : ∀ m : Mnemonic, Text.lower token ≠ m.name) :
    Rejected memory table pc (token :: operands) kind ↔ kind = .unsupportedInstruction := by
  constructor
  · rintro (_ | _ | ⟨hm, -⟩ | ⟨hm, -⟩ | ⟨hm, -⟩)
    · rfl
    · exact absurd hm (h _)
    · exact absurd hm (h _)
    · exact absurd hm (h _)
  · rintro rfl
    exact .unsupported h

/-- Behind the name of an operation the operands decide. -/
theorem rejected_cons_iff {m : Mnemonic} (hm : Text.lower token = m.name) :
    Rejected memory table pc (token :: operands) kind ↔
      if operands.length = m.arity then
        Slot.FirstRejected memory table m.slots operands kind ∨
          (∀ kind, ¬Slot.FirstRejected memory table m.slots operands kind) ∧
            Statement.OutOfReach table pc ⟨m, operands⟩ ∧ kind = .operandOutOfRange
      else kind = .malformedOperand := by
  have hunique : ∀ {m' : Mnemonic}, Text.lower token = m'.name → m' = m := by
    intro m' hm'
    have hname := Mnemonic.ofName?_name m
    rw [← hm, hm', Mnemonic.ofName?_name] at hname
    exact Option.some.inj hname
  split
  case isTrue hcount =>
    constructor
    · rintro (_ | h | ⟨hm', h⟩ | ⟨hm', -, h⟩ | ⟨hm', -, hoperands, h⟩)
      · exact absurd hm (h m)
      · exact absurd (hunique hm' ▸ hcount) h
      · exact .inl (hunique hm' ▸ h)
      · obtain rfl := hunique hm'
        exact .inr ⟨hoperands, h, rfl⟩
    · rintro (h | ⟨hoperands, h, rfl⟩)
      · exact .operand hm hcount h
      · exact .reach hm hcount hoperands h
  case isFalse hcount =>
    constructor
    · rintro (_ | h | _ | ⟨hm', hcount', -⟩ | ⟨hm', hcount', -⟩)
      · exact absurd hm (h m)
      · rfl
      · exact absurd (hunique hm' ▸ hcount') hcount
      · exact absurd (hunique hm' ▸ hcount') hcount
    · rintro rfl
      exact .count hm hcount

end Rejected

/-- Encoding fails as the tokens of the line are rejected. -/
theorem raises_encodeLine_iff {line : Text} (hshort : Numeral.Short line) (table : SymbolTable)
    (pc : Int) (kind : Fault.Kind) :
    Raises (encodeLine table pc line) kind ↔ Rejected Operand.MemoryMisfit table pc
      (Text.runs Statement.isSeparator (Statement.bodyOf line)) kind := by
  have hparse : Statement.parse line =
      Statement.ofTokens (Text.runs Statement.isSeparator (Statement.bodyOf line)) := rfl
  cases htokens : Text.runs Statement.isSeparator (Statement.bodyOf line) with
  | nil =>
    rw [htokens] at hparse
    rw [encodeLine, hparse, rejected_nil_iff]
    exact raises_fault_iff
  | cons token operands =>
    rw [htokens, Statement.ofTokens] at hparse
    cases hname : Mnemonic.ofName? (Text.lower token) with
    | none =>
      rw [hname] at hparse
      rw [encodeLine, hparse,
        rejected_cons_iff_of_unsupported (Mnemonic.ofName?_eq_none_iff.1 hname)]
      exact raises_fault_iff
    | some m =>
      rw [hname] at hparse
      have hoperands := Statement.isToken_of_parse hshort hparse
      rw [Statement.encodeLine_of_parse hparse,
        rejected_cons_iff (Mnemonic.name_of_ofName? hname).symm]
      split
      case isTrue hcount => exact Statement.raises_word_iff hoperands hcount
      case isFalse hcount =>
        rw [Statement.word, Statement.instruction_of_length_ne hcount]
        exact raises_fault_iff

/-- A line of text has a word or is rejected, and the tokens of the line tell with which class: for
the operation, for the count of the operands, for the first operand from the left that is rejected,
or for the distance of a branch. -/
theorem rejected_encodeLine {line : Text} (hline : .char '\n' ∉ line) (hshort : Numeral.Short line)
    (table : SymbolTable) (pc : Int) :
    ∃ tokens, (∀ ts, TokensOf line ts ↔ ts = tokens) ∧
      (∀ kind, Raises (encodeLine table pc line) kind ↔
        Rejected Operand.MemoryMisfit table pc tokens kind) ∧
      ((∃ w, encodeLine table pc line = .ok w) ↔
        ∀ kind, ¬Rejected Operand.MemoryMisfit table pc tokens kind) := by
  have hraises := raises_encodeLine_iff hshort table pc
  refine ⟨_, fun _ => tokensOf_iff hline, hraises, ?_⟩
  rw [(settles_encodeLine hshort table pc).exists_ok_iff]
  simp only [hraises]

/-- A shift behind a label, by an amount that is no integer, of a register that does not exist. -/
def badShift : Text :=
  "x.1:sll $zero,$32, many".text

/-- The shift is rejected for the register, which stands to the left of the amount. -/
theorem rejected_badShift : .char '\n' ∉ badShift ∧ Numeral.Short badShift ∧
    Raises (encodeLine [] Address.defaultBase badShift) .operandOutOfRange := by
  have hline : .char '\n' ∉ badShift := by decide
  have hshort : Numeral.Short badShift := Numeral.short_of_length_le (by decide)
  obtain ⟨tokens, htokens, hraises, -⟩ :=
    rejected_encodeLine hline hshort [] Address.defaultBase
  let name : Identifier := ⟨"x.1".text, rfl, by decide⟩
  have htrim : Text.trim badShift = name.text ++ .char ':' :: "sll $zero,$32, many".text := by rfl
  have heq := (htokens _).1 (.labelled htrim (by decide))
  have hruns : Text.runs Statement.isSeparator "sll $zero,$32, many".text =
      ["sll".text, "$zero".text, "$32".text, "many".text] := by rfl
  rw [hruns] at heq
  rw [← heq] at hraises
  have hzero : ∀ kind, ¬Operand.Misfit Operand.Denotes 0 31 "$zero".text kind := by
    intro kind h
    have htoken : IsToken "$zero".text := ⟨by decide, Numeral.short_of_length_le (by decide)⟩
    exact not_raises_ok 0 ((Operand.raises_register_iff htoken).2 h)
  have hnumber : Operand.Denotes "$32".text (Numeral.ofDigits 10 "32".text) :=
    .number (by decide) (by decide)
  have hrange : Operand.Misfit Operand.Denotes 0 31 "$32".text .operandOutOfRange :=
    .range hnumber (by decide)
  refine ⟨hline, hshort, (hraises _).2 (.operand (m := .shift .left) rfl rfl ?_)⟩
  exact .behind (fun kind h => hzero kind (Slot.rejects_register_iff.1 h))
    (.here (.register hrange))

/-! ## Memory operands as a whole -/

/-- A memory operand would be rejected as a whole if its form and its base came before its
offset. -/
inductive Operand.WholeMisfit (t : Text) : Fault.Kind → Prop
  | form (h : ∀ offset word n, IsOffsetOf t offset word → ¬Denotes (.char '$' :: word) n) :
      WholeMisfit t .malformedOperand
  | range {offset word : Text} {n : Int} (h : IsOffsetOf t offset word)
      (hbase : Denotes (.char '$' :: word) n)
      (hrange : (∃ k, Numeral.Spells offset k ∧ ¬(-32768 ≤ k ∧ k ≤ 32767)) ∨
        ¬(0 ≤ n ∧ n ≤ 31)) : WholeMisfit t .operandOutOfRange

/-- A load with an offset that is too large, from a base that is no register. -/
def farOffset : Text :=
  "lw $1, 99999($foo)".text

set_option maxRecDepth 4000 in
/-- Memory operands are not rejected as a whole: an offset out of range is reported before a word
that is no register. -/
theorem not_wholeMisfit_farOffset :
    (.char '\n' ∉ farOffset ∧ Numeral.Short farOffset ∧
      TokensOf farOffset ["lw".text, "$1".text, "99999($foo)".text]) ∧
    Rejected Operand.WholeMisfit [] Address.defaultBase
      ["lw".text, "$1".text, "99999($foo)".text] .malformedOperand ∧
    ¬Raises (encodeLine [] Address.defaultBase farOffset) .malformedOperand := by
  have hline : .char '\n' ∉ farOffset := by decide
  have hshort : Numeral.Short farOffset := Numeral.short_of_length_le (by decide)
  have hone : ∀ kind, ¬Operand.Misfit Operand.Denotes 0 31 "$1".text kind := by
    intro kind h
    have htoken : IsToken "$1".text := ⟨by decide, Numeral.short_of_length_le (by decide)⟩
    exact not_raises_ok 1 ((Operand.raises_register_iff htoken).2 h)
  have hform : ∀ offset word n, Operand.IsOffsetOf "99999($foo)".text offset word →
      ¬Operand.Denotes (.char '$' :: word) n := by
    intro offset word n h
    have htoken : IsToken "99999($foo)".text :=
      ⟨by decide, Numeral.short_of_length_le (by decide)⟩
    have htexts := (Operand.memoryTexts?_iff_isOffsetOf htoken).2 h
    obtain rfl : word = "foo".text := by
      have hfoo : Operand.memoryTexts? "99999($foo)".text =
          some ("99999".text, .char '$' :: "foo".text) := by rfl
      rw [hfoo] at htexts
      cases htexts
      rfl
    have hname : Register.ofName? (Text.lower (.char '$' :: "foo".text)) = none := by rfl
    rw [Operand.denotes_iff_of_name (by rfl), hname]
    simp
  have hfault : encodeLine [] Address.defaultBase farOffset =
      .error (.fault (.integerRange "99999".text (-32768) 32767)) := by rfl
  refine ⟨⟨hline, hshort, (tokensOf_iff hline).2 (by rfl)⟩, ?_, ?_⟩
  · refine .operand (m := .memory .load) rfl rfl ?_
    exact .behind (fun kind h => hone kind (Slot.rejects_register_iff.1 h))
      (.here (.memory (.form hform)))
  · rw [hfault, raises_fault_iff]
    decide

end Mips32
