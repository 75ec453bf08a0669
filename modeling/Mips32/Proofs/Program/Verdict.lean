import Mips32.Proofs.Program.Branch
import Mips32.Proofs.Source.WellFormed

/-!
# Which programs assemble

`Sound` says without either pass when a program is right: no label is empty or defined twice, and
each instruction line is spelled as an operation with operands that fit it, whose label is defined
somewhere and, for a branch, near enough. `assemble_ok_iff_sound` says that exactly these programs
assemble, and that every other one is reported with one fault at the first line that is wrong, where
the labels of all lines come before the operands of any (`FirstFault`).

The two passes are inverted once each: a pass that fails has succeeded on the lines in front of the
one it fails at (`symbolsFrom_eq_error`, `wordsFrom_eq_error`). All that is left is to say of one
line that it has a word at its position exactly if it is encodable there
(`exists_word_iff_encodableAt`).
-/

namespace Mips32

/-! ## Linking -/

namespace Statement

/-- The label that a statement names: the last operand of a branch and of a jump. -/
def target? (s : Statement) : Option Text :=
  match s.mnemonic with
  | .branchPair _ | .branchSign _ | .jump => s.operands.getLast?
  | _ => none

/-- The label of a statement at `pc`, if it names one, is in the table, and for a branch its
distance is one that a field can hold. -/
def Links (table : SymbolTable) (pc : Int) (s : Statement) : Prop :=
  ∀ label, s.target? = some label → ∃ target, table.address? label = some target ∧
    (s.mnemonic.isBranch = true → halfwordLow ≤ Address.branchDistance pc target ∧
      Address.branchDistance pc target ≤ halfwordHigh)

variable {table : SymbolTable} {pc : Int}

theorem links_iff {s : Statement} {label : Text} (h : s.target? = some label) :
    s.Links table pc ↔ ∃ target, table.address? label = some target ∧
      (s.mnemonic.isBranch = true → halfwordLow ≤ Address.branchDistance pc target ∧
        Address.branchDistance pc target ≤ halfwordHigh) := by
  constructor
  · exact fun hlinks => hlinks label h
  · intro hlabel label' h'
    rw [h] at h'
    cases h'
    exact hlabel

theorem links_of_target?_eq_none {s : Statement} (h : s.target? = none) : s.Links table pc := by
  intro label hlabel
  rw [h] at hlabel
  cases hlabel

end Statement

namespace SymbolicInstruction

variable {table : SymbolTable} {pc : Int}

theorem exists_branchField_iff {label : Text} :
    (∃ d, branchField table pc label = .ok d) ↔ ∃ target, table.address? label = some target ∧
      halfwordLow ≤ Address.branchDistance pc target ∧
      Address.branchDistance pc target ≤ halfwordHigh := by
  simp only [branchField_eq_ok_iff]
  constructor
  · rintro ⟨d, target, htarget, hd⟩
    exact ⟨target, htarget, hd ▸ halfword_bounds d⟩
  · rintro ⟨target, htarget, hnear⟩
    exact ⟨_, target, htarget, toInt_ofInt_halfword hnear⟩

/-- Reading changes nothing about the label: the instruction links exactly if the statement does. -/
theorem exists_link_iff {s : Statement} {i : SymbolicInstruction} (h : s.Reads i) :
    (∃ m, i.link table pc = .ok m) ↔ s.Links table pc := by
  cases h with
  | @branchPair test s t label =>
    have htarget : Statement.target? ⟨.branchPair test, [s, t, label]⟩ = some label := rfl
    rw [Statement.links_iff htarget, link, exists_map_eq_ok, exists_branchField_iff]
    simp [Mnemonic.isBranch]
  | @branchSign test s label =>
    have htarget : Statement.target? ⟨.branchSign test, [s, label]⟩ = some label := rfl
    rw [Statement.links_iff htarget, link, exists_map_eq_ok, exists_branchField_iff]
    simp [Mnemonic.isBranch]
  | @jump label =>
    have htarget : Statement.target? ⟨.jump, [label]⟩ = some label := rfl
    rw [Statement.links_iff htarget, link, exists_map_eq_ok]
    simp [resolve_eq_ok_iff, Mnemonic.isBranch]
  | _ => exact iff_of_true ⟨_, rfl⟩ (Statement.links_of_target?_eq_none rfl)

end SymbolicInstruction

/-- A line has a word exactly if it spells a statement that fits its operation and links. -/
theorem exists_word_iff {line : Text} (hshort : Numeral.Short line) {table : SymbolTable}
    {pc : Int} : (∃ w, encodeLine table pc line = .ok w) ↔
      ∃ s : Statement, s.SpelledBy (Statement.bodyOf line) ∧ s.Fits ∧ s.Links table pc := by
  simp only [encodeLine_eq_ok_iff]
  constructor
  · rintro ⟨w, s, i, m, hs, hreads, hlink, -⟩
    have htokens := Statement.isToken_of_parse hshort hs
    exact ⟨s, Statement.parse_eq_ok_iff.1 hs, (Statement.exists_reads_iff htokens).1 ⟨i, hreads⟩,
      (SymbolicInstruction.exists_link_iff hreads).1 ⟨m, hlink⟩⟩
  · rintro ⟨s, hs, hfits, hlinks⟩
    have hparse := Statement.parse_eq_ok_iff.2 hs
    have htokens := Statement.isToken_of_parse hshort hparse
    obtain ⟨i, hreads⟩ := (Statement.exists_reads_iff htokens).2 hfits
    obtain ⟨m, hlink⟩ := (SymbolicInstruction.exists_link_iff hreads).2 hlinks
    exact ⟨_, s, i, m, hparse, hreads, hlink, rfl⟩

namespace Program

/-! ## Sound programs -/

/-- The address of a position. -/
def addressAt (base : Int) (p : Program) (i : Nat) : Int :=
  (base + 4 * p.instructionsBefore i) % 2 ^ 32

/-- The line at a position bears a label. -/
def DefinesAt (p : Program) (i : Nat) (name : Text) : Prop :=
  p[i]?.bind (·.kind.label?) = some name

/-- The line at a position bears a label that it must not bear: an empty one, or one that an earlier
line bears as well. -/
def MislabelledAt (p : Program) (i : Nat) (name : Text) : Prop :=
  p.DefinesAt i name ∧ (name = [] ∨ ∃ j < i, p.DefinesAt j name)

/-- What an instruction line at a position has to be: a statement that fits its operation, whose
label is defined somewhere and, for a branch, not too many words away from the next instruction. -/
structure Encodable (base : Int) (p : Program) (i : Nat) (s : Statement) : Prop where
  fits : s.Fits
  defined : ∀ label, s.target? = some label → ∃ j, p.DefinesAt j label
  near : s.mnemonic.isBranch = true → ∀ label j, s.target? = some label → p.DefinesAt j label →
    -32768 ≤ (p.addressAt base j - p.addressAt base i - 4) / 4 ∧
      (p.addressAt base j - p.addressAt base i - 4) / 4 ≤ 32767

/-- The instruction line at a position is spelled as an encodable statement. -/
def EncodableAt (base : Int) (p : Program) (i : Nat) (l : SourceLine) : Prop :=
  ∃ s : Statement, s.SpelledBy l.kind.body ∧ Encodable base p i s

/-- A program in which no line is wrong. -/
structure Sound (base : Int) (p : Program) : Prop where
  labels : ∀ i name, ¬p.MislabelledAt i name
  lines : ∀ i l, p[i]? = some l → l.kind.isInstruction = true → p.EncodableAt base i l

/-- The fault that is reported, at its line: that of the first line with a wrong label; if there is
none, that of the first instruction line that is not encodable. -/
inductive FirstFault (base : Int) (p : Program) : Nat → SourceLine → Fault → Prop
  | emptyLabel {i l} (h : p.MislabelledAt i []) (first : ∀ j < i, ∀ name, ¬p.MislabelledAt j name) :
      FirstFault base p i l .emptyLabel
  | duplicateLabel {i l name} (hne : name ≠ []) (h : p.MislabelledAt i name)
      (first : ∀ j < i, ∀ name, ¬p.MislabelledAt j name) :
      FirstFault base p i l (.duplicateLabel name)
  | line {i l fault} (labels : ∀ j name, ¬p.MislabelledAt j name)
      (hl : l.kind.isInstruction = true) (h : ¬p.EncodableAt base i l)
      (first : ∀ j < i, ∀ m, p[j]? = some m → m.kind.isInstruction = true →
        p.EncodableAt base j m)
      (hfault : encodeLine (labelsFrom base p) (p.addressAt base i) l.text =
        .error (.fault fault)) :
      FirstFault base p i l fault

/-! ## The first pass -/

theorem definesAt_iff {p : Program} {i : Nat} {name : Text} :
    p.DefinesAt i name ↔ ∃ l, p[i]? = some l ∧ l.kind.label? = some name :=
  Option.bind_eq_some_iff

/-- A line at which the first pass fails bears an empty label or one that the table defines. -/
theorem define_eq_error {l : SourceLine} {a : Int} {table : SymbolTable} {d : Diagnostic}
    (h : l.define a table = .error d) : ∃ name, l.kind.label? = some name ∧
      (name = [] ∧ d = l.diagnose .emptyLabel ∨
        name ≠ [] ∧ table.defines name = true ∧ d = l.diagnose (.duplicateLabel name)) := by
  unfold SourceLine.define at h
  split at h
  case h_1 => cases h
  case h_2 name hname =>
    refine ⟨name, hname, ?_⟩
    split at h
    case isTrue hnil =>
      cases h
      exact .inl ⟨hnil, rfl⟩
    case isFalse hne =>
      split at h
      case isTrue hdefined =>
        cases h
        exact .inr ⟨hne, hdefined, rfl⟩
      case isFalse => cases h

/-- A first pass that fails has succeeded on the lines in front of one whose label fails. -/
theorem symbolsFrom_eq_error {a : Int} {table : SymbolTable} {p : Program} {d : Diagnostic}
    (h : symbolsFrom a table p = .error d) : ∃ front l rest table' a', p = front ++ l :: rest ∧
      symbolsFrom a table front = .ok table' ∧ l.define a' table' = .error d := by
  induction p generalizing a table with
  | nil => cases h
  | cons l p ih =>
    rw [symbolsFrom] at h
    cases hl : l.define a table with
    | error e =>
      rw [hl] at h
      cases h
      exact ⟨[], l, p, table, a, rfl, rfl, hl⟩
    | ok table' =>
      rw [hl] at h
      obtain ⟨front, m, rest, table'', a', rfl, hfront, hm⟩ := ih h
      exact ⟨l :: front, m, rest, table'', a', rfl, bind_eq_ok.2 ⟨table', hl, hfront⟩, hm⟩

theorem not_mislabelledAt_of_symbols {base : Int} {p : Program} {table : SymbolTable}
    (h : p.symbols base = .ok table) (i : Nat) (name : Text) : ¬p.MislabelledAt i name := by
  obtain ⟨⟨hnil, hnodup⟩, -⟩ := symbols_eq_ok_iff.1 h
  rintro ⟨hi, rfl | ⟨j, hj, hdefined⟩⟩
  · obtain ⟨l, hl, hname⟩ := definesAt_iff.1 hi
    exact hnil (mem_names_iff.2 ⟨l, List.mem_of_getElem? hl, hname⟩)
  · obtain ⟨l, hl, hname⟩ := definesAt_iff.1 hi
    obtain ⟨m, hm, hname'⟩ := definesAt_iff.1 hdefined
    have := eq_of_label?_eq hnodup hl hname hm hname'
    omega

/-- In front of a position it makes no difference what follows. -/
theorem definesAt_append {front rest : Program} {j : Nat} (hj : j < front.length) {name : Text} :
    DefinesAt (front ++ rest) j name ↔ front.DefinesAt j name := by
  rw [DefinesAt, DefinesAt, List.getElem?_append_left hj]

theorem mislabelledAt_append {front rest : Program} {j : Nat} (hj : j < front.length)
    {name : Text} : MislabelledAt (front ++ rest) j name ↔ front.MislabelledAt j name := by
  unfold MislabelledAt
  rw [definesAt_append hj]
  refine and_congr_right fun _ => or_congr_right (exists_congr fun k => ?_)
  exact and_congr_right fun hk => definesAt_append (by omega)

/-- A first pass that fails reports the first line with a wrong label. -/
theorem firstFault_of_symbols {base : Int} {p : Program} {d : Diagnostic}
    (h : p.symbols base = .error d) : ∃ i l fault, p[i]? = some l ∧
      p.FirstFault base i l fault ∧ d = l.diagnose fault := by
  obtain ⟨front, l, rest, table, a, rfl, hfront, hl⟩ := symbolsFrom_eq_error h
  obtain ⟨name, hname, hfault⟩ := define_eq_error hl
  have hget : (front ++ l :: rest)[front.length]? = some l := by simp
  have hdefines : DefinesAt (front ++ l :: rest) front.length name :=
    definesAt_iff.2 ⟨l, hget, hname⟩
  have hfirst : ∀ j < front.length, ∀ name, ¬MislabelledAt (front ++ l :: rest) j name := by
    intro j hj name hmislabelled
    exact not_mislabelledAt_of_symbols hfront j name ((mislabelledAt_append hj).1 hmislabelled)
  rcases hfault with ⟨rfl, rfl⟩ | ⟨hne, hdefined, rfl⟩
  · have hmislabelled : MislabelledAt (front ++ l :: rest) front.length [] :=
      ⟨hdefines, .inl rfl⟩
    exact ⟨_, l, _, hget, .emptyLabel hmislabelled hfirst, rfl⟩
  · obtain ⟨-, rfl⟩ := symbols_eq_ok_iff.1 hfront
    -- The table in front of the line holds the labels of the lines in front of it.
    have hearlier : ∃ j < front.length, front.DefinesAt j name := by
      have hmem : name ∈ front.names := by
        by_contra hno
        rw [← map_fst_labelsFrom base, ← defines_eq_false_iff] at hno
        rw [hno] at hdefined
        cases hdefined
      obtain ⟨m, hm, hmname⟩ := mem_names_iff.1 hmem
      obtain ⟨j, hj⟩ := List.mem_iff_getElem?.1 hm
      exact ⟨j, (List.getElem?_eq_some_iff.1 hj).1, definesAt_iff.2 ⟨m, hj, hmname⟩⟩
    obtain ⟨j, hj, hjname⟩ := hearlier
    have hmislabelled : MislabelledAt (front ++ l :: rest) front.length name :=
      ⟨hdefines, .inr ⟨j, hj, (definesAt_append hj).2 hjname⟩⟩
    exact ⟨_, l, _, hget, .duplicateLabel hne hmislabelled hfirst, rfl⟩

/-! ## The second pass -/

/-- The second pass succeeds exactly if each instruction line has a word at its position. -/
theorem exists_wordsFrom_iff {table : SymbolTable} {a : Int} (ha : Address.IsWord a) {p : Program} :
    (∃ ws, wordsFrom table a p = .ok ws) ↔
      ∀ i l, p[i]? = some l → l.kind.isInstruction = true →
        ∃ w, encodeLine table (Address.ofIndex (p.instructionsBefore i) a) l.text = .ok w := by
  induction p generalizing a with
  | nil => simp [wordsFrom]
  | cons l p ih =>
    have hzero : Address.ofIndex (instructionsBefore (l :: p) 0) a = a := by
      rw [instructionsBefore_zero]
      exact Address.ofIndex_zero ha
    have hrest := ih (l.isWord_after ha)
    rw [wordsFrom]
    constructor
    · rintro ⟨ws, hws⟩ i m hm hinstruction
      cases i with
      | zero =>
        cases hm
        rw [if_pos hinstruction, bind_eq_ok] at hws
        obtain ⟨w, hw, -⟩ := hws
        exact ⟨w, by rw [hzero, ← mapError_eq_ok, hw]⟩
      | succ i =>
        rw [ofIndex_instructionsBefore_succ]
        refine hrest.1 ?_ i m hm hinstruction
        split at hws
        · simp only [bind_eq_ok, pure_eq_ok] at hws
          obtain ⟨w, -, ws, hws, -⟩ := hws
          exact ⟨ws, hws⟩
        · exact ⟨ws, hws⟩
    · intro hall
      obtain ⟨ws, hws⟩ := hrest.2 fun i m hm hinstruction => by
        rw [← ofIndex_instructionsBefore_succ]
        exact hall (i + 1) m hm hinstruction
      split
      case isTrue hl =>
        obtain ⟨w, hw⟩ := hall 0 l rfl hl
        rw [hzero] at hw
        exact ⟨w :: ws, bind_eq_ok.2 ⟨w, mapError_eq_ok.2 hw, bind_eq_ok.2 ⟨ws, hws, rfl⟩⟩⟩
      case isFalse => exact ⟨ws, hws⟩

/-- A second pass that fails does so at its first line, or behind it. -/
theorem wordsFrom_cons_eq_error {table : SymbolTable} {a : Int} {l : SourceLine} {p : Program}
    {e : Failure Diagnostic} (h : wordsFrom table a (l :: p) = .error e) :
    (∃ failure, l.kind.isInstruction = true ∧ encodeLine table a l.text = .error failure ∧
        e = failure.locate l.number l.text) ∨
      (l.kind.isInstruction = true → ∃ w, encodeLine table a l.text = .ok w) ∧
        wordsFrom table (l.after a) p = .error e := by
  rw [wordsFrom] at h
  split at h
  case isTrue hl =>
    cases hw : encodeLine table a l.text with
    | error failure =>
      rw [hw] at h
      cases h
      exact .inl ⟨failure, hl, rfl, rfl⟩
    | ok w =>
      rw [hw] at h
      refine .inr ⟨fun _ => ⟨w, rfl⟩, ?_⟩
      cases hws : wordsFrom table (l.after a) p with
      | error e' =>
        rw [hws] at h
        cases h
        rfl
      | ok ws =>
        rw [hws] at h
        cases h
  case isFalse hl => exact .inr ⟨fun hl' => absurd hl' hl, h⟩

/-- A second pass that fails reports the first instruction line that has no word at its position. -/
theorem wordsFrom_eq_error {table : SymbolTable} {a : Int} (ha : Address.IsWord a) {p : Program}
    {e : Failure Diagnostic} (h : wordsFrom table a p = .error e) :
    ∃ i l failure, p[i]? = some l ∧ l.kind.isInstruction = true ∧
      encodeLine table (Address.ofIndex (p.instructionsBefore i) a) l.text = .error failure ∧
      e = failure.locate l.number l.text ∧
      ∀ j < i, ∀ m, p[j]? = some m → m.kind.isInstruction = true →
        ∃ w, encodeLine table (Address.ofIndex (p.instructionsBefore j) a) m.text = .ok w := by
  induction p generalizing a with
  | nil => cases h
  | cons l p ih =>
    have hzero : Address.ofIndex (instructionsBefore (l :: p) 0) a = a := by
      rw [instructionsBefore_zero]
      exact Address.ofIndex_zero ha
    rcases wordsFrom_cons_eq_error h with ⟨failure, hl, hw, he⟩ | ⟨hhead, hrest⟩
    · exact ⟨0, l, failure, rfl, hl, by rw [hzero, hw], he, nofun⟩
    · obtain ⟨i, m, failure, hm, hinstruction, hw, he, hfirst⟩ := ih (l.isWord_after ha) hrest
      refine ⟨i + 1, m, failure, hm, hinstruction, ?_, he, fun j hj n hn hn' => ?_⟩
      · rw [ofIndex_instructionsBefore_succ, hw]
      · cases j with
        | zero =>
          cases hn
          rw [hzero]
          exact hhead hn'
        | succ j =>
          rw [ofIndex_instructionsBefore_succ]
          exact hfirst j (by omega) n hn hn'

/-- Once the labels are right, an instruction line has a word at its position exactly if it is
encodable there. -/
theorem exists_word_iff_encodableAt {base : Int} (hb : Address.IsWord base) {p : Program}
    {table : SymbolTable} (h : p.symbols base = .ok table) {i : Nat} {l : SourceLine}
    (hl : l.kind.isInstruction = true) (hshort : Numeral.Short l.text) :
    (∃ w, encodeLine table (Address.ofIndex (p.instructionsBefore i) base) l.text = .ok w) ↔
      p.EncodableAt base i l := by
  -- A label has the address of each position that defines it, since there is only one.
  have haddress : ∀ {label target}, table.address? label = some target ↔
      ∃ j, p.DefinesAt j label ∧ target = p.addressAt base j := by
    intro label target
    simp only [address?_eq_some_iff hb h, definesAt_iff, addressAt, Address.ofIndex_eq]
    grind
  have hnear : ∀ j, Address.branchDistance (p.addressAt base i) (p.addressAt base j) =
      (p.addressAt base j - p.addressAt base i - 4) / 4 := by
    intro j
    have hexact := Address.four_mul_branchDistance
      (Address.isWord_ofIndex hb (p.instructionsBefore i))
      (Address.isWord_ofIndex hb (p.instructionsBefore j))
    rw [Address.ofIndex_eq, Address.ofIndex_eq] at hexact
    simp only [addressAt]
    omega
  rw [exists_word_iff hshort, Statement.bodyOf_eq_body hl, Address.ofIndex_eq]
  refine exists_congr fun s => and_congr_right fun _ => ?_
  constructor
  · rintro ⟨hfits, hlinks⟩
    refine ⟨hfits, fun label hlabel => ?_, fun hbranch label j hlabel hj => ?_⟩
    · obtain ⟨target, htarget, -⟩ := hlinks label hlabel
      obtain ⟨j, hj, -⟩ := haddress.1 htarget
      exact ⟨j, hj⟩
    · obtain ⟨target, htarget, hrange⟩ := hlinks label hlabel
      have htarget' := haddress.2 ⟨j, hj, rfl⟩
      obtain rfl : target = p.addressAt base j := by
        rw [htarget] at htarget'
        exact Option.some.inj htarget'
      rw [← hnear j]
      exact hrange hbranch
  · rintro ⟨hfits, hdefined, hrange⟩
    refine ⟨hfits, fun label hlabel => ?_⟩
    obtain ⟨j, hj⟩ := hdefined label hlabel
    refine ⟨p.addressAt base j, haddress.2 ⟨j, hj, rfl⟩, fun hbranch => ?_⟩
    have := hrange hbranch label j hlabel hj
    rw [← hnear j] at this
    exact this

/-! ## First faults -/

/-- A second pass that fails reports the first instruction line that is not encodable. -/
theorem firstFault_of_words {base : Int} (hb : Address.IsWord base) {p : Program}
    (hshort : ∀ l ∈ p, Numeral.Short l.text) {table : SymbolTable}
    (htable : p.symbols base = .ok table) {e : Failure Diagnostic}
    (h : p.words table base = .error e) : ∃ i l fault, p[i]? = some l ∧
      p.FirstFault base i l fault ∧ e = .fault (l.diagnose fault) := by
  obtain ⟨i, l, failure, hi, hl, hfailure, rfl, hfirst⟩ := wordsFrom_eq_error hb h
  have hline := hshort l (List.mem_of_getElem? hi)
  have hwrong : ¬p.EncodableAt base i l := by
    rw [← exists_word_iff_encodableAt hb htable hl hline, hfailure]
    nofun
  have hright : ∀ j < i, ∀ m, p[j]? = some m → m.kind.isInstruction = true →
      p.EncodableAt base j m := by
    intro j hj m hm hinstruction
    rw [← exists_word_iff_encodableAt hb htable hinstruction (hshort m (List.mem_of_getElem? hm))]
    exact hfirst j hj m hm hinstruction
  cases failure with
  | tooManyDigits count => exact absurd hfailure (settles_encodeLine hline _ _ count)
  | fault fault =>
    obtain ⟨-, rfl⟩ := symbols_eq_ok_iff.1 htable
    rw [Address.ofIndex_eq] at hfailure
    exact ⟨i, l, fault, hi,
      .line (not_mislabelledAt_of_symbols htable) hl hwrong hright hfailure, rfl⟩

/-- The fault of a line with a wrong label tells an empty label from a label defined twice. -/
theorem FirstFault.kind_eq {base : Int} {p : Program} {i : Nat} {l : SourceLine} {fault : Fault}
    (h : p.FirstFault base i l fault) {name : Text} (hname : p.MislabelledAt i name) :
    fault.kind = if name = [] then .malformedOperand else .duplicateLabel := by
  have hunique : ∀ {name'}, p.MislabelledAt i name' → name' = name := by
    rintro name' ⟨h', -⟩
    exact Option.some.inj (h'.symm.trans hname.1)
  cases h with
  | emptyLabel h => rw [if_pos (hunique h).symm, Fault.kind]
  | duplicateLabel hne h => rw [if_neg (hunique h ▸ hne), Fault.kind]
  | line hlabels => exact absurd hname (hlabels i name)

theorem FirstFault.not_sound {base : Int} {p : Program} {i : Nat} {l : SourceLine} {fault : Fault}
    (h : p.FirstFault base i l fault) (hi : p[i]? = some l) : ¬p.Sound base := by
  intro hsound
  cases h with
  | emptyLabel h => exact hsound.labels i _ h
  | duplicateLabel _ h => exact hsound.labels i _ h
  | line _ hl h => exact h (hsound.lines i l hi hl)

/-- A program that does not assemble is reported with its first fault. -/
theorem firstFault_of_assemble {base : Int} (hb : Address.IsWord base) {p : Program}
    (hshort : ∀ l ∈ p, Numeral.Short l.text) {e : Failure Diagnostic}
    (h : p.assemble base = .error e) : ∃ i l fault, p[i]? = some l ∧
      p.FirstFault base i l fault ∧ e = .fault (l.diagnose fault) := by
  rw [assemble] at h
  cases hsymbols : p.symbols base with
  | error d =>
    obtain ⟨i, l, fault, hi, hfirst, rfl⟩ := firstFault_of_symbols hsymbols
    rw [hsymbols] at h
    cases h
    exact ⟨i, l, fault, hi, hfirst, rfl⟩
  | ok table =>
    rw [hsymbols] at h
    change p.words table base >>= _ = _ at h
    cases hwords : p.words table base with
    | error e' =>
      rw [hwords] at h
      cases h
      exact firstFault_of_words hb hshort hsymbols hwords
    | ok ws =>
      rw [hwords] at h
      cases h

theorem sound_of_assemble {base : Int} (hb : Address.IsWord base) {p : Program}
    (hshort : ∀ l ∈ p, Numeral.Short l.text) {image : Image} (h : p.assemble base = .ok image) :
    p.Sound base := by
  obtain ⟨hsymbols, hwords⟩ := assemble_eq_ok_iff.1 h
  refine ⟨not_mislabelledAt_of_symbols hsymbols, fun i l hi hl => ?_⟩
  rw [← exists_word_iff_encodableAt hb hsymbols hl (hshort l (List.mem_of_getElem? hi))]
  exact (exists_wordsFrom_iff hb).1 ⟨_, hwords⟩ i l hi hl

/-- A program assembles exactly if it is sound. One that is not is reported with a single fault: its
first line with a wrong label, and if there is none its first instruction line that is not
encodable, under the number and with the text of that line. -/
theorem assemble_ok_iff_sound {base : Int} (hb : Address.IsWord base) {p : Program}
    (hshort : ∀ l ∈ p, Numeral.Short l.text) :
    ((∃ image, p.assemble base = .ok image) ↔ p.Sound base) ∧
      (¬p.Sound base → ∃ i l fault, p[i]? = some l ∧ p.FirstFault base i l fault ∧
        (∀ name, p.MislabelledAt i name →
          fault.kind = if name = [] then .malformedOperand else .duplicateLabel) ∧
        p.assemble base = .error (.fault ⟨fault, l.number, l.text⟩)) := by
  cases h : p.assemble base with
  | ok image =>
    have hsound := sound_of_assemble hb hshort h
    exact ⟨iff_of_true ⟨image, rfl⟩ hsound, fun hno => absurd hsound hno⟩
  | error e =>
    obtain ⟨i, l, fault, hi, hfirst, rfl⟩ := firstFault_of_assemble hb hshort h
    refine ⟨iff_of_false ?_ (hfirst.not_sound hi), fun _ =>
      ⟨i, l, fault, hi, hfirst, fun _ => hfirst.kind_eq, rfl⟩⟩
    rintro ⟨image, himage⟩
    cases himage

end Program

end Mips32
