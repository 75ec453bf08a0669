import Mips32.Program.Passes
import Mips32.Proofs.Program.Verdict

/-!
# Runs with numbers that are shown

A run ends early at an integer that is too long to be shown, so it succeeds exactly if the program
assembles and all that is told of it can be told (`run_eq_ok_iff`). In a program whose lines have
numbers that are shown there is no such integer: what else is told of it are addresses, distances
between addresses and bounds of fields. Then the run comes to what `assemble` says (`run_eq`).

The argument follows what is told line by line (`isShown_of_mem_symbolEvents`,
`isShown_of_mem_wordEvents`), and what faults a line can have (`encodeLine_tells`).
-/

namespace Mips32

/-! ## Integers that are shown -/

theorem Numeral.isShown_iff {n : Int} : isShown n = true ↔ n.natAbs < 10 ^ digitLimit := by
  rw [isShown, decide_eq_true_eq, length_digits]
  exact Nat.length_toDigits_le_iff (by decide) (by decide)

theorem Numeral.isShown_of_lt {n : Int} (h : n.natAbs < 10 ^ 20) : isShown n = true :=
  isShown_iff.2 (Nat.lt_of_lt_of_le h (Nat.pow_le_pow_right (by decide) (by decide)))

/-- A number is shown if there is no run of digits in it that is too long. -/
theorem Numeral.isShown_of_short {n : Int} (h : Short (decimal n)) : isShown n = true := by
  have hdigits : digits 10 n.natAbs <:+: decimal n := by
    unfold decimal
    split
    · exact (List.suffix_cons _ _).isInfix
    · exact List.infix_rfl
  exact decide_eq_true (h _ hdigits fun c => isDigit_of_mem_digits)

theorem Address.isShown_branchDistance {pc target : Int} (hpc : IsWord pc)
    (htarget : IsWord target) :
    Numeral.isShown (branchDistance pc target) = true := by
  obtain ⟨hpc, hpc', -⟩ := hpc
  obtain ⟨htarget, htarget', -⟩ := htarget
  refine Numeral.isShown_of_lt ?_
  rw [branchDistance, Int.natAbs_tdiv]
  simp only [space] at hpc' htarget'
  exact Nat.lt_of_le_of_lt (Nat.div_le_self ..) (by omega)

/-! ## Faults that can be told -/

/-- A computation whose faults can be told. -/
def Tells {α : Type} (x : Except (Failure Fault) α) : Prop :=
  ∀ fault, x = .error (.fault fault) → fault.isShown = true

namespace Tells

variable {α β : Type} {x : Except (Failure Fault) α}

theorem ok (a : α) : Tells (.ok a) :=
  nofun

theorem fault {fault : Fault} (h : fault.isShown = true) :
    Tells (.error (.fault fault) : Except (Failure Fault) α) := by
  intro fault' heq
  cases heq
  exact h

theorem ofNumeral {fault : Fault} (h : fault.isShown = true) (e : Numeral.Error) :
    Tells (.error (.ofNumeral fault e) : Except (Failure Fault) α) := by
  cases e with
  | malformed => exact Tells.fault h
  | tooManyDigits count => exact nofun

theorem bind {f : α → Except (Failure Fault) β} (hx : Tells x) (hf : ∀ a, Tells (f a)) :
    Tells (x >>= f) := by
  cases x with
  | ok a => exact hf a
  | error e =>
    intro fault h
    cases h
    exact hx fault rfl

theorem map (hx : Tells x) (f : α → β) : Tells (x.map f) := by
  cases x with
  | ok a => exact ok (f a)
  | error e =>
    intro fault h
    cases h
    exact hx fault rfl

end Tells

theorem Operand.register_tells (s : Text) : Tells (register s) := by
  unfold register
  split
  · split
    · split
      · exact .ok _
      · exact .fault rfl
    · exact .ofNumeral rfl _
  · split
    · exact .ok _
    · exact .fault rfl

/-- What a fault of an integer shows are the bounds. -/
theorem Operand.integer_tells {low high : Int} (hlow : Numeral.isShown low = true)
    (hhigh : Numeral.isShown high = true) (s : Text) : Tells (integer low high s) := by
  unfold integer
  split
  · split
    · exact .ok _
    · exact .fault (by rw [Fault.isShown, hlow, hhigh]; rfl)
  · exact .ofNumeral rfl _

theorem Operand.halfword_tells (s : Text) : Tells (integer halfwordLow halfwordHigh s) :=
  integer_tells (Numeral.isShown_of_lt (by decide)) (Numeral.isShown_of_lt (by decide)) s

theorem Operand.memory_tells (s : Text) : Tells (memory s) := by
  unfold memory
  split
  · exact .fault rfl
  · split
    · exact (register_tells _).bind fun r => .ok _
    · exact (halfword_tells _).bind fun n => (register_tells _).bind fun r => .ok _

namespace Statement

theorem parse_tells (line : Text) : Tells ((parse line).mapError .fault) := by
  unfold parse ofTokens
  split
  · exact .fault rfl
  · split
    · exact .ok _
    · exact .fault rfl

theorem instruction_tells (s : Statement) : Tells s.instruction := by
  have hregister := Operand.register_tells
  have hshift : ∀ a, Tells (shiftAmount a) := fun a =>
    (Operand.integer_tells (Numeral.isShown_of_lt (by decide)) (Numeral.isShown_of_lt (by decide))
      a).map _
  unfold instruction
  split
  · exact (hregister _).bind fun _ => (hregister _).bind fun _ => (hregister _).bind fun _ => .ok _
  · exact (hregister _).bind fun _ => (hregister _).bind fun _ => (hregister _).bind fun _ => .ok _
  · exact (hregister _).bind fun _ => (hregister _).bind fun _ => (hshift _).bind fun _ => .ok _
  · exact (hregister _).bind fun _ => (hregister _).bind fun _ =>
      ((Operand.halfword_tells _).map _).bind fun _ => .ok _
  · exact (hregister _).bind fun _ => (Operand.memory_tells _).bind fun _ => .ok _
  · exact (hregister _).bind fun _ => (hregister _).bind fun _ => .ok _
  · exact (hregister _).bind fun _ => .ok _
  · exact .ok _
  · exact .fault rfl

end Statement

section Encoding

variable {table : SymbolTable} {pc : Int}

theorem SymbolicInstruction.resolve_tells (table : SymbolTable) (label : Text) :
    Tells ((resolve table label).mapError .fault) := by
  unfold resolve
  split
  · exact .ok _
  · exact .fault rfl

/-- What a fault of a branch shows is the distance. -/
theorem SymbolicInstruction.branchField_tells
    (htable : ∀ label a, table.address? label = some a → Address.IsWord a) (hpc : Address.IsWord pc)
    (label : Text) : Tells ((branchField table pc label).mapError .fault) := by
  unfold branchField resolve
  cases htarget : table.address? label with
  | none => exact .fault rfl
  | some target =>
    show Tells (Except.mapError .fault (if _ then _ else _))
    split
    · exact .ok _
    · exact .fault (Address.isShown_branchDistance hpc (htable label target htarget))

theorem SymbolicInstruction.link_tells
    (htable : ∀ label a, table.address? label = some a → Address.IsWord a) (hpc : Address.IsWord pc)
    (i : SymbolicInstruction) : Tells ((i.link table pc).mapError .fault) := by
  have hmap : ∀ {α β : Type} (x : Except Fault α) (f : α → β),
      (x.map f).mapError Failure.fault = (x.mapError Failure.fault).map f := by
    intro α β x f
    cases x <;> rfl
  cases i with
  | branchPair | branchSign =>
    rw [link, hmap]
    exact (branchField_tells htable hpc _).map _
  | jump label =>
    rw [link, hmap]
    exact (resolve_tells table label).map _
  | _ => exact .ok _

/-- Among words, the faults of a line can be told. -/
theorem encodeLine_tells (htable : ∀ label a, table.address? label = some a → Address.IsWord a)
    (hpc : Address.IsWord pc) (line : Text) : Tells (encodeLine table pc line) :=
  (Statement.parse_tells line).bind fun s => s.instruction_tells.bind fun i =>
    (SymbolicInstruction.link_tells htable hpc i).bind fun _ => .ok _

/-! ## Events that can be told -/

/-- What is told of a line that has a word are distances that the word holds, and the number of the
line. -/
theorem isShown_of_mem_encodeEvents {number : Int} (hnumber : Numeral.isShown number = true)
    {line : Text} {e : Event} (he : e ∈ encodeEvents table pc number line) : e.isShown = true := by
  unfold encodeEvents at he
  split at he
  case h_2 => cases he
  case h_1 w s hword hparse =>
    obtain ⟨s', i, m, hs', hreads, hlink, -⟩ := encodeLine_eq_ok_iff.1 hword
    obtain rfl : s = s' := Except.ok.inj (hparse.symm.trans hs')
    rw [Statement.instruction_eq_ok_iff.2 hreads] at he
    have hbranch : ∀ {label f}, (SymbolicInstruction.branchField table pc label).map f = .ok m →
        ∀ target, table.address? label = some target →
          Numeral.isShown (Address.branchDistance pc target) = true := by
      intro label f hfield target htarget
      obtain ⟨d, hd, -⟩ := map_eq_ok.1 hfield
      obtain ⟨target', htarget', hdistance⟩ := SymbolicInstruction.branchField_eq_ok_iff.1 hd
      obtain rfl : target' = target := Option.some.inj (htarget'.symm.trans htarget)
      have hbounds := halfword_bounds d
      simp only [halfwordLow, halfwordHigh] at hbounds
      exact Numeral.isShown_of_lt (by omega)
    cases i with
    | branchPair | branchSign =>
      simp only [SymbolicInstruction.linkEvents] at he
      split at he
      case h_1 target htarget =>
        rw [List.mem_singleton.1 he]
        exact hbranch hlink target htarget
      case h_2 => cases he
    | jump label =>
      simp only [SymbolicInstruction.linkEvents] at he
      split at he
      case h_1 =>
        split at he
        · cases he
        · rw [List.mem_singleton.1 he]
          exact hnumber
      case h_2 => cases he
    | _ => cases he

end Encoding

namespace Program

variable {p : Program}

theorem isShown_of_mem_defineEvents {l : SourceLine} (hl : Numeral.isShown l.number = true)
    {a : Int} {e : Event} (he : e ∈ l.defineEvents a) : e.isShown = true := by
  unfold SourceLine.defineEvents at he
  rcases List.mem_append.1 he with he | he
  · split at he
    · rw [List.mem_singleton.1 he]
      rfl
    · cases he
  · split at he
    · simp only at he
      split at he
      · cases he
      · rw [List.mem_singleton.1 he]
        exact hl
    · cases he

theorem isShown_of_mem_symbolEvents (hp : ∀ l ∈ p, Numeral.isShown l.number = true) (base : Int) :
    ∀ e ∈ p.symbolEvents base, e.isShown = true := by
  suffices h : ∀ a table, ∀ e ∈ symbolEventsFrom a table p, e.isShown = true from
    List.forall_mem_cons.2 ⟨rfl, h base []⟩
  induction p with
  | nil => exact fun _ _ => List.forall_mem_cons.2 ⟨rfl, nofun⟩
  | cons l p ih =>
    intro a table
    obtain ⟨hl, hrest⟩ := List.forall_mem_cons.1 hp
    rw [symbolEventsFrom]
    split
    · nofun
    · exact List.forall_mem_append.2 ⟨fun e => isShown_of_mem_defineEvents hl, ih hrest _ _⟩

theorem isShown_of_mem_wordEvents (hp : ∀ l ∈ p, Numeral.isShown l.number = true)
    (table : SymbolTable) (base : Int) : ∀ e ∈ p.wordEvents table base, e.isShown = true := by
  suffices h : ∀ pc, ∀ e ∈ wordEventsFrom table pc p, e.isShown = true from
    List.forall_mem_cons.2 ⟨rfl, h base⟩
  induction p with
  | nil => exact fun _ => List.forall_mem_cons.2 ⟨rfl, nofun⟩
  | cons l p ih =>
    intro pc
    obtain ⟨hl, hrest⟩ := List.forall_mem_cons.1 hp
    rw [wordEventsFrom]
    split
    · split
      · nofun
      · exact List.forall_mem_append.2 ⟨fun e => isShown_of_mem_encodeEvents hl,
          List.forall_mem_cons.2 ⟨hl, ih hrest _⟩⟩
    · exact ih hrest _

/-! ## Runs -/

/-- Both passes, one after the other. -/
def run (base : Int) (p : Program) : Except Refusal Image := do
  let symbols ← p.firstPass base
  let words ← p.secondPass symbols base
  return ⟨symbols, words⟩

theorem told_eq_ok_iff {α : Type} {events : List Event} {result : Except (Failure Diagnostic) α}
    {a : α} : told events result = .ok a ↔ (∀ e ∈ events, e.isShown = true) ∧ result = .ok a := by
  rw [← List.all_eq_true, told]
  split
  case isTrue h => rw [mapError_eq_ok, and_iff_right h]
  case isFalse h => exact iff_of_false nofun fun h' => h h'.1

/-- A run has the image of the program, if all that is told of the program can be told. -/
theorem run_eq_ok_iff {base : Int} {image : Image} :
    p.run base = .ok image ↔
      p.assemble base = .ok image ∧ ∀ e ∈ p.events base, e.isShown = true := by
  simp only [run, firstPass, secondPass, bind_eq_ok, pure_eq_ok, told_eq_ok_iff, mapError_eq_ok]
  constructor
  · rintro ⟨symbols, ⟨hfirst, hsymbols⟩, words, ⟨hsecond, hwords⟩, rfl⟩
    refine ⟨assemble_eq_ok_iff.2 ⟨hsymbols, hwords⟩, ?_⟩
    rw [events, hsymbols]
    exact List.forall_mem_append.2 ⟨hfirst, hsecond⟩
  · rintro ⟨himage, hevents⟩
    obtain ⟨hsymbols, hwords⟩ := assemble_eq_ok_iff.1 himage
    rw [events, hsymbols] at hevents
    obtain ⟨hfirst, hsecond⟩ := List.forall_mem_append.1 hevents
    exact ⟨_, ⟨hfirst, hsymbols⟩, _, ⟨hsecond, hwords⟩, rfl⟩

theorem told_of_isShown {α : Type} {events : List Event}
    (h : ∀ e ∈ events, e.isShown = true) (result : Except (Failure Diagnostic) α) :
    told events result = result.mapError .ofFailure := by
  rw [told, if_pos (List.all_eq_true.2 h)]

theorem isShown_diagnose {l : SourceLine} {fault : Fault} (hl : Numeral.isShown l.number = true)
    (hfault : fault.isShown = true) : (l.diagnose fault).isShown = true := by
  simp only [Diagnostic.isShown, SourceLine.diagnose, hl, hfault, Bool.and_self]

theorem isShown_of_symbols (hp : ∀ l ∈ p, Numeral.isShown l.number = true) {base : Int}
    {d : Diagnostic} (h : p.symbols base = .error d) : d.isShown = true := by
  obtain ⟨front, l, rest, table, a, rfl, -, hl⟩ := symbolsFrom_eq_error h
  have hnumber : Numeral.isShown l.number = true := hp l (by simp)
  obtain ⟨name, -, ⟨-, rfl⟩ | ⟨-, -, rfl⟩⟩ := define_eq_error hl
  · exact isShown_diagnose hnumber rfl
  · exact isShown_diagnose hnumber rfl

theorem isShown_of_words (hp : ∀ l ∈ p, Numeral.isShown l.number = true) {base : Int}
    (hb : Address.IsWord base) {table : SymbolTable} (htable : p.symbols base = .ok table)
    {d : Diagnostic} (h : p.words table base = .error (.fault d)) : d.isShown = true := by
  obtain ⟨i, l, failure, hi, -, hfailure, heq, -⟩ := wordsFrom_eq_error hb h
  have haddress : ∀ label a, table.address? label = some a → Address.IsWord a := by
    intro label a ha
    obtain ⟨hword, -⟩ := exists_position_of_address? hb htable ha
    exact hword
  cases failure with
  | tooManyDigits count => cases heq
  | fault fault =>
    cases heq
    have hfault := encodeLine_tells haddress (Address.isWord_ofIndex hb _) l.text fault hfailure
    exact isShown_diagnose (hp l (List.mem_of_getElem? hi)) hfault

/-- A program whose lines have numbers that are shown is run to its end. -/
theorem run_eq {base : Int} (hb : Address.IsWord base)
    (hp : ∀ l ∈ p, Numeral.isShown l.number = true) :
    p.run base = (p.assemble base).mapError .failure := by
  rw [run, assemble, firstPass, told_of_isShown (isShown_of_mem_symbolEvents hp base)]
  cases hsymbols : p.symbols base with
  | error d =>
    have hd := isShown_of_symbols hp hsymbols
    show Except.error (Refusal.ofFailure (.fault d)) = .error (.failure (.fault d))
    rw [Refusal.ofFailure, if_pos hd]
  | ok table =>
    show p.secondPass table base >>= _ = _
    rw [secondPass, told_of_isShown (isShown_of_mem_wordEvents hp table base)]
    show _ = Except.mapError Refusal.failure
      (p.words table base >>= fun words => (.ok ⟨table, words⟩ : Except _ Image))
    cases hwords : p.words table base with
    | ok words => rfl
    | error e =>
      cases e with
      | tooManyDigits count => rfl
      | fault d =>
        have hd := isShown_of_words hp hb hsymbols hwords
        show Except.error (Refusal.ofFailure (.fault d)) = .error (.failure (.fault d))
        rw [Refusal.ofFailure, if_pos hd]

end Program

end Mips32
