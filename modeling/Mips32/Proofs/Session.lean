import Mathlib.Data.List.Induction
import Mips32.Proofs.Program.Passes
import Mips32.Proofs.Report
import Mips32.Session

/-!
# What a session remembers

A session remembers its base address and the outcome of its last run, and nothing else: after any
commands its image is `kept`, which looks at the last program among them only (`after_start`). The
answer to a command depends on the session through these two alone, and on the image only where
lines are encoded without a table of their own (`answer_eq_start`). So `follows_of_run` says of
every command of every session what it answers and what it leaves behind, by the commands in front
of it.

Work on a session is carried out step by step (`run_bind`), and what comes of a run in the end is
that of its program alone (`run_assembleProgram`). So a session reports on a text as it is reported
on without one (`answer_assemble_eq_ofText`), and the verdict on programs is that on the lines which
a session is given (`answer_ok_iff_sound`).
-/

namespace Mips32

namespace Program

/-- The image that a run leaves behind: that of the program, or the empty one if the program does
not assemble. -/
def outcome (base : Int) (p : Program) : Image :=
  match p.run base with
  | .ok image => image
  | .error _ => .empty

theorem outcome_of_run {base : Int} {p : Program} {image : Image}
    (h : p.run base = .ok image) : p.outcome base = image := by
  rw [outcome, h]

/-- An image that is left behind is empty, or that of the program. -/
theorem outcome_cases (base : Int) (p : Program) :
    p.outcome base = .empty ∨ p.run base = .ok (p.outcome base) := by
  unfold outcome
  split
  case h_1 image h => exact .inr h
  case h_2 => exact .inl rfl

/-- In the image of a program each symbol is the address of one of its words, or of the place behind
the last. -/
theorem exists_index_of_mem_symbols {base : Int} (hb : Address.IsWord base) {p : Program}
    {image : Image} (h : p.assemble base = .ok image) {name : Text} {v : Int}
    (hv : (name, v) ∈ image.symbols) :
    ∃ k : Nat, k ≤ image.words.length ∧ v = (base + 4 * k) % 2 ^ 32 := by
  obtain ⟨hsymbols, hwords⟩ := assemble_eq_ok_iff.1 h
  obtain ⟨-, htable⟩ := symbols_eq_ok_iff.1 hsymbols
  rw [htable, mem_labelsFrom_iff hb] at hv
  obtain ⟨i, l, -, -, rfl⟩ := hv
  refine ⟨p.instructionsBefore i, ?_, Address.ofIndex_eq _ _⟩
  rw [length_words hwords, instructionsBefore]
  exact ((List.take_sublist i p).filter _).length_le

end Program

/-- The command with a table for lines that have none of their own. -/
def Command.withTable (table : SymbolTable) : Command → Command
  | .words lines numbers none => .words lines numbers (some table)
  | c => c

/-- Whether an answer is a success: not a refusal, and not a report of a fault. -/
def Answer.Succeeds : Except Refusal Answer → Prop
  | .ok (.report r) => r.faults = []
  | .ok _ => True
  | .error _ => False

namespace Session

/-! ## Work on a session -/

section Work

variable {α β : Type} (s : Session)

theorem run_get : (get : Work Session).run.run s = (.ok s, s) := rfl

theorem run_modify (f : Session → Session) :
    (modify f : Work PUnit).run.run s = (.ok ⟨⟩, f s) := rfl

theorem run_pure (a : α) : (pure a : Work α).run.run s = (.ok a, s) := rfl

theorem run_ofExcept (x : Except Refusal α) : (ofExcept x : Work α).run.run s = (x, s) := by
  cases x <;> rfl

theorem run_bind (x : Work α) (f : α → Work β) : (x >>= f).run.run s =
    match x.run.run s with
    | (.ok a, s') => (f a).run.run s'
    | (.error e, s') => (.error e, s') := by
  rw [ExceptT.run_bind, StateT.run_bind]
  obtain ⟨e | a, s'⟩ := x.run.run s
  · rfl
  · rfl

theorem run_tryCatch (x : Work α) (handle : Refusal → Work α) :
    (tryCatch x handle).run.run s =
      match x.run.run s with
      | (.ok a, s') => (.ok a, s')
      | (.error e, s') => (handle e).run.run s' := by
  have htry : (tryCatch x handle : Work α) = ExceptT.tryCatch x handle := rfl
  have hrun : StateT.run x s = x.run.run s := rfl
  rw [htry, ExceptT.tryCatch, ExceptT.run_mk, StateT.run_bind, hrun]
  obtain ⟨e | a, s'⟩ := x.run.run s
  · rfl
  · rfl

/-- A computation in front leaves the session to what comes after it. -/
theorem run_ofExcept_bind (x : Except Refusal α) (f : α → Work β) :
    (ofExcept x >>= f).run.run s =
      match x with
      | .ok a => (f a).run.run s
      | .error e => (.error e, s) := by
  rw [run_bind, run_ofExcept]
  cases x <;> rfl

end Work

/-- A run leaves the image of the program, or the empty one if it is refused. -/
theorem run_assembleProgram (s : Session) (p : Program) :
    (assembleProgram p).run.run s = (p.run s.base, ⟨s.base, p.outcome s.base⟩) := by
  rw [Program.outcome, Program.run]
  simp only [assembleProgram, run_bind, run_modify, run_get, run_ofExcept, run_pure]
  cases hfirst : p.firstPass s.base with
  | error e => rfl
  | ok symbols =>
    simp only [bind, Except.bind]
    cases hsecond : p.secondPass symbols s.base with
    | error e => rfl
    | ok words => rfl

/-- The report of a run: on its image, or on its fault. -/
def reported (base : Int) : Except Refusal Program.Image → Except Refusal Report
  | .ok image => .ok (.ofImage base image)
  | .error (.failure (.fault d)) => .ok (.ofFault d)
  | .error e => .error e

/-- What is read off the session behind a run is the report of the run. -/
theorem run_assembleText (s : Session) (source : Text) :
    (assembleText source).run.run s = (reported s.base ((Program.ofText source).run s.base),
      ⟨s.base, (Program.ofText source).outcome s.base⟩) := by
  simp only [assembleText, run_bind, run_tryCatch, run_assembleProgram]
  rw [Program.outcome]
  rcases (Program.ofText source).run s.base with ((d | count) | -) | image
  · rfl
  · rfl
  · rfl
  · rfl

/-! ## One command -/

theorem answer_assemble (s : Session) (source : Text) : s.answer (.assemble source) =
    (reported s.base ((Program.ofText source).run s.base)).map .report := by
  rw [answer, step, run_bind, run_assembleText]
  cases reported s.base ((Program.ofText source).run s.base) <;> rfl

theorem answer_assembleLines (s : Session) (lines : List Text) (numbers : Option (List Int)) :
    s.answer (.assembleLines lines numbers) =
      ((Program.ofLines lines numbers).run s.base).map .image := by
  rw [answer, step, run_bind, run_assembleProgram]
  cases (Program.ofLines lines numbers).run s.base <;> rfl

/-- The commands that run no program leave the session alone, and what they answer depends on the
base and, where lines have no table of their own, on the symbols. -/
theorem run_step_of_program?_eq_none (s : Session) {c : Command} (h : c.program? = none) :
    (step c).run.run s = (((step (c.withTable s.image.symbols)).run.run (start s.base)).1, s) := by
  cases c with
  | assemble | assembleLines => cases h
  | classify => rfl
  | symbols lines numbers =>
    simp only [Command.withTable, step, run_bind, run_get, run_ofExcept, run_pure, start]
    cases (Program.ofLines lines numbers).firstPass s.base <;> rfl
  | words lines numbers table =>
    have hrun : ∀ (s : Session) table, (step (.words lines numbers table)).run.run s =
        (((Program.ofLines lines numbers).secondPass (table.getD s.image.symbols) s.base).map
          .words, s) := by
      intro s table
      simp only [step, run_bind, run_get, run_ofExcept, run_pure]
      cases (Program.ofLines lines numbers).secondPass (table.getD s.image.symbols) s.base <;> rfl
    cases table with
    | none =>
      rw [Command.withTable, hrun, hrun]
      rfl
    | some table =>
      show (step (.words lines numbers (some table))).run.run s =
        (((step (.words lines numbers (some table))).run.run (start s.base)).1, s)
      rw [hrun, hrun]
      rfl
  | _ =>
    simp only [Command.withTable, step, atLine, run_ofExcept_bind]
    generalize told _ _ = x
    cases x <;> rfl

theorem next_of_program?_eq_none (s : Session) {c : Command} (h : c.program? = none) :
    s.next c = s := by
  rw [next, run_step_of_program?_eq_none s h]

theorem next_of_program?_eq_some (s : Session) {c : Command} {p : Program}
    (h : c.program? = some p) : s.next c = ⟨s.base, p.outcome s.base⟩ := by
  cases c with
  | assemble source =>
    cases h
    rw [next, step, run_bind, run_assembleText]
    cases reported s.base ((Program.ofText source).run s.base) <;> rfl
  | assembleLines lines numbers =>
    cases h
    rw [next, step, run_bind, run_assembleProgram]
    cases (Program.ofLines lines numbers).run s.base <;> rfl
  | _ => cases h

/-- No command changes the base address. -/
theorem base_next (s : Session) (c : Command) : (s.next c).base = s.base := by
  cases h : c.program? with
  | none => rw [next_of_program?_eq_none s h]
  | some p => rw [next_of_program?_eq_some s h]

/-- A session answers as a new one with the same base does, which is given the table of the session
where one is needed. -/
theorem answer_eq_start (s : Session) (c : Command) :
    s.answer c = (start s.base).answer (c.withTable s.image.symbols) := by
  cases c with
  | assemble source =>
    show s.answer (.assemble source) = (start s.base).answer (.assemble source)
    rw [answer_assemble, answer_assemble, start]
  | assembleLines lines numbers =>
    show s.answer (.assembleLines lines numbers) =
      (start s.base).answer (.assembleLines lines numbers)
    rw [answer_assembleLines, answer_assembleLines, start]
  | _ =>
    rw [answer, run_step_of_program?_eq_none s rfl]
    rfl

/-- A session tells what a new one with the same base tells. -/
theorem events_eq_start (s : Session) (c : Command) :
    s.events c = (start s.base).events (c.withTable s.image.symbols) := by
  cases c with
  | words lines numbers table => cases table <;> rfl
  | _ => rfl

/-- A command that runs a program succeeds exactly if the run does. -/
theorem succeeds_answer_iff (s : Session) {c : Command} {p : Program} (h : c.program? = some p) :
    Answer.Succeeds (s.answer c) ↔ ∃ image, p.run s.base = .ok image := by
  cases c with
  | assemble source =>
    cases h
    rw [answer_assemble]
    rcases (Program.ofText source).run s.base with ((d | count) | -) | image
    · simp [reported, Except.map, Answer.Succeeds, Report.ofFault]
    · simp [reported, Except.map, Answer.Succeeds]
    · simp [reported, Except.map, Answer.Succeeds]
    · simp [reported, Except.map, Answer.Succeeds, Report.ofImage, Report.ofRun]
  | assembleLines lines numbers =>
    cases h
    rw [answer_assembleLines]
    cases (Program.ofLines lines numbers).run s.base <;> simp [Answer.Succeeds, Except.map]
  | _ => cases h

/-- A run that succeeds is answered with its image, or with a report of it. -/
theorem answer_of_run (s : Session) {c : Command} {p : Program} (hp : c.program? = some p)
    {image : Program.Image} (h : p.run s.base = .ok image) :
    s.answer c = .ok (.image image) ∨ s.answer c = .ok (.report (.ofImage s.base image)) := by
  cases c with
  | assemble source =>
    cases hp
    rw [answer_assemble, h]
    exact .inr rfl
  | assembleLines lines numbers =>
    cases hp
    rw [answer_assembleLines, h]
    exact .inl rfl
  | _ => cases hp

/-- The lines of a text have numbers that are shown, unless the text has too many of them. -/
theorem isShown_of_mem_ofText {source : Text} (h : source.length < 10 ^ Numeral.digitLimit)
    {l : SourceLine} (hl : l ∈ Program.ofText source) : Numeral.isShown l.number = true := by
  obtain ⟨n, line, hline, -, rfl⟩ := Program.mem_ofText_iff.1 hl
  obtain ⟨hn, -⟩ := List.getElem?_eq_some_iff.1 hline
  have hlength := Text.length_lines_le source
  have hnumber : ((n : Int) + 1).natAbs ≤ source.length := by omega
  exact Numeral.isShown_iff.2 (Nat.lt_of_le_of_lt hnumber h)

/-- A session reports on a text as `Report.ofText` does. -/
theorem answer_assemble_eq_ofText {s : Session} (hb : Address.IsWord s.base) {source : Text}
    (h : source.length < 10 ^ Numeral.digitLimit) :
    s.answer (.assemble source) = ((Report.ofText s.base source).mapError fun count =>
      .failure (.tooManyDigits count)).map .report := by
  rw [answer_assemble, Program.run_eq hb fun l hl => isShown_of_mem_ofText h hl, Report.ofText]
  rcases (Program.ofText source).assemble s.base with (d | count) | image
  · rfl
  · rfl
  · rfl

/-! ## A list of commands -/

/-- The state after a list of commands. -/
def after (s : Session) (cs : List Command) : Session :=
  cs.foldl next s

theorem after_append_singleton (s : Session) (cs : List Command) (c : Command) :
    s.after (cs ++ [c]) = (s.after cs).next c := by
  rw [after, List.foldl_append, List.foldl_cons, List.foldl_nil, after]

theorem length_run (s : Session) (cs : List Command) : (s.run cs).length = cs.length := by
  induction cs generalizing s with
  | nil => rfl
  | cons c cs ih => rw [run, List.length_cons, List.length_cons, ih]

/-- A run has an entry for each command: its answer in the state after the commands in front of it,
and the state behind it. -/
theorem getElem?_run (s : Session) (cs : List Command) (i : Nat) :
    (s.run cs)[i]? = cs[i]?.map fun c =>
      ((s.after (cs.take i)).answer c, (s.after (cs.take i)).next c) := by
  induction cs generalizing s i with
  | nil => rfl
  | cons c cs ih =>
    cases i with
    | zero => rfl
    | succ i =>
      rw [run, List.getElem?_cons_succ, List.getElem?_cons_succ, ih, List.take_succ_cons]
      rfl

/-- The last program that is run. -/
def lastProgram? (cs : List Command) : Option Program :=
  (cs.filterMap Command.program?).getLast?

/-- The image that a session at `base` has after some commands: what the last run left behind. -/
def kept (base : Int) (cs : List Command) : Program.Image :=
  match lastProgram? cs with
  | none => .empty
  | some p => p.outcome base

theorem kept_append_of_eq_none (base : Int) (cs : List Command) {c : Command}
    (h : c.program? = none) : kept base (cs ++ [c]) = kept base cs := by
  have hlast : lastProgram? (cs ++ [c]) = lastProgram? cs := by
    simp [lastProgram?, h]
  rw [kept, hlast, kept]

theorem kept_append_of_eq_some (base : Int) (cs : List Command) {c : Command} {p : Program}
    (h : c.program? = some p) : kept base (cs ++ [c]) = p.outcome base := by
  have hlast : lastProgram? (cs ++ [c]) = some p := by
    simp [lastProgram?, h]
  rw [kept, hlast]

/-- A session remembers its base and the outcome of its last run. -/
theorem after_start (base : Int) (cs : List Command) :
    (start base).after cs = ⟨base, kept base cs⟩ := by
  induction cs using List.reverseRecOn with
  | nil => rfl
  | append_singleton cs c ih =>
    rw [after_append_singleton, ih]
    cases hc : c.program? with
    | none => rw [next_of_program?_eq_none _ hc, kept_append_of_eq_none base cs hc]
    | some p => rw [next_of_program?_eq_some _ hc, kept_append_of_eq_some base cs hc]

/-- What a session has kept is empty, or the image of a program. -/
theorem kept_cases (base : Int) (cs : List Command) :
    kept base cs = .empty ∨ ∃ p : Program, p.assemble base = .ok (kept base cs) := by
  unfold kept
  split
  case h_1 => exact .inl rfl
  case h_2 p _ =>
    exact (Program.outcome_cases base p).imp_right fun h => ⟨p, (Program.run_eq_ok_iff.1 h).1⟩

/-- What a command of a session at `base` answers, tells and leaves behind, if `cs` are the commands
in front of it. -/
structure Follows (base : Int) (cs : List Command) (c : Command)
    (answer : Except Refusal Answer) (events : List Event) (s : Session) : Prop where
  base_eq : s.base = base
  image_eq : s.image = kept base (cs ++ [c])
  /-- A run replaces the image: by the one it answers with if it succeeds, else by the empty one. -/
  success : ∀ p, c.program? = some p → Answer.Succeeds answer →
    p.assemble base = .ok s.image ∧
      (answer = .ok (.image s.image) ∨ answer = .ok (.report (.ofImage base s.image)))
  failure : ∀ p, c.program? = some p → ¬Answer.Succeeds answer → s.image = .empty
  /-- Every other command leaves the image alone. -/
  unchanged : c.program? = none → s.image = kept base cs
  word : ∀ w ∈ s.image.words, 0 ≤ (w.toNat : Int) ∧ (w.toNat : Int) < 2 ^ 32
  symbol : ∀ name v, (name, v) ∈ s.image.symbols →
    ∃ k : Nat, k ≤ s.image.words.length ∧ v = (base + 4 * k) % 2 ^ 32
  /-- A new session answers the same, given the table that is kept. -/
  answer_eq : answer = (start base).answer (c.withTable (kept base cs).symbols)
  events_eq : events = (start base).events (c.withTable (kept base cs).symbols)

theorem follows {base : Int} (hb : Address.IsWord base) (cs : List Command) (c : Command) :
    let s : Session := ⟨base, kept base cs⟩
    Follows base cs c (s.answer c) (s.events c) (s.next c) := by
  intro s
  have hbase : (s.next c).base = base := s.base_next c
  have himage : (s.next c).image = kept base (cs ++ [c]) := by
    have h := after_append_singleton (start base) cs c
    rw [after_start, after_start] at h
    rw [← h]
  refine ⟨hbase, himage, ?success, ?failure, ?unchanged, ?word, ?symbol, s.answer_eq_start c,
    s.events_eq_start c⟩
  case success =>
    intro p hp hsucceeds
    obtain ⟨image, h⟩ := (s.succeeds_answer_iff hp).1 hsucceeds
    rw [s.next_of_program?_eq_some hp, Program.outcome_of_run h]
    exact ⟨(Program.run_eq_ok_iff.1 h).1, s.answer_of_run hp h⟩
  case failure =>
    intro p hp hfails
    rw [s.succeeds_answer_iff hp] at hfails
    rw [s.next_of_program?_eq_some hp]
    exact (Program.outcome_cases base p).resolve_right fun h => hfails ⟨_, h⟩
  case unchanged =>
    intro hc
    rw [s.next_of_program?_eq_none hc]
  case word =>
    intro w _
    have := w.isLt
    omega
  case symbol =>
    intro name v hv
    rw [himage] at hv ⊢
    rcases kept_cases base (cs ++ [c]) with hempty | ⟨p, hp⟩
    · rw [hempty] at hv
      cases hv
    · exact Program.exists_index_of_mem_symbols hb hp hv

/-- Every command of every session answers by the base and the last run in front of it, and leaves
behind the base and the outcome of the last run. -/
theorem follows_of_run {base : Int} (hb : Address.IsWord base) (cs : List Command) :
    ((start base).run cs).length = cs.length ∧
      ∀ i c, cs[i]? = some c → ∃ answer s, ((start base).run cs)[i]? = some (answer, s) ∧
        Follows base (cs.take i) c answer (((start base).after (cs.take i)).events c) s := by
  refine ⟨length_run _ cs, fun i c hc => ?_⟩
  have hstep := follows hb (cs.take i) c
  have hentry := getElem?_run (start base) cs i
  rw [hc, Option.map_some] at hentry
  rw [after_start] at hentry ⊢
  exact ⟨_, _, hentry, hstep⟩

/-! ## The verdict on lines -/

/-- Lines with no run of digits that is too long, neither in the text nor in the number, are
assembled exactly if the program is sound. A program that is not is refused with a single fault: its
first line with a wrong label, and if there is none its first instruction line that is not
encodable, under the number and with the text of that line. -/
theorem answer_ok_iff_sound {s : Session} (hb : Address.IsWord s.base) (lines : List Text)
    (numbers : Option (List Int))
    (hshort : ∀ l ∈ Program.ofLines lines numbers, Numeral.Short l.text)
    (hnumbers : ∀ l ∈ Program.ofLines lines numbers, Numeral.Short (Numeral.decimal l.number)) :
    ((∃ image, s.answer (.assembleLines lines numbers) = .ok (.image image)) ↔
        (Program.ofLines lines numbers).Sound s.base) ∧
      (¬(Program.ofLines lines numbers).Sound s.base →
        ∃ i l fault, (Program.ofLines lines numbers)[i]? = some l ∧
          (Program.ofLines lines numbers).FirstFault s.base i l fault ∧
          (∀ name, (Program.ofLines lines numbers).MislabelledAt i name →
            fault.kind = if name = [] then .malformedOperand else .duplicateLabel) ∧
          s.answer (.assembleLines lines numbers) =
            .error (.failure (.fault ⟨fault, l.number, l.text⟩))) := by
  obtain ⟨hiff, hfault⟩ := Program.assemble_ok_iff_sound hb hshort
  rw [answer_assembleLines,
    Program.run_eq hb fun l hl => Numeral.isShown_of_short (hnumbers l hl)]
  refine ⟨?_, fun hunsound => ?_⟩
  · rw [← hiff]
    cases (Program.ofLines lines numbers).assemble s.base <;> simp [Except.mapError, Except.map]
  · obtain ⟨i, l, fault, hi, hfirst, hkind, herror⟩ := hfault hunsound
    refine ⟨i, l, fault, hi, hfirst, hkind, ?_⟩
    rw [herror]
    rfl

/-- Lines of which the first is wrong already: one operand is missing there. -/
def lateDuplicate : List Text :=
  ["add $1, $2", "L:", "L: j nowhere"].map String.text

/-- The label that the third line defines again is told of, not the first line. A line under a
number of fifty digits is assembled. -/
theorem firstFault_lateDuplicate :
    Address.IsWord (start 0).base ∧
      (∀ l ∈ Program.ofLines ["L: j L".text] (some [10 ^ 49, 7]),
        Numeral.Short l.text ∧ Numeral.Short (Numeral.decimal l.number)) ∧
      (∀ l ∈ Program.ofLines lateDuplicate none,
        Numeral.Short l.text ∧ Numeral.Short (Numeral.decimal l.number)) ∧
      (Program.ofLines ["L: j L".text] (some [10 ^ 49, 7])).Sound 0 ∧
      ¬(Program.ofLines lateDuplicate none).Sound 0 ∧
      (Program.ofLines lateDuplicate none).FirstFault 0 2 ⟨3, "L: j nowhere".text⟩
        (.duplicateLabel "L".text) := by
  have hb : Address.IsWord (start 0).base := by decide
  have hline : ∀ {p : Program},
      (∀ l ∈ p, l.text.length ≤ Numeral.digitLimit ∧
        (Numeral.decimal l.number).length ≤ Numeral.digitLimit) →
      ∀ l ∈ p, Numeral.Short l.text ∧ Numeral.Short (Numeral.decimal l.number) := fun h l hl =>
    ⟨Numeral.short_of_length_le (h l hl).1, Numeral.short_of_length_le (h l hl).2⟩
  have hbig : ∀ l ∈ Program.ofLines ["L: j L".text] (some [10 ^ 49, 7]),
      Numeral.Short l.text ∧ Numeral.Short (Numeral.decimal l.number) := hline (by decide)
  have hlate : ∀ l ∈ Program.ofLines lateDuplicate none,
      Numeral.Short l.text ∧ Numeral.Short (Numeral.decimal l.number) := hline (by decide)
  obtain ⟨hsound, -⟩ := answer_ok_iff_sound hb ["L: j L".text] (some [10 ^ 49, 7])
    (fun l hl => (hbig l hl).1) fun l hl => (hbig l hl).2
  obtain ⟨hiff, hfault⟩ := answer_ok_iff_sound hb lateDuplicate none
    (fun l hl => (hlate l hl).1) fun l hl => (hlate l hl).2
  have hrefused : (start 0).answer (.assembleLines lateDuplicate none) =
      .error (.failure (.fault ⟨.duplicateLabel "L".text, 3, "L: j nowhere".text⟩)) := by rfl
  have hunsound : ¬(Program.ofLines lateDuplicate none).Sound 0 := by
    rw [hrefused] at hiff
    exact fun h => nomatch hiff.2 h
  obtain ⟨i, l, fault, hi, hfirst, -, hreported⟩ := hfault hunsound
  rw [hrefused] at hreported
  simp only [Except.error.injEq, Refusal.failure.injEq, Failure.fault.injEq,
    Diagnostic.mk.injEq] at hreported
  obtain ⟨rfl, hnumber, -⟩ := hreported
  refine ⟨hb, hbig, hlate, hsound.1 ⟨_, by rfl⟩, hunsound, ?_⟩
  -- Only the third line has number three.
  match i, hi with
  | 0, hi =>
    cases hi
    cases hnumber
  | 1, hi =>
    cases hi
    cases hnumber
  | 2, hi =>
    cases hi
    exact hfirst

/-- A run, a line that is encoded with the table of the run, and a run that fails. -/
def rerun : List Command :=
  [.assembleLines ["L: j L".text] none, .words ["j L".text] none none,
    .assembleLines ["j M".text] none]

/-- The table is there for the line, and gone behind the failure. -/
theorem follows_rerun : Address.IsWord Address.defaultBase ∧
    ∃ answer s answer' s',
      ((start Address.defaultBase).run rerun)[1]? = some (answer, s) ∧
      ((start Address.defaultBase).run rerun)[2]? = some (answer', s') ∧
      answer = .ok (.words [0x08100000]) ∧
      s.image = ⟨[("L".text, 0x00400000)], [0x08100000]⟩ ∧
      s'.image = .empty := by
  have hb : Address.IsWord Address.defaultBase := by decide
  obtain ⟨-, hfollows⟩ := follows_of_run hb rerun
  obtain ⟨answer, s, hentry, hline⟩ := hfollows 1 _ rfl
  obtain ⟨answer', s', hentry', hfailed⟩ := hfollows 2 _ rfl
  exact ⟨hb, answer, s, answer', s', hentry, hentry', hline.answer_eq, hline.image_eq,
    hfailed.image_eq⟩

end Session

end Mips32
