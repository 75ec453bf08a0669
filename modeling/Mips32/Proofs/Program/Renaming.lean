import Mips32.Program.Words
import Mips32.Proofs.Isa.Fields
import Mips32.Proofs.Source.Written

/-!
# Names of labels

A label means nothing but the place where it stands. If all labels of a program of written lines are
renamed, where they are defined and where they are operands, and no two become one, then the renamed
program assembles exactly if the program does, to the same words and to the symbols under their new
names (`renamedOutcome_of_injective`). A label may look like an operation or a directive, or differ
from another one in letter case only.

A renaming keeps what stands on a line and where the blanks are, so both lines are read alike
(`Corresponds`), up to the names in the statement. That a name is found in the renamed table exactly
where the old name was found needs the renaming to be injective (`address?_renamed`), and nothing
else does.
-/

namespace Mips32

/-! ## Renamings -/

namespace Identifier

/-- The identifier that a text is. -/
def ofText? (t : Text) : Option Identifier :=
  if h : t.head?.any Line.isNameStart = true ∧ ∀ c ∈ t, Line.isNameChar c = true then
    some ⟨t, h.1, h.2⟩
  else none

/-- A renaming of identifiers at any text. What is no identifier stays as it is. -/
def rename (r : Identifier → Identifier) (t : Text) : Text :=
  match ofText? t with
  | some n => (r n).text
  | none => t

variable {r : Identifier → Identifier}

theorem ofText?_text (n : Identifier) : ofText? n.text = some n :=
  dif_pos ⟨n.start, n.char⟩

theorem text_of_ofText? {t : Text} {n : Identifier} (h : ofText? t = some n) : n.text = t := by
  unfold ofText? at h
  split at h
  case isTrue => rw [← Option.some.inj h]
  case isFalse => cases h

@[simp] theorem rename_text (n : Identifier) : rename r n.text = (r n).text := by
  rw [rename, ofText?_text]

/-- A text is an identifier and becomes one, or stays what it is. -/
theorem rename_cases (r : Identifier → Identifier) (t : Text) :
    (∃ n : Identifier, t = n.text ∧ rename r t = (r n).text) ∨
      ofText? t = none ∧ rename r t = t := by
  cases h : ofText? t with
  | none => exact .inr ⟨rfl, by rw [rename, h]⟩
  | some n =>
    obtain rfl := text_of_ofText? h
    exact .inl ⟨n, rfl, rename_text n⟩

@[simp] theorem rename_nil : rename r [] = [] :=
  rfl

theorem rename_injective (hr : Function.Injective r) : Function.Injective (rename r) := by
  intro s t h
  rcases rename_cases r s with ⟨m, rfl, hm⟩ | ⟨hs, hsame⟩ <;>
    rcases rename_cases r t with ⟨n, rfl, hn⟩ | ⟨ht, htsame⟩
  · rw [hm, hn] at h
    rw [hr (Identifier.ext h)]
  · -- An identifier does not become something that is none.
    rw [hm, htsame] at h
    rw [← h, ofText?_text] at ht
    cases ht
  · rw [hsame, hn] at h
    rw [h, ofText?_text] at hs
    cases hs
  · rwa [hsame, htsame] at h

theorem isRun_rename {t : Text} (h : Statement.IsRun t) : Statement.IsRun (rename r t) := by
  rcases rename_cases r t with ⟨n, -, hn⟩ | ⟨-, hsame⟩
  · rw [hn]
    exact ⟨(r n).plain.ne_nil, (r n).plain.not_separator⟩
  · rwa [hsame]

/-- A renamed text ends in a colon only if the text does. -/
theorem getLast?_of_rename {t : Text} (h : (rename r t).getLast? = some (.char ':')) :
    t.getLast? = some (.char ':') := by
  rcases rename_cases r t with ⟨n, -, hn⟩ | ⟨-, hsame⟩
  · rw [hn] at h
    exact absurd (List.mem_of_getLast? h) (r n).plain.colon_not_mem
  · rwa [hsame] at h

end Identifier

/-- Whether an operand is a label. -/
def Slot.isLabel : Slot → Bool
  | .branchLabel | .jumpLabel => true
  | _ => false

/-- Changes those of the operands that are labels. -/
def Slot.mapLabels {α : Type} (f : α → α) : List Slot → List α → List α
  | slot :: slots, x :: xs => (if slot.isLabel then f x else x) :: mapLabels f slots xs
  | _, xs => xs

/-- A part of an operand changes as the operand does. -/
theorem Slot.map_mapLabels {α β : Type} {f : α → α} {g : β → β} {part : α → β}
    (h : ∀ x, part (f x) = g (part x)) (slots : List Slot) (xs : List α) :
    (mapLabels f slots xs).map part = mapLabels g slots (xs.map part) := by
  induction slots generalizing xs with
  | nil => cases xs <;> rfl
  | cons slot slots ih =>
    cases xs with
    | nil => rfl
    | cons x xs =>
      rw [mapLabels, List.map_cons, List.map_cons, mapLabels, ih]
      split <;> simp [h]

theorem Slot.mapLabels_id {α : Type} (slots : List Slot) (xs : List α) :
    mapLabels id slots xs = xs := by
  induction slots generalizing xs with
  | nil => cases xs <;> rfl
  | cons slot slots ih =>
    cases xs with
    | nil => rfl
    | cons x xs => rw [mapLabels, ih, id, ite_self]

/-! ## Renamed lines -/

namespace SpacedToken

def renamed (r : Identifier → Identifier) (t : SpacedToken) : SpacedToken :=
  { t with token := Identifier.rename r t.token, isRun := Identifier.isRun_rename t.isRun }

theorem getLast?_of_renamed {r : Identifier → Identifier} {token token' : Text}
    (htoken : token'.getLast? = some (.char ':') → token.getLast? = some (.char ':'))
    {slots : List Slot}
    {ts : List SpacedToken}
    (h : (last token' (Slot.mapLabels (renamed r) slots ts)).getLast? = some (.char ':')) :
    (last token ts).getLast? = some (.char ':') := by
  induction ts generalizing slots token token' with
  | nil =>
    cases slots <;> exact htoken h
  | cons t ts ih =>
    cases slots with
    | nil => exact h
    | cons slot slots =>
      refine ih ?_ h
      split
      · exact Identifier.getLast?_of_rename
      · exact id

end SpacedToken

/-- A statement with its labels renamed. -/
def Statement.renamed (f : Text → Text) (s : Statement) : Statement :=
  { s with operands := Slot.mapLabels f s.mnemonic.slots s.operands }

namespace StatementLine

variable (r : Identifier → Identifier) (l : StatementLine)

def renamed : StatementLine :=
  { l with
    name? := l.name?.map r
    operands := Slot.mapLabels (SpacedToken.renamed r) l.mnemonic.slots l.operands
    colon := fun hblank h => l.colon hblank (SpacedToken.getLast?_of_renamed id h) }

theorem statement_renamed :
    (l.renamed r).statement = l.statement.renamed (Identifier.rename r) := by
  have htoken : ∀ t : SpacedToken, (t.renamed r).token = Identifier.rename r t.token := fun _ => rfl
  show Statement.mk _ _ = Statement.mk _ _
  rw [renamed, Slot.map_mapLabels htoken]
  rfl

/-- A renaming moves no line feed, so it leaves the same labels to be seen. -/
theorem label?_renamed : (l.renamed r).label? = l.label?.map r := by
  have hgaps : (l.renamed r).operands.map (·.gap) = l.operands.map (·.gap) := by
    have hgap : ∀ t : SpacedToken, (t.renamed r).gap = id t.gap := fun _ => rfl
    rw [renamed, Slot.map_mapLabels hgap, Slot.mapLabels_id]
  have hline : .char '\n' ∈ Text.trim (l.renamed r).rest ↔ .char '\n' ∈ Text.trim l.rest := by
    rw [trim_rest, trim_rest, List.mem_append, List.mem_append, List.mem_append, List.mem_append,
      SpacedToken.newline_mem_row_iff (l.renamed r).isRun, hgaps,
      SpacedToken.newline_mem_row_iff l.isRun]
    rfl
  simp only [label?, hline]
  split <;> rfl

end StatementLine

/-- A line with its label and the labels of its statement renamed. -/
def WrittenLine.renamed (r : Identifier → Identifier) : WrittenLine → WrittenLine
  | label l => label { l with name := r l.name }
  | statement l => statement (l.renamed r)

/-! ## Renamed statements -/

/-- A table with its labels renamed. -/
def SymbolTable.renamed (f : Text → Text) (table : SymbolTable) : SymbolTable :=
  table.map fun x => (f x.1, x.2)

section Injective

variable {f : Text → Text} (hf : Function.Injective f) (table : SymbolTable) (pc : Int)

include hf in
/-- A label is found under its new name exactly where it was found under the old one. -/
theorem SymbolTable.address?_renamed (name : Text) :
    (table.renamed f).address? (f name) = table.address? name := by
  induction table with
  | nil => rfl
  | cons x table ih =>
    rw [address?, address?, renamed, List.map_cons, List.lookup_cons, List.lookup_cons]
    by_cases hname : name = x.1
    · simp [hname]
    · have hrenamed : f name ≠ f x.1 := fun h => hname (hf h)
      rw [beq_false_of_ne hname, beq_false_of_ne hrenamed]
      exact ih

namespace SymbolicInstruction

/-- An instruction with its label renamed. -/
def renamed (f : Text → Text) : SymbolicInstruction → SymbolicInstruction
  | .branchPair test rs rt label => .branchPair test rs rt (f label)
  | .branchSign test rs label => .branchSign test rs (f label)
  | .jump label => .jump (f label)
  | i => i

include hf in
theorem resolve_renamed (label : Text) :
    (resolve (table.renamed f) (f label)).mapError Fault.kind =
      (resolve table label).mapError Fault.kind := by
  rw [resolve, resolve, SymbolTable.address?_renamed hf]
  split <;> rfl

include hf in
theorem branchField_renamed (label : Text) :
    (branchField (table.renamed f) pc (f label)).mapError Fault.kind =
      (branchField table pc label).mapError Fault.kind := by
  refine mapError_bind_congr (resolve_renamed hf table label) fun target => ?_
  simp only
  split <;> rfl

include hf in
/-- A renamed instruction links to the same instruction, or fails with a fault of the same class. -/
theorem link_renamed (i : SymbolicInstruction) :
    ((i.renamed f).link (table.renamed f) pc).mapError Fault.kind =
      (i.link table pc).mapError Fault.kind := by
  have hmap : ∀ {α : Type} {x y : Except Fault α} (g : α → MachineInstruction),
      x.mapError Fault.kind = y.mapError Fault.kind →
        (x.map g).mapError Fault.kind = (y.map g).mapError Fault.kind := by
    intro α x y g h
    exact mapError_bind_congr (g := fun a => pure (g a)) h fun _ => rfl
  cases i with
  | branchPair test rs rt label => exact hmap _ (branchField_renamed hf table pc label)
  | branchSign test rs label => exact hmap _ (branchField_renamed hf table pc label)
  | jump label => exact hmap _ (resolve_renamed hf table label)
  | _ => rfl

end SymbolicInstruction

end Injective

namespace Statement

/-- A statement that has no label is no other one when its labels are renamed. -/
theorem renamed_of_not_isLabel {s : Statement} (h : ∀ slot ∈ s.mnemonic.slots, slot.isLabel = false)
    (f : Text → Text) : s.renamed f = s := by
  have hoperands : ∀ (slots : List Slot) (tokens : List Text),
      (∀ slot ∈ slots, slot.isLabel = false) → Slot.mapLabels f slots tokens = tokens := by
    intro slots tokens hslots
    induction slots generalizing tokens with
    | nil => cases tokens <;> rfl
    | cons slot slots ih =>
      obtain ⟨hslot, hslots⟩ := List.forall_mem_cons.1 hslots
      cases tokens with
      | nil => rfl
      | cons token tokens => simp [Slot.mapLabels, hslot, ih tokens hslots]
  rw [renamed, hoperands _ _ h]

/-- A renamed statement reads as the renamed instruction, and fails as the statement does. -/
theorem instruction_renamed (f : Text → Text) (s : Statement) :
    (s.renamed f).instruction = s.instruction.map (·.renamed f) := by
  -- Without a label among the operands there is none in the instruction.
  have hplain : (∀ slot ∈ s.mnemonic.slots, slot.isLabel = false) →
      (∀ i, s.Reads i → i.renamed f = i) →
        (s.renamed f).instruction = s.instruction.map (·.renamed f) := by
    intro hslots hsame
    rw [renamed_of_not_isLabel hslots]
    cases h : s.instruction with
    | error e => rfl
    | ok i => rw [Except.map, hsame i (reads_of_instruction h)]
  obtain ⟨m, operands⟩ := s
  cases m with
  | branchPair test =>
    match operands with
    | [s, t, label] =>
      show (Operand.register s >>= _) = Except.map _ (Operand.register s >>= _)
      simp only [bind_map_eq]
      rfl
    | [] | [_] | [_, _] | _ :: _ :: _ :: _ :: _ => rfl
  | branchSign test =>
    match operands with
    | [s, label] =>
      show (Operand.register s >>= _) = Except.map _ (Operand.register s >>= _)
      rw [bind_map_eq]
      rfl
    | [] | [_] | _ :: _ :: _ :: _ => rfl
  | jump =>
    match operands with
    | [label] => rfl
    | [] | _ :: _ :: _ => rfl
  | _ op =>
    refine hplain (by simp [Mnemonic.slots, Slot.isLabel]) fun i hi => ?_
    cases hi
    rfl

end Statement

section Injective

variable {f : Text → Text} (hf : Function.Injective f) (table : SymbolTable) (pc : Int)

include hf in
/-- A line with the renamed statement is encoded as the line with the statement, or both fail with
a fault of the same class. -/
theorem encodeLine_of_renamed {line line' : Text} {s : Statement}
    (hline : Statement.parse line = .ok s) (hline' : Statement.parse line' = .ok (s.renamed f)) :
    (encodeLine (table.renamed f) pc line').mapError (Failure.map Fault.kind) =
      (encodeLine table pc line).mapError (Failure.map Fault.kind) := by
  rw [encodeLine, encodeLine, hline, hline']
  show ((s.renamed f).instruction >>= _).mapError _ = (s.instruction >>= _).mapError _
  rw [Statement.instruction_renamed]
  cases s.instruction with
  | error e => rfl
  | ok i =>
    have hlink : (((i.renamed f).link (table.renamed f) pc).mapError Failure.fault).mapError
        (Failure.map Fault.kind) =
          ((i.link table pc).mapError Failure.fault).mapError (Failure.map Fault.kind) := by
      rw [mapError_fault_map, mapError_fault_map, SymbolicInstruction.link_renamed hf]
    exact mapError_bind_congr (g := fun m => pure m.encode) hlink fun _ => rfl

end Injective

/-! ## Lines that correspond -/

/-- A line and what becomes of it under a renaming: it bears the new name of its label, occupies a
word if the line does, and is encoded with the renamed table as the line with its own. -/
structure SourceLine.Corresponds (f : Text → Text) (l l' : SourceLine) : Prop where
  number : l'.number = l.number
  label : l'.kind.label? = l.kind.label?.map f
  isInstruction : l'.kind.isInstruction = l.kind.isInstruction
  word : l.kind.isInstruction = true → ∀ table pc,
    (encodeLine (table.renamed f) pc l'.text).mapError (Failure.map Fault.kind) =
      (encodeLine table pc l.text).mapError (Failure.map Fault.kind)

section Injective

variable {r : Identifier → Identifier} (hr : Function.Injective r)

include hr in
theorem StatementLine.encodeLine_renamed (l : StatementLine) (table : SymbolTable) (pc : Int) :
    (encodeLine (table.renamed (Identifier.rename r)) pc (l.renamed r).text).mapError
        (Failure.map Fault.kind) =
      (encodeLine table pc l.text).mapError (Failure.map Fault.kind) := by
  have hlabel := l.label?_renamed r
  by_cases hseen : l.label? = l.name?
  · have hseen' : (l.renamed r).label? = (l.renamed r).name? := by
      rw [hlabel, hseen]
      rfl
    refine encodeLine_of_renamed (Identifier.rename_injective hr) table pc (l.parse_text hseen) ?_
    rw [parse_text _ hseen', statement_renamed]
  · have hseen' : (l.renamed r).label? ≠ (l.renamed r).name? := by
      rw [hlabel]
      exact fun h => hseen (Option.map_injective hr h)
    obtain ⟨token, htoken⟩ := parse_text_of_ne _ hseen
    obtain ⟨token', htoken'⟩ := parse_text_of_ne _ hseen'
    rw [encodeLine, encodeLine, htoken, htoken']
    rfl

include hr in
/-- A written line and its renaming correspond under any number. -/
theorem WrittenLine.corresponds_renamed (n : Int) (l : WrittenLine) :
    SourceLine.Corresponds (Identifier.rename r) ⟨n, l.text⟩ ⟨n, (l.renamed r).text⟩ := by
  cases l with
  | label l =>
    have hkind : SourceLine.kind ⟨n, (label l).text⟩ = .label l.name.text := l.classify_text
    have hkind' : SourceLine.kind ⟨n, ((label l).renamed r).text⟩ = .label (r l.name).text :=
      LabelLine.classify_text { l with name := r l.name }
    refine ⟨rfl, ?_, by rw [hkind, hkind']; rfl, fun h => by rw [hkind] at h; cases h⟩
    rw [hkind, hkind', Line.label?, Line.label?, Option.map_some, Identifier.rename_text]
  | statement l =>
    obtain ⟨body, hbody⟩ := l.classify_text
    obtain ⟨body', hbody'⟩ := (l.renamed r).classify_text
    have hkind : SourceLine.kind ⟨n, (statement l).text⟩ =
      .instruction (l.label?.map (·.text)) body := hbody
    have hkind' : SourceLine.kind ⟨n, ((statement l).renamed r).text⟩ =
      .instruction ((l.renamed r).label?.map (·.text)) body' := hbody'
    refine ⟨rfl, ?_, by rw [hkind, hkind']; rfl, fun _ => l.encodeLine_renamed hr⟩
    rw [hkind, hkind', Line.label?, Line.label?, l.label?_renamed r, Option.map_map, Option.map_map]
    congr 1
    funext name
    exact (Identifier.rename_text name).symm

end Injective

/-! ## Renamed programs -/

/-- What is kept of a fault under a renaming: its class and the number of its line. -/
def Diagnostic.place (d : Diagnostic) : Fault.Kind × Int :=
  (d.fault.kind, d.line)

namespace Program

/-- An outcome of assembling and that of the renamed program: the image with the symbols under their
new names, or a fault of the same class at the same line. -/
inductive RenamedOutcome (f : Text → Text) :
    Except (Failure Diagnostic) Image → Except (Failure Diagnostic) Image → Prop
  | image (symbols : SymbolTable) (words : List Word) :
      RenamedOutcome f (.ok ⟨symbols, words⟩) (.ok ⟨symbols.renamed f, words⟩)
  | fault {d d' : Diagnostic} (hkind : d'.fault.kind = d.fault.kind) (hline : d'.line = d.line) :
      RenamedOutcome f (.error (.fault d)) (.error (.fault d'))
  | tooManyDigits (count : Nat) :
      RenamedOutcome f (.error (.tooManyDigits count)) (.error (.tooManyDigits count))

/-- An image with its symbols renamed. -/
def Image.renamed (f : Text → Text) (image : Image) : Image :=
  { image with symbols := image.symbols.renamed f }

theorem renamedOutcome_of_mapError_eq {f : Text → Text} {x x' : Except (Failure Diagnostic) Image}
    (h : x'.mapError (Failure.map Diagnostic.place) =
      (x.map (Image.renamed f)).mapError (Failure.map Diagnostic.place)) :
    RenamedOutcome f x x' := by
  obtain ⟨image, rfl, rfl⟩ | ⟨d, d', rfl, rfl, hplace⟩ | ⟨count, rfl, rfl⟩ :=
    cases_of_mapError_eq_map h
  · exact .image image.symbols image.words
  · obtain ⟨hkind, hline⟩ := Prod.mk.inj hplace
    exact .fault hkind hline
  · exact .tooManyDigits count

section Injective

variable {f : Text → Text} (hf : Function.Injective f) (hnil : f [] = []) {l l' : SourceLine}
  {p p' : Program}

include hf hnil in
/-- A label is new to the renamed table exactly if the label of the line is new to the table. -/
theorem define_renamed (h : l.Corresponds f l') (a : Int) (table : SymbolTable) :
    (l'.define a (table.renamed f)).mapError Diagnostic.place =
      ((l.define a table).map (·.renamed f)).mapError Diagnostic.place := by
  rw [SourceLine.define, SourceLine.define, h.label]
  cases l.kind.label? with
  | none => rfl
  | some name =>
    have hempty : f name = [] ↔ name = [] := by
      have h : f name = f [] ↔ name = [] := hf.eq_iff
      rwa [hnil] at h
    have hdefines : (table.renamed f).defines (f name) = table.defines name := by
      rw [SymbolTable.defines, SymbolTable.defines, SymbolTable.address?_renamed hf]
    simp only [Option.map_some, hempty, hdefines]
    split
    · simp [Except.mapError, Except.map, Diagnostic.place, SourceLine.diagnose, h.number]
    · split
      · simp [Except.mapError, Except.map, Diagnostic.place, SourceLine.diagnose, h.number,
          Fault.kind]
      · simp [Except.mapError, Except.map, SymbolTable.renamed]

theorem after_of_corresponds (h : l.Corresponds f l') (a : Int) : l'.after a = l.after a := by
  rw [SourceLine.after, SourceLine.after, h.isInstruction]

include hf hnil in
theorem symbolsFrom_renamed (h : List.Forall₂ (SourceLine.Corresponds f) p p') (a : Int)
    (table : SymbolTable) :
    (symbolsFrom a (table.renamed f) p').mapError Diagnostic.place =
      ((symbolsFrom a table p).map (·.renamed f)).mapError Diagnostic.place := by
  induction h generalizing a table with
  | nil => rfl
  | cons hl _ ih =>
    refine mapError_bind_map (define_renamed hf hnil hl a table) fun table => ?_
    rw [after_of_corresponds hl]
    exact ih _ table

/-- What is kept of a failure at a line are the class of its fault and the number of the line. -/
theorem mapError_locate {α : Type} (x : Except (Failure Fault) α) (n : Int) (text : Text) :
    (x.mapError (Failure.locate n text)).mapError (Failure.map Diagnostic.place) =
      (x.mapError (Failure.map Fault.kind)).mapError (Failure.map (·, n)) := by
  cases x with
  | ok a => rfl
  | error e => cases e <;> rfl

theorem wordsFrom_renamed (h : List.Forall₂ (SourceLine.Corresponds f) p p') (table : SymbolTable)
    (pc : Int) :
    (wordsFrom (table.renamed f) pc p').mapError (Failure.map Diagnostic.place) =
      (wordsFrom table pc p).mapError (Failure.map Diagnostic.place) := by
  induction h generalizing pc with
  | nil => rfl
  | @cons l l' p p' hl _ ih =>
    rw [wordsFrom, wordsFrom, hl.isInstruction, after_of_corresponds hl]
    split
    case isTrue hinstruction =>
      have hword : (Except.mapError (Failure.locate l'.number l'.text)
          (encodeLine (table.renamed f) pc l'.text)).mapError (Failure.map Diagnostic.place) =
            (Except.mapError (Failure.locate l.number l.text)
              (encodeLine table pc l.text)).mapError (Failure.map Diagnostic.place) := by
        rw [mapError_locate, mapError_locate, hl.word hinstruction, hl.number]
      exact mapError_bind_congr hword fun w => mapError_bind_congr (ih _) fun _ => rfl
    case isFalse => exact ih _

include hf hnil in
/-- The image of lines that correspond to those of a program is the renamed image, or the lines fail
as the program does. -/
theorem assemble_renamed (h : List.Forall₂ (SourceLine.Corresponds f) p p') (base : Int) :
    (p'.assemble base).mapError (Failure.map Diagnostic.place) =
      ((p.assemble base).map (Image.renamed f)).mapError (Failure.map Diagnostic.place) := by
  have hmap : ∀ x : Except Diagnostic SymbolTable,
      ((x.mapError Failure.fault).map (·.renamed f)).mapError (Failure.map Diagnostic.place) =
        ((x.map (·.renamed f)).mapError Diagnostic.place).mapError Failure.fault := by
    intro x
    cases x <;> rfl
  have hsymbols :
      ((p'.symbols base).mapError Failure.fault).mapError (Failure.map Diagnostic.place) =
      (((p.symbols base).mapError Failure.fault).map (·.renamed f)).mapError
        (Failure.map Diagnostic.place) := by
    rw [mapError_fault_map, hmap]
    exact congrArg (Except.mapError Failure.fault) (symbolsFrom_renamed hf hnil h base [])
  refine mapError_bind_map hsymbols fun table => ?_
  have hwords : (p'.words (table.renamed f) base).mapError (Failure.map Diagnostic.place) =
      ((p.words table base).map id).mapError (Failure.map Diagnostic.place) := by
    rw [Except.map_id]
    exact wordsFrom_renamed h table base
  exact mapError_bind_map hwords fun _ => rfl

end Injective

/-- Lines that correspond one by one correspond under whatever numbers they are given. -/
theorem forall₂_ofLines {α : Type} {f : Text → Text} {text text' : α → Text}
    (h : ∀ n x, SourceLine.Corresponds f ⟨n, text x⟩ ⟨n, text' x⟩) (xs : List α)
    (numbers : Option (List Int)) :
    List.Forall₂ (SourceLine.Corresponds f) (ofLines (xs.map text) numbers)
      (ofLines (xs.map text') numbers) := by
  cases numbers with
  | none =>
    have hcounted : ∀ n, List.Forall₂ (SourceLine.Corresponds f)
        (((xs.map text).zipIdx n).map fun x => ⟨x.2, x.1⟩)
        (((xs.map text').zipIdx n).map fun x => ⟨x.2, x.1⟩) := by
      induction xs with
      | nil => exact fun _ => .nil
      | cons x xs ih => exact fun n => .cons (h n x) (ih (n + 1))
    exact hcounted 1
  | some numbers =>
    induction xs generalizing numbers with
    | nil => cases numbers <;> exact .nil
    | cons x xs ih =>
      cases numbers with
      | nil => exact .nil
      | cons n numbers => exact .cons (h n x) (ih numbers)

/-- The labels of a program can be renamed injectively: where they are defined and where they are
operands. The renamed program assembles exactly if the program does, to the same words and the
renamed symbols; otherwise both fail with a fault of the same class at the same line. -/
theorem renamedOutcome_of_injective {r : Identifier → Identifier} (hr : Function.Injective r)
    (base : Int) (lines : List WrittenLine) (numbers : Option (List Int)) :
    RenamedOutcome (Identifier.rename r)
      ((ofLines (lines.map (·.text)) numbers).assemble base)
      ((ofLines (lines.map fun l => (l.renamed r).text) numbers).assemble base) := by
  have hlines := forall₂_ofLines (fun n l => WrittenLine.corresponds_renamed hr n l) lines numbers
  exact renamedOutcome_of_mapError_eq <|
    assemble_renamed (Identifier.rename_injective hr) Identifier.rename_nil hlines base

/-- A renaming that puts an underscore in front. -/
def underscored (n : Identifier) : Identifier :=
  ⟨'_' :: n.text, rfl, List.forall_mem_cons.2 ⟨by decide, n.char⟩⟩

theorem underscored_injective : Function.Injective underscored := fun _ _ h =>
  Identifier.ext (List.cons.inj (congrArg Identifier.text h)).2

/-- The name of an operation as a label. -/
def lowerLabel : Identifier :=
  ⟨"add".text, rfl, by decide⟩

/-- The same name with a capital letter. -/
def upperLabel : Identifier :=
  ⟨"Add".text, rfl, by decide⟩

/-- Three lines with two labels that differ in letter case only: `add: BLEZ $1, Add`, `Add :`, and
`j add`. -/
def caseLines : List WrittenLine :=
  [.statement
    { before := ⟨[], by decide⟩
      name? := some lowerLabel
      gap := ⟨[' '], by decide⟩
      mnemonic := .branchSign .nonpositive
      token := "BLEZ".text
      operands := [⟨⟨[' '], by decide⟩, "$1".text, by decide, by decide, by decide⟩,
        ⟨⟨[',', ' '], by decide⟩, "Add".text, by decide, by decide, by decide⟩]
      behind := ⟨[], by decide⟩
      isRun := ⟨by decide, by decide⟩
      lower_token := by rfl
      colon := fun _ => by decide },
    .label ⟨⟨[], by decide⟩, upperLabel, ⟨[' '], by decide⟩, ⟨[], by decide⟩⟩,
    .statement
    { before := ⟨[], by decide⟩
      name? := none
      gap := ⟨[], by decide⟩
      mnemonic := .jump
      token := "j".text
      operands := [⟨⟨[' '], by decide⟩, "add".text, by decide, by decide, by decide⟩]
      behind := ⟨[], by decide⟩
      isRun := ⟨by decide, by decide⟩
      lower_token := by rfl
      colon := fun _ => by decide }]

set_option maxRecDepth 4000 in
theorem renamedOutcome_caseLines : Function.Injective underscored ∧
    (ofLines (caseLines.map (·.text)) none).assemble 0 =
      .ok ⟨[("add".text, 0), ("Add".text, 4)], [0x18200000, 0x08000000]⟩ ∧
    (ofLines (caseLines.map fun l => (l.renamed underscored).text) none).assemble 0 =
      .ok ⟨[("_add".text, 0), ("_Add".text, 4)], [0x18200000, 0x08000000]⟩ := by
  have hlines : (ofLines (caseLines.map (·.text)) none).assemble 0 =
      .ok ⟨[("add".text, 0), ("Add".text, 4)], [0x18200000, 0x08000000]⟩ := by rfl
  have houtcome := renamedOutcome_of_injective underscored_injective 0 caseLines none
  rw [hlines] at houtcome
  refine ⟨underscored_injective, hlines, ?_⟩
  generalize (ofLines (caseLines.map fun l => (l.renamed underscored).text) none).assemble 0 = x
    at houtcome
  cases houtcome
  rfl

end Program

end Mips32
