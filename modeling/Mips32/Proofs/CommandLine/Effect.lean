import Mips32.CommandLine.Run
import Mips32.Proofs.CommandLine.Console
import Mips32.Proofs.FileSystem
import Mips32.Proofs.Program.Agreement

/-!
# What a run changes

A run has many ways to end: wrong arguments, a refusal by the operating system at the input or at
the output, a fault of the program, and the crashes that nothing answers for. All of them but one
come before anything has been written; the one is a notice about the listing that the output
refuses. So a run is all or nothing. `AllOrNothing` says this of one outcome: the files and the
ending are as they should be behind the listing, or the files are those from before, and there was
no way to do better. Each stage of a run has the property, as what comes after it does
(`allOrNothing_writeListing`, `allOrNothing_assemble`, `allOrNothing_run`).

`leaves_script` is the result for all arguments, all file systems and all consoles. Behind a listing
a program was assembled, one file has changed, and what is in it now is a header with a row for each
word.
-/

namespace Mips32

/-! ## The file that changes -/

/-- A text of whole lines: the header, and for each word its row. -/
def Listing.IsOf (text : Text) (base : Int) (words : List Word) : Prop :=
  ∃ rows : List Text, (∀ k : Nat, rows[k]? = words[k]?.map fun w => row base k w.toNat) ∧
    text = (header :: rows).flatMap (· ++ [.char '\n'])

theorem Listing.isOf_ofWords (base : Int) (words : List Word) :
    IsOf (ofWords words base) base words := by
  refine ⟨rowsFrom base 0 (words.map fun w => (w.toNat : Int)), fun k => ?_, rfl⟩
  rw [getElem?_rowsFrom, Nat.zero_add, List.getElem?_map, Option.map_map]
  rfl

namespace FileSystem

/-- Two file systems that differ in nothing but the file that a path names for writing. -/
def ChangedAt (fs after : FileSystem) (path : Path) : Prop :=
  after.working = fs.working ∧ ∃ place, fs.target path = .ok place ∧
    ∀ other ≠ place, after.node? other = fs.node? other

theorem changedAt_of_write {fs after : FileSystem} {path : Path} {octets : List UInt8}
    (h : fs.write path octets = .ok after) : ChangedAt fs after path := by
  obtain ⟨place, htarget, -⟩ := bind_eq_ok.1 h
  exact ⟨working_write h, place, htarget, fun other hne => node?_write_of_ne h htarget hne⟩

end FileSystem

namespace CommandLine

/-! ## All or nothing -/

/-- The endings behind the listing: that of a run that succeeds, and the crash at the notice about
the listing. -/
def Ending.IsLate (e : Ending) : Prop :=
  e = .exit 0 ∨ ∃ words, e = .crash (.unprintable .summary words)

/-- An outcome of a run on the file system `fs` that should have files and an ending with the
property `P`. -/
inductive AllOrNothing (fs : FileSystem) (P : FileSystem → Ending → Prop) (r : Outcome) : Prop
  | done (h : P r.files r.ending)
  | failed (hending : ¬r.ending.IsLate) (hfiles : r.files = fs) (hno : ∀ after e, ¬P after e)

namespace AllOrNothing

variable {console : Console} {fs now : FileSystem} {P Q : FileSystem → Ending → Prop} {r : Outcome}
  {s : Script}

theorem congr (h : AllOrNothing fs P r) (hPQ : ∀ after e, P after e ↔ Q after e) :
    AllOrNothing fs Q r := by
  cases h with
  | done h => exact .done ((hPQ _ _).1 h)
  | failed hending hfiles hno =>
    exact .failed hending hfiles fun after e h => hno after e ((hPQ after e).2 h)

/-- What is told on the way changes no file and no ending. -/
theorem of_files_eq (h : AllOrNothing fs P r) {r' : Outcome} (hfiles : r'.files = r.files)
    (hending : r'.ending = r.ending) : AllOrNothing fs P r' := by
  cases h with
  | done h => exact .done (hfiles ▸ hending ▸ h)
  | failed hlate hsame hno => exact .failed (hending ▸ hlate) (hfiles.trans hsame) hno

theorem report (h : AllOrNothing fs P (s.play console now)) (text : Text) :
    AllOrNothing fs P ((Script.report text s).play console now) :=
  h.of_files_eq rfl rfl

theorem crash (hno : ∀ after e, ¬P after e) {c : Crash}
    (hc : ∀ words, c ≠ .unprintable .summary words) :
    AllOrNothing fs P ⟨.crash c, [], [], fs⟩ := by
  refine .failed ?_ rfl hno
  rintro (h | ⟨words, h⟩)
  · cases h
  · exact hc words (Ending.crash.inj h)

theorem exit (hno : ∀ after e, ¬P after e) (status : Nat) :
    AllOrNothing fs P ((CommandLine.exit (status + 1)).play console fs) := by
  refine .failed ?_ rfl hno
  rintro (h | ⟨words, h⟩) <;> cases h

/-- Notices in front of the listing have to be shown for what comes after them. -/
theorem sayAll (h : AllOrNothing fs P (s.play console fs)) (notice : Notice)
    (hnotice : notice ≠ .summary) (lines : List Text) :
    AllOrNothing fs (fun after e => (∀ line ∈ lines, console.Shows line) ∧ P after e)
      ((CommandLine.sayAll notice lines s).play console fs) := by
  induction lines with
  | nil => exact h.congr fun after e => (and_iff_right nofun).symm
  | cons line lines ih =>
    rw [CommandLine.sayAll]
    cases hprint : console.refusal? line with
    | none =>
      refine .of_files_eq (ih.congr fun after e => ?_) (by rw [play_say_of_shows hprint])
        (by rw [play_say_of_shows hprint])
      rw [List.forall_mem_cons, and_iff_right (show console.Shows line from hprint)]
    | some words =>
      rw [play_say_of_refused hprint]
      refine crash (fun after e hP => ?_) fun _ hc => hnotice (Crash.unprintable.inj hc).1
      cases hprint.symm.trans (List.forall_mem_cons.1 hP.1).1

/-- A text has to spell a path for what comes after it. -/
theorem withPath {Q : Path → FileSystem → Ending → Prop} {next : Path → Script} {text : Text}
    (h : ∀ path, Path.ofText text = .ok path →
      AllOrNothing fs (Q path) ((next path).play console fs)) :
    AllOrNothing fs (fun after e => ∃ path, Path.ofText text = .ok path ∧ Q path after e)
      ((withPath text next).play console fs) := by
  unfold CommandLine.withPath
  cases hpath : Path.ofText text with
  | error e =>
    refine crash ?_ nofun
    rintro after ending ⟨path, hok, -⟩
    cases hok
  | ok path =>
    refine (h path hpath).congr fun after e => ⟨fun hQ => ⟨path, rfl, hQ⟩, ?_⟩
    rintro ⟨path', hok, hQ⟩
    obtain rfl := Except.ok.inj hok
    exact hQ

/-- A stage that has a result goes on with it. -/
theorem of_ok {ε α : Type} {x : Except ε α} {a : α} (hx : x = .ok a)
    {Q : α → FileSystem → Ending → Prop} (h : AllOrNothing fs (Q a) r) :
    AllOrNothing fs (fun after e => ∃ b, x = .ok b ∧ Q b after e) r := by
  subst hx
  refine h.congr fun after e => ⟨fun hQ => ⟨a, rfl, hQ⟩, ?_⟩
  rintro ⟨b, hb, hQ⟩
  obtain rfl := Except.ok.inj hb
  exact hQ

end AllOrNothing

/-- A stage without a result leaves nothing to go on with. -/
theorem not_exists_of_error {ε α : Type} {x : Except ε α} {e : ε} (hx : x = .error e)
    (Q : α → FileSystem → Ending → Prop) (after : FileSystem) (ending : Ending) :
    ¬∃ a, x = .ok a ∧ Q a after ending := by
  rintro ⟨a, ha, -⟩
  cases hx.symm.trans ha

/-! ## The stages of a run -/

variable (console : Console) (fs : FileSystem) (o : Options)

/-- How a run ends behind the listing of so many words. -/
def Options.Closes (count : Nat) (e : Ending) : Prop :=
  if o.verbose then
    match console.refusal? (summary count o.target) with
    | none => e = .exit 0
    | some words => e = .crash (.unprintable .summary words)
  else e = .exit 0

/-- The files and the ending after the listing of an image was written. -/
def Writes (base : Int) (image : Program.Image) (after : FileSystem) (e : Ending) : Prop :=
  ∃ path, Path.ofText o.target = .ok path ∧
    fs.write path (Text.Utf8.encode (Listing.ofWords image.words base)) = .ok after ∧
    o.Closes console image.words.length e

/-- The files and the ending after a program was assembled at a base address. -/
def Assembles (base : Int) (p : Program) (after : FileSystem) (e : Ending) : Prop :=
  ∃ image, p.assemble base = .ok image ∧
    (o.dumpLabels = true → ∀ line ∈ labelLines image.symbols, console.Shows line) ∧
    Writes console fs o base image after e

/-- The files and the ending after a program that was read has been assembled. -/
def AssemblesRead (p : Program) (after : FileSystem) (e : Ending) : Prop :=
  ∃ base, o.base = some base ∧ Assembles console fs o base p after e

/-- The files and the ending after the program in some octets was assembled. -/
def AssemblesOctets (octets : List UInt8) (after : FileSystem) (e : Ending) : Prop :=
  ∃ source, sourceText octets = .ok source ∧ AssemblesRead console fs o (.ofText source) after e

/-- The files and the ending after a run that assembled its input. -/
def Runs (after : FileSystem) (e : Ending) : Prop :=
  ∃ path, Path.ofText o.input = .ok path ∧ ∃ octets, fs.read path = .ok octets ∧
    AssemblesOctets console fs o octets after e

variable {console o} in
theorem Options.Closes.isLate {count : Nat} {e : Ending} (h : o.Closes console count e) :
    e.IsLate := by
  unfold Closes at h
  split at h
  case isTrue =>
    split at h
    · exact .inl h
    · exact .inr ⟨_, h⟩
  case isFalse => exact .inl h

theorem closes_summary (count : Nat) (after : FileSystem) :
    o.Closes console count
      ((if o.verbose then say .summary (summary count o.target) <| exit 0 else exit 0).play
        console after).ending ∧
    ((if o.verbose then say .summary (summary count o.target) <| exit 0 else exit 0).play
        console after).files = after := by
  unfold Options.Closes
  cases o.verbose with
  | false => exact ⟨rfl, rfl⟩
  | true =>
    simp only [if_true]
    cases hprint : console.refusal? (summary count o.target) with
    | none =>
      rw [play_say_of_shows hprint]
      exact ⟨rfl, rfl⟩
    | some words =>
      rw [play_say_of_refused hprint]
      exact ⟨rfl, rfl⟩

theorem allOrNothing_writeListing (base : Int) (image : Program.Image) :
    AllOrNothing fs (Writes console fs o base image)
      ((writeListing o base image).play console fs) := by
  refine .withPath fun path _ => ?_
  unfold Script.play
  cases fs.write path (Text.Utf8.encode (Listing.ofWords image.words base)) with
  | error e =>
    refine .report (.exit ?_ 0) _
    rintro after e ⟨h, -⟩
    cases h
  | ok after =>
    obtain ⟨hending, hfiles⟩ := closes_summary console o image.words.length after
    refine .report (.done ?_) _
    rw [hfiles]
    exact ⟨rfl, hending⟩

theorem allOrNothing_assemble (base : Int) (p : Program) :
    AllOrNothing fs (Assembles console fs o base p) ((assemble o base p).play console fs) := by
  refine .report ?_ _
  cases himage : p.assemble base with
  | error e =>
    have hno : ∀ after e, ¬Assembles console fs o base p after e := not_exists_of_error himage _
    cases e with
    | fault d => exact .report (.exit hno 0) _
    | tooManyDigits count => exact .crash hno nofun
  | ok image =>
    refine .of_ok himage ?_
    have hlisting := allOrNothing_writeListing console fs o base image
    cases hdump : o.dumpLabels with
    | false => exact hlisting.congr fun after e => (and_iff_right nofun).symm
    | true =>
      refine (hlisting.sayAll .label nofun (labelLines image.symbols)).congr
        fun after e => ?_
      exact and_congr_left' ⟨fun h _ => h, fun h => h rfl⟩

theorem allOrNothing_assembleRead (p : Program) :
    AllOrNothing fs (AssemblesRead console fs o p) ((assembleRead o p).play console fs) := by
  refine .report ?_ _
  cases hbase : o.base with
  | none =>
    refine .crash ?_ nofun
    rintro after e ⟨base, h, -⟩
    cases hbase.symm.trans h
  | some base =>
    exact (allOrNothing_assemble console fs o base p).congr fun after e => by
      simp [AssemblesRead, hbase]

/-- A run with its options either assembles its input or changes nothing. -/
theorem allOrNothing_run : AllOrNothing fs (Runs console fs o) ((run o).play console fs) := by
  refine .withPath fun path _ => ?_
  unfold Script.play
  cases hread : fs.read path with
  | error e =>
    refine .report (.exit ?_ 0) _
    rintro after e ⟨octets, h, -⟩
    cases h
  | ok octets =>
    refine .of_ok rfl ?_
    simp only
    cases hsource : sourceText octets with
    | error e => exact .crash (not_exists_of_error hsource _) (by simp)
    | ok source => exact .of_ok hsource (allOrNothing_assembleRead console fs o (.ofText source))

/-! ## Whole runs -/

/-- What a run with a console on the file system `fs` leaves behind for some arguments. -/
inductive Leaves (console : Console) (fs : FileSystem) (arguments : List Text) (r : Outcome) : Prop
  /-- Help was asked for, and shown unless the output refuses it. -/
  | help (hparse : Options.parse arguments = .error .help)
      (hending : r.ending = .exit 0 ∨ ∃ words, r.ending = .crash (.unprintable .help words))
      (hfiles : r.files = fs)
  /-- The input was assembled. One file is changed, and it holds the listing now. A device takes the
  listing and keeps nothing. What may still fail is the notice about it. -/
  | listing {o : Options} {input target : Path} {octets : List UInt8} {source : Text} {base : Int}
      {image : Program.Image} (hparse : Options.parse arguments = .ok o)
      (hinput : Path.ofText o.input = .ok input) (hread : fs.read input = .ok octets)
      (hsource : sourceText octets = .ok source) (hbase : o.base = some base)
      (himage : (Program.ofText source).assemble base = .ok image)
      (hending : r.ending = .exit 0 ∨ o.verbose = true ∧ ∃ words,
        console.refusal? (summary image.words.length o.target) = some words ∧
          r.ending = .crash (.unprintable .summary words))
      (htarget : Path.ofText o.target = .ok target) (hchanged : fs.ChangedAt r.files target)
      (hlisting : ¬fs.LeadsToDevice target → ∃ text, Listing.IsOf text base image.words ∧
        r.files.read target = .ok (Text.Utf8.encode text))
  /-- The arguments are no good, or there is no way to assemble the input. -/
  | nothing (hending : ¬r.ending.IsLate) (hfiles : r.files = fs)
      (hhelp : Options.parse arguments ≠ .error .help)
      (hno : ∀ o, Options.parse arguments = .ok o → ∀ after e, ¬Runs console fs o after e)

variable {console o} in
theorem Options.Closes.ending_cases {count : Nat} {e : Ending} (h : o.Closes console count e) :
    e = .exit 0 ∨ o.verbose = true ∧ ∃ words,
      console.refusal? (summary count o.target) = some words ∧
        e = .crash (.unprintable .summary words) := by
  unfold Closes at h
  split at h
  case isTrue hverbose =>
    split at h
    case h_1 => exact .inl h
    case h_2 words hwords => exact .inr ⟨hverbose, words, hwords, h⟩
  case isFalse => exact .inl h

/-- A run changes nothing, or it changes one file, which holds the listing of the assembled program
then. The run succeeds then, unless the output refuses the notice about it. -/
theorem leaves_script (console : Console) (fs : FileSystem) (arguments : List Text) :
    Leaves console fs arguments ((script arguments).play console fs) := by
  unfold script
  cases hparse : Options.parse arguments with
  | error e =>
    have hno : ∀ o, Options.parse arguments = .ok o → ∀ after e, ¬Runs console fs o after e := by
      intro o ho
      cases hparse.symm.trans ho
    cases e with
    | help =>
      show Leaves console fs arguments ((say .help help <| exit 0).play console fs)
      cases hprint : console.refusal? help with
      | none =>
        rw [play_say_of_shows hprint]
        exact .help hparse (.inl rfl) rfl
      | some words =>
        rw [play_say_of_refused hprint]
        exact .help hparse (.inr ⟨words, rfl⟩) rfl
    | usage e =>
      refine .nothing ?_ rfl (by simp [hparse]) hno
      rintro (h | ⟨words, h⟩) <;> cases h
  | ok o =>
    cases allOrNothing_run console fs o with
    | done h =>
      obtain ⟨input, hinput, octets, hread, source, hsource, base, hbase, image, himage, -, target,
        htarget, hwrite, hcloses⟩ := h
      refine .listing hparse hinput hread hsource hbase himage hcloses.ending_cases htarget
        (FileSystem.changedAt_of_write hwrite) fun hdevice => ?_
      exact ⟨_, Listing.isOf_ofWords base image.words, FileSystem.read_write hwrite hdevice⟩
    | failed hending hfiles hno =>
      refine .nothing hending hfiles (by simp [hparse]) fun o' ho' => ?_
      obtain rfl := Except.ok.inj (hparse.symm.trans ho')
      exact hno

/-- A working directory with one source file, and a device that forgets what is written. -/
def effectFiles : FileSystem where
  working := [.ofString "w"]
  nodes := [([.ofString "w"], .directory),
    ([.ofString "w", .ofString "a.s"], .file (Text.Utf8.encode "add $1, $2, $3\n".text)),
    ([.ofString "dev"], .directory), ([.ofString "dev", .ofString "null"], .device true)]

/-- A file name that is no UTF-8. -/
def strangeName : Text :=
  .ofNat 0xDCFF :: ".obj".text

/-- A run that is to say where its listing is. -/
def strangeRun : Outcome :=
  (script ["-v".text, "a.s".text, "-o".text, strangeName]).play .utf8 effectFiles

/-- A run whose listing goes to the device. -/
def forgottenRun : Outcome :=
  (script (["a.s", "-o", "/dev/null"].map String.text)).play .utf8 effectFiles

set_option maxRecDepth 4000 in
/-- A run may change a file and then crash, and it may succeed and leave no listing. -/
theorem strange_and_forgotten :
    strangeRun.ending = .crash (.unprintable .summary
        ("'utf-8' codec can't encode character '\\udcff' in position 30: ".text ++
          "surrogates not allowed".text)) ∧
      effectFiles.read (0xFF :: Path.ofString ".obj") = .error .noEntry ∧
      strangeRun.files.read (0xFF :: Path.ofString ".obj") =
        .ok (Text.Utf8.encode "Address     Code\n0x00400000 0x00430820\n".text) ∧
      forgottenRun.ending = .exit 0 ∧
      forgottenRun.files.read (Path.ofString "/dev/null") = .ok [] := by
  have hstrange : Options.parse ["-v".text, "a.s".text, "-o".text, strangeName] =
      .ok ⟨"a.s".text, some strangeName, some Address.defaultBase, false, true⟩ :=
    toOption_eq_some.1 (by decide +kernel)
  have hforgotten : Options.parse (["a.s", "-o", "/dev/null"].map String.text) =
      .ok ⟨"a.s".text, some "/dev/null".text, some Address.defaultBase, false, false⟩ :=
    toOption_eq_some.1 (by decide +kernel)
  rw [strangeRun, forgottenRun, script, script, hstrange, hforgotten]
  exact ⟨rfl, rfl, rfl, rfl, rfl⟩

end CommandLine

end Mips32
