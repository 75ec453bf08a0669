import Mips32.Proofs.CommandLine.Effect
import Mips32.Proofs.CommandLine.Report
import Mips32.Proofs.Listing
import Mips32.Proofs.Path

/-!
# The source file after a run

Without an output of its own a run writes its listing beside the source file, under the name that
`Listing.pathFor` gives. Another name leads to another place, so that the source is what it was. A
source whose name has the extension of listings already has no other name, and the listing takes its
place. `read_input_iff` says that this is the only way for a source to change on a file system
without links. It does change then: a program was assembled from it, and a listing is no program
(`Program.assemble_ofWords`).
-/

namespace Mips32

/-! ## A listing is no program -/

/-- The header of a listing is no instruction. -/
theorem encodeLine_header (table : SymbolTable) (pc : Int) :
    encodeLine table pc Listing.header = .error (.fault (.unsupported "Address".text)) := by
  rfl

theorem Program.ofText_ofWords (words : List Word) (base : Int) :
    ∃ rest, ofText (Listing.ofWords words base) = ⟨1, Listing.header⟩ :: rest := by
  have hlines : ∃ ls, Text.lines (Listing.ofWords words base) = Listing.header :: ls := ⟨_, rfl⟩
  obtain ⟨ls, hls⟩ := hlines
  rw [ofText, hls]
  exact ⟨_, rfl⟩

/-- No listing can be assembled. -/
theorem Program.assemble_ofWords (words : List Word) (base base' : Int) (image : Image) :
    (ofText (Listing.ofWords words base)).assemble base' ≠ .ok image := by
  intro h
  obtain ⟨rest, hrest⟩ := ofText_ofWords words base
  rw [hrest] at h
  have hwords := (assemble_eq_ok_iff.1 h).2
  rw [Program.words, wordsFrom, if_pos (by rfl), encodeLine_header] at hwords
  cases hwords

/-- A listing consists of characters. -/
theorem Listing.not_isSurrogate_of_mem_ofWords (words : List Word) (base : Int) :
    ∀ c ∈ ofWords words base, c.isSurrogate = false := by
  have hrows : ∀ (ns : List Int) (index : Nat), ∀ line ∈ rowsFrom base index ns, ∀ c ∈ line,
      c.isSurrogate = false := by
    intro ns
    induction ns with
    | nil => nofun
    | cons n ns ih =>
      intro index
      refine List.forall_mem_cons.2 ⟨List.forall_mem_append.2 ⟨?_, ?_⟩, ih (index + 1)⟩
      · exact CommandLine.not_isSurrogate_of_mem_hexWord _
      · exact List.forall_mem_cons.2 ⟨rfl, CommandLine.not_isSurrogate_of_mem_hexWord n⟩
  intro c hc
  obtain ⟨line, hline, hc⟩ := List.mem_flatMap.1 hc
  rcases List.mem_append.1 hc with hc | hc
  · have hlines : ∀ line ∈ lines (words.map fun w => (w.toNat : Int)) base, ∀ c ∈ line,
        c.isSurrogate = false :=
      List.forall_mem_cons.2 ⟨by decide, hrows _ 0⟩
    exact hlines line hline c hc
  · rw [List.mem_singleton.1 hc]
    rfl

/-! ## The file beside the source -/

theorem Path.slash_not_mem_octets {s : Text} (hs : ∀ c ∈ s, isRefused c = false)
    (h : .char '/' ∉ s) : FileSystem.slash ∉ octets s :=
  mt (mem_octets_iff hs (a := '/') (by decide)).1 h

theorem Listing.IsStem.exists_append {name kept : Text} (h : IsStem name kept) :
    ∃ ext, name = kept ++ ext := by
  cases h with
  | extension => exact ⟨_, rfl⟩
  | whole => exact ⟨[], (List.append_nil _).symm⟩

/-- Behind a stem there is one text that spells the extension of listings. -/
theorem Listing.eq_of_octets_stem {name : Text} (hname : ∀ c ∈ name, Path.isRefused c = false)
    (h : Path.octets name = Path.octets (stem name ++ extension)) :
    name = stem name ++ extension := by
  obtain ⟨ext, hext⟩ := (isStem_stem name).exists_append
  have hplain : ∀ c ∈ ext, Path.isRefused c = false := fun c hc =>
    hname c (hext ▸ List.mem_append_right _ hc)
  have hoctets : Path.octets ext = Path.octets extension := by
    rw [hext, Path.octets_append, ← hext, Path.octets_append] at h
    exact List.append_cancel_left h
  have hsame : ext = extension :=
    Path.eq_of_octets hplain (t := ['.', 'o', 'b', 'j']) (by simp) (hoctets.trans rfl)
  rw [← hsame, ← hext]

/-- A listing under a name of its own leaves the source as it is. -/
theorem FileSystem.read_write_pathFor {fs fs' : FileSystem} {text : Text} {path target : Path}
    {octets bytes : List UInt8} (hpath : Path.ofText text = .ok path)
    (htarget : Path.ofText (Listing.pathFor text) = .ok target)
    (hne : Listing.pathFor text ≠ text) (hwrite : fs.write target octets = .ok fs')
    (hread : fs.read path = .ok bytes) : fs'.read path = .ok bytes := by
  obtain ⟨front, hfront, htext, hfor⟩ := Listing.exists_front text
  obtain ⟨hplain, rfl, -⟩ := Path.ofText_eq_ok_iff.1 hpath
  obtain ⟨hplain', rfl, -⟩ := Path.ofText_eq_ok_iff.1 htarget
  -- In octets as in text, the two paths differ in what is behind the last slash.
  have hslash : Path.octets front = [] ∨ (Path.octets front).getLast? = some slash := by
    rcases hfront with rfl | hlast
    · exact .inl rfl
    · obtain ⟨s, rfl⟩ := List.getLast?_eq_some_iff.1 hlast
      rw [Path.octets_append]
      exact .inr (List.getLast?_eq_some_iff.2 ⟨_, rfl⟩)
  obtain ⟨dirs, hdirs⟩ := names_concat hslash
  have hplainName : ∀ c ∈ Listing.baseName text, Path.isRefused c = false := fun c hc =>
    hplain c (Listing.mem_baseName hc)
  have hplainStem : ∀ c ∈ Listing.stem (Listing.baseName text) ++ Listing.extension,
      Path.isRefused c = false := fun c hc =>
    hplain' c (hfor ▸ List.mem_append_right _ hc)
  have hslashBase := Listing.slash_not_mem_baseName text
  have hbase := Path.slash_not_mem_octets hplainName hslashBase
  have hname := Path.slash_not_mem_octets hplainStem (Listing.slash_not_mem_stem hslashBase)
  have hsplit : Path.octets text = Path.octets front ++ Path.octets (Listing.baseName text) := by
    rw [← Path.octets_append, ← htext]
  obtain ⟨place, hplace, -⟩ := write_cases hwrite
  refine read_write_of_ne hwrite hplace hread fun hwalk => hne ?_
  obtain ⟨-, hwalk'⟩ := walk_names_of_target hplace
  rw [hfor, Path.octets_append, hdirs _ hname, origin_concat fs _ hname hbase, ← hsplit] at hwalk'
  have hnames : names (Path.octets text) = dirs ++ [Path.octets (Listing.baseName text)] := by
    rw [hsplit, hdirs _ hbase]
  rw [hnames] at hwalk
  have hproper : 2 < (Path.octets (Listing.stem (Listing.baseName text) ++
      Listing.extension)).length := by
    have hlength : (Path.octets Listing.extension).length = 4 := rfl
    rw [Path.octets_append, List.length_append, hlength]
    omega
  have hsame := Listing.eq_of_octets_stem hplainName (eq_of_walk_concat hwalk hwalk' hproper)
  rw [hfor, ← hsame, ← htext]

namespace CommandLine

variable {fs : FileSystem} {o : Options} {arguments : List Text} {path : Path}

/-- The listing of a run without an output has its place beside the source. -/
theorem Options.target_of_none (h : o.output = none ∨ o.output = some []) :
    o.target = Listing.pathFor o.input := by
  unfold target
  rcases h with h | h
  · rw [h]
  · rw [h]
    exact if_pos rfl

/-- A run without an output loses its source exactly if it gets to the end and the listing has the
path of the source, where no device is. -/
theorem read_input_run_iff (hout : o.output = none ∨ o.output = some [])
    (hpath : Path.ofText o.input = .ok path) (console : Console) (fs : FileSystem) :
    ((run o).play console fs).files.read path = fs.read path ↔
      ¬(((run o).play console fs).ending.IsLate ∧ ¬fs.LeadsToDevice path ∧
        Listing.pathFor o.input = o.input) := by
  cases allOrNothing_run console fs o with
  | failed hending hfiles =>
    rw [hfiles]
    exact iff_of_true rfl fun h => hending h.1
  | done hruns =>
    obtain ⟨path', hpath', octets, hread, source, hsource, base, -, image, himage, -, target,
      htarget, hwrite, hcloses⟩ := hruns
    obtain rfl := Except.ok.inj (hpath.symm.trans hpath')
    rw [Options.target_of_none hout] at htarget
    by_cases hsame : Listing.pathFor o.input = o.input
    · rw [hsame] at htarget
      obtain rfl := Except.ok.inj (hpath.symm.trans htarget)
      by_cases hdevice : fs.LeadsToDevice path
      · rw [FileSystem.write_of_device hwrite hdevice]
        exact iff_of_true rfl fun h => h.2.1 hdevice
      · refine iff_of_false (fun heq => ?_) fun h => h ⟨hcloses.isLate, hdevice, hsame⟩
        rw [FileSystem.read_write hwrite hdevice, hread] at heq
        -- The source would be the listing.
        obtain rfl := Except.ok.inj heq
        rw [sourceText_encode (Listing.not_isSurrogate_of_mem_ofWords image.words base)] at hsource
        obtain rfl := Except.ok.inj hsource
        rw [Program.ofText_unifyNewlines] at himage
        exact Program.assemble_ofWords _ _ _ _ himage
    · rw [FileSystem.read_write_pathFor hpath htarget hsame hwrite hread, hread]
      exact iff_of_true rfl fun h => hsame h.2.2

/-- The arguments name no output. What they name as the input, if they can be read, is the text. -/
def AssemblesBeside (arguments : List Text) (text : Text) : Prop :=
  ∀ o, Options.parse arguments = .ok o → o.input = text ∧ (o.output = none ∨ o.output = some [])

/-- A run without an output changes its source file only where the source has the extension of
listings already, behind something but dots, so that the listing has its name. The source is lost
then, unless the name is that of a device or the run fails before the listing is written. -/
theorem read_input_iff {text : Text} (htext : AssemblesBeside arguments text)
    (hpath : Path.ofText text = .ok path) (console : Console) (fs : FileSystem) :
    ((script arguments).play console fs).files.read path = fs.read path ↔
      ¬((∃ o, Options.parse arguments = .ok o) ∧
        ((script arguments).play console fs).ending.IsLate ∧ ¬fs.LeadsToDevice path ∧
        ∃ front, Listing.baseName text = front ++ ".obj".text ∧ ∃ c ∈ front, c ≠ '.') := by
  cases hparse : Options.parse arguments with
  | error e =>
    have hfiles : ((script arguments).play console fs).files = fs := by
      rw [script, hparse]
      cases e with
      | usage e => rfl
      | help =>
        show ((say .help help <| exit 0).play console fs).files = fs
        cases hprint : console.refusal? help with
        | none =>
          rw [play_say_of_shows hprint]
          rfl
        | some words => rw [play_say_of_refused hprint]
    rw [hfiles]
    refine iff_of_true rfl ?_
    rintro ⟨⟨o, ho⟩, -⟩
    cases ho
  | ok o =>
    obtain ⟨rfl, hout⟩ := htext o hparse
    have hplay : (script arguments).play console fs = (run o).play console fs := by
      rw [script, hparse]
    have hname : (∃ front, Listing.baseName o.input = front ++ ".obj".text ∧
        ∃ c ∈ front, c ≠ '.') ↔ Listing.pathFor o.input = o.input :=
      Listing.pathFor_eq_self_iff.symm
    rw [hplay, hname, and_iff_right ⟨o, rfl⟩]
    exact read_input_run_iff hout hpath console fs

/-- A working directory with one source file, in a directory whose name has the extension of
listings. -/
def dottedFiles : FileSystem where
  working := [.ofString "w"]
  nodes := [([.ofString "w"], .directory), ([.ofString "w", .ofString "a.obj"], .directory),
    ([.ofString "w", .ofString "a.obj", .ofString ".obj"], .file (Text.Utf8.encode "L: j L".text))]

/-- What the arguments of the run ask for. -/
def dottedOptions : Options where
  input := "a.obj/.obj".text
  output := some []
  base := some 0x400
  dumpLabels := false
  verbose := true

set_option maxRecDepth 4000 in
/-- The dot at the front of a name begins no extension, so the listing has another name and the
source stays. -/
theorem read_input_dotted :
    AssemblesBeside (["-vo", "", "a.obj/.obj", "--base=1024"].map String.text)
        "a.obj/.obj".text ∧
      Path.ofText "a.obj/.obj".text = .ok (.ofString "a.obj/.obj") ∧
      ((script (["-vo", "", "a.obj/.obj", "--base=1024"].map String.text)).play .utf8
        dottedFiles).ending = .exit 0 ∧
      ((script (["-vo", "", "a.obj/.obj", "--base=1024"].map String.text)).play .utf8
        dottedFiles).files.read (.ofString "a.obj/.obj") =
          dottedFiles.read (.ofString "a.obj/.obj") := by
  have hparse : Options.parse (["-vo", "", "a.obj/.obj", "--base=1024"].map String.text) =
      .ok dottedOptions :=
    toOption_eq_some.1 (by decide +kernel)
  have hpath : AssemblesBeside (["-vo", "", "a.obj/.obj", "--base=1024"].map String.text)
      "a.obj/.obj".text := by
    intro o ho
    obtain rfl := Except.ok.inj (hparse.symm.trans ho)
    exact ⟨rfl, .inr rfl⟩
  have hspelled : Path.ofText "a.obj/.obj".text = .ok (.ofString "a.obj/.obj") := by rfl
  refine ⟨hpath, hspelled, ?_, (read_input_iff hpath hspelled .utf8 dottedFiles).2 ?_⟩
  · rw [script, hparse]
    rfl
  · rintro ⟨-, -, -, front, hfront, c, hc, -⟩
    have hnil : front = [] := List.self_eq_append_left.1 hfront
    rw [hnil] at hc
    cases hc

/-- A working directory with a source file that has the extension of listings. -/
def objectFiles : FileSystem where
  working := [.ofString "w"]
  nodes := [([.ofString "w"], .directory),
    ([.ofString "w", .ofString "x.obj"], .file (Text.Utf8.encode "add $1, $2, $3\n".text))]

set_option maxRecDepth 4000 in
/-- A run that ends well leaves the listing in the place of its source. -/
theorem read_input_overwritten :
    AssemblesBeside ["x.obj".text] "x.obj".text ∧
      objectFiles.read (.ofString "x.obj") = .ok (Text.Utf8.encode "add $1, $2, $3\n".text) ∧
      ((script ["x.obj".text]).play .utf8 objectFiles).ending = .exit 0 ∧
      ((script ["x.obj".text]).play .utf8 objectFiles).files.read (.ofString "x.obj") =
        .ok (Text.Utf8.encode "Address     Code\n0x00400000 0x00430820\n".text) := by
  have hparse : Options.parse ["x.obj".text] =
      .ok ⟨"x.obj".text, none, some Address.defaultBase, false, false⟩ :=
    toOption_eq_some.1 (by decide +kernel)
  refine ⟨fun o ho => ?_, ?_⟩
  · obtain rfl := Except.ok.inj (hparse.symm.trans ho)
    exact ⟨rfl, .inl rfl⟩
  · rw [script, hparse]
    exact ⟨rfl, rfl, rfl⟩

end CommandLine

end Mips32
