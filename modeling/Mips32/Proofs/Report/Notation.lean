import Mips32.Proofs.Numeral.Notation
import Mips32.Proofs.Program.Agreement
import Mips32.Proofs.Session

/-!
# One word in four notations

A report shows each word in hexadecimal, in binary and in decimal, and once more in the listing, and
it shows addresses beside the words, in the listing and for the labels. `Shows` says that all of
that is in the form that it should have and spells the image that the session keeps, and
`shows_of_answer` that it is so in every report without a fault. A report with a fault is the one
with an empty listing.
-/

namespace Mips32

/-- A number as a word in hexadecimal: the mark and exactly eight digits. -/
def IsHexWord (s : Text) (n : Int) : Prop :=
  ∃ ds, s = .char '0' :: .char 'x' :: ds ∧ Numeral.InWidth 16 8 ds n

/-- An integer is printed as what is left of it in 32 bits. -/
theorem isHexWord_hexWord_emod (n : Int) : IsHexWord (Listing.hexWord n) (n % 2 ^ 32) := by
  have hlow : ((BitVec.ofInt 32 n).toNat : Int) = n % 2 ^ 32 := by
    rw [BitVec.toNat_ofInt]
    omega
  have hfits : (BitVec.ofInt 32 n).toNat < 16 ^ 8 := (BitVec.ofInt 32 n).isLt
  have hdigits := Numeral.inWidth_lowDigits (by decide) (by decide) hfits
  rw [hlow] at hdigits
  exact ⟨_, rfl, hdigits⟩

theorem isHexWord_hexWord {n : Int} (h : 0 ≤ n) (hn : n < 2 ^ 32) :
    IsHexWord (Listing.hexWord n) n := by
  have hword := isHexWord_hexWord_emod n
  rwa [Int.emod_eq_of_lt h hn] at hword

theorem isHexWord_of_isWord {a : Int} (h : Address.IsWord a) : IsHexWord (Listing.hexWord a) a :=
  isHexWord_hexWord h.1 h.2.1

namespace Report

/-- The notations of a word `w` at an address. -/
structure Entry.Shows (address : Int) (w : Word) (e : Entry) : Prop where
  address : IsHexWord e.address address
  hex : IsHexWord e.hex w.toNat
  bin : Numeral.InWidth 2 32 e.bin w.toNat
  dec : Numeral.Canonical e.dec w.toNat

theorem Entry.shows_ofWord {base : Int} (hb : Address.IsWord base) (k : Nat) (w : Word) :
    Entry.Shows ((base + 4 * k) % 2 ^ 32) w (.ofWord base k w) where
  address := by
    rw [← Address.ofIndex_eq]
    exact isHexWord_of_isWord (Address.isWord_ofIndex hb k)
  hex := isHexWord_hexWord (by omega) (by have := w.isLt; omega)
  bin := Numeral.inWidth_padded (by decide) (by decide) w.isLt
  dec := Numeral.canonical_digits w.toNat

/-- A report that shows the image of a program at a base address. -/
structure Shows (base : Int) (p : Program) (image : Program.Image) (report : Report) : Prop where
  length_entries : report.entries.length = image.words.length
  entry : ∀ (k : Nat) e w, report.entries[k]? = some e → image.words[k]? = some w →
    e.Shows ((base + 4 * k) % 2 ^ 32) w
  /-- The listing has the first two columns of the entries. -/
  listing : report.listing =
    ("Address     Code".text :: report.entries.map fun e => e.address ++ .char ' ' :: e.hex).flatMap
      (· ++ [.char '\n'])
  /-- The labels are in the order of the lines that define them. -/
  names : report.symbols.map Prod.fst = p.names
  symbols : List.Forall₂ (fun shown kept => shown.1 = kept.1 ∧ IsHexWord shown.2 kept.2)
    report.symbols image.symbols

theorem rowsFrom_eq (base : Int) (index : Nat) (words : List Word) :
    Listing.rowsFrom base index (words.map fun w => (w.toNat : Int)) =
      (words.zipIdx index).map fun (w, k) =>
        (Entry.ofWord base k w).address ++ .char ' ' :: (Entry.ofWord base k w).hex := by
  induction words generalizing index with
  | nil => rfl
  | cons w words ih => rw [List.map_cons, Listing.rowsFrom, ih]; rfl

theorem shows_ofImage {base : Int} (hb : Address.IsWord base) {p : Program}
    {image : Program.Image} (h : p.assemble base = .ok image) :
    Shows base p image (ofImage base image) := by
  refine ⟨?length_entries, ?entry, ?listing, ?names, ?symbols⟩
  case length_entries => rw [ofImage, ofRun, List.length_map, List.length_zipIdx]
  case entry =>
    intro k e w he hw
    rw [getElem?_entries_ofImage, hw] at he
    cases he
    exact Entry.shows_ofWord hb k w
  case listing =>
    show Listing.render _ base = _
    rw [Listing.render, Listing.lines, rowsFrom_eq, ofImage, ofRun, List.map_map]
    rfl
  case names =>
    obtain ⟨-, htable⟩ := Program.symbols_eq_ok_iff.1 (Program.assemble_eq_ok_iff.1 h).1
    rw [ofImage, ofRun, List.map_map, ← Program.map_fst_labelsFrom base, ← htable]
    rfl
  case symbols =>
    rw [ofImage, ofRun, List.forall₂_map_left_iff, List.forall₂_same]
    rintro ⟨name, a⟩ hmem
    obtain ⟨k, -, rfl⟩ := Program.exists_index_of_mem_symbols hb h hmem
    refine ⟨rfl, ?_⟩
    rw [← Address.ofIndex_eq]
    exact isHexWord_of_isWord (Address.isWord_ofIndex hb k)

/-- Every listing has a header. -/
theorem listing_ofImage_ne_nil (base : Int) (image : Program.Image) :
    (ofImage base image).listing ≠ [] :=
  List.cons_ne_nil _ _

/-- A report without a fault shows what the session keeps. A report with a fault is one with an
empty listing. -/
theorem shows_of_answer {s : Session} (hb : Address.IsWord s.base) {source : Text} {report : Report}
    (h : s.answer (.assemble source) = .ok (.report report)) :
    (report.faults = [] →
      Shows s.base (.ofText source) (s.next (.assemble source)).image report) ∧
      (report.listing = [] ↔ report.faults ≠ []) := by
  rw [Session.answer_assemble] at h
  rw [Session.next_of_program?_eq_some s rfl]
  cases hrun : (Program.ofText source).run s.base with
  | ok image =>
    rw [hrun] at h
    cases h
    refine ⟨fun _ => ?_,
      iff_of_false (listing_ofImage_ne_nil s.base image) fun hfaults => hfaults rfl⟩
    rw [Program.outcome_of_run hrun]
    exact shows_ofImage hb (Program.run_eq_ok_iff.1 hrun).1
  | error e =>
    rw [hrun] at h
    rcases e with (d | count) | -
    · cases h
      have hfaults : (ofFault d).faults ≠ [] := List.cons_ne_nil d []
      exact ⟨fun h => absurd h hfaults, iff_of_true rfl hfaults⟩
    · cases h
    · cases h

/-- A jump from the last address to a label behind an instruction. -/
def laps : Text :=
  "a: j b\n   addi $1, $0, -1\nb:".text

/-- A session at the last address with the image of an earlier run. -/
def lastSession : Session :=
  ⟨0xfffffffc, ⟨[("old".text, 0)], [0]⟩⟩

set_option maxRecDepth 4000 in
/-- The second word and the label behind it have wrapped addresses. -/
theorem shows_laps :
    Address.IsWord lastSession.base ∧ ∃ report,
      lastSession.answer (.assemble laps) = .ok (.report report) ∧ report.faults = [] ∧
        report.symbols = [("a".text, "0xfffffffc".text), ("b".text, "0x00000004".text)] ∧
        Shows lastSession.base (.ofText laps)
          ⟨[("a".text, 0xfffffffc), ("b".text, 4)], [0x08000001, 0x2001ffff]⟩ report := by
  have hb : Address.IsWord lastSession.base := by decide
  have hrun : (Program.ofText laps).run lastSession.base =
      .ok ⟨[("a".text, 0xfffffffc), ("b".text, 4)], [0x08000001, 0x2001ffff]⟩ := by rfl
  have hanswer : lastSession.answer (.assemble laps) = .ok (.report (ofImage lastSession.base
      ⟨[("a".text, 0xfffffffc), ("b".text, 4)], [0x08000001, 0x2001ffff]⟩)) := by
    rw [Session.answer_assemble, hrun]
    rfl
  have hshows := (shows_of_answer hb hanswer).1 rfl
  rw [Session.next_of_program?_eq_some _ rfl, Program.outcome_of_run hrun] at hshows
  exact ⟨hb, _, hanswer, rfl, by decide, hshows⟩

end Report

end Mips32
