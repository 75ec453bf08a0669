import Mips32.Proofs.Listing.Columns
import Mips32.Proofs.Text.Runs

/-!
# Addresses from outside

A base address is given as a number or as a text. `StandsFor` lists the values that an address is
given by: the number, and its numerals in print with a plus in front of them or none and blanks
around them. `IsReader` says of a function that it reads addresses: it never gives anything but the
address of a word, it reads every value that stands for one, and so it takes back every address that
the library itself prints. `isReader_ofJson` says that this is what reading an address does.
-/

namespace Mips32

namespace Address

/-! ## Values for an address -/

/-- The values that stand for an address. -/
inductive StandsFor (a : Int) : Json → Prop
  | int : StandsFor a (.int a)
  | text {front sign numeral back : Text} {n : Nat}
      (hfront : ∀ c ∈ front, Text.isBlank c = true) (hsign : Numeral.IsSign sign false)
      (hnumeral : Numeral.Prints numeral n) (hn : (n : Int) = a)
      (hback : ∀ c ∈ back, Text.isBlank c = true) :
      StandsFor a (.str (front ++ (sign ++ numeral) ++ back))

variable {a base : Int}

theorem ofInt_of_isWord (ha : IsWord a) : ofInt a = .ok a := by
  obtain ⟨hnonneg, hspace, haligned⟩ := ha
  rw [ofInt, if_neg (by simp [hnonneg, hspace]), if_neg (by simp [haligned])]

/-- A text that stands for the address of a word is read as it. -/
theorem ofText_of_prints (ha : IsWord a) {front sign numeral back : Text} {n : Nat}
    (hfront : ∀ c ∈ front, Text.isBlank c = true) (hsign : Numeral.IsSign sign false)
    (hnumeral : Numeral.Prints numeral n) (hn : (n : Int) = a)
    (hback : ∀ c ∈ back, Text.isBlank c = true) :
    ofText (front ++ (sign ++ numeral) ++ back) = .ok a := by
  have hplain : ∀ c ∈ sign ++ numeral, Text.isBlank c = false :=
    List.forall_mem_append.2 ⟨by cases hsign; all_goals decide, fun c hc =>
      Numeral.not_isBlank_of_isAlphanum (Numeral.isAlphanum_of_prints hnumeral c hc)⟩
  have htrim : Text.trim (front ++ (sign ++ numeral) ++ back) = sign ++ numeral := by
    rw [Text.trim_append_right hback, Text.trim_append_left hfront]
    exact Text.trim_eq_self (fun c hc => hplain c (List.mem_of_head? hc)) fun c hc =>
      hplain c (List.mem_of_getLast? hc)
  have hlimit : (Numeral.digits 10 n).length ≤ 10 := by
    have hspace : a < 0x100000000 := ha.2.1
    rw [Numeral.length_digits]
    exact (Nat.length_toDigits_le_iff (by decide) (by decide)).2 (by omega)
  have hread := Numeral.readFree_of_prints hsign hnumeral (Nat.le_trans hlimit (by decide))
  have hvalue : Numeral.withSign false n = a := hn
  unfold ofText
  simp only [htrim, hread, hvalue]
  exact ofInt_of_isWord ha

theorem ofJson_of_standsFor (ha : IsWord a) {v : Json} (h : StandsFor a v) :
    ofJson v = .ok a := by
  cases h with
  | int => exact ofInt_of_isWord ha
  | text hfront hsign hnumeral hn hback =>
    exact ofText_of_prints ha hfront hsign hnumeral hn hback

/-- A word in hexadecimal stands for its address. -/
theorem standsFor_of_isHexWord {s : Text} (ha : IsWord a) (h : IsHexWord s a) :
    StandsFor a (.str s) := by
  have hstands : StandsFor a (.str ([] ++ ([] ++ s) ++ [])) :=
    .text nofun .none h.prints (Int.toNat_of_nonneg ha.1) nofun
  rwa [List.append_nil, List.nil_append, List.nil_append] at hstands

/-- What is printed as a word in hexadecimal is read as the address again. -/
theorem ofJson_hexWord (ha : IsWord a) : ofJson (.str (Listing.hexWord a)) = .ok a :=
  ofJson_of_standsFor ha (standsFor_of_isHexWord ha (isHexWord_of_isWord ha))

/-- Whatever value an address is read from, it is that of a word. -/
theorem isWord_of_ofJson {v : Json} (h : ofJson v = .ok a) : IsWord a := by
  unfold ofJson at h
  split at h
  case h_1 n =>
    obtain ⟨rfl, hword⟩ := isWord_of_ofInt h
    exact hword
  case h_2 s =>
    exact isWord_of_ofText h
  case h_3 => cases h

/-- Only numbers and strings can be addresses. -/
theorem ofJson_of_wrongType {v : Json} (hint : ∀ n, v ≠ .int n) (hstr : ∀ s, v ≠ .str s) :
    ofJson v = .error (.wrongType v) := by
  cases v with
  | int n => exact absurd rfl (hint n)
  | str s => exact absurd rfl (hstr s)
  | null => rfl
  | bool b => rfl
  | float x => rfl
  | arr items => rfl
  | obj members => rfl

/-! ## Reading addresses -/

/-- A function that reads addresses from values. -/
structure IsReader (read : Json → Except Error Int) : Prop where
  /-- A value is refused, or it is read as the address of a word. -/
  sound : ∀ v, (∃ e, read v = .error e) ∨ ∃ a, read v = .ok a ∧ 0 ≤ a ∧ a < 2 ^ 32 ∧ a % 4 = 0
  /-- Constants, floating-point values, arrays and objects are refused. -/
  refused : ∀ v, (∀ n, v ≠ .int n) → (∀ s, v ≠ .str s) → read v = .error (.wrongType v)
  inverse : ∀ a v, IsWord a → StandsFor a v → read v = .ok a
  hexWord : ∀ a, IsWord a → read (.str (Listing.hexWord a)) = .ok a
  /-- What was read is read as itself. -/
  idempotent : ∀ v a, read v = .ok a → read (.int a) = .ok a
  /-- The addresses in the rows of a listing are taken back. -/
  rows : ∀ base words (k : Nat) row, IsWord base → (Listing.rowsFrom base 0 words)[k]? = some row →
    read (.str (Listing.firstColumn row)) = .ok ((base + 4 * k) % 2 ^ 32)
  /-- The addresses in the symbol table of a report are taken back. -/
  symbols : ∀ base (p : Program) image, IsWord base → p.assemble base = .ok image →
    List.Forall₂ (fun shown kept => shown.1 = kept.1 ∧ read (.str shown.2) = .ok kept.2)
      (Report.ofImage base image).symbols image.symbols

/-- Addresses are read soundly, and in all forms that they are printed in. -/
theorem isReader_ofJson : IsReader ofJson where
  sound v := by
    cases h : ofJson v with
    | error e => exact .inl ⟨e, rfl⟩
    | ok a => exact .inr ⟨a, rfl, isWord_of_ofJson h⟩
  refused _ := ofJson_of_wrongType
  inverse _ _ ha := ofJson_of_standsFor ha
  hexWord _ := ofJson_hexWord
  idempotent v a h := ofInt_of_isWord (isWord_of_ofJson h)
  rows base words k row hb hrow := by
    rw [Listing.getElem?_rowsFrom, Option.map_eq_some_iff] at hrow
    obtain ⟨word, -, rfl⟩ := hrow
    rw [Nat.zero_add, Listing.firstColumn_row, ← ofIndex_eq]
    exact ofJson_hexWord (isWord_ofIndex hb k)
  symbols base p image hb h := by
    rw [Report.ofImage, Report.ofRun, List.forall₂_map_left_iff, List.forall₂_same]
    rintro ⟨name, a⟩ hmem
    obtain ⟨k, -, rfl⟩ := Program.exists_index_of_mem_symbols hb h hmem
    rw [← ofIndex_eq]
    exact ⟨rfl, ofJson_hexWord (isWord_ofIndex hb k)⟩

example : ofJson (.str "\u3000\t+0X00000000400C0c\x1c".text) = .ok 0x400c0c := by cbv

end Address

end Mips32
