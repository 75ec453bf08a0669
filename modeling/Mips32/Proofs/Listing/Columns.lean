import Mathlib.Data.Int.ModEq
import Mathlib.Data.List.Nodup
import Mips32.Proofs.Numeral.Marked
import Mips32.Proofs.Report.Notation

/-!
# Reading a listing back

A listing is split at its line feeds and each row at its blank. `ReadsBack` says what that must give
for integers of any size and a base of any size: the header, a row for each integer, nothing behind
the last line feed, and in each row an address and a word, each of which is read as what is left of
it in 32 bits. So a listing tells its integers as far as words are concerned, and no further
(`render_eq_iff`), and up to a full lap of the address space its rows tell where they stand
(`nodup_firstColumn`). `readsBack_render` puts this together.

All of it rests on one fact about a column: it is a mark and eight digits, and these spell the
number modulo `2 ^ 32`.
-/

namespace Mips32

/-! ## Columns -/

theorem IsHexWord.length {s : Text} {n : Int} (h : IsHexWord s n) : s.length = 10 := by
  obtain ⟨ds, rfl, hds⟩ := h
  rw [List.length_cons, List.length_cons, hds.length]

/-- A text that spells a word in hexadecimal spells one number. -/
theorem IsHexWord.unique {s : Text} {m n : Int} (hm : IsHexWord s m) (hn : IsHexWord s n) :
    m = n := by
  obtain ⟨ds, rfl, hds⟩ := hm
  obtain ⟨es, heq, hes⟩ := hn
  obtain rfl : ds = es := by simpa using heq
  rw [← hds.value, ← hes.value]

/-- A word in hexadecimal is a numeral in print. -/
theorem IsHexWord.prints {s : Text} {n : Int} (h : IsHexWord s n) :
    Numeral.Prints s n.toNat := by
  obtain ⟨ds, rfl, hds⟩ := h
  have halphabet : ∀ c ∈ Numeral.alphabet 16, Numeral.isDigit 16 c = true := by decide
  have hne : ds ≠ [] := List.ne_nil_of_length_pos (by rw [hds.length]; decide)
  have hprints : Numeral.Prints _ _ :=
    .hexadecimal (.inl rfl) hne fun c hc => halphabet c (hds.digit c hc)
  rwa [← Int.toNat_natCast (Numeral.ofDigits 16 ds), hds.value] at hprints

namespace Listing

/-- Equal columns are those of numbers that are equal in 32 bits. -/
theorem hexWord_eq_iff {m n : Int} : hexWord m = hexWord n ↔ m ≡ n [ZMOD 2 ^ 32] := by
  constructor
  · intro h
    exact (isHexWord_hexWord_emod m).unique (h ▸ isHexWord_hexWord_emod n)
  · intro h
    have hword : BitVec.ofInt 32 m = BitVec.ofInt 32 n := by
      apply BitVec.eq_of_toNat_eq
      rw [BitVec.toNat_ofInt, BitVec.toNat_ofInt]
      exact congrArg Int.toNat h
    rw [hexWord, hexWord, hword]

/-- A column consists of ASCII letters and digits. -/
theorem isAlphanum_of_mem_hexWord {n : Int} {c : CodePoint} (h : c ∈ hexWord n) :
    c.isAlphanum = true :=
  Numeral.isAlphanum_of_prints (isHexWord_hexWord_emod n).prints c h

theorem not_mem_hexWord {c : CodePoint} (hc : c.isAlphanum = false) (n : Int) : c ∉ hexWord n :=
  fun h => Bool.eq_false_iff.1 hc (isAlphanum_of_mem_hexWord h)

theorem ne_space_of_mem_hexWord (n : Int) : ∀ c ∈ hexWord n, (c != ' ') = true := by
  intro c hc
  rw [bne_iff_ne]
  rintro rfl
  exact not_mem_hexWord (by decide) n hc

/-- A column is read as its number in 32 bits. -/
theorem readFree_hexWord (n : Int) : Numeral.readFree (hexWord n) = .ok (n % 2 ^ 32) := by
  have hnonneg : 0 ≤ n % 2 ^ 32 := Int.emod_nonneg n (by decide)
  have hlimit : (Numeral.digits 10 (n % 2 ^ 32).toNat).length ≤ 10 := by
    rw [Numeral.length_digits]
    exact (Nat.length_toDigits_le_iff (by decide) (by decide)).2 (by omega)
  have hread := Numeral.readFree_of_prints .none (isHexWord_hexWord_emod n).prints
    (Nat.le_trans hlimit (by decide))
  rwa [Numeral.withSign, if_neg (by decide), Int.toNat_of_nonneg hnonneg] at hread

/-! ## Rows -/

/-- The column in front of the blank of a row. -/
def firstColumn (row : Text) : Text :=
  row.takeWhile (· != .char ' ')

/-- The column behind the blank of a row. -/
def secondColumn (row : Text) : Text :=
  (row.dropWhile (· != .char ' ')).tail

/-- A row in which an address and a word are read: two columns of ten characters with a blank
between them. -/
structure IsRow (row : Text) (address word : Int) : Prop where
  length : row.length = 21
  columns : row = firstColumn row ++ .char ' ' :: secondColumn row
  first : IsHexWord (firstColumn row) address
  readFirst : Numeral.readFree (firstColumn row) = .ok address
  second : IsHexWord (secondColumn row) word
  readSecond : Numeral.readFree (secondColumn row) = .ok word

variable (base : Int) (index : Nat) (word : Int)

theorem firstColumn_row : firstColumn (row base index word) =
    hexWord (Address.ofIndex index base) := by
  rw [firstColumn, row, List.takeWhile_append_of_pos (ne_space_of_mem_hexWord _)]
  exact List.append_nil _

theorem secondColumn_row : secondColumn (row base index word) = hexWord word := by
  rw [secondColumn, row, List.dropWhile_append_of_pos (ne_space_of_mem_hexWord _)]
  rfl

theorem isRow_row : IsRow (row base index word) ((base + 4 * index) % 2 ^ 32) (word % 2 ^ 32) := by
  have haddress : Address.ofIndex index base % 2 ^ 32 = (base + 4 * index) % 2 ^ 32 := by
    rw [Address.ofIndex_eq, Int.emod_emod_of_dvd _ (dvd_refl _)]
  have hfirst := isHexWord_hexWord_emod (Address.ofIndex index base)
  have hread := readFree_hexWord (Address.ofIndex index base)
  rw [haddress, ← firstColumn_row base index word] at hfirst hread
  have hsecond := isHexWord_hexWord_emod word
  have hcolumns : row base index word =
      firstColumn (row base index word) ++ .char ' ' :: secondColumn (row base index word) := by
    rw [firstColumn_row, secondColumn_row, row]
  refine ⟨?_, hcolumns, hfirst, hread, ?_, ?_⟩
  · rw [row, List.length_append, List.length_cons, (isHexWord_hexWord_emod _).length,
      (isHexWord_hexWord_emod _).length]
  · rwa [secondColumn_row]
  · rw [secondColumn_row, readFree_hexWord]

/-! ## Lines -/

theorem newline_not_mem_row : .char '\n' ∉ row base index word := by
  rw [row, List.mem_append, List.mem_cons]
  rintro (h | h | h)
  · exact not_mem_hexWord (by decide) _ h
  · exact absurd h (by decide)
  · exact not_mem_hexWord (by decide) _ h

variable {base index} {words words' : List Int}

theorem newline_not_mem_rowsFrom : ∀ r ∈ rowsFrom base index words, .char '\n' ∉ r := by
  induction words generalizing index with
  | nil => nofun
  | cons w ws ih => exact List.forall_mem_cons.2 ⟨newline_not_mem_row base index w, ih⟩

theorem length_rowsFrom : (rowsFrom base index words).length = words.length := by
  induction words generalizing index with
  | nil => rfl
  | cons w ws ih => rw [rowsFrom, List.length_cons, ih, List.length_cons]

/-- Lines that are each ended by a line feed have line feeds between them, and nothing stands behind
the last one. -/
theorem flatMap_newline (ls : List Text) :
    ls.flatMap (· ++ [.char '\n']) = [.char '\n'].intercalate (ls ++ [[]]) := by
  induction ls with
  | nil => rfl
  | cons l ls ih =>
    obtain ⟨m, ms, hcons⟩ := List.exists_cons_of_ne_nil (List.concat_ne_nil [] ls)
    rw [List.flatMap_cons, ih, List.cons_append, hcons, List.intercalate_cons_cons]

/-- Split at its line feeds a listing is its lines and an empty rest. -/
theorem splitOn_render (words : List Int) (base : Int) :
    (render words base).splitOn (.char '\n') = header :: (rowsFrom base 0 words ++ [[]]) := by
  rw [render, flatMap_newline, List.splitOn_intercalate]
  · rfl
  · refine List.forall_mem_append.2 ⟨List.forall_mem_cons.2 ⟨by decide, ?_⟩, by simp⟩
    exact newline_not_mem_rowsFrom
  · exact List.append_ne_nil_of_right_ne_nil _ (by simp)

/-- Equal rows at one place are those of integers that are equal in 32 bits. -/
theorem row_eq_iff {v w : Int} : row base index v = row base index w ↔ v ≡ w [ZMOD 2 ^ 32] := by
  rw [row, row, List.append_cancel_left_eq, List.cons.injEq, and_iff_right rfl, hexWord_eq_iff]

theorem rowsFrom_eq_iff : rowsFrom base index words = rowsFrom base index words' ↔
    List.Forall₂ (· ≡ · [ZMOD 2 ^ 32]) words words' := by
  induction words generalizing index words' with
  | nil =>
    cases words' with
    | nil => exact iff_of_true rfl .nil
    | cons => exact iff_of_false nofun nofun
  | cons v vs ih =>
    cases words' with
    | nil => exact iff_of_false nofun nofun
    | cons w ws => rw [rowsFrom, rowsFrom, List.cons.injEq, row_eq_iff, ih, List.forall₂_cons]

/-- Two listings with one base are equal exactly if they are of equally many integers that are equal
in 32 bits one by one. -/
theorem render_eq_iff : render words base = render words' base ↔
    List.Forall₂ (· ≡ · [ZMOD 2 ^ 32]) words words' := by
  rw [← @rowsFrom_eq_iff base 0]
  constructor
  · intro h
    have hsplit := congrArg (List.splitOn (.char '\n')) h
    rw [splitOn_render, splitOn_render, List.cons.injEq] at hsplit
    exact List.append_cancel_right hsplit.2
  · intro h
    rw [render, render, lines, lines, h]

/-! ## Addresses -/

theorem map_firstColumn_rowsFrom : (rowsFrom base index words).map firstColumn =
    (List.range' index words.length).map fun k : Nat => hexWord (Address.ofIndex k base) := by
  induction words generalizing index with
  | nil => rfl
  | cons w ws ih =>
    rw [rowsFrom, List.map_cons, ih, firstColumn_row, List.length_cons, List.range'_succ,
      List.map_cons]

/-- The rows of a listing that fits into the address space have addresses of their own. -/
theorem nodup_firstColumn (h : words.length ≤ 2 ^ 30) :
    ((rowsFrom base 0 words).map firstColumn).Nodup := by
  rw [map_firstColumn_rowsFrom]
  refine List.Nodup.map_on (fun j hj k hk heq => ?_) List.nodup_range'
  obtain ⟨-, hj⟩ := List.mem_range'_1.1 hj
  obtain ⟨-, hk⟩ := List.mem_range'_1.1 hk
  have hmod := hexWord_eq_iff.1 heq
  simp only [Int.ModEq, Address.ofIndex_eq] at hmod
  omega

/-! ## Whole listings -/

/-- What a text must be like that a listing of integers is read from. -/
structure ReadsBack (words : List Int) (base : Int) (text : Text) : Prop where
  /-- Between the header and an empty rest there is a row for each integer. -/
  rows : ∃ rows : List Text, text.splitOn (.char '\n') = header :: (rows ++ [[]]) ∧
    rows.length = words.length ∧
    (∀ (k : Nat) row word, rows[k]? = some row → words[k]? = some word →
      IsRow row ((base + 4 * k) % 2 ^ 32) (word % 2 ^ 32)) ∧
    (words.length ≤ 2 ^ 30 → (rows.map firstColumn).Nodup)
  /-- It is the listing of the integers that are equal to these in 32 bits, and of no others. -/
  others : ∀ words', text = render words' base ↔
    List.Forall₂ (· ≡ · [ZMOD 2 ^ 32]) words words'

/-- Every listing can be read back, as far as words and addresses have 32 bits. -/
theorem readsBack_render (words : List Int) (base : Int) :
    ReadsBack words base (render words base) where
  rows := by
    refine ⟨rowsFrom base 0 words, splitOn_render words base, length_rowsFrom, ?_,
      nodup_firstColumn⟩
    intro k row word hrow hword
    rw [getElem?_rowsFrom, hword, Option.map_some, Nat.zero_add, Option.some.injEq] at hrow
    exact hrow ▸ isRow_row base k word
  others := fun _ => render_eq_iff

end Listing

end Mips32
