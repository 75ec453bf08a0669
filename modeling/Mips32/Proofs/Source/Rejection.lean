import Mips32.Proofs.Source.WellFormed

/-!
# Why an operand is rejected

The grammar says what an operand stands for. A reader that fails has to tell two things apart: what
stands for nothing is malformed, and what stands for a number that its field cannot hold is out of
range (`Misfit`). For registers and integers this is all there is to it (`raises_register_iff`,
`raises_integer_iff`). A memory operand is told apart into an offset and a word behind a dollar sign
before either is looked at, and then the offset comes first (`MemoryMisfit`).

`raises_readAll_iff` is the step from operands to a statement: read from left to right, the first
one that is rejected gives the class of the fault.
-/

namespace Mips32

open Statement (IsToken)

namespace Operand

/-- A text has no meaning, or one that is out of bounds, and is rejected with the class that stands
for this. -/
inductive Misfit (means : Text → Int → Prop) (low high : Int) (t : Text) : Fault.Kind → Prop
  | form (h : ∀ n, ¬means t n) : Misfit means low high t .malformedOperand
  | range {n : Int} (h : means t n) (hn : ¬(low ≤ n ∧ n ≤ high)) :
      Misfit means low high t .operandOutOfRange

section Misfit

variable {means : Text → Int → Prop} {low high : Int} {t : Text} {kind : Fault.Kind}

theorem misfit_of_meaningless (h : ∀ n, ¬means t n) :
    Misfit means low high t kind ↔ kind = .malformedOperand := by
  constructor
  · rintro (_ | ⟨hmeans, -⟩)
    · rfl
    · exact absurd hmeans (h _)
  · rintro rfl
    exact .form h

theorem misfit_of_meaning {n : Int} (h : ∀ m, means t m ↔ m = n) :
    Misfit means low high t kind ↔ ¬(low ≤ n ∧ n ≤ high) ∧ kind = .operandOutOfRange := by
  constructor
  · rintro (hno | ⟨hmeans, hm⟩)
    · exact absurd ((h n).2 rfl) (hno n)
    · obtain rfl := (h _).1 hmeans
      exact ⟨hm, rfl⟩
  · rintro ⟨hn, rfl⟩
    exact .range ((h n).2 rfl) hn

end Misfit

/-! ## Registers -/

/-- The register numbers that a text denotes, whether there is such a register or not: a dollar sign
with a number, or a conventional name in any letter case. -/
inductive Denotes : Text → Int → Prop
  | number {ds : Text} (hne : ds ≠ []) (hd : ∀ c ∈ ds, Numeral.isDigit 10 c = true) :
      Denotes (.char '$' :: ds) (Numeral.ofDigits 10 ds)
  | name {t : Text} {n : Nat} (h : Register.names[n]? = some (Text.lower t)) : Denotes t n

theorem denotes_iff_of_digits {t ds : Text} (h : registerDigits? t = some ds) (n : Int) :
    Denotes t n ↔ n = Numeral.ofDigits 10 ds := by
  obtain ⟨ht, hne, hd⟩ := registerDigits?_eq_some_iff.1 h
  constructor
  · intro hdenotes
    cases hdenotes with
    | number =>
      obtain ⟨-, rfl⟩ := List.cons.inj ht
      rfl
    | @name _ n hname =>
      -- A number is no conventional name.
      have hlt : n < 32 := Register.length_names ▸ (List.getElem?_eq_some_iff.1 hname).1
      have hregister : Register.ofName? (Text.lower t) = some (BitVec.ofNat 5 n) :=
        Register.ofName?_eq_some_iff.2 (by rwa [BitVec.toNat_ofNat, Nat.mod_eq_of_lt hlt])
      rw [ofName?_lower_of_registerDigits? h] at hregister
      cases hregister
  · rintro rfl
    exact ht ▸ .number hne hd

theorem denotes_iff_of_name {t : Text} (h : registerDigits? t = none) (n : Int) :
    Denotes t n ↔ ∃ r, Register.ofName? (Text.lower t) = some r ∧ n = r.toNat := by
  constructor
  · intro hdenotes
    cases hdenotes with
    | number hne hd =>
      rw [registerDigits?_eq_some_iff.2 ⟨rfl, hne, hd⟩] at h
      cases h
    | @name _ n hname =>
      have hlt : n < 32 := Register.length_names ▸ (List.getElem?_eq_some_iff.1 hname).1
      have hmod : (BitVec.ofNat 5 n).toNat = n := by
        rw [BitVec.toNat_ofNat, Nat.mod_eq_of_lt hlt]
      exact ⟨BitVec.ofNat 5 n, Register.ofName?_eq_some_iff.2 (by rwa [hmod]), by rw [hmod]⟩
  · rintro ⟨r, hr, rfl⟩
    exact .name (Register.ofName?_eq_some_iff.1 hr)

/-- A register is rejected exactly if it denotes no number, or one beyond the last register. -/
theorem raises_register_iff {t : Text} (ht : IsToken t) {kind : Fault.Kind} :
    Raises (register t) kind ↔ Misfit Denotes 0 31 t kind := by
  unfold register
  rw [ht.dropFinalNewline_eq]
  cases hds : registerDigits? t with
  | some ds =>
    obtain ⟨htext, -, hd⟩ := registerDigits?_eq_some_iff.1 hds
    have hshort := ht.short.of_isInfix (htext ▸ (List.suffix_cons (CodePoint.char '$') ds).isInfix)
    rw [misfit_of_meaning (denotes_iff_of_digits hds)]
    simp only [Numeral.ofDecimal_of_short hd hshort]
    split
    case isTrue hlt => exact iff_of_false (not_raises_ok _) fun h => h.1 (by omega)
    case isFalse hge =>
      rw [raises_fault_iff]
      exact ⟨fun h => ⟨by omega, h⟩, And.right⟩
  | none =>
    have hdenotes := denotes_iff_of_name hds
    cases hname : Register.ofName? (Text.lower t) with
    | some r =>
      have hmeaning : ∀ n, Denotes t n ↔ n = r.toNat := by
        intro n
        rw [hdenotes, hname]
        simp
      have hr := r.isLt
      rw [misfit_of_meaning hmeaning]
      exact iff_of_false (not_raises_ok _) fun h => h.1 (by omega)
    | none =>
      have hmeaningless : ∀ n, ¬Denotes t n := by
        intro n
        rw [hdenotes, hname]
        simp
      rw [misfit_of_meaningless hmeaningless]
      exact raises_fault_iff

/-! ## Integers -/

/-- An integer is rejected exactly if it spells no number, or one out of bounds. -/
theorem raises_integer_iff {t : Text} (ht : IsToken t) {low high : Int} {kind : Fault.Kind} :
    Raises (integer low high t) kind ↔ Misfit Numeral.Spells low high t kind := by
  have hspells : ∀ n, Numeral.readOperand t = .ok n ↔ Numeral.Spells t n := fun n =>
    Numeral.readOperand_eq_ok_iff ht.short.convertible
  rw [integer, ht.dropFinalNewline_eq]
  cases hread : Numeral.readOperand t with
  | ok n =>
    have hmeaning : ∀ m, Numeral.Spells t m ↔ m = n := by
      intro m
      rw [← hspells, hread, Except.ok.injEq, eq_comm]
    rw [misfit_of_meaning hmeaning]
    simp only
    split
    case isTrue hn => exact iff_of_false (not_raises_ok _) fun h => h.1 hn
    case isFalse hn =>
      rw [raises_fault_iff]
      exact ⟨fun h => ⟨hn, h⟩, And.right⟩
  | error e =>
    cases e with
    | malformed =>
      have hmeaningless : ∀ n, ¬Numeral.Spells t n := by
        intro n h
        rw [(hspells n).2 h] at hread
        cases hread
      rw [misfit_of_meaningless hmeaningless]
      exact raises_fault_iff
    | tooManyDigits count =>
      exact absurd hread (Numeral.readOperand_ne_tooManyDigits ht.short.convertible count)

/-! ## Memory operands -/

/-- The form of a memory operand: an integer or nothing, and behind it in parentheses a dollar sign
and a word of ASCII word characters, be it that of a register or not. -/
structure IsOffsetOf (t offset word : Text) : Prop where
  eq : t = offset ++ .char '(' :: (.char '$' :: word ++ [.char ')'])
  offset : offset = [] ∨ ∃ n, Numeral.Spells offset n
  ne_nil : word ≠ []
  char : ∀ c ∈ word, isWordChar c = true

/-- A memory operand is rejected for its form, then for its offset, then for its base. -/
inductive MemoryMisfit (t : Text) : Fault.Kind → Prop
  | form (h : ∀ offset word, ¬IsOffsetOf t offset word) : MemoryMisfit t .malformedOperand
  | offset {offset word : Text} {kind : Fault.Kind} (h : IsOffsetOf t offset word)
      (hne : offset ≠ []) (hoffset : Misfit Numeral.Spells (-32768) 32767 offset kind) :
      MemoryMisfit t kind
  | base {offset word : Text} {kind : Fault.Kind} (h : IsOffsetOf t offset word)
      (hoffset : offset = [] ∨ ∀ kind, ¬Misfit Numeral.Spells (-32768) 32767 offset kind)
      (hbase : Misfit Denotes 0 31 (.char '$' :: word) kind) : MemoryMisfit t kind

theorem memoryTexts?_iff_isOffsetOf {t offset word : Text} (ht : IsToken t) :
    memoryTexts? t = some (offset, .char '$' :: word) ↔ IsOffsetOf t offset word := by
  rw [memoryTexts?_eq_some_iff ht]
  constructor
  · rintro ⟨_, heq, ht, hoffset, hne, hword⟩
    obtain ⟨-, rfl⟩ := List.cons.inj heq
    exact ⟨ht, hoffset, hne, hword⟩
  · exact fun h => ⟨word, rfl, h.eq, h.offset, h.ne_nil, h.char⟩

/-- A memory operand with an offset and a base is rejected for the one, or for the other if the
offset is right. -/
theorem memoryMisfit_iff {t offset word : Text} (ht : IsToken t) (h : IsOffsetOf t offset word)
    {kind : Fault.Kind} : MemoryMisfit t kind ↔
      (offset ≠ [] ∧ Misfit Numeral.Spells (-32768) 32767 offset kind) ∨
      ((offset = [] ∨ ∀ kind, ¬Misfit Numeral.Spells (-32768) 32767 offset kind) ∧
        Misfit Denotes 0 31 (.char '$' :: word) kind) := by
  have hunique : ∀ {offset' word'}, IsOffsetOf t offset' word' →
      offset' = offset ∧ word' = word := by
    intro offset' word' h'
    have htexts := (memoryTexts?_iff_isOffsetOf ht).2 h
    rw [(memoryTexts?_iff_isOffsetOf ht).2 h'] at htexts
    simpa using htexts
  constructor
  · rintro (hform | ⟨h', hne, hoffset⟩ | ⟨h', hoffset, hbase⟩)
    · exact absurd h (hform _ _)
    · obtain ⟨rfl, rfl⟩ := hunique h'
      exact .inl ⟨hne, hoffset⟩
    · obtain ⟨rfl, rfl⟩ := hunique h'
      exact .inr ⟨hoffset, hbase⟩
  · rintro (⟨hne, hoffset⟩ | ⟨hoffset, hbase⟩)
    · exact .offset h hne hoffset
    · exact .base h hoffset hbase

theorem raises_memory_iff {t : Text} (ht : IsToken t) {kind : Fault.Kind} :
    Raises (memory t) kind ↔ MemoryMisfit t kind := by
  unfold memory
  rw [ht.dropFinalNewline_eq]
  cases htexts : memoryTexts? t with
  | none =>
    have hform : ∀ offset word, ¬IsOffsetOf t offset word := by
      intro offset word h
      rw [(memoryTexts?_iff_isOffsetOf ht).2 h] at htexts
      cases htexts
    rw [raises_fault_iff]
    constructor
    · rintro rfl
      exact .form hform
    · rintro (_ | ⟨h, -⟩ | ⟨h, -⟩)
      · rfl
      · exact absurd h (hform _ _)
      · exact absurd h (hform _ _)
  | some texts =>
    obtain ⟨offset, base⟩ := texts
    obtain ⟨word, rfl, -⟩ := (memoryTexts?_eq_some_iff ht).1 htexts
    have h := (memoryTexts?_iff_isOffsetOf ht).1 htexts
    have hoffset : IsToken offset := ht.of_isInfix (h.eq ▸ (List.prefix_append _ _).isInfix)
    have hbase : IsToken (.char '$' :: word) :=
      ht.of_isInfix ⟨offset ++ [.char '('], [')'], by simp [h.eq]⟩
    have hrest : ∀ n : Int, Raises (do
        let r ← register (.char '$' :: word)
        return (n, r)) kind ↔ Misfit Denotes 0 31 (.char '$' :: word) kind := by
      intro n
      rw [raises_bind_iff, raises_register_iff hbase]
      exact or_iff_left fun ⟨r, _, hr⟩ => not_raises_ok _ hr
    have hsequence : ∀ x : Except (Failure Fault) Int, Raises (do
        let n ← x
        let r ← register (.char '$' :: word)
        return (n, r)) kind ↔
          Raises x kind ∨ (∃ n, x = .ok n) ∧ Misfit Denotes 0 31 (.char '$' :: word) kind := by
      intro x
      rw [raises_bind_iff]
      simp only [hrest, exists_and_right]
    rw [memoryMisfit_iff ht h]
    simp only
    split
    case isTrue hnil =>
      rw [hsequence]
      simp [hnil]
    case isFalse hne =>
      have hreads : ∀ kind, Raises (integer halfwordLow halfwordHigh offset) kind ↔
          Misfit Numeral.Spells (-32768) 32767 offset kind := fun _ => raises_integer_iff hoffset
      rw [hsequence, (settles_integer hoffset _ _).exists_ok_iff]
      simp only [hreads]
      simp [hne]

end Operand

/-! ## Operands of a statement -/

namespace Slot

/-- An operand is rejected with a class. What is wrong with a memory operand is a parameter; a label
is rejected if it is not defined. -/
inductive Rejects (memory : Text → Fault.Kind → Prop) (table : SymbolTable) :
    Slot → Text → Fault.Kind → Prop
  | register {f : Field} {t : Text} {kind : Fault.Kind}
      (h : Operand.Misfit Operand.Denotes 0 31 t kind) : Rejects memory table (.register f) t kind
  | amount {t : Text} {kind : Fault.Kind} (h : Operand.Misfit Numeral.Spells 0 31 t kind) :
      Rejects memory table .amount t kind
  | constant {t : Text} {kind : Fault.Kind}
      (h : Operand.Misfit Numeral.Spells (-32768) 32767 t kind) :
      Rejects memory table .constant t kind
  | memory {t : Text} {kind : Fault.Kind} (h : memory t kind) : Rejects memory table .memory t kind
  | branchLabel {t : Text} (h : table.address? t = none) :
      Rejects memory table .branchLabel t .undefinedLabel
  | jumpLabel {t : Text} (h : table.address? t = none) :
      Rejects memory table .jumpLabel t .undefinedLabel

/-- The first of some operands that is rejected, from left to right, is rejected with a class. -/
inductive FirstRejected (memory : Text → Fault.Kind → Prop) (table : SymbolTable) :
    List Slot → List Text → Fault.Kind → Prop
  | here {slot : Slot} {slots : List Slot} {t : Text} {ts : List Text} {kind : Fault.Kind}
      (h : slot.Rejects memory table t kind) :
      FirstRejected memory table (slot :: slots) (t :: ts) kind
  | behind {slot : Slot} {slots : List Slot} {t : Text} {ts : List Text} {kind : Fault.Kind}
      (hfirst : ∀ kind, ¬slot.Rejects memory table t kind)
      (h : FirstRejected memory table slots ts kind) :
      FirstRejected memory table (slot :: slots) (t :: ts) kind

section Rejects

variable {memory : Text → Fault.Kind → Prop} {table : SymbolTable} {t : Text} {kind : Fault.Kind}

theorem rejects_register_iff {f : Field} :
    (register f).Rejects memory table t kind ↔ Operand.Misfit Operand.Denotes 0 31 t kind := by
  refine ⟨fun h => ?_, .register⟩
  cases h with
  | register h => exact h

theorem rejects_amount_iff :
    amount.Rejects memory table t kind ↔ Operand.Misfit Numeral.Spells 0 31 t kind := by
  refine ⟨fun h => ?_, .amount⟩
  cases h with
  | amount h => exact h

theorem rejects_constant_iff : constant.Rejects memory table t kind ↔
    Operand.Misfit Numeral.Spells (-32768) 32767 t kind := by
  refine ⟨fun h => ?_, .constant⟩
  cases h with
  | constant h => exact h

theorem rejects_memory_iff : Slot.memory.Rejects memory table t kind ↔ memory t kind := by
  refine ⟨fun h => ?_, .memory⟩
  cases h with
  | memory h => exact h

theorem rejects_branchLabel_iff : branchLabel.Rejects memory table t kind ↔
    table.address? t = none ∧ kind = .undefinedLabel := by
  refine ⟨fun h => ?_, fun ⟨h, hkind⟩ => hkind ▸ .branchLabel h⟩
  cases h with
  | branchLabel h => exact ⟨h, rfl⟩

theorem rejects_jumpLabel_iff : jumpLabel.Rejects memory table t kind ↔
    table.address? t = none ∧ kind = .undefinedLabel := by
  refine ⟨fun h => ?_, fun ⟨h, hkind⟩ => hkind ▸ .jumpLabel h⟩
  cases h with
  | jumpLabel h => exact ⟨h, rfl⟩

end Rejects

variable {table : SymbolTable} {pc : Int} {t : Text} {kind : Fault.Kind}

theorem settles_read (ht : IsToken t) (slot : Slot) : Settles (slot.read table pc t) := by
  cases slot with
  | register f => exact (Operand.settles_register ht).map _
  | amount => exact (Operand.settles_integer ht _ _).map _
  | constant => exact (Operand.settles_integer ht _ _).map _
  | memory => exact (Operand.settles_memory ht).map _
  | branchLabel =>
    rw [read]
    split
    · exact settles_ok _
    · exact settles_fault _
  | jumpLabel =>
    rw [read]
    split
    · exact settles_ok _
    · exact settles_fault _

theorem raises_read_iff (ht : IsToken t) (slot : Slot) :
    Raises (slot.read table pc t) kind ↔ slot.Rejects Operand.MemoryMisfit table t kind := by
  cases slot with
  | register f => rw [read, raises_map_iff, Operand.raises_register_iff ht, rejects_register_iff]
  | amount => rw [read, raises_map_iff, Operand.raises_integer_iff ht, rejects_amount_iff]
  | constant =>
    rw [read, raises_map_iff, rejects_constant_iff]
    exact Operand.raises_integer_iff ht
  | memory => rw [read, raises_map_iff, Operand.raises_memory_iff ht, rejects_memory_iff]
  | branchLabel =>
    rw [read, rejects_branchLabel_iff]
    cases h : table.address? t with
    | some target => exact iff_of_false (not_raises_ok _) (by simp)
    | none =>
      rw [raises_fault_iff]
      exact (and_iff_right rfl).symm
  | jumpLabel =>
    rw [read, rejects_jumpLabel_iff]
    cases h : table.address? t with
    | some target => exact iff_of_false (not_raises_ok _) (by simp)
    | none =>
      rw [raises_fault_iff]
      exact (and_iff_right rfl).symm

theorem settles_readAll {ts : List Text} (hts : ∀ t ∈ ts, IsToken t) (slots : List Slot) :
    Settles (readAll table pc slots ts) := by
  induction slots generalizing ts with
  | nil => exact settles_ok _
  | cons slot slots ih =>
    cases ts with
    | nil => exact settles_ok _
    | cons t ts =>
      obtain ⟨ht, hts⟩ := List.forall_mem_cons.1 hts
      exact (settles_read ht slot).bind fun _ => (ih hts).bind fun _ => settles_ok _

/-- Reading operands fails as the first one that is rejected. -/
theorem raises_readAll_iff {ts : List Text} (hts : ∀ t ∈ ts, IsToken t) (slots : List Slot) :
    Raises (readAll table pc slots ts) kind ↔
      FirstRejected Operand.MemoryMisfit table slots ts kind := by
  induction slots generalizing ts with
  | nil => exact iff_of_false (not_raises_ok _) nofun
  | cons slot slots ih =>
    cases ts with
    | nil => exact iff_of_false (not_raises_ok _) nofun
    | cons t ts =>
      obtain ⟨ht, hts⟩ := List.forall_mem_cons.1 hts
      have hrest : ∀ first : Fields, Raises (do
          let rest ← readAll table pc slots ts
          return first ++ rest) kind ↔ FirstRejected Operand.MemoryMisfit table slots ts kind := by
        intro first
        rw [raises_bind_iff, ih hts]
        exact or_iff_left fun ⟨_, _, hpure⟩ => not_raises_ok _ hpure
      rw [readAll, raises_bind_iff]
      simp only [hrest, exists_and_right, (settles_read ht slot).exists_ok_iff, raises_read_iff ht]
      constructor
      · rintro (hfirst | ⟨hfirst, h⟩)
        · exact .here hfirst
        · exact .behind hfirst h
      · rintro (hfirst | ⟨hfirst, h⟩)
        · exact .inl hfirst
        · exact .inr ⟨hfirst, h⟩

end Slot

end Mips32
