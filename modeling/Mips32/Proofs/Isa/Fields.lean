import Mathlib.Algebra.Group.Int.Defs
import Mathlib.Algebra.Group.Nat.Defs
import Mips32.Proofs.Source.Reads

/-!
# From operands to fields and back

A word is told here in a second way, by numbers instead of bit vectors. `Statement.fields` reads the
operands of a statement by a table of operand kinds (`Mnemonic.slots`) into named integers, of any
size that the readers let through. `Mnemonic.parts` puts such integers in place: each is shifted to
where its field stands, and the word would be their disjunction, without a mask.
`Word.field` goes the other way and reads a field of a word by its position.

`carries_of_encodeLine` brings the two together for every line that has a word: the parts share no
bit and make up the word without a mask, the word decodes to the operation of the statement, and
each field of the word is the integer that was read for it. So a word says everything about the line
that was encoded except where the line stood and how it was spelled.
-/

namespace Mips32

/-- A field of a word besides its operation code. -/
inductive Field where
  | rs | rt | rd | amount | low | index
  deriving DecidableEq, Repr

/-- The number in a field of a word; the low half counts with its sign. -/
def Word.field (w : Word) : Field → Int
  | .rs => w.rs.toNat
  | .rt => w.rt.toNat
  | .rd => w.rd.toNat
  | .amount => w.amount.toNat
  | .low => w.low.toInt
  | .index => w.index.toNat

/-- Fields with the integers that go into them. -/
abbrev Fields := List (Field × Int)

/-- The integer for a field, zero for one that is not set. -/
def Fields.value : Fields → Field → Int
  | [], _ => 0
  | (g, n) :: rest, f => if g = f then n else Fields.value rest f

/-! ## Operand kinds -/

/-- What an operand of a statement is. -/
inductive Slot where
  | register (f : Field)
  | amount
  | constant
  | memory
  | branchLabel
  | jumpLabel
  deriving DecidableEq, Repr

namespace Slot

/-- The fields that an operand fills. -/
def fields : Slot → List Field
  | .register f => [f]
  | .amount => [.amount]
  | .constant | .branchLabel => [.low]
  | .memory => [.low, .rs]
  | .jumpLabel => [.index]

/-- Reads an operand of an instruction at `pc`. The distance of a branch is cut off toward zero, the
index of a jump is what 26 bits hold of the index of the word. -/
def read (table : SymbolTable) (pc : Int) (token : Text) : Slot → Except (Failure Fault) Fields
  | .register f => (Operand.register token).map fun r => [(f, r.toNat)]
  | .amount => (Operand.integer 0 31 token).map fun n => [(.amount, n)]
  | .constant => (Operand.integer halfwordLow halfwordHigh token).map fun n => [(.low, n)]
  | .memory => (Operand.memory token).map fun (n, base) => [(.low, n), (.rs, base.toNat)]
  | .branchLabel =>
    match table.address? token with
    | some target => .ok [(.low, Int.tdiv (target - pc - 4) 4)]
    | none => .error (.fault (.undefinedLabel token))
  | .jumpLabel =>
    match table.address? token with
    | some target => .ok [(.index, target / 4 % 2 ^ 26)]
    | none => .error (.fault (.undefinedLabel token))

/-- Reads operands from left to right. -/
def readAll (table : SymbolTable) (pc : Int) : List Slot → List Text → Except (Failure Fault) Fields
  | slot :: slots, token :: tokens => do
    let first ← slot.read table pc token
    let rest ← readAll table pc slots tokens
    return first ++ rest
  | _, _ => .ok []

variable {table : SymbolTable} {pc : Int} {token : Text}

theorem readAll_cons {slot : Slot} {slots : List Slot} {tokens : List Text} {first rest : Fields}
    (h : slot.read table pc token = .ok first) (hr : readAll table pc slots tokens = .ok rest) :
    readAll table pc (slot :: slots) (token :: tokens) = .ok (first ++ rest) := by
  rw [readAll]
  exact bind_eq_ok.2 ⟨first, h, bind_eq_ok.2 ⟨rest, hr, rfl⟩⟩

/-- What is read from an operand sets just the fields that the operand fills. -/
theorem map_fst_of_read {slot : Slot} {fields : Fields}
    (h : slot.read table pc token = .ok fields) : fields.map Prod.fst = slot.fields := by
  cases slot with
  | branchLabel =>
    rw [read] at h
    split at h
    · cases h
      rfl
    · cases h
  | jumpLabel =>
    rw [read] at h
    split at h
    · cases h
      rfl
    · cases h
  | _ =>
    obtain ⟨_, -, rfl⟩ := map_eq_ok.1 h
    rfl

theorem map_fst_of_readAll {slots : List Slot} {tokens : List Text} {fields : Fields}
    (hlength : tokens.length = slots.length) (h : readAll table pc slots tokens = .ok fields) :
    fields.map Prod.fst = slots.flatMap Slot.fields := by
  induction slots generalizing tokens fields with
  | nil =>
    rw [readAll] at h
    · cases h
      rfl
    · nofun
  | cons slot slots ih =>
    cases tokens with
    | nil => cases hlength
    | cons token tokens =>
      simp only [readAll, bind_eq_ok, pure_eq_ok] at h
      obtain ⟨first, hfirst, rest, hrest, rfl⟩ := h
      rw [List.map_append, List.flatMap_cons, map_fst_of_read hfirst,
        ih (Nat.succ.inj hlength) hrest]

theorem read_register {r : Register} (f : Field) (h : Operand.register token = .ok r) :
    (Slot.register f).read table pc token = .ok [(f, r.toNat)] := by
  rw [read, h]
  rfl

theorem read_amount {n : Int} (h : Operand.integer 0 31 token = .ok n) :
    Slot.amount.read table pc token = .ok [(.amount, n)] := by
  rw [read, h]
  rfl

theorem read_constant {n : Int} (h : Operand.integer halfwordLow halfwordHigh token = .ok n) :
    Slot.constant.read table pc token = .ok [(.low, n)] := by
  rw [read, h]
  rfl

theorem read_memory {n : Int} {base : Register} (h : Operand.memory token = .ok (n, base)) :
    Slot.memory.read table pc token = .ok [(.low, n), (.rs, base.toNat)] := by
  rw [read, h]
  rfl

/-- A branch that has a field has its label read as the number in that field. -/
theorem read_branchLabel {d : BitVec 16}
    (h : SymbolicInstruction.branchField table pc token = .ok d) :
    Slot.branchLabel.read table pc token = .ok [(.low, d.toInt)] := by
  obtain ⟨target, htarget, hd⟩ := SymbolicInstruction.branchField_eq_ok_iff.1 h
  rw [read, htarget, hd]
  rfl

theorem read_jumpLabel {target : Int} (h : SymbolicInstruction.resolve table token = .ok target) :
    Slot.jumpLabel.read table pc token = .ok [(.index, (Address.jumpIndex target).toNat)] := by
  rw [read, SymbolicInstruction.resolve_eq_ok_iff.1 h, Address.natCast_jumpIndex]

end Slot

/-- The operands of an operation in their source order. -/
def Mnemonic.slots : Mnemonic → List Slot
  | .arith _ => [.register .rd, .register .rs, .register .rt]
  | .variableShift _ => [.register .rd, .register .rt, .register .rs]
  | .shift _ => [.register .rd, .register .rt, .amount]
  | .immediate _ => [.register .rt, .register .rs, .constant]
  | .memory _ => [.register .rt, .memory]
  | .branchPair _ => [.register .rs, .register .rt, .branchLabel]
  | .branchSign _ => [.register .rs, .branchLabel]
  | .jump => [.jumpLabel]

/-- The fields that a statement at `pc` gives. -/
def Statement.fields (table : SymbolTable) (pc : Int) (s : Statement) :
    Except (Failure Fault) Fields :=
  if s.operands.length = s.mnemonic.slots.length then
    Slot.readAll table pc s.mnemonic.slots s.operands
  else .error (.fault (.operandCount s.mnemonic s.operands.length))

/-- The fields that an operation uses. -/
def Mnemonic.used (m : Mnemonic) : List Field :=
  m.slots.flatMap Slot.fields

/-- A statement whose operands are read sets all fields that its operation uses. -/
theorem Statement.map_fst_of_fields {table : SymbolTable} {pc : Int} {s : Statement}
    {fields : Fields} (h : s.fields table pc = .ok fields) :
    fields.map Prod.fst = s.mnemonic.used := by
  unfold Statement.fields at h
  split at h
  case isTrue hlength => exact Slot.map_fst_of_readAll hlength h
  case isFalse => cases h

/-- The fields that the layout of an operation has, used or not. -/
def Mnemonic.layout : Mnemonic → List Field
  | .arith _ | .variableShift _ | .shift _ => [.rs, .rt, .rd, .amount]
  | .immediate _ | .memory _ | .branchPair _ | .branchSign _ => [.rs, .rt, .low]
  | .jump => [.index]

/-! ## Placement -/

/-- A number and the position in a word of its lowest bit. -/
structure Part where
  number : Nat
  position : Nat
  deriving DecidableEq, Repr

namespace Part

/-- The number shifted to its position. -/
def place (a : Part) : Nat :=
  a.number <<< a.position

/-- All numbers at their positions, put together. -/
def union (parts : List Part) : Nat :=
  parts.foldr (fun a n => a.place ||| n) 0

/-- A number in place shares no bit with one that ends below it. -/
theorem place_and_place {a b : Part} (hb : b.number < 2 ^ (a.position - b.position))
    (h : b.position ≤ a.position) : a.place &&& b.place = 0 := by
  apply Nat.eq_of_testBit_eq
  intro i
  rw [place, place, Nat.testBit_and, Nat.testBit_shiftLeft, Nat.testBit_shiftLeft, Nat.zero_testBit]
  -- From the position of `a` on, the number of `b` has no bits left.
  by_cases ha : a.position ≤ i
  · have hlt : b.number < 2 ^ (i - b.position) :=
      Nat.lt_of_lt_of_le hb (Nat.pow_le_pow_right (by omega) (by omega))
    simp [Nat.testBit_lt_two_pow hlt]
  · simp [ha]

/-- Parts that make up a word: no two of them share a bit, and together they are the word as they
stand, without a mask. -/
structure Makes (parts : List Part) (w : Word) : Prop where
  disjoint : parts.Pairwise fun a b => a.place &&& b.place = 0
  union_eq : union parts = w.toNat

/-- Parts each of which ends below those before it share no bit. -/
theorem disjoint_of_fit {parts : List Part} (h : parts.Pairwise fun a b =>
    b.number < 2 ^ (a.position - b.position) ∧ b.position ≤ a.position) :
    parts.Pairwise fun a b => a.place &&& b.place = 0 :=
  h.imp fun hab => place_and_place hab.1 hab.2

end Part

/-- The parts of a word, from the highest down. A number for the low half is what sixteen bits hold
of it; every other number goes in as it is. -/
def Mnemonic.parts (m : Mnemonic) (v : Field → Int) : List Part :=
  let rs : Part := ⟨(v .rs).toNat, 21⟩
  let rt : Part := ⟨(v .rt).toNat, 16⟩
  let rd : Part := ⟨(v .rd).toNat, 11⟩
  let low : Part := ⟨(v .low % 2 ^ 16).toNat, 0⟩
  match m with
  | .arith op => [rs, rt, rd, ⟨op.funct.toNat, 0⟩]
  | .variableShift op => [rs, rt, rd, ⟨op.variableFunct.toNat, 0⟩]
  | .shift op => [rt, rd, ⟨(v .amount).toNat, 6⟩, ⟨op.funct.toNat, 0⟩]
  | .immediate op => [⟨op.opcode.toNat, 26⟩, rs, rt, low]
  | .memory op => [⟨op.opcode.toNat, 26⟩, rs, rt, low]
  | .branchPair test => [⟨test.opcode.toNat, 26⟩, rs, rt, low]
  | .branchSign test => [⟨test.opcode.toNat, 26⟩, rs, rt, low]
  | .jump => [⟨jumpOpcode.toNat, 26⟩, ⟨(v .index).toNat, 0⟩]

/-- The word of an operation takes a field: what is placed depends on the number for it. -/
def Mnemonic.Takes (m : Mnemonic) (f : Field) : Prop :=
  ∃ v v' : Field → Int, (∀ g ≠ f, v g = v' g) ∧ m.parts v ≠ m.parts v'

/-- The word of an operation takes the fields that its operands set. A comparison with zero takes
the field of a second register as well, which no operand sets. -/
theorem Mnemonic.takes_iff {m : Mnemonic} {f : Field} :
    m.Takes f ↔ f ∈ m.used ∨ f = .rt ∧ ∃ test, m = .branchSign test := by
  constructor
  · rintro ⟨v, v', hsame, hne⟩
    refine Classical.byContradiction fun hno => hne ?_
    cases m <;> cases f <;> simp [used, slots, Slot.fields] at hno
    -- In all pairs that are left the field is not looked at.
    all_goals simp [parts, hsame]
  · intro h
    refine ⟨fun _ => 0, fun g => if g = f then 1 else 0, fun g hg => (if_neg hg).symm, ?_⟩
    cases m <;> cases f <;> simp [used, slots, Slot.fields] at h
    all_goals simp [parts]

/-! ## Machine instructions as numbers -/

namespace Word

theorem toNat_ofRegisters (rs rt rd amount : BitVec 5) (funct : BitVec 6) :
    (ofRegisters rs rt rd amount funct).toNat =
      rs.toNat <<< 21 ||| (rt.toNat <<< 16 ||| (rd.toNat <<< 11 |||
        (amount.toNat <<< 6 ||| funct.toNat))) := by
  show BitVec.toNat (w := 6 + 5 + 5 + 5 + 5 + 6) (0#6 ++ rs ++ rt ++ rd ++ amount ++ funct) = _
  simp only [BitVec.toNat_append]
  simp [Nat.shiftLeft_or_distrib, ← Nat.shiftLeft_add, Nat.or_assoc]

theorem toNat_ofImmediate (opcode : BitVec 6) (rs rt : BitVec 5) (low : BitVec 16) :
    (ofImmediate opcode rs rt low).toNat =
      opcode.toNat <<< 26 ||| (rs.toNat <<< 21 ||| (rt.toNat <<< 16 ||| low.toNat)) := by
  show BitVec.toNat (w := 6 + 5 + 5 + 16) (opcode ++ rs ++ rt ++ low) = _
  simp only [BitVec.toNat_append]
  simp [Nat.shiftLeft_or_distrib, ← Nat.shiftLeft_add, Nat.or_assoc]

theorem toNat_ofIndex (opcode : BitVec 6) (index : BitVec 26) :
    (ofIndex opcode index).toNat = opcode.toNat <<< 26 ||| index.toNat :=
  BitVec.toNat_append opcode index

/-- Register layout without a shift amount. -/
theorem makes_ofRegisters (rs rt rd : BitVec 5) (funct : BitVec 6) :
    Part.Makes [⟨rs.toNat, 21⟩, ⟨rt.toNat, 16⟩, ⟨rd.toNat, 11⟩, ⟨funct.toNat, 0⟩]
      (ofRegisters rs rt rd 0 funct) := by
  have ht := rt.isLt
  have hd := rd.isLt
  have hf := funct.isLt
  refine ⟨Part.disjoint_of_fit ?_, ?_⟩
  · simp
    omega
  · rw [toNat_ofRegisters]
    simp [Part.union, Part.place]

/-- Register layout without a first source register. -/
theorem makes_ofRegisters_amount (rt rd amount : BitVec 5) (funct : BitVec 6) :
    Part.Makes [⟨rt.toNat, 16⟩, ⟨rd.toNat, 11⟩, ⟨amount.toNat, 6⟩, ⟨funct.toNat, 0⟩]
      (ofRegisters 0 rt rd amount funct) := by
  have hd := rd.isLt
  have ha := amount.isLt
  have hf := funct.isLt
  refine ⟨Part.disjoint_of_fit ?_, ?_⟩
  · simp
    omega
  · rw [toNat_ofRegisters]
    simp [Part.union, Part.place]

theorem makes_ofImmediate (opcode : BitVec 6) (rs rt : BitVec 5) (low : BitVec 16) :
    Part.Makes [⟨opcode.toNat, 26⟩, ⟨rs.toNat, 21⟩, ⟨rt.toNat, 16⟩, ⟨(low.toInt % 2 ^ 16).toNat, 0⟩]
      (ofImmediate opcode rs rt low) := by
  have hlow : (low.toInt % 2 ^ 16).toNat = low.toNat := by
    have h := congrArg BitVec.toNat (BitVec.ofInt_toInt (x := low))
    rwa [BitVec.toNat_ofInt] at h
  have hs := rs.isLt
  have ht := rt.isLt
  have hl := low.isLt
  rw [hlow]
  refine ⟨Part.disjoint_of_fit ?_, ?_⟩
  · simp
    omega
  · rw [toNat_ofImmediate]
    simp [Part.union, Part.place]

theorem makes_ofIndex (opcode : BitVec 6) (index : BitVec 26) :
    Part.Makes [⟨opcode.toNat, 26⟩, ⟨index.toNat, 0⟩] (ofIndex opcode index) := by
  have hi := index.isLt
  refine ⟨Part.disjoint_of_fit ?_, ?_⟩
  · simp
    omega
  · rw [toNat_ofIndex]
    simp [Part.union, Part.place]

theorem field_ofRegisters (rs rt rd amount : BitVec 5) (funct : BitVec 6) :
    let w := ofRegisters rs rt rd amount funct
    w.field .rs = rs.toNat ∧ w.field .rt = rt.toNat ∧ w.field .rd = rd.toNat ∧
      w.field .amount = amount.toNat := by
  obtain ⟨-, hs, ht, hd, ha, -⟩ := fields_ofRegisters rs rt rd amount funct
  simp only [field, hs, ht, hd, ha, and_self]

theorem field_ofImmediate (opcode : BitVec 6) (rs rt : BitVec 5) (low : BitVec 16) :
    let w := ofImmediate opcode rs rt low
    w.field .rs = rs.toNat ∧ w.field .rt = rt.toNat ∧ w.field .low = low.toInt := by
  obtain ⟨-, hs, ht, hlow⟩ := fields_ofImmediate opcode rs rt low
  simp only [field, hs, ht, hlow, and_self]

theorem field_ofIndex (opcode : BitVec 6) (index : BitVec 26) :
    (ofIndex opcode index).field .index = index.toNat := by
  simp only [field, (fields_ofIndex opcode index).2]

end Word

namespace MachineInstruction

/-- The fields of an instruction with their numbers, in the source order of its operands. -/
def fields : MachineInstruction → Fields
  | .arith _ rd rs rt => [(.rd, rd.toNat), (.rs, rs.toNat), (.rt, rt.toNat)]
  | .variableShift _ rd rt rs => [(.rd, rd.toNat), (.rt, rt.toNat), (.rs, rs.toNat)]
  | .shift _ rd rt amount => [(.rd, rd.toNat), (.rt, rt.toNat), (.amount, amount.toNat)]
  | .immediate _ rt rs value => [(.rt, rt.toNat), (.rs, rs.toNat), (.low, value.toInt)]
  | .memory _ rt base offset => [(.rt, rt.toNat), (.low, offset.toInt), (.rs, base.toNat)]
  | .branchPair _ rs rt target => [(.rs, rs.toNat), (.rt, rt.toNat), (.low, target.toInt)]
  | .branchSign _ rs target => [(.rs, rs.toNat), (.low, target.toInt)]
  | .jump target => [(.index, target.toNat)]

/-- A word holds exactly the numbers of its instruction. -/
theorem fields_eq (m : MachineInstruction) :
    m.fields = m.mnemonic.used.map fun f => (f, m.encode.field f) := by
  cases m with
  | arith op rd rs rt =>
    obtain ⟨hs, ht, hd, -⟩ := Word.field_ofRegisters rs rt rd 0 op.funct
    rw [fields, ← hd, ← hs, ← ht]
    rfl
  | variableShift op rd rt rs =>
    obtain ⟨hs, ht, hd, -⟩ := Word.field_ofRegisters rs rt rd 0 op.variableFunct
    rw [fields, ← hd, ← ht, ← hs]
    rfl
  | shift op rd rt amount =>
    obtain ⟨-, ht, hd, ha⟩ := Word.field_ofRegisters 0 rt rd amount op.funct
    rw [fields, ← hd, ← ht, ← ha]
    rfl
  | immediate op rt rs value =>
    obtain ⟨hs, ht, hlow⟩ := Word.field_ofImmediate op.opcode rs rt value
    rw [fields, ← ht, ← hs, ← hlow]
    rfl
  | memory op rt base offset =>
    obtain ⟨hs, ht, hlow⟩ := Word.field_ofImmediate op.opcode base rt offset
    rw [fields, ← ht, ← hlow, ← hs]
    rfl
  | branchPair test rs rt target =>
    obtain ⟨hs, ht, hlow⟩ := Word.field_ofImmediate test.opcode rs rt target
    rw [fields, ← hs, ← ht, ← hlow]
    rfl
  | branchSign test rs target =>
    obtain ⟨hs, -, hlow⟩ := Word.field_ofImmediate test.opcode rs 0 target
    rw [fields, ← hs, ← hlow]
    rfl
  | jump target =>
    rw [fields, ← Word.field_ofIndex jumpOpcode target]
    rfl

/-- A field of the layout that the operation does not use is zero. -/
theorem field_eq_zero (m : MachineInstruction) {f : Field} (hf : f ∈ m.mnemonic.layout)
    (hu : f ∉ m.mnemonic.used) : m.encode.field f = 0 := by
  -- Four pairs are left of an operation and a field of its layout that it does not use.
  cases m <;> cases f <;>
    simp [Instruction.mnemonic, Mnemonic.layout, Mnemonic.used, Mnemonic.slots,
      Slot.fields] at hf hu
  case arith.amount op rd rs rt => exact (Word.field_ofRegisters rs rt rd 0 op.funct).2.2.2
  case variableShift.amount op rd rt rs =>
    exact (Word.field_ofRegisters rs rt rd 0 op.variableFunct).2.2.2
  case shift.rs op rd rt amount => exact (Word.field_ofRegisters 0 rt rd amount op.funct).1
  case branchSign.rt test rs target =>
    exact (Word.field_ofImmediate test.opcode rs 0 target).2.1

/-- The parts that are placed for an instruction make up its word. -/
theorem makes_encode (m : MachineInstruction) :
    Part.Makes (m.mnemonic.parts m.fields.value) m.encode := by
  cases m with
  | arith op rd rs rt => exact Word.makes_ofRegisters rs rt rd op.funct
  | variableShift op rd rt rs => exact Word.makes_ofRegisters rs rt rd op.variableFunct
  | shift op rd rt amount => exact Word.makes_ofRegisters_amount rt rd amount op.funct
  | immediate op rt rs value => exact Word.makes_ofImmediate op.opcode rs rt value
  | memory op rt base offset => exact Word.makes_ofImmediate op.opcode base rt offset
  | branchPair test rs rt target => exact Word.makes_ofImmediate test.opcode rs rt target
  | branchSign test rs target => exact Word.makes_ofImmediate test.opcode rs 0 target
  | jump target => exact Word.makes_ofIndex jumpOpcode target

end MachineInstruction

/-! ## What a word says about its line -/

open Slot in
/-- An instruction that a statement reads as, once linked, has the fields that the table of operand
kinds reads from the statement. -/
theorem Statement.fields_of_reads {table : SymbolTable} {pc : Int} {s : Statement}
    {i : SymbolicInstruction} {m : MachineInstruction} (h : s.Reads i)
    (hm : i.link table pc = .ok m) :
    s.fields table pc = .ok m.fields ∧ m.mnemonic = s.mnemonic := by
  cases h with
  | arith hd hs ht =>
    cases hm
    exact ⟨readAll_cons (read_register .rd hd) (readAll_cons (read_register .rs hs)
      (readAll_cons (read_register .rt ht) rfl)), rfl⟩
  | variableShift hd ht hs =>
    cases hm
    exact ⟨readAll_cons (read_register .rd hd) (readAll_cons (read_register .rt ht)
      (readAll_cons (read_register .rs hs) rfl)), rfl⟩
  | shift hd ht ha =>
    cases hm
    exact ⟨readAll_cons (read_register .rd hd) (readAll_cons (read_register .rt ht)
      (readAll_cons (read_amount ha) rfl)), rfl⟩
  | immediate ht hs hn =>
    cases hm
    exact ⟨readAll_cons (read_register .rt ht) (readAll_cons (read_register .rs hs)
      (readAll_cons (read_constant hn) rfl)), rfl⟩
  | memory ht ha =>
    cases hm
    exact ⟨readAll_cons (read_register .rt ht) (readAll_cons (read_memory ha) rfl), rfl⟩
  | branchPair hs ht =>
    obtain ⟨d, hd, rfl⟩ := map_eq_ok.1 hm
    exact ⟨readAll_cons (read_register .rs hs) (readAll_cons (read_register .rt ht)
      (readAll_cons (read_branchLabel hd) rfl)), rfl⟩
  | branchSign hs =>
    obtain ⟨d, hd, rfl⟩ := map_eq_ok.1 hm
    exact ⟨readAll_cons (read_register .rs hs) (readAll_cons (read_branchLabel hd) rfl), rfl⟩
  | jump =>
    obtain ⟨target, htarget, rfl⟩ := map_eq_ok.1 hm
    exact ⟨readAll_cons (read_jumpLabel htarget) rfl, rfl⟩

/-- A line that has a word is a statement, and the word is that of one machine instruction, which
has the operation and the fields of the statement. -/
theorem exists_instruction_of_encodeLine {table : SymbolTable} {pc : Int} {line : Text} {w : Word}
    (h : encodeLine table pc line = .ok w) :
    ∃ s m, Statement.parse line = .ok s ∧ s.fields table pc = .ok m.fields ∧
      m.mnemonic = s.mnemonic ∧ MachineInstruction.encode m = w := by
  obtain ⟨s, i, m, hs, hreads, hlink, rfl⟩ := encodeLine_eq_ok_iff.1 h
  obtain ⟨hfields, hmnemonic⟩ := Statement.fields_of_reads hreads hlink
  exact ⟨s, m, hs, hfields, hmnemonic, rfl⟩

/-- A word that carries an operation with its fields: the fields fit in it side by side, and it can
be decoded into the operation and into each of the fields. -/
structure Word.Carries (w : Word) (m : Mnemonic) (fields : Fields) : Prop where
  makes : Part.Makes (m.parts fields.value) w
  masked : Part.union (m.parts fields.value) &&& 0xFFFFFFFF = Part.union (m.parts fields.value)
  operation : (MachineInstruction.decode w).map Instruction.mnemonic = some m
  field : ∀ f n, (f, n) ∈ fields → w.field f = n
  unused : ∀ f ∈ m.layout, f ∉ m.used → w.field f = 0

theorem MachineInstruction.carries_encode (m : MachineInstruction) :
    m.encode.Carries m.mnemonic m.fields where
  makes := m.makes_encode
  masked := by
    rw [m.makes_encode.union_eq]
    exact Nat.and_two_pow_sub_one_of_lt_two_pow m.encode.isLt
  operation := by rw [decode_encode, Option.map_some]
  field := by
    intro f n h
    rw [fields_eq, List.mem_map] at h
    obtain ⟨_, -, heq⟩ := h
    cases heq
    rfl
  unused := fun _ hf hu => m.field_eq_zero hf hu

/-- The word of a line carries the operation and the fields of the line. So every other line that
has the same word, wherever it stands and whatever its labels are worth there, has the same
operation and the same fields. -/
theorem carries_of_encodeLine {table : SymbolTable} {pc : Int} {line : Text} {w : Word}
    (h : encodeLine table pc line = .ok w) :
    ∃ s fields, Statement.parse line = .ok s ∧ s.fields table pc = .ok fields ∧
      w.Carries s.mnemonic fields ∧
      ∀ table' pc' line', encodeLine table' pc' line' = .ok w →
        ∃ s', Statement.parse line' = .ok s' ∧ s'.mnemonic = s.mnemonic ∧
          s'.fields table' pc' = .ok fields := by
  obtain ⟨s, m, hs, hfields, hmnemonic, rfl⟩ := exists_instruction_of_encodeLine h
  refine ⟨s, m.fields, hs, hfields, hmnemonic ▸ m.carries_encode, fun table' pc' line' h' => ?_⟩
  obtain ⟨s', m', hs', hfields', hmnemonic', heq⟩ := exists_instruction_of_encodeLine h'
  have hm : m' = m := by
    have hdecode := congrArg MachineInstruction.decode heq
    simpa [MachineInstruction.decode_encode] using hdecode
  subst hm
  exact ⟨s', hs', hmnemonic'.symm.trans hmnemonic, hfields'⟩

/-- Neither the label nor the branch is at the address of a word: the distance is fourteen back. -/
theorem carries_far_branch :
    encodeLine [("far".text, -7)] 3 "beq $1, $t2, far".text = .ok 0x102afffd ∧
      Word.Carries 0x102afffd (.branchPair .equal) [(.rs, 1), (.rt, 10), (.low, -3)] := by
  have h : encodeLine [("far".text, -7)] 3 "beq $1, $t2, far".text = .ok 0x102afffd := by rfl
  have hparse : Statement.parse "beq $1, $t2, far".text =
      .ok ⟨.branchPair .equal, ["$1".text, "$t2".text, "far".text]⟩ := by rfl
  obtain ⟨s, fields, hs, hfields, hcarries, -⟩ := carries_of_encodeLine h
  obtain rfl := Except.ok.inj (hparse.symm.trans hs)
  obtain rfl : [(.rs, 1), (.rt, 10), (.low, -3)] = fields := Except.ok.inj hfields
  exact ⟨h, hcarries⟩

end Mips32
