import Mips32.Numeral.Digits

/-!
# Registers

The machine has 32 general registers. In source text each has a number and one conventional name.
-/

namespace Mips32

/-- A general register is its number. -/
abbrev Register := BitVec 5

namespace Register

/-- The conventional names, the name of register `n` at place `n`. -/
def names : List Text :=
  ["$zero", "$at", "$v0", "$v1", "$a0", "$a1", "$a2", "$a3",
   "$t0", "$t1", "$t2", "$t3", "$t4", "$t5", "$t6", "$t7",
   "$s0", "$s1", "$s2", "$s3", "$s4", "$s5", "$s6", "$s7",
   "$t8", "$t9", "$k0", "$k1", "$gp", "$sp", "$fp", "$ra"].map String.text

/-- The register with a conventional name, which is written in lower case. -/
def ofName? (name : Text) : Option Register :=
  (names.findIdx? (· == name)).map (BitVec.ofNat 5)

/-- The numeric spelling of a register. -/
def spelling (r : Register) : Text :=
  .char '$' :: Numeral.digits 10 r.toNat

theorem length_names : names.length = 32 := by decide

/-- Each conventional name names the register at its place. -/
theorem ofName?_names (r : Register) :
    ofName? (names.get ⟨r.toNat, by rw [length_names]; exact r.isLt⟩) = some r := by
  revert r; decide

end Register

end Mips32
