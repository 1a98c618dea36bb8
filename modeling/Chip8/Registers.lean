/-
The sixteen general registers and the arithmetic done on them. The last register doubles
as the flag. Each operation states in which order the operand and the flag are written,
and reads registers as the write before left them; that order is all there is to say
about what happens when an operand is the flag itself.
-/

import Chip8.Bytes
import Chip8.Instruction

namespace Chip8

/-- The contents of the general registers. -/
structure Registers where
  values : Vector UInt8 16
  deriving DecidableEq

/-- The register that carries, borrows and collisions are reported in. -/
def flagRegister : Register := ⟨15, by decide⟩

/-- The register that relative jumps add. -/
def jumpRegister : Register := ⟨0, by decide⟩

/-- A truth value as a register holds it. -/
def flag (truth : Bool) : UInt8 := if truth then 1 else 0

/-- A block of registers is counted without wrapping. -/
theorem toNat_blockSize (last : Register) :
    (UInt64.ofNat (last.val + 1)).toNat = last.val + 1 := by
  rw [UInt64.toNat_ofNat']
  omega

namespace Registers

/-- All registers are zero. -/
def zero : Registers := ⟨Vector.replicate 16 0⟩

/-- The value of a register. -/
def get (registers : Registers) (x : Register) : UInt8 := registers.values[x.val]

/-- Puts a value in a register. -/
def set (registers : Registers) (x : Register) (value : UInt8) : Registers :=
  ⟨registers.values.set x.val value⟩

/-- The values, from register zero up. -/
def toList (registers : Registers) : List UInt8 := registers.values.toList

/-- Puts values in the registers from register zero up. -/
def fill (registers : Registers) (values : List UInt8) : Registers :=
  ⟨Bytes.write registers.values 0 values⟩

@[simp] theorem get_set_self (registers : Registers) (x : Register) (value : UInt8) :
    (registers.set x value).get x = value := by
  simp [get, set]

theorem get_set_other (registers : Registers) (x other : Register) (value : UInt8)
    (different : other ≠ x) : (registers.set x value).get other = registers.get other := by
  have apart : x.val ≠ other.val := fun same => different (Fin.ext same.symm)
  simp [get, set, apart]

/-- Of two values put in one register the second stays. -/
theorem set_set_self (registers : Registers) (x : Register) (value byte : UInt8) :
    (registers.set x value).set x byte = registers.set x byte := by
  simp only [set, Vector.set_set]

theorem ext_get {first second : Registers} (same : ∀ x, first.get x = second.get x) :
    first = second := by
  cases first
  cases second
  exact congrArg mk (Vector.ext fun number named => same ⟨number, named⟩)

/-- A fill reaches the registers that it has values for. -/
theorem get_fill (registers : Registers) (values : List UInt8) (x : Register) :
    (registers.fill values).get x = values[x.val]?.getD (registers.get x) := by
  have written := Bytes.getElem_write registers.values 0 values x.val x.isLt
  rwa [if_pos (Nat.zero_le _)] at written

/-- The values of the registers up to one are those registers. -/
theorem take_toList_getElem?_eq_some_iff (registers : Registers) (last : Register)
    (byte : UInt8) (place : Nat) :
    (registers.toList.take (last.val + 1))[place]? = some byte ↔
      ∃ x ≤ last, x.val = place ∧ registers.get x = byte := by
  have sixteen : registers.toList.length = 16 := by simp [toList]
  rw [List.getElem?_eq_some_iff]
  constructor
  · rintro ⟨inside, rfl⟩
    rw [List.length_take] at inside
    refine ⟨⟨place, by omega⟩, Fin.le_def.mpr (by simp only; omega), rfl, ?_⟩
    simp [get, toList]
  · rintro ⟨x, within, rfl, rfl⟩
    have upTo : x.val ≤ last.val := within
    exact ⟨by rw [List.length_take]; omega, by simp [get, toList]⟩

/-! ### Arithmetic -/

/-- Combines a register with another. A sum is stored before its carry; a difference is
formed after the flag was written. -/
def combine (registers : Registers) (combination : Combination) (x y : Register) : Registers :=
  match combination with
  | .copy => registers.set x (registers.get y)
  | .or => registers.set x (registers.get x ||| registers.get y)
  | .and => registers.set x (registers.get x &&& registers.get y)
  | .xor => registers.set x (registers.get x ^^^ registers.get y)
  | .add =>
    let carry := decide (255 < (registers.get x).toNat + (registers.get y).toNat)
    (registers.set x (registers.get x + registers.get y)).set flagRegister (flag carry)
  | .subtract =>
    let flagged := registers.set flagRegister (flag (registers.get y < registers.get x))
    flagged.set x (flagged.get x - flagged.get y)
  | .subtractFrom =>
    let flagged := registers.set flagRegister (flag (registers.get x < registers.get y))
    flagged.set x (flagged.get y - flagged.get x)

/-- Halves a register. The bit that falls out goes to the flag first. -/
def shiftRight (registers : Registers) (x : Register) : Registers :=
  let flagged := registers.set flagRegister (registers.get x % 2)
  flagged.set x (flagged.get x / 2)

/-- Doubles a register. The bit that falls out goes to the flag first. -/
def shiftLeft (registers : Registers) (x : Register) : Registers :=
  let flagged := registers.set flagRegister (registers.get x / 128)
  flagged.set x (flagged.get x * 2)

/-! ### Registers that are not involved -/

section Other

variable (registers : Registers) {x y other : Register} (value : UInt8)

/-- Two registers may be set in any order. -/
theorem set_set_other (byte : UInt8) (apart : other ≠ x) :
    (registers.set other value).set x byte = (registers.set x byte).set other value := by
  have unequal : other.val ≠ x.val := fun same => apart (Fin.ext same)
  simp only [set]
  rw [Vector.set_comm _ _ unequal]

/-- Arithmetic neither reads nor writes a register besides its operands and the flag. -/
theorem combine_set_other (combination : Combination) (apart : other ≠ x) (apart' : other ≠ y)
    (plain : other ≠ flagRegister) :
    (registers.set other value).combine combination x y =
      (registers.combine combination x y).set other value := by
  have first (row : Registers) := row.get_set_other other x value apart.symm
  have second (row : Registers) := row.get_set_other other y value apart'.symm
  have operand (row : Registers) (byte : UInt8) := row.set_set_other value byte apart
  have carry (row : Registers) (byte : UInt8) := row.set_set_other value byte plain
  cases combination <;> simp only [combine, first, second, operand, carry]

theorem shiftRight_set_other (apart : other ≠ x) (plain : other ≠ flagRegister) :
    (registers.set other value).shiftRight x = (registers.shiftRight x).set other value := by
  have first (row : Registers) := row.get_set_other other x value apart.symm
  simp only [shiftRight, first, registers.set_set_other value _ plain,
    set_set_other _ value _ apart]

theorem shiftLeft_set_other (apart : other ≠ x) (plain : other ≠ flagRegister) :
    (registers.set other value).shiftLeft x = (registers.shiftLeft x).set other value := by
  have first (row : Registers) := row.get_set_other other x value apart.symm
  simp only [shiftLeft, first, registers.set_set_other value _ plain,
    set_set_other _ value _ apart]

/-- A fill does not reach the registers that it has no values for. -/
theorem fill_set_other (values : List UInt8) (beyond : values.length ≤ other.val) :
    (registers.set other value).fill values = (registers.fill values).set other value := by
  refine ext_get fun x => ?_
  rw [get_fill]
  by_cases here : x = other
  · subst here
    rw [get_set_self, get_set_self, List.getElem?_eq_none beyond]
    rfl
  · rw [get_set_other _ _ _ _ here, get_set_other _ _ _ _ here, get_fill]

theorem take_toList_set (count : Nat) (beyond : count ≤ other.val) :
    (registers.set other value).toList.take count = registers.toList.take count := by
  simp only [toList, set, Vector.toList_set]
  exact List.take_set_of_le beyond

end Other

/-! ### Decimal digits -/

/-- The hundreds, tens and ones of a byte. -/
def decimalDigits (value : UInt8) : List UInt8 := [value / 100, value / 10 % 10, value % 10]

end Registers

end Chip8
