/-
The arithmetic of the words `8XYN`, with the flag among the operands. The order in which the flag
and the result are written matters only there, so each operation is told by cases: what it comes
to for two plain registers, and what becomes of it if the first, the second or both are the flag.
All is told in numbers below 256 of the registers as they were before. A difference is formed
after the flag was written, and in both directions in one way, so that is told once, with the
direction left open.
-/

import Chip8.Proofs.Decoding
import Chip8.Proofs.Tick

namespace Chip8

theorem toNat_flag (truth : Prop) [Decidable truth] :
    (flag truth).toNat = if truth then 1 else 0 := by
  unfold flag
  by_cases holds : truth <;> simp [holds]

theorem toNat_flag_lt (first second : UInt8) :
    (flag (first < second)).toNat = if first.toNat < second.toNat then 1 else 0 := by
  simp only [toNat_flag, UInt8.lt_iff_toNat_lt]

namespace Registers

/-- The number in a register. -/
def value (registers : Registers) (x : Register) : Nat := (registers.get x).toNat

/-! ### What is to come of the operations -/

/-- What comes of a difference of two registers with a flag, which the difference is formed
after. -/
structure Differs (before after : Registers) (x y : Register) (difference : Nat → Nat → Nat)
    (flagged : Nat) : Prop where
  plain : x ≠ flagRegister → y ≠ flagRegister →
    after.value x = difference (before.value x) (before.value y) ∧
      after.value flagRegister = flagged
  second : x ≠ flagRegister → y = flagRegister →
    after.value x = difference (before.value x) flagged ∧ after.value flagRegister = flagged
  first : x = flagRegister → y ≠ flagRegister →
    after.value flagRegister = difference flagged (before.value y)
  both : x = flagRegister → y = flagRegister → after.value flagRegister = 0

/-- What comes of the operation that a last digit names. -/
def Computes (before after : Registers) (x y : Register) : (digit : Nat) → Prop
  | 0x0 => after.value x = before.value y ∧
      (x ≠ flagRegister → after.value flagRegister = before.value flagRegister)
  | 0x1 => after.value x = before.value x ||| before.value y ∧
      (x ≠ flagRegister → after.value flagRegister = before.value flagRegister)
  | 0x2 => after.value x = before.value x &&& before.value y ∧
      (x ≠ flagRegister → after.value flagRegister = before.value flagRegister)
  | 0x3 => after.value x = before.value x ^^^ before.value y ∧
      (x ≠ flagRegister → after.value flagRegister = before.value flagRegister)
  | 0x4 =>
      after.value flagRegister = (if 255 < before.value x + before.value y then 1 else 0) ∧
      (x ≠ flagRegister → after.value x = (before.value x + before.value y) % 256)
  | 0x5 => before.Differs after x y (fun first second => (256 + first - second) % 256)
      (if before.value y < before.value x then 1 else 0)
  | 0x6 =>
      (x ≠ flagRegister → after.value x = before.value x / 2 ∧
        after.value flagRegister = before.value x % 2) ∧
      (x = flagRegister → after.value flagRegister = 0)
  | 0x7 => before.Differs after x y (fun first second => (256 + second - first) % 256)
      (if before.value x < before.value y then 1 else 0)
  | 0xE =>
      (x ≠ flagRegister → after.value x = 2 * before.value x % 256 ∧
        after.value flagRegister = before.value x / 128) ∧
      (x = flagRegister → after.value flagRegister = 2 * (before.value flagRegister / 128))
  | _ => after = before

/-! ### Operations -/

section Operations

variable (registers : Registers) (x y : Register)

theorem value_set_self (byte : UInt8) : (registers.set x byte).value x = byte.toNat :=
  congrArg UInt8.toNat (registers.get_set_self x byte)

theorem value_set_other {other : Register} (byte : UInt8) (apart : other ≠ x) :
    (registers.set x byte).value other = registers.value other :=
  congrArg UInt8.toNat (registers.get_set_other x other byte apart)

/-- A difference, in either direction, of registers that the flag was written to. -/
theorem differs_of_subtracts (byte : UInt8) (subtract : UInt8 → UInt8 → UInt8)
    (difference : Nat → Nat → Nat)
    (exactly : ∀ first second,
      (subtract first second).toNat = difference first.toNat second.toNat)
    (self : ∀ same, subtract same same = 0) :
    let flagged := registers.set flagRegister byte
    registers.Differs (flagged.set x (subtract (flagged.get x) (flagged.get y))) x y difference
      byte.toNat := by
  intro flagged
  have flag : flagged.get flagRegister = byte := registers.get_set_self _ _
  have kept (other : Register) (plain : other ≠ flagRegister) :
      flagged.get other = registers.get other := registers.get_set_other _ _ _ plain
  refine ⟨fun plain plain' => ?_, fun plain same => ?_, fun same plain => ?_, fun same same' => ?_⟩
  · rw [value_set_self, value_set_other _ _ _ plain.symm, kept x plain, kept y plain', exactly]
    exact ⟨rfl, congrArg UInt8.toNat flag⟩
  · subst same
    rw [value_set_self, value_set_other _ _ _ plain.symm, kept x plain, flag, exactly]
    exact ⟨rfl, congrArg UInt8.toNat flag⟩
  · subst same
    rw [value_set_self, kept y plain, flag, exactly]
    rfl
  · subst same same'
    rw [value_set_self, self]
    rfl

theorem computes_combine (combination : Combination) :
    registers.Computes (registers.combine combination x y) x y combination.digit := by
  have untouched (byte : UInt8) (plain : x ≠ flagRegister) :
      (registers.set x byte).value flagRegister = registers.value flagRegister :=
    registers.value_set_other x byte plain.symm
  cases combination with
  | copy => exact ⟨registers.value_set_self x _, untouched _⟩
  | or => exact ⟨(registers.value_set_self x _).trans (UInt8.toNat_or _ _), untouched _⟩
  | and => exact ⟨(registers.value_set_self x _).trans (UInt8.toNat_and _ _), untouched _⟩
  | xor => exact ⟨(registers.value_set_self x _).trans (UInt8.toNat_xor _ _), untouched _⟩
  | add =>
    refine ⟨?_, fun plain => ?_⟩
    · rw [combine, value_set_self, toNat_flag]
      rfl
    · rw [combine, value_set_other _ _ _ plain, value_set_self]
      exact UInt8.toNat_add _ _
  | subtract =>
    have differs := registers.differs_of_subtracts x y
      (flag (registers.get y < registers.get x)) (fun first second => first - second)
      (fun first second => (256 + first - second) % 256)
      (fun first second => by
        have small := second.toNat_lt
        rw [UInt8.toNat_sub]
        omega)
      fun same => UInt8.sub_self same
    rw [toNat_flag_lt] at differs
    exact differs
  | subtractFrom =>
    have differs := registers.differs_of_subtracts x y
      (flag (registers.get x < registers.get y)) (fun first second => second - first)
      (fun first second => (256 + second - first) % 256)
      (fun first second => by
        have small := first.toNat_lt
        rw [UInt8.toNat_sub]
        omega)
      fun same => UInt8.sub_self same
    rw [toNat_flag_lt] at differs
    exact differs

theorem computes_shiftRight : registers.Computes (registers.shiftRight x) x y 0x6 := by
  have flag : (registers.set flagRegister (registers.get x % 2)).get flagRegister =
    registers.get x % 2 := registers.get_set_self _ _
  refine ⟨fun plain => ?_, fun same => ?_⟩
  · rw [shiftRight, value_set_self, value_set_other _ _ _ plain.symm,
      registers.get_set_other _ _ _ plain, registers.value_set_self flagRegister]
    exact ⟨UInt8.toNat_div _ _, UInt8.toNat_mod _ _⟩
  · subst same
    rw [shiftRight, value_set_self, flag, UInt8.toNat_div, UInt8.toNat_mod]
    exact Nat.div_eq_of_lt (Nat.mod_lt _ (by decide))

theorem computes_shiftLeft : registers.Computes (registers.shiftLeft x) x y 0xE := by
  have flag : (registers.set flagRegister (registers.get x / 128)).get flagRegister =
    registers.get x / 128 := registers.get_set_self _ _
  refine ⟨fun plain => ?_, fun same => ?_⟩
  · rw [shiftLeft, value_set_self, value_set_other _ _ _ plain.symm,
      registers.get_set_other _ _ _ plain, registers.value_set_self flagRegister,
      UInt8.toNat_mul, Nat.mul_comm]
    exact ⟨rfl, UInt8.toNat_div _ _⟩
  · subst same
    have small := (registers.get flagRegister).toNat_lt
    have bit : (registers.get flagRegister / 128).toNat = registers.value flagRegister / 128 :=
      UInt8.toNat_div _ _
    rw [shiftLeft, value_set_self, flag, UInt8.toNat_mul, bit, Nat.mul_comm]
    refine Nat.mod_eq_of_lt ?_
    show 2 * ((registers.get flagRegister).toNat / 128) < 256
    omega

/-- The digits that name no operation leave the registers alone. -/
theorem computes_of_leftover {digit : Nat} (above : 0x7 < digit) (beside : digit ≠ 0xE) :
    registers.Computes registers x y digit := by
  unfold Computes
  split
  case h_10 => rfl
  all_goals omega

/-- Arithmetic is done in its first register and the flag. -/
theorem get_combine_other (combination : Combination) {other : Register} (apart : other ≠ x)
    (plain : other ≠ flagRegister) :
    (registers.combine combination x y).get other = registers.get other := by
  cases combination <;>
    simp only [combine, get_set_other _ _ _ _ apart, get_set_other _ _ _ _ plain]

/-- Four of the operations leave the flag alone as well, unless it is their first register. -/
theorem get_combine_unflagged (combination : Combination) {other : Register} (apart : other ≠ x)
    (unflagged : combination.digit < 0x4) :
    (registers.combine combination x y).get other = registers.get other := by
  cases combination with
  | add | subtract | subtractFrom => exact absurd unflagged (by decide)
  | _ => exact get_set_other _ _ _ _ apart

theorem get_shiftRight_other {other : Register} (apart : other ≠ x)
    (plain : other ≠ flagRegister) : (registers.shiftRight x).get other = registers.get other := by
  rw [shiftRight, get_set_other _ _ _ _ apart, get_set_other _ _ _ _ plain]

theorem get_shiftLeft_other {other : Register} (apart : other ≠ x)
    (plain : other ≠ flagRegister) : (registers.shiftLeft x).get other = registers.get other := by
  rw [shiftLeft, get_set_other _ _ _ _ apart, get_set_other _ _ _ _ plain]

end Operations

end Registers

namespace Machine

/-! ### Words -/

/-- What is to come of a word `8XYN`. -/
structure Calculates (machine : Machine) (x y : Register) (digit : Nat) (outcome : Outcome) :
    Prop where
  succeeds : outcome.fault = none
  moved : outcome.machine.pc.val = machine.pc.val + 2
  computes : machine.registers.Computes outcome.machine.registers x y digit
  others : ∀ other, other ≠ x → other ≠ flagRegister →
    outcome.machine.registers.get other = machine.registers.get other

/-- A family of words does its arithmetic in the registers and nowhere else. -/
theorem perform_arithmetic (origin : Address) (machine : Machine) (x y : Register) (n : Fin 16) :
    ∃ registers log, perform origin (.ofWord ⟨0x8, x, y, n⟩) machine =
        ⟨none, { machine with registers := registers }, log⟩ ∧
      machine.registers.Computes registers x y n.val ∧
      ∀ other, other ≠ x → other ≠ flagRegister →
        registers.get other = machine.registers.get other := by
  have fits := Instruction.fits_ofWord ⟨0x8, x, y, n⟩
  generalize Instruction.ofWord ⟨0x8, x, y, n⟩ = instruction at fits
  cases instruction with
  | combine combination _ _ =>
    obtain ⟨-, digit, rfl, rfl⟩ := fits
    have digit : n.val = combination.digit := digit
    rw [digit]
    exact ⟨_, _, rfl, machine.registers.computes_combine x y combination,
      fun _ => machine.registers.get_combine_other x y combination⟩
  | shiftRight _ =>
    obtain ⟨-, digit, rfl⟩ := fits
    have digit : n.val = 0x6 := digit
    rw [digit]
    exact ⟨_, _, rfl, machine.registers.computes_shiftRight x y,
      fun _ => machine.registers.get_shiftRight_other x⟩
  | shiftLeft _ =>
    obtain ⟨-, digit, rfl⟩ := fits
    have digit : n.val = 0xE := digit
    rw [digit]
    exact ⟨_, _, rfl, machine.registers.computes_shiftLeft x y,
      fun _ => machine.registers.get_shiftLeft_other x⟩
  | unknown _ =>
    obtain ⟨⟨family | family, -⟩ | ⟨-, above, beside⟩ | ⟨family, -⟩ | ⟨family, -⟩, -⟩ := fits
    case inr.inl =>
      exact ⟨_, _, rfl, machine.registers.computes_of_leftover x y above beside, fun _ _ _ => rfl⟩
    all_goals cases family
  | skipIf condition => cases condition <;> cases fits.1
  | call target => rcases fits.1 with family | ⟨family, -⟩ <;> cases family
  | _ => cases fits.1

/-- The second register of a shift has no say in it. -/
theorem execute_of_shift (machine : Machine) (x y other : Register) {n : Fin 16}
    (shift : n = 0x6 ∨ n = 0xE) :
    machine.execute ⟨0x8, x, other, n⟩ = machine.execute ⟨0x8, x, y, n⟩ := by
  have mnemonics : Word.mnemonic ⟨0x8, x, other, n⟩ = Word.mnemonic ⟨0x8, x, y, n⟩ := by
    rcases shift with rfl | rfl <;> rfl
  have instructions : Instruction.ofWord ⟨0x8, x, other, n⟩ =
      Instruction.ofWord ⟨0x8, x, y, n⟩ := by
    rcases shift with rfl | rfl <;> rfl
  rw [execute, execute, mnemonics, instructions]

/-- The words `8XYN` in closed form, for every machine that can move past them and all registers,
the flag among them: they go through, to the word behind, with the result and the flag that their
last digit asks for and no other register touched. A shift does not look at its second register. -/
theorem arithmetic_settled (machine : Machine) (x y : Register) (n : Fin 16)
    (inside : machine.pc.val ≤ 0xFFD) :
    machine.Calculates x y n.val (machine.execute ⟨0x8, x, y, n⟩) ∧
      (n = 0x6 ∨ n = 0xE → ∀ other,
        machine.execute ⟨0x8, x, other, n⟩ = machine.execute ⟨0x8, x, y, n⟩) := by
  refine ⟨?_, fun shift other => machine.execute_of_shift x y other shift⟩
  refine machine.execute_cases _ (motive := machine.Calculates x y n.val)
    (fun corner => by omega) fun next moved => ?_
  obtain ⟨registers, log, performed, computes, others⟩ :=
    perform_arithmetic machine.pc (machine.past ⟨0x8, x, y, n⟩ next) x y n
  rw [performed]
  exact ⟨rfl, moved, computes, others⟩

/-- A difference whose first register is the flag is formed with the flag that was just written,
and a shift of the flag loses it, whatever its second register is said to be. -/
theorem arithmetic_settled_flag_first :
    let machine := ((create 7).setRegister flagRegister 200).setRegister 3 9
    machine.pc.val ≤ 0xFFD ∧
      machine.Calculates 15 3 0x5 (machine.execute ⟨0x8, 15, 3, 0x5⟩) ∧
      (machine.execute ⟨0x8, 15, 3, 0x5⟩).machine.registers.value flagRegister = 248 ∧
      (machine.execute ⟨0x8, 15, 4, 0x6⟩).machine.registers.value flagRegister = 0 := by
  intro machine
  obtain ⟨first, second⟩ : machine.registers.value 15 = 200 ∧ machine.registers.value 3 = 9 := by
    decide +kernel
  have difference := (arithmetic_settled machine 15 3 0x5 (by decide)).1
  obtain ⟨half, same⟩ := arithmetic_settled machine 15 3 0x6 (by decide)
  refine ⟨by decide, difference, ?_, ?_⟩
  · have formed := difference.computes.first rfl (by decide)
    rw [first, second] at formed
    exact formed
  · rw [same (Or.inl rfl) 4]
    exact half.computes.2 rfl

end Machine

end Chip8
