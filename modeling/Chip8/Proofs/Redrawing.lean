/-
Drawing a sprite twice in one place. A drawing changes nothing that a drawing looks at, apart from
the cells: the index and the memory stay as they are, and so do the registers that name the place,
since the flag is cleared before it is looked at. So the second drawing strikes the cells that the
first one struck, also if some rows are not in memory, and what was toggled is toggled back. The
first flag tells whether a struck cell was lit, and the second whether one was dark, as the first
drawing had switched it on by then.
-/

import Chip8.Machine.Input
import Chip8.Proofs.Refusals
import Chip8.Proofs.Sprites

namespace Chip8

/-! ### Toggling twice -/

namespace Display.Toggles

variable {before after final : Display} {struck : Nat → Nat → Prop}

/-- What is toggled twice is as it was. -/
theorem cell_of_again (first : before.Toggles after struck) (second : after.Toggles final struck)
    (x y : Nat) : final.cell x y = before.cell x y := by
  by_cases strikes : struck x y
  · rw [second.toggled x y strikes, first.toggled x y strikes, Bool.not_not]
  · rw [second.spared x y strikes, first.spared x y strikes]

/-- The struck cells are those that changed. -/
theorem struck_iff (toggles : before.Toggles after struck) (x y : Nat) :
    struck x y ↔ after.cell x y = !before.cell x y := by
  refine ⟨toggles.toggled x y, fun changed => Classical.byContradiction fun spared => ?_⟩
  rw [toggles.spared x y spared] at changed
  cases lit : before.cell x y <;> rw [lit] at changed <;> cases changed

/-- A struck cell that was lit is one that was switched off. -/
theorem lit_iff (toggles : before.Toggles after struck) (x y : Nat) :
    struck x y ∧ before.cell x y = true ↔
      before.cell x y = true ∧ after.cell x y = false := by
  rw [toggles.struck_iff, and_comm]
  refine and_congr_right fun lit => ?_
  rw [lit]
  rfl

/-- A struck cell that is lit afterwards is one that was switched on. -/
theorem lit_after_iff (toggles : before.Toggles after struck) (x y : Nat) :
    struck x y ∧ after.cell x y = true ↔
      before.cell x y = false ∧ after.cell x y = true := by
  rw [toggles.struck_iff]
  refine and_congr_left fun lit => ?_
  rw [lit, eq_comm, Bool.not_eq_true']

end Display.Toggles

/-- A byte that is not zero has a bit set. -/
theorem exists_bit_of_ne_zero {byte : UInt8} (some : byte ≠ 0) :
    ∃ bit < 8, byte.toNat.testBit (7 - bit) = true := by
  have bound := byte.toNat_lt
  have positive : byte.toNat ≠ 0 := fun zero => some (UInt8.toNat_inj.mp zero)
  obtain ⟨place, set⟩ := Nat.exists_testBit_of_ne_zero positive
  have low : place < 8 := by
    refine Nat.lt_of_not_le fun high => ?_
    rw [Nat.testBit_lt_two_pow (Nat.lt_of_lt_of_le bound (Nat.pow_le_pow_right Nat.two_pos high))]
      at set
    cases set
  refine ⟨7 - place, by omega, ?_⟩
  have back : 7 - (7 - place) = place := by omega
  rwa [back]

namespace Machine

/-! ### What a drawing looks at -/

/-- Drawings that find the same bytes and the same place strike the same cells. -/
theorem strikes_congr {machine other : Machine} (index : other.index = machine.index)
    (memory : other.memory = machine.memory) (registers : other.flagCleared = machine.flagCleared)
    (x y : Register) (height : Fin 16) :
    other.Strikes x y height = machine.Strikes x y height := by
  rw [← strikes_slice, ← strikes_slice, index, memory, registers]

theorem fault_draw_congr {machine other : Machine} (index : other.index = machine.index)
    (x y : Register) (height : Fin 16) :
    (other.draw x y height).fault = (machine.draw x y height).fault := by
  refine Option.ext fun fault => ?_
  show _ = some fault ↔ _ = some fault
  rw [fault_draw_iff, fault_draw_iff, index]

/-- The flag tells whether a struck cell was lit. -/
theorem Draws.flag_iff {machine after : Machine} {x y : Register} {height : Fin 16}
    (draws : machine.Draws x y height after) :
    after.registers.get flagRegister = 1 ↔
      ∃ column row, machine.Strikes x y height column row ∧
        machine.display.cell column row = true := by
  refine ⟨fun set => Classical.byContradiction fun clear => ?_, draws.hit⟩
  cases set.symm.trans (draws.missed clear)

/-! ### A step that draws -/

/-- A step that draws leaves the machine with the drawing, the flag that goes with it, and the
step in the books. -/
theorem execute_draw (machine : Machine) (x y : Register) (height : Fin 16)
    (inside : machine.pc.val ≤ 0xFFD) :
    ∃ next cycles, next.val = machine.pc.val + 2 ∧
      (machine.execute ⟨0xD, x, y, height⟩).fault = (machine.draw x y height).fault ∧
      (machine.execute ⟨0xD, x, y, height⟩).machine =
        { machine.past ⟨0xD, x, y, height⟩ next with
          registers := machine.flagCleared.set flagRegister (flag (machine.plotted x y height).2)
          display := (machine.plotted x y height).1
          cycles := cycles } := by
  obtain ⟨next, cycles, moved, fault, after⟩ :=
    machine.execute_of_le ⟨0xD, x, y, height⟩ inside
  rw [Instruction.ofWord_of_fits (.draw x y height) ⟨rfl, rfl, rfl, rfl⟩, perform] at fault after
  have index : (machine.past ⟨0xD, x, y, height⟩ next).index = machine.index := rfl
  refine ⟨next, cycles, moved, fault.trans (fault_draw_congr index x y height), ?_⟩
  rw [after, machine_draw]
  rfl

/-- What is told of a drawing holds of a step that draws. -/
theorem draws_execute (machine : Machine) (x y : Register) (height : Fin 16)
    (inside : machine.pc.val ≤ 0xFFD) :
    machine.Draws x y height (machine.execute ⟨0xD, x, y, height⟩).machine := by
  have draws := machine.draws_draw x y height
  obtain ⟨next, cycles, -, -, after⟩ := machine.execute_draw x y height inside
  rw [machine_draw] at draws
  rw [after]
  exact ⟨draws.cells, draws.updated, draws.hit, draws.missed, draws.others⟩

/-! ### Two steps that draw -/

/-- A row of the sprite at the index that is in memory has a bit set. -/
def HasBits (machine : Machine) (height : Fin 16) : Prop :=
  ∃ (line : Nat) (inside : machine.index.val + line < 4096), line < height.val ∧
    machine.memory.get ⟨machine.index.val + line, inside⟩ ≠ 0

/-- What comes of drawing a sprite twice. -/
structure Erases (machine : Machine) (height : Fin 16) (first second : Outcome) : Prop where
  /-- Every cell is as it was before the first drawing. -/
  cells : ∀ column row,
    second.machine.display.cell column row = machine.display.cell column row
  fault : second.fault = first.fault
  /-- The first flag is set exactly if a cell was switched off, -/
  flag : first.machine.registers.get flagRegister = 1 ↔ ∃ column row,
    machine.display.cell column row = true ∧ first.machine.display.cell column row = false
  /-- and the second exactly if one had been switched on. -/
  flagAgain : second.machine.registers.get flagRegister = 1 ↔ ∃ column row,
    machine.display.cell column row = false ∧ first.machine.display.cell column row = true
  seen : machine.HasBits height → first.machine.registers.get flagRegister = 1 ∨
    second.machine.registers.get flagRegister = 1

/-- A sprite that has a bit in memory strikes a cell. -/
theorem exists_strikes {machine : Machine} {height : Fin 16} (bits : machine.HasBits height)
    (x y : Register) : ∃ column row, machine.Strikes x y height column row := by
  obtain ⟨line, inside, within, some⟩ := bits
  obtain ⟨bit, small, set⟩ := exists_bit_of_ne_zero some
  exact ⟨_, _, line, bit, inside, within, small, set, rfl, rfl⟩

/-- A word `DXYN` that is executed twice, on any machine that can move past it twice and for all
registers, the flag among them, takes back what it did to the screen. The flags tell what the
first of the two did, and so one of them is set if there was anything to draw. -/
theorem redrawing_erases (machine : Machine) (x y : Register) (height : Fin 16)
    (inside : machine.pc.val ≤ 0xFFB) :
    machine.Erases height (machine.execute ⟨0xD, x, y, height⟩)
      ((machine.execute ⟨0xD, x, y, height⟩).machine.execute ⟨0xD, x, y, height⟩) := by
  generalize drawn : machine.execute ⟨0xD, x, y, height⟩ = first
  obtain ⟨next, cycles, moved, fault, after⟩ := machine.execute_draw x y height (by omega)
  rw [drawn] at fault after
  have behind : first.machine.pc.val ≤ 0xFFD := by
    rw [after]
    show next.val ≤ 0xFFD
    omega
  have once : machine.Draws x y height first.machine :=
    drawn ▸ machine.draws_execute x y height (by omega)
  have again := first.machine.draws_execute x y height behind
  obtain ⟨-, -, -, faultAgain, -⟩ := first.machine.execute_draw x y height behind
  -- The place is read from the registers with the flag cleared, as it was the first time.
  have place : first.machine.flagCleared = machine.flagCleared := by
    rw [after]
    show ((machine.registers.set flagRegister 0).set flagRegister _).set flagRegister 0 = _
    rw [Registers.set_set_self, Registers.set_set_self]
    rfl
  have index : first.machine.index = machine.index := by rw [after]; rfl
  have memory : first.machine.memory = machine.memory := by rw [after]; rfl
  have struck := strikes_congr index memory place x y height
  have toggled := again.cells
  have flagAgain := again.flag_iff
  rw [struck] at toggled flagAgain
  have flag := once.flag_iff.trans (exists₂_congr once.cells.lit_iff)
  replace flagAgain := flagAgain.trans (exists₂_congr once.cells.lit_after_iff)
  refine ⟨once.cells.cell_of_again toggled, ?_, flag, flagAgain, fun bits => ?_⟩
  · rw [faultAgain, fault, fault_draw_congr index]
  · obtain ⟨column, row, strikes⟩ := exists_strikes bits x y
    cases before : machine.display.cell column row with
    | true =>
      exact Or.inl (flag.mpr ⟨column, row, (once.cells.lit_iff ..).mp ⟨strikes, before⟩⟩)
    | false =>
      have switched := once.cells.toggled column row strikes
      rw [before] at switched
      exact Or.inr (flagAgain.mpr ⟨column, row, before, switched⟩)

/-- Two rows of four are in memory, and the flag names the row that they begin in. The first drawing
sets the flag, as it switches a cell off, and the second draws in the same row all the same. -/
theorem redrawing_erases_flag_row :
    let machine := { create 7 with
      index := ⟨0xFFE, by decide⟩
      memory := Memory.blank.write 0xFFE [0x81, 0x3F]
      registers := Registers.zero.set 1 63
      display := (Display.dark.plot 63 0 0x80).1 }
    let first := machine.execute ⟨0xD, 1, 15, 4⟩
    let second := first.machine.execute ⟨0xD, 1, 15, 4⟩
    machine.pc.val ≤ 0xFFB ∧ machine.HasBits 4 ∧ machine.Erases 4 first second ∧
      second.fault = some .addressOutOfRange ∧ second.machine.display.cell 63 0 = true ∧
      first.machine.registers.get flagRegister = 1 ∧
      second.machine.registers.get flagRegister = 1 := by
  intro machine first second
  obtain ⟨index, bits, lit, off, dark, on, fault⟩ :
      machine.index.val = 0xFFE ∧ machine.memory.get .last ≠ 0 ∧
        machine.display.cell 63 0 = true ∧ first.machine.display.cell 63 0 = false ∧
        machine.display.cell 6 1 = false ∧ first.machine.display.cell 6 1 = true ∧
        first.fault = some .addressOutOfRange := by
    decide +kernel
  have inside : machine.pc.val ≤ 0xFFB := by decide +kernel
  have hasBits : machine.HasBits 4 := by
    refine ⟨1, by omega, by decide, ?_⟩
    have last : (⟨machine.index.val + 1, by omega⟩ : Address) = .last := by
      refine Address.ext_val ?_
      show machine.index.val + 1 = 0xFFF
      omega
    rwa [last]
  have erases : machine.Erases 4 first second := redrawing_erases machine 1 15 4 inside
  refine ⟨inside, hasBits, erases, erases.fault.trans fault, (erases.cells 63 0).trans lit, ?_, ?_⟩
  · exact erases.flag.mpr ⟨63, 0, lit, off⟩
  · exact erases.flagAgain.mpr ⟨6, 1, dark, on⟩

end Machine

end Chip8
